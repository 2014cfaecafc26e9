import FpgaNpc.Utils.Bus

open FpgaNpc.Hardware FpgaNpc.InterStage

namespace FpgaNpc

namespace ControlSignals

abbrev Y : Bool := true
abbrev N : Bool := false

namespace InstType
abbrev R : BitVec 3 := 0b000
abbrev I : BitVec 3 := 0b001
abbrev S : BitVec 3 := 0b010
abbrev B : BitVec 3 := 0b011
abbrev U : BitVec 3 := 0b100
abbrev J : BitVec 3 := 0b101
abbrev N : BitVec 3 := 0b110
end InstType

namespace FuType
abbrev ALU : BitVec 4 := 0b0000
abbrev LSU : BitVec 4 := 0b0001
abbrev BRU : BitVec 4 := 0b0010
abbrev CSR : BitVec 4 := 0b0011
abbrev MUL : BitVec 4 := 0b0100
abbrev DIV : BitVec 4 := 0b0101
abbrev AMO : BitVec 4 := 0b0110
end FuType

namespace OpASrc
abbrev RS1 : BitVec 2 := 0b00
abbrev ZERO : BitVec 2 := 0b01
abbrev PC : BitVec 2 := 0b10
abbrev RS1ADDR : BitVec 2 := 0b11
end OpASrc

namespace OpBSrc
abbrev RS2 : BitVec 2 := 0b00
abbrev IMM : BitVec 2 := 0b01
abbrev ZERO : BitVec 2 := 0b10
abbrev CSR : BitVec 2 := 0b11
end OpBSrc

namespace ALUOp
abbrev ADD : BitVec 4 := 0b0000
abbrev SUB : BitVec 4 := 0b0001
abbrev AND : BitVec 4 := 0b0010
abbrev OR : BitVec 4 := 0b0011
abbrev XOR : BitVec 4 := 0b0100
abbrev LTS : BitVec 4 := 0b0101
abbrev SLL : BitVec 4 := 0b0110
abbrev LTU : BitVec 4 := 0b0111
abbrev SRL : BitVec 4 := 0b1000
abbrev SRA : BitVec 4 := 0b1001
end ALUOp

namespace MULOp
abbrev MUL : BitVec 2 := 0b00
abbrev MULHU : BitVec 2 := 0b01
abbrev MULH : BitVec 2 := 0b10
abbrev MULHSU : BitVec 2 := 0b11
end MULOp

namespace DIVOp
abbrev DIVU : BitVec 2 := 0b00
abbrev DIV : BitVec 2 := 0b01
abbrev REMU : BitVec 2 := 0b10
abbrev REM : BitVec 2 := 0b11
end DIVOp

namespace AMOOp
abbrev LR : BitVec 4 := 0b0000
abbrev SC : BitVec 4 := 0b0001
abbrev SWAP : BitVec 4 := 0b0010
abbrev ADD : BitVec 4 := 0b0011
abbrev XOR : BitVec 4 := 0b0100
abbrev AND : BitVec 4 := 0b0101
abbrev OR : BitVec 4 := 0b0110
abbrev MIN : BitVec 4 := 0b0111
abbrev MAX : BitVec 4 := 0b1000
abbrev MINU : BitVec 4 := 0b1001
abbrev MAXU : BitVec 4 := 0b1010
end AMOOp

namespace BRUOp
abbrev LTU : BitVec 3 := 0b000
abbrev GEU : BitVec 3 := 0b001
abbrev LTS : BitVec 3 := 0b010
abbrev GES : BitVec 3 := 0b011
abbrev EQ : BitVec 3 := 0b100
abbrev NEQ : BitVec 3 := 0b101
abbrev N : BitVec 3 := 0b110
end BRUOp

namespace CSROp
abbrev RW : BitVec 2 := 0b00
abbrev RC : BitVec 2 := 0b01
abbrev RS : BitVec 2 := 0b10
abbrev N : BitVec 2 := 0b11
end CSROp

namespace MemWrite
abbrev N : BitVec 4 := 0b0000
abbrev B : BitVec 4 := 0b0001
abbrev H : BitVec 4 := 0b0011
abbrev W : BitVec 4 := 0b1111
end MemWrite

namespace MemRead
abbrev N : BitVec 4 := 0b0000
abbrev B : BitVec 4 := 0b0001
abbrev H : BitVec 4 := 0b0011
abbrev W : BitVec 4 := 0b1111
end MemRead

namespace MemSignExt
abbrev UnsignedExt : Bool := false
abbrev SignedExt : Bool := true
end MemSignExt
end ControlSignals

/-- A bit pattern: `x` matches when it agrees with `value` on `mask`. -/
structure BitPat (n : Nat) where
  mask : BitVec n
  value : BitVec n

namespace BitPat

def any {n : Nat} : BitPat n := ⟨0, 0⟩

def exact {n : Nat} (v : BitVec n) : BitPat n := ⟨BitVec.allOnes n, v⟩

instance {n i : Nat} : OfNat (BitPat n) i := ⟨exact (OfNat.ofNat i)⟩

def append {m n : Nat} (p : BitPat m) (q : BitPat n) : BitPat (m + n) :=
  ⟨p.mask ++ q.mask, p.value ++ q.value⟩

def Matches {n : Nat} (p : BitPat n) (x : BitVec n) : Prop := x &&& p.mask = p.value

def Disjoint {n : Nat} (p q : BitPat n) : Prop := p.value &&& q.mask ≠ q.value &&& p.mask

instance {n : Nat} (p : BitPat n) (x : BitVec n) : Decidable (p.Matches x) :=
  inferInstanceAs (Decidable (_ = _))

instance {n : Nat} (p q : BitPat n) : Decidable (p.Disjoint q) :=
  inferInstanceAs (Decidable (_ ≠ _))

theorem Disjoint.not_matches {n : Nat} {p q : BitPat n} (h : p.Disjoint q) {x : BitVec n}
    (hp : p.Matches x) : ¬q.Matches x := by
  intro hq
  apply h
  rw [← hp, ← hq, BitVec.and_assoc, BitVec.and_assoc, BitVec.and_comm p.mask]

end BitPat

namespace Instructions

open BitPat

def inst (funct7 : BitPat 7) (rs2 rs1 : BitPat 5) (funct3 : BitPat 3) (rd : BitPat 5)
    (opcode : BitVec 7) : BitPat 32 :=
  funct7.append (rs2.append (rs1.append (funct3.append (rd.append (.exact opcode)))))

def LUI := inst any any any any any 0b0110111
def AUIPC := inst any any any any any 0b0010111
def JAL := inst any any any any any 0b1101111
def JALR := inst any any any 0b000 any 0b1100111
def BEQ := inst any any any 0b000 any 0b1100011
def BNE := inst any any any 0b001 any 0b1100011
def BLT := inst any any any 0b100 any 0b1100011
def BGE := inst any any any 0b101 any 0b1100011
def BLTU := inst any any any 0b110 any 0b1100011
def BGEU := inst any any any 0b111 any 0b1100011
def LB := inst any any any 0b000 any 0b0000011
def LH := inst any any any 0b001 any 0b0000011
def LW := inst any any any 0b010 any 0b0000011
def LBU := inst any any any 0b100 any 0b0000011
def LHU := inst any any any 0b101 any 0b0000011
def SB := inst any any any 0b000 any 0b0100011
def SH := inst any any any 0b001 any 0b0100011
def SW := inst any any any 0b010 any 0b0100011
def ADDI := inst any any any 0b000 any 0b0010011
def SLTI := inst any any any 0b010 any 0b0010011
def SLTIU := inst any any any 0b011 any 0b0010011
def XORI := inst any any any 0b100 any 0b0010011
def ORI := inst any any any 0b110 any 0b0010011
def ANDI := inst any any any 0b111 any 0b0010011
def SLLI := inst 0b0000000 any any 0b001 any 0b0010011
def SRLI := inst 0b0000000 any any 0b101 any 0b0010011
def SRAI := inst 0b0100000 any any 0b101 any 0b0010011
def ADD := inst 0b0000000 any any 0b000 any 0b0110011
def SUB := inst 0b0100000 any any 0b000 any 0b0110011
def SLL := inst 0b0000000 any any 0b001 any 0b0110011
def SLT := inst 0b0000000 any any 0b010 any 0b0110011
def SLTU := inst 0b0000000 any any 0b011 any 0b0110011
def XOR := inst 0b0000000 any any 0b100 any 0b0110011
def SRL := inst 0b0000000 any any 0b101 any 0b0110011
def SRA := inst 0b0100000 any any 0b101 any 0b0110011
def OR := inst 0b0000000 any any 0b110 any 0b0110011
def AND := inst 0b0000000 any any 0b111 any 0b0110011
def MUL := inst 0b0000001 any any 0b000 any 0b0110011
def MULH := inst 0b0000001 any any 0b001 any 0b0110011
def MULHSU := inst 0b0000001 any any 0b010 any 0b0110011
def MULHU := inst 0b0000001 any any 0b011 any 0b0110011
def DIV := inst 0b0000001 any any 0b100 any 0b0110011
def DIVU := inst 0b0000001 any any 0b101 any 0b0110011
def REM := inst 0b0000001 any any 0b110 any 0b0110011
def REMU := inst 0b0000001 any any 0b111 any 0b0110011
def EBREAK := inst 0b0000000 0b00001 0b00000 0b000 0b00000 0b1110011
def ECALL := inst 0b0000000 0b00000 0b00000 0b000 0b00000 0b1110011
def MRET := inst 0b0011000 0b00010 0b00000 0b000 0b00000 0b1110011
def CSRRW := inst any any any 0b001 any 0b1110011
def CSRRS := inst any any any 0b010 any 0b1110011
def CSRRC := inst any any any 0b011 any 0b1110011
def CSRRWI := inst any any any 0b101 any 0b1110011
def CSRRSI := inst any any any 0b110 any 0b1110011
def CSRRCI := inst any any any 0b111 any 0b1110011
def LRW := inst ⟨0b1111100, 0b0001000⟩ 0b00000 any 0b010 any 0b0101111
def SCW := inst ⟨0b1111100, 0b0001100⟩ any any 0b010 any 0b0101111
def AMOSWAP := inst ⟨0b1111100, 0b0000100⟩ any any 0b010 any 0b0101111
def AMOADD := inst ⟨0b1111100, 0b0000000⟩ any any 0b010 any 0b0101111
def AMOXOR := inst ⟨0b1111100, 0b0010000⟩ any any 0b010 any 0b0101111
def AMOAND := inst ⟨0b1111100, 0b0110000⟩ any any 0b010 any 0b0101111
def AMOOR := inst ⟨0b1111100, 0b0100000⟩ any any 0b010 any 0b0101111
def AMOMIN := inst ⟨0b1111100, 0b1000000⟩ any any 0b010 any 0b0101111
def AMOMAX := inst ⟨0b1111100, 0b1010000⟩ any any 0b010 any 0b0101111
def AMOMINU := inst ⟨0b1111100, 0b1100000⟩ any any 0b010 any 0b0101111
def AMOMAXU := inst ⟨0b1111100, 0b1110000⟩ any any 0b010 any 0b0101111
def FENCE := inst ⟨0b1111000, 0b0000000⟩ any 0b00000 0b000 0b00000 0b0001111
def FENCEI := inst 0b0000000 0b00000 0b00000 0b001 0b00000 0b0001111
def WFI := inst 0b0001000 0b00101 0b00000 0b000 0b00000 0b1110011
def NOP := inst 0b0000000 0b00000 0b00000 0b000 0b00000 0b0000000

end Instructions

namespace ControlLogic

open ControlSignals Instructions

/-- A row of the truth table. A field is `none` where the table does not care. -/
structure ControlRow where
  instType : Option (BitVec 3)
  fuType : Option (BitVec 4)
  aluSrc1 : Option (BitVec 2)
  aluSrc2 : Option (BitVec 2)
  aluOp : Option (BitVec 4)
  mulOp : Option (BitVec 2)
  divOp : Option (BitVec 2)
  bruOp : Option (BitVec 3)
  csrOp : Option (BitVec 2)
  amoOp : Option (BitVec 4)
  memWrite : Option (BitVec 4)
  memRead : Option (BitVec 4)
  memSignExt : Option Bool
  csrWrite : Option Bool
  regWrite : Option Bool
  fencei : Option Bool
  legal : Option Bool

abbrev X {α : Type} : Option α := none

def default : ControlRow := ⟨X, X, X, X, X, X, X, X, X, X, X, X, X, X, X, X, N⟩

def table : List (BitPat 32 × ControlRow) := [
    (LUI, ⟨InstType.U, FuType.ALU, OpASrc.ZERO, OpBSrc.IMM, ALUOp.ADD, X, X, BRUOp.N,
      CSROp.N, X, MemWrite.N, MemRead.N, X, N, Y, N, Y⟩),
    (AUIPC, ⟨InstType.U, FuType.ALU, OpASrc.PC, OpBSrc.IMM, ALUOp.ADD, X, X, BRUOp.N,
      CSROp.N, X, MemWrite.N, MemRead.N, X, N, Y, N, Y⟩),
    (JAL, ⟨InstType.J, FuType.BRU, OpASrc.PC, OpBSrc.IMM, ALUOp.ADD, X, X, BRUOp.N,
      CSROp.N, X, MemWrite.N, MemRead.N, X, N, Y, N, Y⟩),
    (JALR, ⟨InstType.I, FuType.BRU, OpASrc.RS1, OpBSrc.IMM, ALUOp.ADD, X, X, BRUOp.N,
      CSROp.N, X, MemWrite.N, MemRead.N, X, N, Y, N, Y⟩),
    (BEQ, ⟨InstType.B, FuType.BRU, OpASrc.PC, OpBSrc.IMM, ALUOp.ADD, X, X, BRUOp.EQ,
      CSROp.N, X, MemWrite.N, MemRead.N, X, N, N, N, Y⟩),
    (BNE, ⟨InstType.B, FuType.BRU, OpASrc.PC, OpBSrc.IMM, ALUOp.ADD, X, X, BRUOp.NEQ,
      CSROp.N, X, MemWrite.N, MemRead.N, X, N, N, N, Y⟩),
    (BLT, ⟨InstType.B, FuType.BRU, OpASrc.PC, OpBSrc.IMM, ALUOp.ADD, X, X, BRUOp.LTS,
      CSROp.N, X, MemWrite.N, MemRead.N, X, N, N, N, Y⟩),
    (BGE, ⟨InstType.B, FuType.BRU, OpASrc.PC, OpBSrc.IMM, ALUOp.ADD, X, X, BRUOp.GES,
      CSROp.N, X, MemWrite.N, MemRead.N, X, N, N, N, Y⟩),
    (BLTU, ⟨InstType.B, FuType.BRU, OpASrc.PC, OpBSrc.IMM, ALUOp.ADD, X, X, BRUOp.LTU,
      CSROp.N, X, MemWrite.N, MemRead.N, X, N, N, N, Y⟩),
    (BGEU, ⟨InstType.B, FuType.BRU, OpASrc.PC, OpBSrc.IMM, ALUOp.ADD, X, X, BRUOp.GEU,
      CSROp.N, X, MemWrite.N, MemRead.N, X, N, N, N, Y⟩),
    (LB, ⟨InstType.I, FuType.LSU, OpASrc.RS1, OpBSrc.IMM, ALUOp.ADD, X, X, BRUOp.N,
      CSROp.N, X, MemWrite.N, MemRead.B, MemSignExt.SignedExt, N, Y, N, Y⟩),
    (LH, ⟨InstType.I, FuType.LSU, OpASrc.RS1, OpBSrc.IMM, ALUOp.ADD, X, X, BRUOp.N,
      CSROp.N, X, MemWrite.N, MemRead.H, MemSignExt.SignedExt, N, Y, N, Y⟩),
    (LW, ⟨InstType.I, FuType.LSU, OpASrc.RS1, OpBSrc.IMM, ALUOp.ADD, X, X, BRUOp.N,
      CSROp.N, X, MemWrite.N, MemRead.W, MemSignExt.SignedExt, N, Y, N, Y⟩),
    (LBU, ⟨InstType.I, FuType.LSU, OpASrc.RS1, OpBSrc.IMM, ALUOp.ADD, X, X, BRUOp.N,
      CSROp.N, X, MemWrite.N, MemRead.B, MemSignExt.UnsignedExt, N, Y, N, Y⟩),
    (LHU, ⟨InstType.I, FuType.LSU, OpASrc.RS1, OpBSrc.IMM, ALUOp.ADD, X, X, BRUOp.N,
      CSROp.N, X, MemWrite.N, MemRead.H, MemSignExt.UnsignedExt, N, Y, N, Y⟩),
    (SB, ⟨InstType.S, FuType.LSU, OpASrc.RS1, OpBSrc.IMM, ALUOp.ADD, X, X, BRUOp.N,
      CSROp.N, X, MemWrite.B, MemRead.N, X, N, N, N, Y⟩),
    (SH, ⟨InstType.S, FuType.LSU, OpASrc.RS1, OpBSrc.IMM, ALUOp.ADD, X, X, BRUOp.N,
      CSROp.N, X, MemWrite.H, MemRead.N, X, N, N, N, Y⟩),
    (SW, ⟨InstType.S, FuType.LSU, OpASrc.RS1, OpBSrc.IMM, ALUOp.ADD, X, X, BRUOp.N,
      CSROp.N, X, MemWrite.W, MemRead.N, X, N, N, N, Y⟩),
    (ADDI, ⟨InstType.I, FuType.ALU, OpASrc.RS1, OpBSrc.IMM, ALUOp.ADD, X, X, BRUOp.N,
      CSROp.N, X, MemWrite.N, MemRead.N, X, N, Y, N, Y⟩),
    (SLTI, ⟨InstType.I, FuType.ALU, OpASrc.RS1, OpBSrc.IMM, ALUOp.LTS, X, X, BRUOp.LTS,
      CSROp.N, X, MemWrite.N, MemRead.N, X, N, Y, N, Y⟩),
    (SLTIU, ⟨InstType.I, FuType.ALU, OpASrc.RS1, OpBSrc.IMM, ALUOp.LTU, X, X, BRUOp.LTU,
      CSROp.N, X, MemWrite.N, MemRead.N, X, N, Y, N, Y⟩),
    (XORI, ⟨InstType.I, FuType.ALU, OpASrc.RS1, OpBSrc.IMM, ALUOp.XOR, X, X, BRUOp.N,
      CSROp.N, X, MemWrite.N, MemRead.N, X, N, Y, N, Y⟩),
    (ORI, ⟨InstType.I, FuType.ALU, OpASrc.RS1, OpBSrc.IMM, ALUOp.OR, X, X, BRUOp.N,
      CSROp.N, X, MemWrite.N, MemRead.N, X, N, Y, N, Y⟩),
    (ANDI, ⟨InstType.I, FuType.ALU, OpASrc.RS1, OpBSrc.IMM, ALUOp.AND, X, X, BRUOp.N,
      CSROp.N, X, MemWrite.N, MemRead.N, X, N, Y, N, Y⟩),
    (SLLI, ⟨InstType.I, FuType.ALU, OpASrc.RS1, OpBSrc.IMM, ALUOp.SLL, X, X, BRUOp.N,
      CSROp.N, X, MemWrite.N, MemRead.N, X, N, Y, N, Y⟩),
    (SRLI, ⟨InstType.I, FuType.ALU, OpASrc.RS1, OpBSrc.IMM, ALUOp.SRL, X, X, BRUOp.N,
      CSROp.N, X, MemWrite.N, MemRead.N, X, N, Y, N, Y⟩),
    (SRAI, ⟨InstType.I, FuType.ALU, OpASrc.RS1, OpBSrc.IMM, ALUOp.SRA, X, X, BRUOp.N,
      CSROp.N, X, MemWrite.N, MemRead.N, X, N, Y, N, Y⟩),
    (ADD, ⟨InstType.R, FuType.ALU, OpASrc.RS1, OpBSrc.RS2, ALUOp.ADD, X, X, BRUOp.N,
      CSROp.N, X, MemWrite.N, MemRead.N, X, N, Y, N, Y⟩),
    (SUB, ⟨InstType.R, FuType.ALU, OpASrc.RS1, OpBSrc.RS2, ALUOp.SUB, X, X, BRUOp.N,
      CSROp.N, X, MemWrite.N, MemRead.N, X, N, Y, N, Y⟩),
    (SLL, ⟨InstType.R, FuType.ALU, OpASrc.RS1, OpBSrc.RS2, ALUOp.SLL, X, X, BRUOp.N,
      CSROp.N, X, MemWrite.N, MemRead.N, X, N, Y, N, Y⟩),
    (SLT, ⟨InstType.R, FuType.ALU, OpASrc.RS1, OpBSrc.RS2, ALUOp.LTS, X, X, BRUOp.LTS,
      CSROp.N, X, MemWrite.N, MemRead.N, X, N, Y, N, Y⟩),
    (SLTU, ⟨InstType.R, FuType.ALU, OpASrc.RS1, OpBSrc.RS2, ALUOp.LTU, X, X, BRUOp.LTU,
      CSROp.N, X, MemWrite.N, MemRead.N, X, N, Y, N, Y⟩),
    (XOR, ⟨InstType.R, FuType.ALU, OpASrc.RS1, OpBSrc.RS2, ALUOp.XOR, X, X, BRUOp.N,
      CSROp.N, X, MemWrite.N, MemRead.N, X, N, Y, N, Y⟩),
    (SRL, ⟨InstType.R, FuType.ALU, OpASrc.RS1, OpBSrc.RS2, ALUOp.SRL, X, X, BRUOp.N,
      CSROp.N, X, MemWrite.N, MemRead.N, X, N, Y, N, Y⟩),
    (SRA, ⟨InstType.R, FuType.ALU, OpASrc.RS1, OpBSrc.RS2, ALUOp.SRA, X, X, BRUOp.N,
      CSROp.N, X, MemWrite.N, MemRead.N, X, N, Y, N, Y⟩),
    (OR, ⟨InstType.R, FuType.ALU, OpASrc.RS1, OpBSrc.RS2, ALUOp.OR, X, X, BRUOp.N,
      CSROp.N, X, MemWrite.N, MemRead.N, X, N, Y, N, Y⟩),
    (AND, ⟨InstType.R, FuType.ALU, OpASrc.RS1, OpBSrc.RS2, ALUOp.AND, X, X, BRUOp.N,
      CSROp.N, X, MemWrite.N, MemRead.N, X, N, Y, N, Y⟩),
    (MUL, ⟨InstType.R, FuType.MUL, OpASrc.RS1, OpBSrc.RS2, X, MULOp.MUL, X, BRUOp.N,
      CSROp.N, X, MemWrite.N, MemRead.N, X, N, Y, N, Y⟩),
    (MULH, ⟨InstType.R, FuType.MUL, OpASrc.RS1, OpBSrc.RS2, X, MULOp.MULH, X, BRUOp.N,
      CSROp.N, X, MemWrite.N, MemRead.N, X, N, Y, N, Y⟩),
    (MULHSU, ⟨InstType.R, FuType.MUL, OpASrc.RS1, OpBSrc.RS2, X, MULOp.MULHSU, X, BRUOp.N,
      CSROp.N, X, MemWrite.N, MemRead.N, X, N, Y, N, Y⟩),
    (MULHU, ⟨InstType.R, FuType.MUL, OpASrc.RS1, OpBSrc.RS2, X, MULOp.MULHU, X, BRUOp.N,
      CSROp.N, X, MemWrite.N, MemRead.N, X, N, Y, N, Y⟩),
    (DIV, ⟨InstType.R, FuType.DIV, OpASrc.RS1, OpBSrc.RS2, ALUOp.ADD, X, DIVOp.DIV, BRUOp.N,
      CSROp.N, X, MemWrite.N, MemRead.N, X, N, Y, N, Y⟩),
    (DIVU, ⟨InstType.R, FuType.DIV, OpASrc.RS1, OpBSrc.RS2, ALUOp.ADD, X, DIVOp.DIVU, BRUOp.N,
      CSROp.N, X, MemWrite.N, MemRead.N, X, N, Y, N, Y⟩),
    (REM, ⟨InstType.R, FuType.DIV, OpASrc.RS1, OpBSrc.RS2, ALUOp.ADD, X, DIVOp.REM, BRUOp.N,
      CSROp.N, X, MemWrite.N, MemRead.N, X, N, Y, N, Y⟩),
    (REMU, ⟨InstType.R, FuType.DIV, OpASrc.RS1, OpBSrc.RS2, ALUOp.ADD, X, DIVOp.REMU, BRUOp.N,
      CSROp.N, X, MemWrite.N, MemRead.N, X, N, Y, N, Y⟩),
    (CSRRW, ⟨InstType.I, FuType.CSR, OpASrc.RS1, OpBSrc.ZERO, ALUOp.ADD, X, X, BRUOp.N,
      CSROp.RW, X, MemWrite.N, MemRead.N, X, Y, Y, N, Y⟩),
    (CSRRC, ⟨InstType.I, FuType.CSR, OpASrc.RS1, OpBSrc.CSR, ALUOp.ADD, X, X, BRUOp.N,
      CSROp.RC, X, MemWrite.N, MemRead.N, X, Y, Y, N, Y⟩),
    (CSRRS, ⟨InstType.I, FuType.CSR, OpASrc.RS1, OpBSrc.CSR, ALUOp.ADD, X, X, BRUOp.N,
      CSROp.RS, X, MemWrite.N, MemRead.N, X, Y, Y, N, Y⟩),
    (CSRRWI, ⟨InstType.I, FuType.CSR, OpASrc.RS1ADDR, OpBSrc.ZERO, ALUOp.ADD, X, X, BRUOp.N,
      CSROp.RW, X, MemWrite.N, MemRead.N, X, Y, Y, N, Y⟩),
    (CSRRCI, ⟨InstType.I, FuType.CSR, OpASrc.RS1ADDR, OpBSrc.CSR, ALUOp.ADD, X, X, BRUOp.N,
      CSROp.RC, X, MemWrite.N, MemRead.N, X, Y, Y, N, Y⟩),
    (CSRRSI, ⟨InstType.I, FuType.CSR, OpASrc.RS1ADDR, OpBSrc.CSR, ALUOp.ADD, X, X, BRUOp.N,
      CSROp.RS, X, MemWrite.N, MemRead.N, X, Y, Y, N, Y⟩),
    (EBREAK, ⟨InstType.N, FuType.ALU, X, X, X, X, X, BRUOp.N,
      CSROp.N, X, MemWrite.N, MemRead.N, X, N, N, N, Y⟩),
    (ECALL, ⟨InstType.N, FuType.CSR, OpASrc.ZERO, OpBSrc.CSR, X, X, X, BRUOp.N,
      CSROp.N, X, MemWrite.N, MemRead.N, X, N, N, N, Y⟩),
    (MRET, ⟨InstType.N, FuType.CSR, OpASrc.ZERO, OpBSrc.CSR, X, X, X, BRUOp.N,
      CSROp.N, X, MemWrite.N, MemRead.N, X, N, N, N, Y⟩),
    (FENCEI, ⟨InstType.N, FuType.ALU, X, X, X, X, X, BRUOp.N,
      CSROp.N, X, MemWrite.N, MemRead.N, X, N, N, Y, Y⟩),
    (FENCE, ⟨InstType.N, FuType.ALU, X, X, X, X, X, BRUOp.N,
      CSROp.N, X, MemWrite.N, MemRead.N, X, N, N, Y, Y⟩),
    (LRW, ⟨InstType.R, FuType.AMO, OpASrc.RS1, OpBSrc.ZERO, ALUOp.ADD, X, X, BRUOp.N,
      CSROp.N, AMOOp.LR, MemWrite.N, MemRead.W, MemSignExt.SignedExt, N, Y, N, Y⟩),
    (SCW, ⟨InstType.R, FuType.AMO, OpASrc.RS1, OpBSrc.ZERO, ALUOp.ADD, X, X, BRUOp.N,
      CSROp.N, AMOOp.SC, MemWrite.W, MemRead.N, MemSignExt.SignedExt, N, Y, N, Y⟩),
    (AMOSWAP, ⟨InstType.R, FuType.AMO, OpASrc.RS1, OpBSrc.ZERO, ALUOp.ADD, X, X, BRUOp.N,
      CSROp.N, AMOOp.SWAP, MemWrite.W, MemRead.W, MemSignExt.SignedExt, N, Y, N, Y⟩),
    (AMOADD, ⟨InstType.R, FuType.AMO, OpASrc.RS1, OpBSrc.ZERO, ALUOp.ADD, X, X, BRUOp.N,
      CSROp.N, AMOOp.ADD, MemWrite.W, MemRead.W, MemSignExt.SignedExt, N, Y, N, Y⟩),
    (AMOXOR, ⟨InstType.R, FuType.AMO, OpASrc.RS1, OpBSrc.ZERO, ALUOp.ADD, X, X, BRUOp.N,
      CSROp.N, AMOOp.XOR, MemWrite.W, MemRead.W, MemSignExt.SignedExt, N, Y, N, Y⟩),
    (AMOAND, ⟨InstType.R, FuType.AMO, OpASrc.RS1, OpBSrc.ZERO, ALUOp.ADD, X, X, BRUOp.N,
      CSROp.N, AMOOp.AND, MemWrite.W, MemRead.W, MemSignExt.SignedExt, N, Y, N, Y⟩),
    (AMOOR, ⟨InstType.R, FuType.AMO, OpASrc.RS1, OpBSrc.ZERO, ALUOp.ADD, X, X, BRUOp.N,
      CSROp.N, AMOOp.OR, MemWrite.W, MemRead.W, MemSignExt.SignedExt, N, Y, N, Y⟩),
    (AMOMIN, ⟨InstType.R, FuType.AMO, OpASrc.RS1, OpBSrc.ZERO, ALUOp.ADD, X, X, BRUOp.N,
      CSROp.N, AMOOp.MIN, MemWrite.W, MemRead.W, MemSignExt.SignedExt, N, Y, N, Y⟩),
    (AMOMAX, ⟨InstType.R, FuType.AMO, OpASrc.RS1, OpBSrc.ZERO, ALUOp.ADD, X, X, BRUOp.N,
      CSROp.N, AMOOp.MAX, MemWrite.W, MemRead.W, MemSignExt.SignedExt, N, Y, N, Y⟩),
    (AMOMINU, ⟨InstType.R, FuType.AMO, OpASrc.RS1, OpBSrc.ZERO, ALUOp.ADD, X, X, BRUOp.N,
      CSROp.N, AMOOp.MINU, MemWrite.W, MemRead.W, MemSignExt.SignedExt, N, Y, N, Y⟩),
    (AMOMAXU, ⟨InstType.R, FuType.AMO, OpASrc.RS1, OpBSrc.ZERO, ALUOp.ADD, X, X, BRUOp.N,
      CSROp.N, AMOOp.MAXU, MemWrite.W, MemRead.W, MemSignExt.SignedExt, N, Y, N, Y⟩),
    (WFI, ⟨InstType.R, FuType.ALU, OpASrc.ZERO, OpBSrc.ZERO, ALUOp.ADD, X, X, BRUOp.N,
      CSROp.N, X, MemWrite.N, MemRead.N, MemSignExt.SignedExt, N, N, N, Y⟩),
    (NOP, ⟨X, FuType.ALU, X, X, X, X, X, BRUOp.N,
      CSROp.N, X, MemWrite.N, MemRead.N, X, N, N, N, Y⟩)]

end ControlLogic

open ControlSignals ControlLogic

structure CtrlWord where
  instType : BitVec 3
  decodeBundle : DecodeBundle
  legal : Bool
  deriving DecidableEq

structure ControlLogic.ControlRow.Admits (r : ControlRow) (w : CtrlWord) : Prop where
  instType : ∀ v ∈ r.instType, w.instType = v
  fuType : ∀ v ∈ r.fuType, w.decodeBundle.fuType = v
  aluSrc1 : ∀ v ∈ r.aluSrc1, w.decodeBundle.aluSrc1 = v
  aluSrc2 : ∀ v ∈ r.aluSrc2, w.decodeBundle.aluSrc2 = v
  aluOp : ∀ v ∈ r.aluOp, w.decodeBundle.aluOp = v
  mulOp : ∀ v ∈ r.mulOp, w.decodeBundle.mulOp = v
  divOp : ∀ v ∈ r.divOp, w.decodeBundle.divOp = v
  bruOp : ∀ v ∈ r.bruOp, w.decodeBundle.bruOp = v
  csrOp : ∀ v ∈ r.csrOp, w.decodeBundle.csrOp = v
  amoOp : ∀ v ∈ r.amoOp, w.decodeBundle.amoOp = v
  memWrite : ∀ v ∈ r.memWrite, w.decodeBundle.memWrite = v
  memRead : ∀ v ∈ r.memRead, w.decodeBundle.memRead = v
  memSignExt : ∀ v ∈ r.memSignExt, w.decodeBundle.memSignExt = v
  csrWrite : ∀ v ∈ r.csrWrite, w.decodeBundle.csrWrite = v
  regWrite : ∀ v ∈ r.regWrite, w.decodeBundle.regWrite = v
  fencei : ∀ v ∈ r.fencei, w.decodeBundle.fencei = v
  legal : ∀ v ∈ r.legal, w.legal = v

/-- The decoder after logic minimisation: some function that meets the truth table, the
default row included, with the don't-cares resolved in any way. -/
structure Decoder where
  ctrlWord : Word → CtrlWord
  row : ∀ inst, ∀ p ∈ table, p.1.Matches inst → p.2.Admits (ctrlWord inst)
  other : ∀ inst, (∀ p ∈ table, ¬p.1.Matches inst) →
    ControlLogic.default.Admits (ctrlWord inst)

def ControlLogic.ControlRow.resolve (r : ControlRow) (x : CtrlWord) : CtrlWord where
  instType := r.instType.getD x.instType
  decodeBundle := {
    fuType := r.fuType.getD x.decodeBundle.fuType
    aluSrc1 := r.aluSrc1.getD x.decodeBundle.aluSrc1
    aluSrc2 := r.aluSrc2.getD x.decodeBundle.aluSrc2
    aluOp := r.aluOp.getD x.decodeBundle.aluOp
    mulOp := r.mulOp.getD x.decodeBundle.mulOp
    divOp := r.divOp.getD x.decodeBundle.divOp
    bruOp := r.bruOp.getD x.decodeBundle.bruOp
    csrOp := r.csrOp.getD x.decodeBundle.csrOp
    amoOp := r.amoOp.getD x.decodeBundle.amoOp
    memWrite := r.memWrite.getD x.decodeBundle.memWrite
    memRead := r.memRead.getD x.decodeBundle.memRead
    memSignExt := r.memSignExt.getD x.decodeBundle.memSignExt
    csrWrite := r.csrWrite.getD x.decodeBundle.csrWrite
    regWrite := r.regWrite.getD x.decodeBundle.regWrite
    fencei := r.fencei.getD x.decodeBundle.fencei }
  legal := r.legal.getD x.legal

theorem ControlLogic.ControlRow.admits_resolve (r : ControlRow) (x : CtrlWord) :
    r.Admits (r.resolve x) := by
  constructor <;> (intro v hv; rw [Option.mem_def] at hv; simp [ControlRow.resolve, hv])

theorem ControlLogic.table_pairwise_disjoint :
    table.Pairwise fun p q => p.1.Disjoint q.1 := by
  decide +kernel

def ControlLogic.lookup (inst : Word) : ControlRow :=
  ((table.find? fun p => decide (p.1.Matches inst)).map Prod.snd).getD default

theorem ControlLogic.lookup_of_matches {inst : Word} {p : BitPat 32 × ControlRow}
    (hp : p ∈ table) (h : p.1.Matches inst) : lookup inst = p.2 := by
  have aux : ∀ rows : List (BitPat 32 × ControlRow),
      (rows.Pairwise fun p q => p.1.Disjoint q.1) → p ∈ rows →
      rows.find? (fun p => decide (p.1.Matches inst)) = some p := by
    intro rows
    induction rows with
    | nil => simp
    | cons q rows ih =>
      intro hd hmem
      rw [List.pairwise_cons] at hd
      rcases List.mem_cons.1 hmem with rfl | hmem
      · simp [h]
      · have hq : ¬q.1.Matches inst := fun hq => (hd.1 p hmem).not_matches hq h
        simp only [List.find?_cons, hq, decide_false]
        exact ih hd.2 hmem
  simp [lookup, aux table table_pairwise_disjoint hp]

theorem ControlLogic.lookup_of_no_match {inst : Word}
    (h : ∀ p ∈ table, ¬p.1.Matches inst) : lookup inst = default := by
  have : table.find? (fun p => decide (p.1.Matches inst)) = none := by
    rw [List.find?_eq_none]
    intro p hp
    simpa using h p hp
  simp [lookup, this]

theorem Decoder.row_of_legal (d : Decoder) {inst : Word} (h : (d.ctrlWord inst).legal = true) :
    ∃ p ∈ table, p.1.Matches inst ∧ p.2.Admits (d.ctrlWord inst) := by
  by_cases hm : ∃ p ∈ table, p.1.Matches inst
  · obtain ⟨p, hp, hm⟩ := hm
    exact ⟨p, hp, hm, d.row inst p hp hm⟩
  · have := (d.other inst fun p hp hm' => hm ⟨p, hp, hm'⟩).legal false rfl
    simp [this] at h

/-- The operation is one that the truth table has: what reads the memory writes a register in
the unit for accesses or for AMOs, LR reads, and no access writes a CSR. -/
structure InterStage.DecodeBundle.FromTable (b : DecodeBundle) : Prop where
  memRead : b.memRead ≠ 0#4 → b.regWrite = true ∧
    (b.fuType = FuType.LSU ∧ b.memWrite = 0#4 ∨ b.fuType = FuType.AMO)
  lr : b.fuType = FuType.AMO → b.amoOp = AMOOp.LR → b.memRead ≠ 0#4
  csrWrite : b.memRead ≠ 0#4 ∨ b.memWrite ≠ 0#4 → b.csrWrite = false

theorem ControlLogic.table_memRead : ∀ p ∈ table, p.2.memRead = MemRead.N ∨
    p.2.regWrite = Y ∧ (p.2.fuType = FuType.LSU ∧ p.2.memWrite = MemWrite.N ∨
      p.2.fuType = FuType.AMO) := by
  decide +kernel

theorem ControlLogic.table_lr : ∀ p ∈ table, (p.2.fuType.any fun f => f != FuType.AMO) ∨
    (p.2.amoOp.any fun op => op != AMOOp.LR) ∨ p.2.memRead = MemRead.W := by
  decide +kernel

theorem ControlLogic.table_csrWrite : ∀ p ∈ table, p.2.csrWrite = N ∨
    p.2.memRead = MemRead.N ∧ p.2.memWrite = MemWrite.N := by
  decide +kernel

theorem Decoder.fromTable_of_legal (d : Decoder) {inst : Word}
    (h : (d.ctrlWord inst).legal = true) : (d.ctrlWord inst).decodeBundle.FromTable := by
  obtain ⟨p, hp, -, ha⟩ := d.row_of_legal h
  constructor
  · intro hr
    rcases ControlLogic.table_memRead p hp with hn | ⟨hw, ⟨hl, hn⟩ | hamo⟩
    · exact absurd (ha.memRead _ hn) hr
    · exact ⟨ha.regWrite _ hw, .inl ⟨ha.fuType _ hl, ha.memWrite _ hn⟩⟩
    · exact ⟨ha.regWrite _ hw, .inr (ha.fuType _ hamo)⟩
  · intro hamo hlr
    rcases ControlLogic.table_lr p hp with hf | ho | hr
    · obtain ⟨f, hf, hne⟩ := Option.any_eq_true .. |>.1 hf
      simp [← ha.fuType f hf, hamo] at hne
    · obtain ⟨op, ho, hne⟩ := Option.any_eq_true .. |>.1 ho
      simp [← ha.amoOp op ho, hlr] at hne
    · rw [ha.memRead _ hr]
      decide
  · intro hm
    rcases ControlLogic.table_csrWrite p hp with hc | ⟨hr, hw⟩
    · exact ha.csrWrite _ hc
    · rcases hm with hm | hm
      · exact absurd (ha.memRead _ hr) hm
      · exact absurd (ha.memWrite _ hw) hm

theorem Decoder.fencei_row (d : Decoder) {inst : Word} (h : Instructions.FENCEI.Matches inst) :
    (d.ctrlWord inst).decodeBundle.fencei = true ∧
      (d.ctrlWord inst).decodeBundle.regWrite = false := by
  obtain ⟨p, hp, hmask, hvalue, hf, hw⟩ : ∃ p ∈ table,
      p.1.mask = Instructions.FENCEI.mask ∧ p.1.value = Instructions.FENCEI.value ∧
        p.2.fencei = some true ∧ p.2.regWrite = some false := by
    decide +kernel
  have ha := d.row inst p hp (by rwa [BitPat.Matches, hmask, hvalue])
  exact ⟨ha.fencei _ hf, ha.regWrite _ hw⟩

def Decoder.resolve (x : CtrlWord) : Decoder where
  ctrlWord inst := (lookup inst).resolve x
  row inst p hp h := by
    rw [lookup_of_matches hp h]
    exact p.2.admits_resolve x
  other inst h := by
    rw [lookup_of_no_match h]
    exact ControlLogic.default.admits_resolve x

def fill (n : Nat) (b : Bool) : BitVec n := if b then BitVec.allOnes n else 0

def ImmGen (inst : Word) (instType : BitVec 3) : Word :=
  let sign := inst.getLsbD 31
  Mux1H [
    (instType == InstType.I, fill 21 sign ++ inst.extractLsb 30 20),
    (instType == InstType.S, fill 21 sign ++ inst.extractLsb 30 25 ++ inst.extractLsb 11 7),
    (instType == InstType.B, fill 20 sign ++ inst.extractLsb 7 7 ++ inst.extractLsb 30 25 ++
      inst.extractLsb 11 8 ++ 0#1),
    (instType == InstType.U, inst.extractLsb 31 12 ++ 0#12),
    (instType == InstType.J, fill 12 sign ++ inst.extractLsb 19 12 ++ inst.extractLsb 20 20 ++
      inst.extractLsb 30 21 ++ 0#1)]

end FpgaNpc
