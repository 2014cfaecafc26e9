import FpgaNpc.Utils.Decode

universe u

open FpgaNpc.Hardware FpgaNpc.ControlSignals

namespace FpgaNpc

namespace ALU

def sum (op : BitVec 4) (opA opB : Word) : Word :=
  opA + if op.getLsbD 0 then -opB else opB

def cmp (op : BitVec 4) (opA opB : Word) : Bool :=
  if opA.getLsbD 31 == opB.getLsbD 31 then (sum op opA opB).getLsbD 31
  else if op.getLsbD 1 then opB.getLsbD 31 else opA.getLsbD 31

def shiftr (op : BitVec 4) (opA opB : Word) : Word :=
  let shamt := (opB.extractLsb 4 0).toNat
  let shin := if op.getLsbD 3 then opA else opA.reverse
  ((bit (op.getLsbD 0 && shin.getLsbD 31) ++ shin).sshiftRight shamt).setWidth 32

def res (op : BitVec 4) (opA opB : Word) : Word :=
  Mux1H [
    (op == ALUOp.ADD, sum op opA opB),
    (op == ALUOp.SUB, sum op opA opB),
    (op == ALUOp.XOR, opA ^^^ opB),
    (op == ALUOp.AND, opA &&& opB),
    (op == ALUOp.OR, opA ||| opB),
    (op == ALUOp.SLL, (shiftr op opA opB).reverse),
    (op == ALUOp.SRL, shiftr op opA opB),
    (op == ALUOp.SRA, shiftr op opA opB),
    (op == ALUOp.LTU, (bit (cmp op opA opB)).setWidth 32),
    (op == ALUOp.LTS, (bit (cmp op opA opB)).setWidth 32)]

end ALU

def BRU.branch (bruOp : BitVec 3) (opA opB : Word) : Bool :=
  (bruOp == BRUOp.LTU && opA.ult opB) || (bruOp == BRUOp.GEU && !opA.ult opB) ||
    (bruOp == BRUOp.LTS && opA.slt opB) || (bruOp == BRUOp.GES && !opA.slt opB) ||
    (bruOp == BRUOp.EQ && opA == opB) || (bruOp == BRUOp.NEQ && opA != opB)

def CSRU.res (csrOp : BitVec 2) (opA opB : Word) : Word :=
  Mux1H [
    (csrOp == CSROp.RW, opA),
    (csrOp == CSROp.RC, ~~~opA &&& opB),
    (csrOp == CSROp.RS, opA ||| opB)]

def AMOALU.res (amoOp : BitVec 4) (mRead src2 : Word) : Word :=
  Mux1H [
    (amoOp == AMOOp.SWAP, src2),
    (amoOp == AMOOp.ADD, mRead + src2),
    (amoOp == AMOOp.XOR, src2 ^^^ mRead),
    (amoOp == AMOOp.AND, src2 &&& mRead),
    (amoOp == AMOOp.OR, src2 ||| mRead),
    (amoOp == AMOOp.MAX, if src2.slt mRead then mRead else src2),
    (amoOp == AMOOp.MAXU, if src2.ult mRead then mRead else src2),
    (amoOp == AMOOp.MIN, if mRead.slt src2 then mRead else src2),
    (amoOp == AMOOp.MINU, if mRead.ult src2 then mRead else src2)]

namespace MultiCycle

/-- The registers that `Multiplier` and `Divider` share, outside the FPGA build: the result is
computed when the request is accepted and shown when the count has run down. -/
structure Regs (ρ : Type u) where
  busy : Bool
  count : Nat
  result : ρ
  deriving DecidableEq

variable {ρ : Type u}

def reqReady (s : Regs ρ) : Bool := !s.busy

def done (s : Regs ρ) : Bool := s.busy && s.count == 0

def next (latency : Nat) (s : Regs ρ) (reqValid : Bool) (result : ρ) (respReady : Bool) :
    Regs ρ :=
  let reqFire := reqValid && reqReady s
  let respFire := done s && respReady
  { busy := if respFire then false else if reqFire then true else s.busy
    count := if s.busy && s.count != 0 then s.count - 1
      else if reqFire then latency - 1 else s.count
    result := if reqFire then result else s.result }

end MultiCycle

/-- `Multiplier`, with a latency above zero. -/
def Multiplier.next (latency : Nat) (s : MultiCycle.Regs (BitVec 64)) (reqValid : Bool)
    (A B : Word) (respReady : Bool) : MultiCycle.Regs (BitVec 64) :=
  MultiCycle.next latency s reqValid (A.setWidth 64 * B.setWidth 64) respReady

def Divider.next (latency : Nat) (s : MultiCycle.Regs (Word × Word)) (reqValid : Bool)
    (dividend divisor : Word) (respReady : Bool) : MultiCycle.Regs (Word × Word) :=
  MultiCycle.next latency s reqValid (dividend / divisor, dividend % divisor) respReady

end FpgaNpc
