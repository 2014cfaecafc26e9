import FpgaNpc.Riscv.MExtension
import FpgaNpc.Riscv.MemoryAccess

open FpgaNpc.Hardware

namespace FpgaNpc.Riscv

inductive IntOp
  | ADD | SUB | SLL | SLT | SLTU | XOR | SRL | SRA | OR | AND
  deriving DecidableEq

def shamt (b : Word) : Nat := b.toNat % 32

def IntOp.result : IntOp → Word → Word → Word
  | .ADD, a, b => .ofNat 32 (a.toNat + b.toNat)
  | .SUB, a, b => .ofInt 32 (a.toNat - b.toNat)
  | .SLL, a, b => a <<< shamt b
  | .SLT, a, b => if a.toInt < b.toInt then 1 else 0
  | .SLTU, a, b => if a.toNat < b.toNat then 1 else 0
  | .XOR, a, b => a ^^^ b
  | .SRL, a, b => a >>> shamt b
  | .SRA, a, b => a.sshiftRight (shamt b)
  | .OR, a, b => a ||| b
  | .AND, a, b => a &&& b

inductive IntInst
  | LUI
  | AUIPC
  | imm (op : IntOp)
  | reg (op : IntOp)
  deriving DecidableEq

inductive MInst
  | mul (i : MulInst)
  | div (i : DivInst)
  deriving DecidableEq

def MInst.result : MInst → Word → Word → Word
  | .mul i => i.result
  | .div i => i.result

section Fields

variable (inst : Word)

def rd : BitVec 5 := inst.extractLsb 11 7

def funct7 : BitVec 7 := inst.extractLsb 31 25

def immU : Word := inst.extractLsb 31 12 ++ 0#12

/-- The operation of OP and OP-IMM where funct7 is zero or part of an immediate. -/
def plainOp : IntOp :=
  if funct3 inst = 0b000 then .ADD
  else if funct3 inst = 0b001 then .SLL
  else if funct3 inst = 0b010 then .SLT
  else if funct3 inst = 0b011 then .SLTU
  else if funct3 inst = 0b100 then .XOR
  else if funct3 inst = 0b101 then .SRL
  else if funct3 inst = 0b110 then .OR
  else .AND

def regOp : Option IntOp :=
  if funct7 inst = 0b0000000 then some (plainOp inst)
  else if funct7 inst = 0b0100000 then
    if funct3 inst = 0b000 then some .SUB
    else if funct3 inst = 0b101 then some .SRA
    else none
  else none

/-- Only the immediates of the shifts share their place with funct7. -/
def immOp : Option IntOp :=
  if funct3 inst = 0b001 then if funct7 inst = 0b0000000 then some .SLL else none
  else if funct3 inst = 0b101 then
    if funct7 inst = 0b0000000 then some .SRL
    else if funct7 inst = 0b0100000 then some .SRA
    else none
  else some (plainOp inst)

def intInst : Option IntInst :=
  if opcode inst = 0b0110111 then some .LUI
  else if opcode inst = 0b0010111 then some .AUIPC
  else if opcode inst = 0b0010011 then (immOp inst).map .imm
  else if opcode inst = 0b0110011 then (regOp inst).map .reg
  else none

def mOp : MInst :=
  if funct3 inst = 0b000 then .mul .MUL
  else if funct3 inst = 0b001 then .mul .MULH
  else if funct3 inst = 0b010 then .mul .MULHSU
  else if funct3 inst = 0b011 then .mul .MULHU
  else if funct3 inst = 0b100 then .div .DIV
  else if funct3 inst = 0b101 then .div .DIVU
  else if funct3 inst = 0b110 then .div .REM
  else .div .REMU

def mInst : Option MInst :=
  if opcode inst = 0b0110011 ∧ funct7 inst = 0b0000001 then some (mOp inst) else none

end Fields

def IntInst.result (i : IntInst) (inst pc rs1 rs2 : Word) : Word :=
  match i with
  | .LUI => immU inst
  | .AUIPC => pc + immU inst
  | .imm op => op.result rs1 (immI inst)
  | .reg op => op.result rs1 rs2

end FpgaNpc.Riscv
