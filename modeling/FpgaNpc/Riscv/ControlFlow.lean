import FpgaNpc.Hardware.Chisel

open FpgaNpc.Hardware

namespace FpgaNpc.Riscv

inductive BranchInst
  | BEQ | BNE | BLT | BGE | BLTU | BGEU
  deriving DecidableEq

def BranchInst.taken : BranchInst → Word → Word → Bool
  | .BEQ, a, b => decide (a = b)
  | .BNE, a, b => decide (a ≠ b)
  | .BLT, a, b => decide (a.toInt < b.toInt)
  | .BGE, a, b => decide (b.toInt ≤ a.toInt)
  | .BLTU, a, b => decide (a.toNat < b.toNat)
  | .BGEU, a, b => decide (b.toNat ≤ a.toNat)

inductive Transfer
  | JAL
  | JALR
  | branch (i : BranchInst)
  deriving DecidableEq

section Fields

variable (inst : Word)

def opcode : BitVec 7 := inst.extractLsb 6 0

def funct3 : BitVec 3 := inst.extractLsb 14 12

def immI : Word := (inst.extractLsb 31 20).signExtend 32

def immB : Word :=
  (inst.extractLsb 31 31 ++ inst.extractLsb 7 7 ++ inst.extractLsb 30 25 ++
    inst.extractLsb 11 8 ++ 0#1).signExtend 32

def immJ : Word :=
  (inst.extractLsb 31 31 ++ inst.extractLsb 19 12 ++ inst.extractLsb 20 20 ++
    inst.extractLsb 30 21 ++ 0#1).signExtend 32

def branchInst : Option BranchInst :=
  if funct3 inst = 0b000 then some .BEQ
  else if funct3 inst = 0b001 then some .BNE
  else if funct3 inst = 0b100 then some .BLT
  else if funct3 inst = 0b101 then some .BGE
  else if funct3 inst = 0b110 then some .BLTU
  else if funct3 inst = 0b111 then some .BGEU
  else none

def transfer : Option Transfer :=
  if opcode inst = 0b1101111 then some .JAL
  else if opcode inst = 0b1100111 then if funct3 inst = 0b000 then some .JALR else none
  else if opcode inst = 0b1100011 then (branchInst inst).map .branch
  else none

end Fields

namespace Transfer

variable (t : Transfer) (inst pc rs1 rs2 : Word)

def taken : Bool :=
  match t with
  | .JAL | .JALR => true
  | .branch i => i.taken rs1 rs2

def sum : Word :=
  match t with
  | .JAL => pc + immJ inst
  | .JALR => rs1 + immI inst
  | .branch _ => pc + immB inst

/-- JALR clears bit 0 of the sum. -/
def target : Word := if t = .JALR then t.sum inst pc rs1 &&& ~~~1#32 else t.sum inst pc rs1

end Transfer

def nextPc (inst pc rs1 rs2 : Word) : Word :=
  match transfer inst with
  | some t => if t.taken rs1 rs2 then t.target inst pc rs1 else pc + 4
  | none => pc + 4

theorem signExtend_append {m n : Nat} (k : Nat) (x : BitVec (m + 1)) (y : BitVec n) :
    (x ++ y).signExtend (k + n) = x.signExtend k ++ y := by
  apply BitVec.eq_of_getLsbD_eq
  intro i hi
  rw [BitVec.getLsbD_signExtend, BitVec.getLsbD_append, BitVec.getLsbD_append]
  by_cases h : i < n
  · have hmn : i < m + 1 + n := by omega
    simp [h, hi, hmn]
  · have hmsb : (x ++ y).msb = x.msb := by simp [BitVec.msb_append]
    have hk : i - n < k := by omega
    rw [BitVec.getLsbD_signExtend, hmsb]
    simp only [h, hi, hk, decide_true, Bool.true_and, if_false]
    congr 1
    exact propext (by omega)

end FpgaNpc.Riscv
