import FpgaNpc.Riscv.ControlFlow

open FpgaNpc.Hardware

namespace FpgaNpc.Riscv

inductive Width
  | byte | half | word
  deriving DecidableEq

def Width.bytes : Width → Nat
  | .byte => 1
  | .half => 2
  | .word => 4

inductive AccessKind
  | load | store | amo
  deriving DecidableEq

namespace AccessKind

def reads : AccessKind → Bool
  | .load | .amo => true
  | .store => false

def writes : AccessKind → Bool
  | .load => false
  | .store | .amo => true

def misalignedCode : AccessKind → Nat
  | .load => 4
  | .store | .amo => 6

end AccessKind

/-- What an instruction does to the memory. LR is a load and SC a store. -/
structure Access where
  kind : AccessKind
  width : Width
  deriving DecidableEq

def Access.Misaligned (a : Access) (addr : Word) : Prop := addr.toNat % a.width.bytes ≠ 0

instance (a : Access) (addr : Word) : Decidable (a.Misaligned addr) :=
  inferInstanceAs (Decidable (_ ≠ _))

section Fields

variable (inst : Word)

def funct5 : BitVec 5 := inst.extractLsb 31 27

def loadWidth : Option Width :=
  if funct3 inst = 0b000 ∨ funct3 inst = 0b100 then some .byte
  else if funct3 inst = 0b001 ∨ funct3 inst = 0b101 then some .half
  else if funct3 inst = 0b010 then some .word
  else none

def storeWidth : Option Width :=
  if funct3 inst = 0b000 then some .byte
  else if funct3 inst = 0b001 then some .half
  else if funct3 inst = 0b010 then some .word
  else none

def amoKind : AccessKind :=
  if funct5 inst = 0b00010 then .load else if funct5 inst = 0b00011 then .store else .amo

def access : Option Access :=
  if opcode inst = 0b0000011 then (loadWidth inst).map fun w => ⟨.load, w⟩
  else if opcode inst = 0b0100011 then (storeWidth inst).map fun w => ⟨.store, w⟩
  else if opcode inst = 0b0101111 then
    if funct3 inst = 0b010 then some ⟨amoKind inst, .word⟩ else none
  else none

end Fields

end FpgaNpc.Riscv
