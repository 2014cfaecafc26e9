import FpgaNpc.Riscv.Integer
import FpgaNpc.Riscv.LoadStore

open FpgaNpc.Hardware

namespace FpgaNpc.Riscv

inductive Effect
  | nothing
  | write (rd : BitVec 5) (value : Word)
  | load (i : LoadInst) (rd : BitVec 5) (addr : Word)
  | store (w : Width) (addr data : Word)
  deriving DecidableEq

def Effect.Aligned : Effect → Prop
  | .nothing | .write .. => True
  | .load i _ addr => addr.toNat % i.width.bytes = 0
  | .store w addr _ => addr.toNat % w.bytes = 0

instance : ∀ e : Effect, Decidable e.Aligned
  | .nothing | .write .. => .isTrue trivial
  | .load .. | .store .. => inferInstanceAs (Decidable (_ = _))

/-- The instructions of RV32I, but for those that order accesses or ask for a trap. -/
inductive BaseInst
  | int (i : IntInst)
  | transfer (t : Transfer)
  | load (i : LoadInst)
  | store (w : Width)
  deriving DecidableEq

section Fields

variable (inst : Word)

def rs1 : BitVec 5 := inst.extractLsb 19 15

def rs2 : BitVec 5 := inst.extractLsb 24 20

def immS : Word := (inst.extractLsb 31 25 ++ inst.extractLsb 11 7).signExtend 32

def loadInst : Option LoadInst :=
  if opcode inst = 0b0000011 then
    if funct3 inst = 0b000 then some .LB
    else if funct3 inst = 0b001 then some .LH
    else if funct3 inst = 0b010 then some .LW
    else if funct3 inst = 0b100 then some .LBU
    else if funct3 inst = 0b101 then some .LHU
    else none
  else none

def storeInst : Option Width := if opcode inst = 0b0100011 then storeWidth inst else none

def baseInst : Option BaseInst :=
  (intInst inst).map .int <|> (transfer inst).map .transfer <|> (loadInst inst).map .load <|>
    (storeInst inst).map .store

end Fields

def BaseInst.effect (i : BaseInst) (inst pc a b : Word) : Effect :=
  match i with
  | .int i => .write (rd inst) (i.result inst pc a b)
  | .transfer (.branch _) => .nothing
  | .transfer .JAL | .transfer .JALR => .write (rd inst) (pc + 4)
  | .load i => .load i (rd inst) (a + immI inst)
  | .store w => .store w (a + immS inst) b

/-- The state of a hart: its pc, its registers with x0 among them, and the memory that its loads and
stores see. -/
structure Hart where
  pc : Word
  regs : BitVec 5 → Word
  mem : ByteMemory

namespace Hart

def set (h : Hart) (rd : BitVec 5) (value : Word) : Hart :=
  { h with regs := fun r => if r = rd ∧ r ≠ 0 then value else h.regs r }

def apply (h : Hart) : Effect → Hart
  | .nothing => h
  | .write rd value => h.set rd value
  | .load i rd addr => h.set rd (i.value h.mem addr)
  | .store w addr data => { h with mem := h.mem.store w addr data }

-- The program is a memory of its own, which no store reaches.
variable (prog : Word → Word) (h : Hart)

def inst : Word := prog h.pc

def op1 : Word := h.regs (rs1 (h.inst prog))

def op2 : Word := h.regs (rs2 (h.inst prog))

def effect : Option Effect :=
  if h.pc.toNat % 4 = 0 then
    ((baseInst (h.inst prog)).map fun i =>
      i.effect (h.inst prog) h.pc (h.op1 prog) (h.op2 prog)).filter fun e => e.Aligned
  else none

def nextPc : Word := Riscv.nextPc (h.inst prog) h.pc (h.op1 prog) (h.op2 prog)

def step : Option Hart :=
  (h.effect prog).map fun e => { h.apply e with pc := h.nextPc prog }

def run : Nat → Option Hart
  | 0 => some h
  | n + 1 => (run n).bind (step prog)

end Hart

section Hart

variable {prog : Word → Word} {h : Hart} {e : Effect}

theorem Hart.effect_spec (he : h.effect prog = some e) : h.pc.toNat % 4 = 0 ∧ e.Aligned ∧
    ∃ i, baseInst (h.inst prog) = some i ∧
      e = i.effect (h.inst prog) h.pc (h.op1 prog) (h.op2 prog) := by
  rw [effect] at he
  split at he
  case isFalse => cases he
  case isTrue hpc =>
    rw [Option.filter_eq_some_iff, Option.map_eq_some_iff] at he
    obtain ⟨⟨i, hi, rfl⟩, ha⟩ := he
    exact ⟨hpc, of_decide_eq_true ha, i, hi, rfl⟩

theorem Hart.step_eq (he : h.effect prog = some e) :
    h.step prog = some { h.apply e with pc := h.nextPc prog } := by
  rw [step, he, Option.map_some]

theorem Hart.effect_isSome (hs : (h.step prog).isSome) : ∃ e, h.effect prog = some e := by
  rwa [step, Option.isSome_map, Option.isSome_iff_exists] at hs

end Hart

end FpgaNpc.Riscv
