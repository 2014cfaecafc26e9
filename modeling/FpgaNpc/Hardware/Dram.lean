import Mathlib.Logic.Function.Basic

universe u v

namespace FpgaNpc.Hardware.Dram

/-- How many cycles a bank needs after its row was opened or closed, and every bank after a
refresh, until it takes the next command. -/
structure Timing where
  tRCD : Nat
  tRP : Nat
  tRFC : Nat

variable {β : Type u} {ρ : Type v}

inductive Command (β : Type u) (ρ : Type v)
  | nop | active (b : β) (r : ρ) | read (b : β) | write (b : β)
  | precharge (b : β) | prechargeAll | refresh | loadMode

/-- How far the device is set up: nothing is known of its banks at first; then all were closed and
so many refreshes were made; then the mode register is loaded. -/
inductive Phase
  | powerUp | precharged (refreshes : Nat) | ready
  deriving DecidableEq

/-- A device with its open rows and the number of cycles for which each bank takes no command. -/
structure Device (β : Type u) (ρ : Type v) where
  phase : Phase
  row : β → Option ρ
  busy : β → Nat

namespace Device

variable (T : Timing) (d : Device β ρ)

def Closed : Prop := ∀ b, d.row b = none ∧ d.busy b = 0

def Legal : Command β ρ → Prop
  | .nop => True
  | .active b _ => d.phase = .ready ∧ d.row b = none ∧ d.busy b = 0
  | .read b => d.phase = .ready ∧ (d.row b).isSome ∧ d.busy b = 0
  | .write b => d.phase = .ready ∧ (d.row b).isSome ∧ d.busy b = 0
  | .precharge b => d.phase = .ready ∧ d.busy b = 0
  | .prechargeAll => ∀ b, d.busy b = 0
  | .refresh => d.phase ≠ .powerUp ∧ d.Closed
  | .loadMode => (∃ n, 2 ≤ n ∧ d.phase = .precharged n) ∧ d.Closed

def tick : Device β ρ := { d with busy := fun b => d.busy b - 1 }

def after [DecidableEq β] : Command β ρ → Device β ρ
  | .active b r =>
    { d.tick with
      row := Function.update d.row b (some r)
      busy := Function.update d.tick.busy b (T.tRCD - 1) }
  | .precharge b =>
    { d.tick with
      row := Function.update d.row b none
      busy := Function.update d.tick.busy b (T.tRP - 1) }
  | .prechargeAll =>
    ⟨if d.phase = .powerUp then .precharged 0 else d.phase, fun _ => none, fun _ => T.tRP - 1⟩
  | .refresh =>
    { d with
      phase := match d.phase with
        | .precharged n => .precharged (n + 1)
        | p => p
      busy := fun _ => T.tRFC - 1 }
  | .loadMode => { d.tick with phase := .ready }
  | _ => d.tick

end Device

end FpgaNpc.Hardware.Dram
