import Mathlib.Logic.Function.Basic
import FpgaNpc.Core.IF

universe u

open FpgaNpc.Hardware FpgaNpc.InterStage

namespace FpgaNpc

structure BTBUpdateInfo where
  pc : Word
  actualTaken : Bool
  actualTarget : Word
  btbHitInfo : BitVec 2
  btbInfo : BTBLineInfo
  deriving DecidableEq

namespace BPU

section Ways

variable {α : Type u} (w : Bool) (v : α × α) (x : α)

def entry : α := if w then v.2 else v.1

def put : α × α := if w then (v.1, x) else (x, v.2)

@[simp] theorem entry_put : entry w (put w v x) = x := by
  cases w <;> rfl

@[simp] theorem entry_put_not : entry (!w) (put w v x) = entry (!w) v := by
  cases w <;> rfl

@[simp] theorem put_entry : put w v (entry w v) = v := by
  cases w <;> rfl

end Ways

abbrev Index := BitVec 4

abbrev Tag := BitVec 22

def index (pc : Word) : Index := pc.extractLsb 4 1

def getBTBTag (addr : Word) : Tag := addr.extractLsb 23 2

/-- The valid bits and the lines, with an element for each of the two ways in both. -/
structure Regs where
  valids : Index → Bool × Bool
  infoRam : Index → BTBLineInfo

structure Inputs where
  pc : Word
  btbUpdateInfo : Irrevocable BTBUpdateInfo

section Lookup

variable (s : Regs) (pc : Word)

def btbInfo : BTBLineInfo := s.infoRam (index pc)

def btbValids : Bool × Bool := s.valids (index pc)

def hits (w : Bool) : Bool :=
  entry w (btbValids s pc) && entry w (btbInfo s pc).bia == getBTBTag pc

def hit : Bool := hits s pc false || hits s pc true

def branchPredTarget : Word :=
  Mux1H [(hits s pc false, (btbInfo s pc).bta.1), (hits s pc true, (btbInfo s pc).bta.2)]

def tracker : BitVec 2 :=
  Mux1H [(hits s pc false, (btbInfo s pc).tracker.1), (hits s pc true, (btbInfo s pc).tracker.2)]

def branchPredReq : IF.BranchPredResp where
  branchPred := (tracker s pc).getLsbD 1 && hit s pc
  branchPredTarget := branchPredTarget s pc
  btbInfo := btbInfo s pc
  btbHitInfo := bit (hits s pc true) ++ bit (hits s pc false)

end Lookup

section Update

variable (u : BTBUpdateInfo)

def updateWay : Bool :=
  if orR u.btbHitInfo then u.btbHitInfo.getLsbD 1 else u.btbInfo.lru.getLsbD 0

def oldTracker : BitVec 2 :=
  if orR u.btbHitInfo then entry (updateWay u) u.btbInfo.tracker else 1

def newTracker : BitVec 2 :=
  if u.actualTaken then if oldTracker u = 3 then 3 else oldTracker u + 1
  else if oldTracker u = 0 then 0 else oldTracker u - 1

def newInfo : BTBLineInfo where
  lru := bit (!updateWay u)
  bia := put (updateWay u) u.btbInfo.bia (getBTBTag u.pc)
  tracker := put (updateWay u) u.btbInfo.tracker (newTracker u)
  bta := put (updateWay u) u.btbInfo.bta u.actualTarget

end Update

def btbUpdateInfoReady : Bool := true

def btbUpdateInfoFire (io : Inputs) : Bool := io.btbUpdateInfo.valid && btbUpdateInfoReady

/-- The valid bit is set in every cycle, whether there is an update or not. -/
def next (s : Regs) (io : Inputs) : Regs :=
  let u := io.btbUpdateInfo.bits
  { valids := Function.update s.valids (index u.pc)
      (put (updateWay u) (s.valids (index u.pc)) true)
    infoRam := if btbUpdateInfoFire io then Function.update s.infoRam (index u.pc) (newInfo u)
      else s.infoRam }

/-- The lines have no reset value. -/
def machine : Machine Regs Inputs where
  IsReset s := s.valids = fun _ => (false, false)
  next := next

def Regs.zeros : Regs := ⟨fun _ => (false, false), fun _ => .zero⟩

section Hits

variable {s : Regs} {pc : Word} {w : Bool}

theorem hit_of_hits (hh : hits s pc w = true) : hit s pc = true := by
  cases w <;> simp [hit, hh]

theorem exists_hits (hh : hit s pc = true) : ∃ w, hits s pc w = true := by
  rw [hit, Bool.or_eq_true] at hh
  exact hh.elim (fun hf => ⟨_, hf⟩) fun ht => ⟨_, ht⟩

theorem tracker_of_hits (hh : hits s pc w = true)
    (hboth : ¬(hits s pc false = true ∧ hits s pc true = true)) :
    tracker s pc = entry w (btbInfo s pc).tracker ∧
      branchPredTarget s pc = entry w (btbInfo s pc).bta := by
  cases w
  case false =>
    have ht : hits s pc true = false := by simpa [hh] using hboth
    simp [tracker, branchPredTarget, Mux1H, hh, ht, entry]
  case true =>
    have hf : hits s pc false = false := by simpa [hh] using hboth
    simp [tracker, branchPredTarget, Mux1H, hh, hf, entry]

end Hits

section Sets

variable {s : Regs} {io : Inputs} {i : Index}

theorem next_valids : (next s io).valids i = if i = index io.btbUpdateInfo.bits.pc then
    put (updateWay io.btbUpdateInfo.bits) (s.valids i) true else s.valids i := by
  simp only [next, Function.update_apply]
  split
  case isTrue h => rw [h]
  case isFalse => rfl

theorem next_infoRam : (next s io).infoRam i =
    if btbUpdateInfoFire io = true ∧ i = index io.btbUpdateInfo.bits.pc then
      newInfo io.btbUpdateInfo.bits else s.infoRam i := by
  cases hf : btbUpdateInfoFire io <;> simp [next, hf, Function.update_apply]

theorem next_of_other (h : i ≠ index io.btbUpdateInfo.bits.pc) :
    (next s io).valids i = s.valids i ∧ (next s io).infoRam i = s.infoRam i := by
  rw [next_valids, next_infoRam, if_neg h, if_neg fun ⟨_, hi⟩ => h hi]
  exact ⟨rfl, rfl⟩

theorem next_of_idle (hf : btbUpdateInfoFire io = false)
    (hv : entry (updateWay io.btbUpdateInfo.bits) (s.valids (index io.btbUpdateInfo.bits.pc)) =
      true) : next s io = s := by
  have hput : put (updateWay io.btbUpdateInfo.bits)
      (s.valids (index io.btbUpdateInfo.bits.pc)) true =
        s.valids (index io.btbUpdateInfo.bits.pc) := by
    rw [← hv, put_entry]
  simp only [next, hput, hf, Function.update_eq_self, Bool.false_eq_true, if_false]

theorem next_of_fire (hf : btbUpdateInfoFire io = true) :
    (next s io).valids (index io.btbUpdateInfo.bits.pc) =
        put (updateWay io.btbUpdateInfo.bits) (s.valids (index io.btbUpdateInfo.bits.pc)) true ∧
      (next s io).infoRam (index io.btbUpdateInfo.bits.pc) = newInfo io.btbUpdateInfo.bits := by
  rw [next_valids, next_infoRam, if_pos rfl, if_pos ⟨hf, rfl⟩]
  exact ⟨rfl, rfl⟩

end Sets

end BPU

end FpgaNpc
