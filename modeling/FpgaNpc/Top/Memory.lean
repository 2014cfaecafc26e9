import FpgaNpc.Cache.Refill
import FpgaNpc.Hardware.Medium
import FpgaNpc.Peripheral.Arbiter
import FpgaNpc.Utils.RegMap

open FpgaNpc.Hardware FpgaNpc.AXI4

namespace FpgaNpc.Memory

structure Store where
  addr : Word
  data : Word
  strb : BitVec 4
  deriving DecidableEq

/-- Words of four bytes, of which a store replaces those that its strobe names. -/
def medium (image : BitVec 30 → Word) : Medium Store (BitVec 30) Word where
  image := image
  addr u := ICache.wordAddr u.addr
  put u old := MaskData old u.data (MaskExpand u.strb)

/-- The memory behind the arbiter: the stores that have taken effect, the write that has come in
on its two channels so far, whether a store that has taken effect waits for its B, and of the
read in progress the words still to be read and those read and not handed over. -/
structure Regs where
  settled : List Store
  aw : Option AW
  w : Option W
  unanswered : Bool
  id : BitVec 4
  left : List (BitVec 30)
  words : List (BitVec 30 × Word)

/-- What the memory is free to do in a cycle: which channels are ready, how many words of the
read it reads, whether the write that it has takes effect, and what it answers. -/
structure Inputs where
  arReady : Bool
  awReady : Bool
  wReady : Bool
  reads : Nat
  settles : Bool
  answersR : Bool
  answersB : Bool

variable (image : BitVec 30 → Word) (s : Regs) (io : Inputs) (bus : Master)

def look (a : BitVec 30) : Word := (medium image).after s.settled a

def read (as : List (BitVec 30)) : List (BitVec 30 × Word) := as.map fun a => (a, look image s a)

def wordsNow : List (BitVec 30 × Word) := s.words ++ read image s (s.left.take io.reads)

def r : Irrevocable R :=
  match wordsNow image s io with
  | [] => ⟨false, default⟩
  | (_, d) :: rest => ⟨io.answersR, ⟨0, d, rest.isEmpty && s.left.length ≤ io.reads, s.id⟩⟩

def b : Irrevocable B := ⟨io.answersB && s.unanswered, ⟨0, 1⟩⟩

def arFire : Bool := bus.ar.valid && io.arReady

def rFire : Bool := (r image s io).valid && bus.rReady

def bFire : Bool := (b s io).valid && bus.bReady

def awNow : Option AW := if bus.aw.valid && io.awReady then some bus.aw.bits else s.aw

def wNow : Option W := if bus.w.valid && io.wReady then some bus.w.bits else s.w

def settling : Option Store :=
  match awNow s io bus, wNow s io bus with
  | some aw, some w => if io.settles then some ⟨aw.addr, w.data, w.strb⟩ else none
  | _, _ => none

def asked (ar : AR) : List (BitVec 30) :=
  (List.range (ar.len.toNat + 1)).map fun k => ICache.wordAddr ar.addr + BitVec.ofNat 30 k

def newLeft : List (BitVec 30) := if arFire io bus then asked bus.ar.bits else []

def reset : Regs := ⟨[], none, none, false, 0, [], []⟩

def next : Regs where
  settled := s.settled ++ (settling s io bus).toList
  aw := if (settling s io bus).isSome then none else awNow s io bus
  w := if (settling s io bus).isSome then none else wNow s io bus
  unanswered := if (settling s io bus).isSome then true
    else if bFire s io bus then false else s.unanswered
  id := if arFire io bus then bus.ar.bits.id else s.id
  left := s.left.drop io.reads ++ (newLeft io bus).drop io.reads
  words := (if rFire image s io bus then (wordsNow image s io).tail else wordsNow image s io) ++
    read image s ((newLeft io bus).take io.reads)

section Laws

variable {image : BitVec 30 → Word} {s : Regs} {io : Inputs} {bus : Master}

def owed (s : Regs) : List (BitVec 30) := s.words.map Prod.fst ++ s.left

theorem map_fst_read (as : List (BitVec 30)) : (read image s as).map Prod.fst = as := by
  simp [read, Function.comp_def]

theorem owed_eq (image : BitVec 30 → Word) (s : Regs) (io : Inputs) :
    owed s = (wordsNow image s io).map Prod.fst ++ s.left.drop io.reads := by
  rw [wordsNow, List.map_append, map_fst_read, List.append_assoc, List.take_append_drop]
  rfl

theorem r_spec (h : (r image s io).valid = true) : ∃ a rest,
    wordsNow image s io = (a, (r image s io).bits.data) :: rest ∧
      (r image s io).bits.id = s.id ∧
      (r image s io).bits.last = (rest.isEmpty && s.left.length ≤ io.reads) := by
  cases hw : wordsNow image s io with
  | nil => simp [r, hw] at h
  | cons x rest => exact ⟨x.1, rest, by simp [r, hw], by simp [r, hw], by simp [r, hw]⟩

theorem r_valid_of_owed (h : owed s = []) : (r image s io).valid = false := by
  rw [owed_eq image s io, List.append_eq_nil_iff, List.map_eq_nil_iff] at h
  simp [r, h.1]

theorem tail_owed_of_last (h : (r image s io).valid = true)
    (hl : (r image s io).bits.last = true) : (owed s).tail = [] := by
  obtain ⟨a, rest, hw, -, hlast⟩ := r_spec h
  rw [hlast, Bool.and_eq_true, List.isEmpty_iff, decide_eq_true_eq] at hl
  rw [owed_eq image s io, hw, hl.1, List.drop_eq_nil_of_le hl.2]
  rfl

theorem owed_next (h : arFire io bus = true → owed s = []) : owed (next image s io bus) =
    (if rFire image s io bus then (owed s).tail else owed s) ++ newLeft io bus := by
  cases ha : arFire io bus
  case true =>
    have hnil := h ha
    have hr : rFire image s io bus = false := by simp [rFire, r_valid_of_owed hnil]
    rw [hnil, hr]
    rw [owed_eq image s io, List.append_eq_nil_iff, List.map_eq_nil_iff] at hnil
    simp [owed, next, hr, hnil, map_fst_read]
  case false =>
    have hnew : newLeft io bus = [] := by simp [newLeft, ha]
    rw [hnew, List.append_nil]
    cases hr : rFire image s io bus
    case true =>
      obtain ⟨a, rest, hw, -⟩ := r_spec (by simp_all [rFire] : (r image s io).valid = true)
      rw [owed_eq image s io]
      simp [owed, next, hr, hw, hnew, read]
    case false =>
      rw [owed_eq image s io]
      simp [owed, next, hr, hnew, read]

theorem settling_of_half (h : awNow s io bus = none ∨ wNow s io bus = none) :
    settling s io bus = none := by
  unfold settling
  split
  case h_1 haw hw => simp [haw, hw] at h
  case h_2 => rfl

theorem next_of_half (image : BitVec 30 → Word)
    (h : awNow s io bus = none ∨ wNow s io bus = none) :
    (next image s io bus).settled = s.settled ∧ (next image s io bus).aw = awNow s io bus ∧
      (next image s io bus).w = wNow s io bus ∧
      (next image s io bus).unanswered = (!bFire s io bus && s.unanswered) := by
  have hs := settling_of_half h
  cases hb : bFire s io bus <;> simp [next, hs, hb]

end Laws

end FpgaNpc.Memory
