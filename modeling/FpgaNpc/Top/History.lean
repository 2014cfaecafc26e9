import FpgaNpc.Core.Commit
import FpgaNpc.Core.Fetch
import FpgaNpc.Top.Reads

open FpgaNpc.Hardware FpgaNpc.InterStage FpgaNpc.SRAMLike

namespace FpgaNpc.Top

open Memory (Store)

/-- What a run has seen: the stores issued, and how many of them before the last FENCE.I that left
EXE; the addresses that the words in IF, ID and EXE come from; what the memory has read of the
block that comes in; and what it has read for the cache since the FENCE.I in EXE left ID, with
what there was then of a block that was coming in. -/
structure History where
  issued : List Store
  fence : Option Nat
  ifFrom : Word
  idFrom : Word
  exeFrom : Word
  refill : List (BitVec 30 × Word)
  since : List (BitVec 30 × Word)

def History.none : History := ⟨[], .none, 0, 0, 0, [], []⟩

variable (B : Core.Build) (image : BitVec 30 → Word) (s : Regs) (io : Inputs) (h : History)

def isFencei (inst : Word) : Bool := decide (Instructions.FENCEI.Matches inst)

def fenceEnters : Bool :=
  Core.toEXEFire B s.core (coreInputs image s io) &&
    isFencei (Core.toEXE B s.core (coreInputs image s io)).inst &&
    !(Core.toEXE B s.core (coreInputs image s io)).nop

def fenceLeaves : Bool :=
  Core.toMEMFire B s.core (coreInputs image s io) &&
    isFencei s.core.exeStage.fromID.inst &&
    !(Core.toMEM B s.core (coreInputs image s io)).nop

def fetched : List (BitVec 30 × Word) :=
  if (next B image s io).memory.id = 0 then
    Memory.read image s.memory (s.memory.left.take io.memory.reads ++
      (Memory.newLeft io.memory (bus B image s io)).take io.memory.reads)
  else []

def refillBegins : Bool :=
  s.icache.state == .IDLE && ICache.arToMemFire s.icache (icacheInputs B image s io)

def refillNext : List (BitVec 30 × Word) :=
  (if refillBegins B image s io then [] else h.refill) ++ fetched B image s io

def Refilling : Prop := s.icache.state = .READ ∨ s.icache.state = .COMMIT

instance : Decidable (Refilling s) := inferInstanceAs (Decidable (_ ∨ _))

def History.observe : History where
  issued := h.issued ++ issues image s io
  fence := if fenceLeaves B image s io then some h.issued.length else h.fence
  ifFrom := if IF.rFire s.core.ifStage (coreInputs image s io).port then s.icache.req.addr
    else h.ifFrom
  idFrom := if Core.toIDFire B s.core (coreInputs image s io) then
      if IF.rFire s.core.ifStage (coreInputs image s io).port then s.icache.req.addr else h.ifFrom
    else h.idFrom
  exeFrom := if Core.toEXEFire B s.core (coreInputs image s io) then h.idFrom else h.exeFrom
  refill := refillNext B image s io h
  since := if fenceEnters B image s io then
      if refillBegins B image s io = true ∨ Refilling s then refillNext B image s io h else []
    else h.since ++ fetched B image s io

def observed : Machine (Regs × History) Inputs :=
  (machine B image).monitor .none (History.observe B image)

/-- What leaves EXE alive is the word at its address with the stores issued before the last
FENCE.I made, and with all, some or none of the later ones. -/
def Fresh : Prop :=
  Core.toMEMFire B s.core (coreInputs image s io) = true →
    (Core.toMEM B s.core (coreInputs image s io)).nop = false →
    ∀ n ∈ h.fence, (Memory.medium image).Seen h.issued n (ICache.wordAddr h.exeFrom)
      s.core.exeStage.fromID.inst

/-- The cycles in which the cache and IF keep pace with a FENCE.I. When it leaves EXE, what the
memory has read for the cache since it left ID is what the memory holds, and IF has its word
and has asked for the next. From then on IF hands over nothing whose word has not come, and the
arbiter forwards the fetches that it grants. -/
structure Synchronised : Prop where
  current : fenceLeaves B image s io = true →
    ∀ x ∈ h.since, x.2 = Memory.look image s.memory x.1
  taken : fenceLeaves B image s io = true →
    IF.instValid s.core.ifStage (coreInputs image s io).port = true ∧
      IF.reqValid s.core.ifStage (coreInputs image s io).port = true
  arrived : h.fence.isSome = true → Core.toIDFire B s.core (coreInputs image s io) = true →
    (Core.toID B s.core (coreInputs image s io)).nop = false →
    IF.instValid s.core.ifStage (coreInputs image s io).port = true
  forwarded : ¬Arbiter.FetchesAwReqBusy s.arbiter (arbiterInputs B image s io)

instance : Decidable (Fresh B image s io h) := inferInstanceAs (Decidable (_ → _ → _))

instance : Decidable (Synchronised B image s io h) :=
  -- the words read are enumerated, not all words
  letI : Decidable (∀ x ∈ h.since, x.2 = Memory.look image s.memory x.1) :=
    List.decidableBAll _ _
  decidable_of_iff ((fenceLeaves B image s io = true →
        ∀ x ∈ h.since, x.2 = Memory.look image s.memory x.1) ∧
      (fenceLeaves B image s io = true →
        IF.instValid s.core.ifStage (coreInputs image s io).port = true ∧
          IF.reqValid s.core.ifStage (coreInputs image s io).port = true) ∧
      (h.fence.isSome = true → Core.toIDFire B s.core (coreInputs image s io) = true →
        (Core.toID B s.core (coreInputs image s io)).nop = false →
        IF.instValid s.core.ifStage (coreInputs image s io).port = true) ∧
      ¬Arbiter.FetchesAwReqBusy s.arbiter (arbiterInputs B image s io))
    ⟨fun ⟨hc, ht, ha, hf⟩ => ⟨hc, ht, ha, hf⟩, fun ⟨hc, ht, ha, hf⟩ => ⟨hc, ht, ha, hf⟩⟩

/-- What was in the memory with the stores before the last FENCE.I made. -/
def Since (a : BitVec 30) (w : Word) : Prop :=
  ∀ n ∈ h.fence, (Memory.medium image).Seen s.memory.settled n a w

def FenceInEXE : Prop :=
  s.core.exeStage.fromID.nop = false ∧ isFencei s.core.exeStage.fromID.inst = true

/-- IF has its word and has asked for the next. -/
def IFFull : Prop := s.core.ifStage.reqFired = true ∧ s.core.ifStage.instGetted = true

variable {B : Core.Build} {image : BitVec 30 → Word} {s : Regs} {io : Inputs} {h : History}

section Pipeline

theorem fenceLeaves_spec (hl : fenceLeaves B image s io = true) :
    Core.toMEMFire B s.core (coreInputs image s io) = true ∧
      (Core.toMEM B s.core (coreInputs image s io)).nop = false ∧ FenceInEXE s := by
  simp only [fenceLeaves, Bool.and_eq_true, Bool.not_eq_true'] at hl
  obtain ⟨⟨hfire, hinst⟩, hnop⟩ := hl
  refine ⟨hfire, hnop, ?_, hinst⟩
  have hnop' : (s.core.exeStage.fromID.nop || _ || _ || _) = false := hnop
  simp only [Bool.or_eq_false_iff] at hnop'
  exact hnop'.1.1.1

theorem flush_of_leaves (hl : fenceLeaves B image s io = true)
    (hd : s.core.exeStage.fromID.decodeBundle.fencei = true) :
    Core.flush B s.core (coreInputs image s io) = true := by
  have hnop : EXE.nop s.core.exeStage (Core.exeInputs B s.core (coreInputs image s io)) = false :=
    (fenceLeaves_spec hl).2.1
  simp [Core.flush, EXE.flush, EXE.jumpBusValid, hnop, hd]

theorem toIDFire_eq (B : Core.Build) (image : BitVec 30 → Word) (s : Regs) (io : Inputs) :
    Core.toIDFire B s.core (coreInputs image s io) =
      (IF.toIDValid B.config s.core.ifStage (coreInputs image s io).port &&
        (Core.toEXEFire B s.core (coreInputs image s io) &&
          !ID.stall (Core.idInputs B s.core (coreInputs image s io)))) := rfl

theorem toIDFire_of_leaves (hl : fenceLeaves B image s io = true)
    (hw : s.core.exeStage.fromID.decodeBundle.regWrite = false)
    (hvalid : IF.instValid s.core.ifStage (coreInputs image s io).port = true ∧
      IF.reqValid s.core.ifStage (coreInputs image s io).port = true) :
    Core.toIDFire B s.core (coreInputs image s io) = true := by
  have hfire := (fenceLeaves_spec hl).1
  have hstall : ID.stall (Core.idInputs B s.core (coreInputs image s io)) = false := by
    by_contra hst
    obtain ⟨-, rs, -, hm⟩ := Core.stall_spec (Core.toWBFire_of_toMEMFire hfire)
      (Bool.not_eq_false _ ▸ hst)
    simp [BypassNetwork.matched, EXE.bypass, hw] at hm
  rw [toIDFire_eq, Core.toEXEFire_eq, hfire, hstall]
  simp [IF.toIDValid, hvalid]

theorem fenceEnters_spec (he : fenceEnters B image s io = true) :
    Core.toEXEFire B s.core (coreInputs image s io) = true ∧
      isFencei s.core.idStage.fromIF.inst = true ∧
      (Core.toEXE B s.core (coreInputs image s io)).nop = false := by
  simp only [fenceEnters, Bool.and_eq_true, Bool.not_eq_true'] at he
  exact ⟨he.1.1, he.1.2, he.2⟩

theorem fencei_of_enters (he : fenceEnters B image s io = true) :
    (icacheInputs B image s io).fencei = true :=
  (B.decoder.fencei_row (of_decide_eq_true (fenceEnters_spec he).2.1)).1

theorem next_fromID (B : Core.Build) (image : BitVec 30 → Word) (s : Regs) (io : Inputs) :
    (next B image s io).core.exeStage.fromID =
    if Core.toEXEFire B s.core (coreInputs image s io) then
      Core.toEXE B s.core (coreInputs image s io)
    else s.core.exeStage.fromID := by
  rw [Core.toEXEFire_eq]
  exact Core.next_fromID _ _ _

theorem fenceInEXE_next (hf : FenceInEXE (next B image s io)) :
    fenceEnters B image s io = true ∨
      FenceInEXE s ∧ fenceEnters B image s io = false ∧
        Core.toEXEFire B s.core (coreInputs image s io) = false := by
  rw [FenceInEXE, next_fromID] at hf
  cases hfire : Core.toEXEFire B s.core (coreInputs image s io)
  case true =>
    simp only [hfire, if_true] at hf
    exact .inl (by simp [fenceEnters, hfire, hf])
  case false =>
    simp only [hfire, Bool.false_eq_true, if_false] at hf
    exact .inr ⟨hf, by simp [fenceEnters, hfire], rfl⟩

theorem next_ifStage_of_fire (hfire : Core.toIDFire B s.core (coreInputs image s io) = true) :
    (next B image s io).core.ifStage.reqFired = false ∧
      (next B image s io).core.ifStage.instGetted = false := by
  have hnext : (next B image s io).core.ifStage = _ := IF.next_of_fire hfire
  rw [hnext]
  exact ⟨rfl, rfl⟩

theorem next_ifStage_of_wait (hfire : Core.toIDFire B s.core (coreInputs image s io) = false) :
    (next B image s io).core.ifStage.reqFired =
        IF.reqValid s.core.ifStage (coreInputs image s io).port ∧
      (next B image s io).core.ifStage.instGetted =
        IF.instValid s.core.ifStage (coreInputs image s io).port := by
  have hnext : (next B image s io).core.ifStage = _ := IF.next_of_wait hfire
  rw [hnext]
  exact ⟨rfl, rfl⟩

theorem not_full_of_enters (he : fenceEnters B image s io = true) :
    ¬IFFull (next B image s io) := by
  rintro ⟨hreq, hinst⟩
  obtain ⟨hfire, -, hnop⟩ := fenceEnters_spec he
  cases hid : Core.toIDFire B s.core (coreInputs image s io)
  case true => simp [(next_ifStage_of_fire hid).1] at hreq
  case false =>
    obtain ⟨hreq', hinst'⟩ := next_ifStage_of_wait hid
    rw [hreq'] at hreq
    rw [hinst'] at hinst
    rw [toIDFire_eq, hfire, (Core.toEXE_alive hnop).2.1] at hid
    simp [IF.toIDValid, hreq, hinst] at hid

end Pipeline

section Words

theorem Since.of_none {a : BitVec 30} {w : Word} (hf : h.fence = none) : Since image s h a w :=
  fun n hn => by simp [hf] at hn

theorem settled_next (B : Core.Build) (image : BitVec 30 → Word) (s : Regs) (io : Inputs) :
    (next B image s io).memory.settled = s.memory.settled ++
      (Memory.settling s.memory io.memory (bus B image s io)).toList := rfl

theorem Since.next {a : BitVec 30} {w : Word} (hs : Since image s h a w)
    (hl : fenceLeaves B image s io = false) :
    Since image (next B image s io) (h.observe B image s io) a w := by
  intro n hn
  have hfence : (h.observe B image s io).fence = h.fence := by simp [History.observe, hl]
  rw [settled_next]
  exact (hs n (hfence ▸ hn)).append _

theorem refillBegins_spec (hb : refillBegins B image s io = true) : s.icache.state = .IDLE := by
  rw [refillBegins, Bool.and_eq_true, beq_iff_eq] at hb
  exact hb.1

theorem mem_fetched {x : BitVec 30 × Word} (hx : x ∈ fetched B image s io) :
    x.2 = Memory.look image s.memory x.1 := by
  rw [fetched] at hx
  split at hx
  · simp only [Memory.read, List.mem_map] at hx
    obtain ⟨a, -, rfl⟩ := hx
    rfl
  · simp at hx

theorem mem_refillNext {x : BitVec 30 × Word} (hx : x ∈ refillNext B image s io h) :
    (x ∈ h.refill ∧ refillBegins B image s io = false) ∨ x ∈ fetched B image s io := by
  rw [refillNext, List.mem_append] at hx
  refine hx.imp_left fun hx => ?_
  cases hb : refillBegins B image s io
  case true => simp [hb] at hx
  case false => simpa [hb] using hx

theorem refilling_next (hr : Refilling (next B image s io)) :
    Refilling s ∨ refillBegins B image s io = true := by
  have hst : (next B image s io).icache.state =
    ICache.nextState s.icache (icacheInputs B image s io) := rfl
  rw [Refilling, hst] at hr
  cases hs : s.icache.state
  case READ => exact .inl (.inl hs)
  case COMMIT => exact .inl (.inr hs)
  case IDLE =>
    refine .inr ?_
    cases ha : ICache.arToMemFire s.icache (icacheInputs B image s io)
    case true => simp [refillBegins, hs, ha]
    case false => simp [ICache.nextState, hs, ha] at hr
  case FINISH =>
    simp only [ICache.nextState, hs] at hr
    split at hr <;> simp at hr

end Words

end FpgaNpc.Top
