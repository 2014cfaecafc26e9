import FpgaNpc.Top.History

open FpgaNpc.Hardware FpgaNpc.InterStage FpgaNpc.SRAMLike

namespace FpgaNpc.Top

variable (image : BitVec 30 → Word) (s : Regs) (h : History)

def InLine (a : BitVec 30) (w : Word) : Prop :=
  Since image s h a w ∧ (FenceInEXE s → (a, w) ∈ h.since)

def Answer (a : BitVec 30) (w : Word) : Prop :=
  Since image s h a w ∧ (FenceInEXE s → IFFull s → (a, w) ∈ h.since)

/-- The words in the cache, in IF, in ID and in EXE were in the memory since the last FENCE.I, and
those in the cache are no older than the one that is in EXE. -/
structure FenceInv : Prop where
  connected : ∃ g, BusInv s h.issued g
  cache : ICache.Phase (InLine image s h) (fun a w => (a, w) ∈ h.refill) (Answer image s h) s.icache
    (icacheOwed s)
  len : s.icache.req.len = 0
  words : s.memory.id = 0 → ∀ x ∈ s.memory.words, x ∈ h.refill
  refill : Refilling s → ∀ x ∈ h.refill, Since image s h x.1 x.2
  refillSince : Refilling s → FenceInEXE s → ∀ x ∈ h.refill, x ∈ h.since
  fence : ∀ n ∈ h.fence, n ≤ s.memory.settled.length
  inIF : s.core.ifStage.instGetted = true →
    Since image s h (ICache.wordAddr h.ifFrom) s.core.ifStage.instReg
  inID : s.core.idStage.fromIF.nop = false →
    Since image s h (ICache.wordAddr h.idFrom) s.core.idStage.fromIF.inst
  inEXE : s.core.exeStage.fromID.nop = false →
    Since image s h (ICache.wordAddr h.exeFrom) s.core.exeStage.fromID.inst
  decoded : FenceInEXE s → s.core.exeStage.fromID.decodeBundle.fencei = true ∧
    s.core.exeStage.fromID.decodeBundle.regWrite = false

variable {B : Core.Build} {image : BitVec 30 → Word} {s : Regs} {io : Inputs} {h : History}

theorem full_of_finish (hst : s.icache.state = .FINISH) (hv : s.icache.reqValid = true)
    (hwait : ICache.rToIFFire s.icache (icacheInputs B image s io) = false)
    (hreq : IF.reqValid s.core.ifStage (coreInputs image s io).port = true) : IFFull s := by
  have hready : (coreInputs image s io).port.arReady = false := by
    have hr : (coreInputs image s io).port.arReady = ICache.arFromIFReady s.icache := rfl
    simp [hr, ICache.arFromIFReady, ICache.hit_of_ne, hst, hv]
  have hvalid : (ICache.rToIF s.icache).valid = true := by simp [ICache.rToIF, hst]
  constructor
  · simpa [IF.reqValid, IF.arFire, hready] using hreq
  · have hfire : ICache.rToIFFire s.icache (icacheInputs B image s io) =
      ((ICache.rToIF s.icache).valid && ((ICache.rToIF s.icache).valid &&
        !s.core.ifStage.instGetted)) := rfl
    simpa [hfire, hvalid] using hwait

namespace FenceInv

theorem issued_of_leaves (hi : FenceInv image s h) (hl : fenceLeaves B image s io = true) :
    h.issued = s.memory.settled := by
  obtain ⟨g, hbus⟩ := hi.connected
  exact hbus.issued_of_fire (Core.toWBFire_of_toMEMFire (fenceLeaves_spec hl).1)

theorem fence_observe (hi : FenceInv image s h) :
    ∀ n ∈ (h.observe B image s io).fence, n ≤ s.memory.settled.length := by
  intro n hn
  cases hl : fenceLeaves B image s io
  case false => exact hi.fence n (by simpa [History.observe, hl] using hn)
  case true =>
    obtain rfl : h.issued.length = n := by simpa [History.observe, hl] using hn
    rw [hi.issued_of_leaves hl]

theorem fence_next (hi : FenceInv image s h) :
    ∀ n ∈ (h.observe B image s io).fence, n ≤ (next B image s io).memory.settled.length := by
  intro n hn
  rw [settled_next, List.length_append]
  exact Nat.le_add_right_of_le (hi.fence_observe n hn)

theorem since_look (hi : FenceInv image s h) (a : BitVec 30) :
    Since image (next B image s io) (h.observe B image s io) a (Memory.look image s.memory a) := by
  intro n hn
  rw [settled_next]
  exact (Medium.seen_after (hi.fence_observe n hn)).append _

theorem since_of_mem (hi : FenceInv image s h) (hok : Synchronised B image s io h)
    (hl : fenceLeaves B image s io = true) {x : BitVec 30 × Word} (hx : x ∈ h.since) :
    Since image (next B image s io) (h.observe B image s io) x.1 x.2 := by
  rw [hok.current hl x hx]
  exact hi.since_look x.1

theorem since_next (hi : FenceInv image s h) (hok : Synchronised B image s io h)
    {a : BitVec 30} {w : Word} (hx : InLine image s h a w) :
    Since image (next B image s io) (h.observe B image s io) a w := by
  cases hl : fenceLeaves B image s io
  case false => exact hx.1.next hl
  case true => exact hi.since_of_mem hok hl (hx.2 (fenceLeaves_spec hl).2.2)

theorem since_fetched (hi : FenceInv image s h) {x : BitVec 30 × Word}
    (hx : x ∈ fetched B image s io) :
    Since image (next B image s io) (h.observe B image s io) x.1 x.2 := by
  rw [mem_fetched hx]
  exact hi.since_look x.1

theorem refill_next (hi : FenceInv image s h) (hok : Synchronised B image s io h)
    (hr : Refilling s ∨ refillBegins B image s io = true) {x : BitVec 30 × Word}
    (hx : x ∈ refillNext B image s io h) :
    Since image (next B image s io) (h.observe B image s io) x.1 x.2 := by
  rcases mem_refillNext hx with ⟨hx, hb⟩ | hx
  · have hr' := hr.resolve_right (by simp [hb])
    exact hi.since_next hok ⟨hi.refill hr' x hx, fun hf => hi.refillSince hr' hf x hx⟩
  · exact hi.since_fetched hx

theorem refillSince_next (hi : FenceInv image s h)
    (hr : Refilling s ∨ refillBegins B image s io = true) (hf : FenceInEXE (next B image s io))
    {x : BitVec 30 × Word} (hx : x ∈ refillNext B image s io h) :
    x ∈ (h.observe B image s io).since := by
  rcases fenceInEXE_next hf with he | ⟨hold, he, -⟩
  · simpa [History.observe, he, hr.symm] using hx
  · simp only [History.observe, he, Bool.false_eq_true, if_false, List.mem_append]
    refine (mem_refillNext hx).imp_left fun hleft => ?_
    exact hi.refillSince (hr.resolve_right (by simp [hleft.2])) hold x hleft.1

theorem mem_since_next {x : BitVec 30 × Word} (he : fenceEnters B image s io = false)
    (hx : x ∈ h.since) : x ∈ (h.observe B image s io).since := by
  simp [History.observe, he, hx]

theorem forwards (hi : FenceInv image s h) (hok : Synchronised B image s io h)
    (ha : ICache.arToMemFire s.icache (icacheInputs B image s io) = true) :
    Arbiter.arFire s.arbiter (arbiterInputs B image s io) = true := by
  obtain ⟨g, hbus⟩ := hi.connected
  exact (((hbus.arbiter.readsForwarded_iff (hbus.kept B image io)).2 hok.forwarded).ibus.1 ha).1

theorem wordsNow (hi : FenceInv image s h) (hok : Synchronised B image s io h)
    (hid : Arbiter.arFire s.arbiter (arbiterInputs B image s io) = false → s.memory.id = 0)
    {x : BitVec 30 × Word}
    (hx : x ∈ Memory.wordsNow image s.memory io.memory) : x ∈ refillNext B image s io h := by
  obtain ⟨g, hbus⟩ := hi.connected
  cases ha : Arbiter.arFire s.arbiter (arbiterInputs B image s io)
  case true =>
    have hnil := hbus.owed_of_arFire ha
    rw [Memory.owed_eq image s.memory io.memory, List.append_eq_nil_iff,
      List.map_eq_nil_iff] at hnil
    simp [hnil.1] at hx
  case false =>
    have hb : refillBegins B image s io = false := by
      by_contra hb
      rw [Bool.not_eq_false, refillBegins, Bool.and_eq_true] at hb
      simp [hi.forwards hok hb.2] at ha
    rw [Memory.wordsNow, List.mem_append] at hx
    rw [refillNext, hb, if_neg Bool.false_ne_true, List.mem_append]
    refine hx.imp (hi.words (hid ha) x) fun hx => ?_
    rw [fetched, next_id, ha, if_neg Bool.false_ne_true, if_pos (hid ha), newLeft_of_not ha]
    simpa using hx

theorem words_next (hi : FenceInv image s h) (hok : Synchronised B image s io h)
    (hid : (next B image s io).memory.id = 0) :
    ∀ x ∈ (next B image s io).memory.words, x ∈ refillNext B image s io h := by
  intro x hx
  have hwords : (next B image s io).memory.words =
    (if Memory.rFire image s.memory io.memory (bus B image s io) then
      (Memory.wordsNow image s.memory io.memory).tail
    else Memory.wordsNow image s.memory io.memory) ++
      Memory.read image s.memory
        ((Memory.newLeft io.memory (bus B image s io)).take io.memory.reads) := rfl
  rw [hwords, List.mem_append] at hx
  rcases hx with hx | hx
  · have hnow : x ∈ Memory.wordsNow image s.memory io.memory := by
      split at hx
      · exact List.mem_of_mem_tail hx
      · exact hx
    refine hi.wordsNow hok (fun ha => ?_) hnow
    rwa [next_id, ha, if_neg Bool.false_ne_true] at hid
  · rw [refillNext, List.mem_append, fetched, if_pos hid, Memory.read, List.map_append,
      List.mem_append]
    exact .inr (.inr hx)

theorem cache_next (hi : FenceInv image s h) (hok : Synchronised B image s io h) :
    ICache.Phase (InLine image (next B image s io) (h.observe B image s io))
      (fun a w => (a, w) ∈ (h.observe B image s io).refill)
      (Answer image (next B image s io) (h.observe B image s io))
      (next B image s io).icache (icacheOwed (next B image s io)) := by
  obtain ⟨g, hbus⟩ := hi.connected
  have hidle {a : BitVec 30} {w : Word} (hx : InLine image s h a w)
      (he : fenceEnters B image s io = false) (hf : FenceInEXE (next B image s io)) :
      (a, w) ∈ (h.observe B image s io).since :=
    mem_since_next he (hx.2 ((fenceInEXE_next hf).resolve_left (by simp [he])).1)
  have hin (hr : Refilling s) (a : BitVec 30) (w : Word) (hx : (a, w) ∈ h.refill) :
      (a, w) ∈ (h.observe B image s io).refill := by
    have hb : refillBegins B image s io = false := by
      by_contra hb
      have hst := refillBegins_spec (Bool.not_eq_false _ ▸ hb)
      simp [Refilling, hst] at hr
    simp [History.observe, refillNext, hb, hx]
  rw [hbus.icacheOwed_next hok.forwarded]
  have hcache : ICache.Phase _ (fun a w => (a, w) ∈ (h.observe B image s io).refill) _ s.icache
    (icacheOwed s) := hi.cache.imp fun hr k w => hin hr _ w
  refine hcache.next hi.len
    (hbus.answers fun hid x hx => hi.wordsNow hok (fun _ => hid) hx) ?_
    (fun _ _ _ => id) ?_ ?_ ?_
  · intro hf i w _ hline k
    refine ⟨hi.since_next hok (hline k), hidle (hline k) ?_⟩
    by_contra he
    simp [fencei_of_enters (Bool.not_eq_false _ ▸ he)] at hf
  · intro hst k w hx
    have hr : Refilling s ∨ refillBegins B image s io = true := .inl (.inr hst)
    have hs := hi.refill_next hok hr hx
    exact ⟨⟨hs, fun hf => hi.refillSince_next hr hf hx⟩, hs,
      fun hf _ => hi.refillSince_next hr hf hx⟩
  · intro hst i w hv k
    have hx := hi.cache.lines_of_idle hst i w hv k
    refine ⟨hi.since_next hok hx, fun hf hfull => hidle hx ?_ hf⟩
    by_contra he
    exact not_full_of_enters (Bool.not_eq_false _ ▸ he) hfull
  · intro hst hwait hx
    have hfull (hreq : IF.reqValid s.core.ifStage (coreInputs image s io).port = true) :
        IFFull s := full_of_finish hst (hi.cache.reqValid_of_finish hst) hwait hreq
    constructor
    · cases hl : fenceLeaves B image s io
      case false => exact hx.1.next hl
      case true =>
        exact hi.since_of_mem hok hl (hx.2 (fenceLeaves_spec hl).2.2 (hfull (hok.taken hl).2))
    · intro hf hfull'
      rcases fenceInEXE_next hf with he | ⟨hold, he, hstay⟩
      · exact absurd hfull' (not_full_of_enters he)
      · have hid : Core.toIDFire B s.core (coreInputs image s io) = false := by
          rw [toIDFire_eq, hstay, Bool.false_and, Bool.and_false]
        exact mem_since_next he (hx.2 hold (hfull ((next_ifStage_of_wait hid).1.symm.trans
          hfull'.1)))

theorem not_leaves_of_wait (hi : FenceInv image s h) (hok : Synchronised B image s io h)
    (hfire : Core.toIDFire B s.core (coreInputs image s io) = false) :
    fenceLeaves B image s io = false := by
  by_contra hl
  rw [Bool.not_eq_false] at hl
  have hd := hi.decoded (fenceLeaves_spec hl).2.2
  simp [toIDFire_of_leaves hl hd.2 (hok.taken hl)] at hfire

theorem flush_of_leaves (hi : FenceInv image s h) (hl : fenceLeaves B image s io = true) :
    Core.flush B s.core (coreInputs image s io) = true :=
  Top.flush_of_leaves hl (hi.decoded (fenceLeaves_spec hl).2.2).1

theorem since_response (hi : FenceInv image s h)
    (hr : IF.rFire s.core.ifStage (coreInputs image s io).port = true) :
    Since image s h (ICache.wordAddr s.icache.req.addr) (ICache.rToIF s.icache).bits.rdata := by
  have hv : (ICache.rToIF s.icache).valid = true := by
    rw [IF.rFire, Bool.and_eq_true] at hr
    exact hr.1
  exact (hi.cache.rToIF_spec hv).2.1

theorem since_handed (hi : FenceInv image s h)
    (hv : IF.instValid s.core.ifStage (coreInputs image s io).port = true) :
    Since image s h (ICache.wordAddr (h.observe B image s io).ifFrom)
      (Core.toID B s.core (coreInputs image s io)).inst := by
  have hinst : (Core.toID B s.core (coreInputs image s io)).inst =
    if IF.rFire s.core.ifStage (coreInputs image s io).port then
      (ICache.rToIF s.icache).bits.rdata else s.core.ifStage.instReg := rfl
  rw [hinst]
  cases hr : IF.rFire s.core.ifStage (coreInputs image s io).port
  case true => simpa [History.observe, hr] using hi.since_response hr
  case false =>
    have hget : s.core.ifStage.instGetted = true := by simpa [IF.instValid, hr] using hv
    simpa [History.observe, hr] using hi.inIF hget

theorem inIF_next (hi : FenceInv image s h) (hok : Synchronised B image s io h)
    (hget : (next B image s io).core.ifStage.instGetted = true) :
    Since image (next B image s io) (h.observe B image s io)
      (ICache.wordAddr (h.observe B image s io).ifFrom)
      (next B image s io).core.ifStage.instReg := by
  cases hfire : Core.toIDFire B s.core (coreInputs image s io)
  case true => simp [(next_ifStage_of_fire hfire).2] at hget
  case false =>
    rw [(next_ifStage_of_wait hfire).2] at hget
    have hnext : (next B image s io).core.ifStage = _ := IF.next_of_wait hfire
    rw [hnext]
    exact (hi.since_handed hget).next (hi.not_leaves_of_wait hok hfire)

theorem inID_next (hi : FenceInv image s h) (hok : Synchronised B image s io h)
    (halive : (next B image s io).core.idStage.fromIF.nop = false) :
    Since image (next B image s io) (h.observe B image s io)
      (ICache.wordAddr (h.observe B image s io).idFrom)
      (next B image s io).core.idStage.fromIF.inst := by
  have hnext : (next B image s io).core.idStage = _ := Core.next_idStage _ _ _
  rw [hnext] at halive ⊢
  cases hfire : Core.toIDFire B s.core (coreInputs image s io)
  case true =>
    simp only [hfire, if_true] at halive ⊢
    have hl : fenceLeaves B image s io = false := by
      by_contra hl
      rw [Core.toID_nop_of_flush (hi.flush_of_leaves (Bool.not_eq_false _ ▸ hl))] at halive
      exact Bool.false_ne_true halive.symm
    have hfrom : (h.observe B image s io).idFrom = (h.observe B image s io).ifFrom := by
      simp [History.observe, hfire]
    cases hf : h.fence with
    | none => exact .of_none (by simp [History.observe, hl, hf])
    | some n =>
      rw [hfrom]
      exact (hi.since_handed (hok.arrived (by simp [hf]) hfire halive)).next hl
  case false =>
    simp only [hfire, Bool.false_eq_true, if_false] at halive ⊢
    have hfrom : (h.observe B image s io).idFrom = h.idFrom := by simp [History.observe, hfire]
    rw [hfrom]
    exact (hi.inID halive).next (hi.not_leaves_of_wait hok hfire)

theorem inEXE_next (hi : FenceInv image s h)
    (halive : (next B image s io).core.exeStage.fromID.nop = false) :
    Since image (next B image s io) (h.observe B image s io)
      (ICache.wordAddr (h.observe B image s io).exeFrom)
      (next B image s io).core.exeStage.fromID.inst := by
  rw [next_fromID] at halive ⊢
  cases hfire : Core.toEXEFire B s.core (coreInputs image s io)
  case true =>
    simp only [hfire, if_true] at halive ⊢
    have hl : fenceLeaves B image s io = false := by
      by_contra hl
      rw [Core.toEXE_nop_of_flush (hi.flush_of_leaves (Bool.not_eq_false _ ▸ hl))] at halive
      exact Bool.false_ne_true halive.symm
    have hfrom : (h.observe B image s io).exeFrom = h.idFrom := by simp [History.observe, hfire]
    rw [hfrom]
    exact (hi.inID (Core.toEXE_alive halive).1).next hl
  case false =>
    simp only [hfire, Bool.false_eq_true, if_false] at halive ⊢
    have hl : fenceLeaves B image s io = false := by
      rw [Core.toEXEFire_eq] at hfire
      simp [fenceLeaves, hfire]
    have hfrom : (h.observe B image s io).exeFrom = h.exeFrom := by simp [History.observe, hfire]
    rw [hfrom]
    exact (hi.inEXE halive).next hl

theorem decoded_next (hi : FenceInv image s h) (hf : FenceInEXE (next B image s io)) :
    (next B image s io).core.exeStage.fromID.decodeBundle.fencei = true ∧
      (next B image s io).core.exeStage.fromID.decodeBundle.regWrite = false := by
  rw [next_fromID]
  rcases fenceInEXE_next hf with he | ⟨hold, -, hstay⟩
  · obtain ⟨hfire, hinst, hnop⟩ := fenceEnters_spec he
    rw [hfire, if_pos rfl, (Core.decoded_toEXE hnop).bundle]
    exact B.decoder.fencei_row (of_decide_eq_true hinst)
  · rw [hstay, if_neg Bool.false_ne_true]
    exact hi.decoded hold

theorem len_next (hi : FenceInv image s h) : (next B image s io).icache.req.len = 0 := by
  have hreq : (next B image s io).icache.req = RegEnable (icacheInputs B image s io).arFromIF.bits
    (ICache.arFromIFFire s.icache (icacheInputs B image s io)) s.icache.req := rfl
  rw [hreq]
  cases ICache.arFromIFFire s.icache (icacheInputs B image s io)
  case true => rfl
  case false => exact hi.len

theorem next (hi : FenceInv image s h) (hok : Synchronised B image s io h) :
    FenceInv image (Top.next B image s io) (h.observe B image s io) where
  connected := by
    obtain ⟨g, hbus⟩ := hi.connected
    exact ⟨_, hbus.next hi.cache hok.forwarded⟩
  cache := hi.cache_next hok
  len := hi.len_next
  words := hi.words_next hok
  refill hr _ := hi.refill_next hok (refilling_next hr)
  refillSince hr hf _ := hi.refillSince_next (refilling_next hr) hf
  fence := hi.fence_next
  inIF := hi.inIF_next hok
  inID := hi.inID_next hok
  inEXE := hi.inEXE_next
  decoded := hi.decoded_next

theorem fresh (hi : FenceInv image s h) : Fresh B image s io h := by
  intro _ hnop n hn
  have hnop' : (s.core.exeStage.fromID.nop || _ || _ || _) = false := hnop
  simp only [Bool.or_eq_false_iff] at hnop'
  obtain ⟨g, hbus⟩ := hi.connected
  obtain ⟨rest, hissued⟩ := hbus.writing.settled_prefix
  rw [← hissued]
  exact (hi.inEXE hnop'.1.1.1 n hn).append rest

end FenceInv

theorem IsReset.fenceInv (hs : IsReset B s) : FenceInv image s .none := by
  obtain ⟨_, _, hexe⟩ := hs.core.exeStage
  have hinst : ¬FenceInEXE s := by
    rintro ⟨-, hf⟩
    rw [hexe] at hf
    exact absurd hf (by decide : ¬isFencei 0 = true)
  have howed : icacheOwed s = [] := by
    rw [icacheOwed, hs.memory]
    rfl
  have hsince (a : BitVec 30) (w : Word) : Since image s .none a w := .of_none rfl
  constructor
  case connected => exact ⟨_, .reset hs.core.memStage hs.arbiter hs.memory⟩
  case cache =>
    exact .boot hs.icache.state hs.icache.reqValid hs.icache.valids hs.icache.reqCounter
      hs.icache.respCounter howed
  case len => rw [hs.icache.req]; rfl
  case words => intro _ x hx; rw [hs.memory] at hx; simp [Memory.reset] at hx
  case refill => intro _ x hx; simp [History.none] at hx
  case refillSince => intro _ _ x hx; simp [History.none] at hx
  case fence => intro n hn; simp [History.none] at hn
  case inIF => exact fun _ => hsince _ _
  case inID => exact fun _ => hsince _ _
  case inEXE => exact fun _ => hsince _ _
  case decoded => exact fun hf => absurd hf hinst

theorem FenceInv.of_reaches {p : Regs × History}
    (h : (observed B image).Reaches (fun p io => Synchronised B image p.1 io p.2) p) :
    FenceInv image p.1 p.2 :=
  h.monitor_invariant (P := FenceInv image) (fun _ hs => hs.fenceInv)
    fun _ _ _ ih hok => ih.next hok

theorem instructions_fresh {p : Regs × History}
    (h : (observed B image).Reaches (fun p io => Synchronised B image p.1 io p.2) p) :
    Fresh B image p.1 io p.2 :=
  (FenceInv.of_reaches h).fresh

def Inputs.prompt : Inputs where
  memory := ⟨true, true, true, 4, true, true, true⟩
  branchPredResp := .zero
  btbReady := true
  interrupt := ⟨false, false, false⟩
  infoReadNew := false
  dataReadNew _ := false

def Inputs.held : Inputs :=
  { Inputs.prompt with memory := ⟨true, false, false, 4, true, true, true⟩ }

/-- sw x1, 0(x1) and fence.i where the boot goes, and nops. -/
def storeThenFencei (a : BitVec 30) : Word :=
  if a = 0x4000000 then 0x0010a023 else if a = 0x4000001 then 0x0000100f else 0x13

/-- The store is to the word behind the FENCE.I, and what is executed there is what it stored. -/
theorem instructions_fresh_storeThenFencei :
    let p := (observed .zeros storeThenFencei).run (.reset .zeros 0x10000008, .none)
      (List.replicate 19 .prompt)
    p.2.fence = some 1 ∧ p.2.exeFrom = 0x10000008 ∧
      p.1.core.exeStage.fromID.inst = 0x10000008 ∧
      Fresh .zeros storeThenFencei p.1 .prompt p.2 := by
  have hr := (observed .zeros storeThenFencei).reaches_run
    (fun p io => Synchronised .zeros storeThenFencei p.1 io p.2)
    (.reset .zeros 0x10000008, .none) (List.replicate 19 .prompt) ⟨isReset_reset _ _, rfl⟩
    (by decide +kernel)
  exact ⟨by decide +kernel, by decide +kernel, by decide +kernel, instructions_fresh hr⟩

/-- The memory takes the store late: the FENCE.I waits in EXE for MEM, and meanwhile the cache
fetches the block of the next instruction, as it was before the store. -/
theorem stale_instruction_executed :
    ¬∀ p, (observed .zeros storeThenFencei).Reaches (fun _ _ => True) p →
      ∀ io, Fresh .zeros storeThenFencei p.1 io p.2 := by
  intro h
  have hr := (observed .zeros storeThenFencei).reaches_run (fun _ _ => True)
    (.reset .zeros 0x10000008, .none) (List.replicate 14 .held ++ List.replicate 5 .prompt)
    ⟨isReset_reset _ _, rfl⟩ (by decide +kernel)
  have hfresh := h _ hr .prompt
  revert hfresh
  decide +kernel

end FpgaNpc.Top
