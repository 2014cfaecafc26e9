import FpgaNpc.Cache.Refill

open FpgaNpc.Hardware FpgaNpc.SRAMLike

namespace FpgaNpc

namespace ICache

/-- The words that the memory owes, the addresses that IF asked for, and the words it got. -/
structure Traffic where
  owed : List (BitVec 30)
  accepted : List Word
  answered : List Word

def Traffic.none : Traffic := ⟨[], [], []⟩

def Traffic.observe (s : Regs) (io : Inputs) (g : Traffic) : Traffic where
  owed := (if rFromMemFire io then g.owed.tail else g.owed) ++
    if arToMemFire s io then asked (arToMem s).bits else []
  accepted := if arFromIFFire s io then g.accepted ++ [io.arFromIF.bits.addr] else g.accepted
  answered := if rToIFFire s io then g.answered ++ [(rToIF s).bits.rdata] else g.answered

def observed : Machine (Regs × Traffic) Inputs := machine.monitor .none Traffic.observe

/-- The memory answers in order and after it accepted. The requester asks for single words,
and has none accepted while it refuses a response. -/
structure Traffic.Kept (mem : BitVec 30 → Word) (g : Traffic) (s : Regs) (io : Inputs) :
    Prop where
  single : io.arFromIF.valid = true → io.arFromIF.bits.len = 0
  answers : io.rFromMem.valid = true →
    (g.owed.head?.map mem) = some io.rFromMem.bits.rdata
  takes : arFromIFFire s io = true → (rToIF s).valid = true → io.rToIFReady = true

instance (mem : BitVec 30 → Word) (g : Traffic) (s : Regs) (io : Inputs) :
    Decidable (g.Kept mem s io) :=
  decidable_of_iff ((io.arFromIF.valid = true → io.arFromIF.bits.len = 0) ∧
      (io.rFromMem.valid = true → (g.owed.head?.map mem) = some io.rFromMem.bits.rdata) ∧
      (arFromIFFire s io = true → (rToIF s).valid = true → io.rToIFReady = true))
    ⟨fun ⟨hs, ha, ht⟩ => ⟨hs, ha, ht⟩, fun ⟨hs, ha, ht⟩ => ⟨hs, ha, ht⟩⟩

variable {mem : BitVec 30 → Word} {s : Regs} {io : Inputs} {g : Traffic}

/-- The words of `mem`: what the cache may hold of it and hand on. -/
def Copy (mem : BitVec 30 → Word) (a : BitVec 30) (w : Word) : Prop := w = mem a

theorem Traffic.Kept.owedAnswers (hk : g.Kept mem s io) : Answers (Copy mem) g.owed io := by
  intro hv
  simpa [Copy, Option.map_eq_some_iff, eq_comm] using hk.answers hv

/-- The words that the requests asked for are the responses, except for a request that is not
answered yet. -/
def Accounted (mem : BitVec 30 → Word) (s : Regs) (g : Traffic) : Prop :=
  g.accepted.map (fun a => mem (wordAddr a)) =
    g.answered ++ if s.reqValid then [mem (wordAddr s.req.addr)] else []

theorem Accounted.next (h : Accounted mem s g)
    (hp : Phase (Copy mem) (Copy mem) (Copy mem) s g.owed) (hk : g.Kept mem s io) :
    Accounted mem (next s io) (g.observe s io) := by
  have hresp : rToIFFire s io = true →
      s.reqValid = true ∧ (rToIF s).bits.rdata = mem (wordAddr s.req.addr) := by
    intro hf
    simp only [rToIFFire, Bool.and_eq_true] at hf
    exact hp.rToIF_spec hf.1
  have htake : arFromIFFire s io = true → s.reqValid = true → rToIFFire s io = true := by
    intro ha hv
    have hvalid : (rToIF s).valid = true := by
      simp only [arFromIFFire, arFromIFReady, hv, Bool.and_eq_true, Bool.or_eq_true] at ha
      rcases ha.2.1 with hst | hst <;> simp_all [rToIF]
    simp [rToIFFire, hvalid, hk.takes ha hvalid]
  simp only [Accounted] at h ⊢
  cases ha : arFromIFFire s io <;> cases hr : rToIFFire s io
  · simpa [ICache.next, Traffic.observe, ha, hr] using h
  · simpa [ICache.next, Traffic.observe, ha, hr, hresp hr] using h
  · have hv : s.reqValid = false := by
      cases hv : s.reqValid
      · rfl
      · simp [htake ha hv] at hr
    simpa [ICache.next, Traffic.observe, ha, hr, hv] using h
  · rw [if_pos (hresp hr).1] at h
    simp [ICache.next, Traffic.observe, ha, hr, hresp hr, h]

structure Inv (mem : BitVec 30 → Word) (s : Regs) (g : Traffic) : Prop where
  phase : Phase (Copy mem) (Copy mem) (Copy mem) s g.owed
  len : s.req.len = 0
  accounted : Accounted mem s g

theorem Inv.next (h : Inv mem s g) (hk : g.Kept mem s io) :
    Inv mem (ICache.next s io) (g.observe s io) where
  phase := h.phase.next h.len hk.owedAnswers (fun _ _ _ _ hline => hline)
    (fun _ _ _ hw => hw) (fun _ _ _ hw => ⟨hw, hw⟩) h.phase.lines_of_idle fun _ _ hw => hw
  len := by
    cases ha : arFromIFFire s io
    · simp [ICache.next, ha, h.len]
    · have hv : io.arFromIF.valid = true := by
        simp only [arFromIFFire, Bool.and_eq_true] at ha
        exact ha.1
      simp [ICache.next, ha, hk.single hv]
  accounted := h.accounted.next h.phase hk

theorem Inv.of_reaches {p : Regs × Traffic}
    (h : observed.Reaches (fun p io => p.2.Kept mem p.1 io) p) : Inv mem p.1 p.2 := by
  refine h.monitor_invariant (P := Inv mem) (fun s hr => ?_) fun _ _ _ ih hk => ih.next hk
  constructor
  · exact .boot hr.state hr.reqValid hr.valids hr.reqCounter hr.respCounter rfl
  · rw [hr.req]
    rfl
  · simp [Accounted, hr.reqValid, Traffic.none]

/-- How many accepts and responses of the memory a request can still take. -/
def rank (s : Regs) : Nat :=
  match s.state with
  | .IDLE => 9
  | .READ => (4 - s.reqCounter.toNat) + (4 - s.respCounter.toNat)
  | .COMMIT => 4 - s.respCounter.toNat
  | .FINISH => 0

def moves (s : Regs) (io : Inputs) : Bool := arToMemFire s io || rFromMemFire io

theorem reqValid_next (hv : s.reqValid = true) (hr : rToIFFire s io = false) :
    (next s io).reqValid = true := by
  cases ha : arFromIFFire s io <;> simp [ICache.next, hr, ha, hv]

theorem Inv.rank_next (h : Inv mem s g) (hk : g.Kept mem s io) (hv : s.reqValid = true)
    (hr : rToIFFire s io = false) :
    rank (ICache.next s io) + (if moves s io then 1 else 0) ≤ rank s := by
  cases h.phase with
  | boot hst hreq => simp [hreq] at hv
  | lookup hst _ _ _ hreq hresp howed =>
    have hin := rFromMemFire_of_owed_nil hk.owedAnswers howed
    cases ha : arToMemFire s io
    case false => simp [rank, moves, ICache.next, nextState, hst, ha, hin]
    case true =>
      have hrefill : refill s io = false := by simp [refill, hst]
      cases hb : burstable s <;>
        simp [rank, moves, ICache.next, nextState, hst, ha, hb, hreq, hresp, hrefill]
  | reading hst href hle howed =>
    have hcount := s.reqCounter.isLt
    have hlt : rFromMemFire io = true → s.respCounter.toNat < s.reqCounter.toNat :=
      fun hin => lt_of_reading hk.owedAnswers hin howed hle
    have hresp := respCounter_next (.inl hst) fun hin => by
      have := hlt hin
      omega
    cases ha : arToMemFire s io
    case false =>
      have hst2 : (ICache.next s io).state = .READ := by
        simp [ICache.next, nextState, hst, ha]
      have hreqc : (ICache.next s io).reqCounter = s.reqCounter := by
        simp [ICache.next, hst, ha]
      simp only [rank, hst2, hst, hreqc, hresp, moves, ha, Bool.false_or]
      split <;> omega
    case true =>
      by_cases h3 : s.reqCounter = 3#2
      · have hst2 : (ICache.next s io).state = .COMMIT := by
          simp [ICache.next, nextState, hst, ha, h3]
        have hreq3 : s.reqCounter.toNat = 3 := by rw [h3]; rfl
        simp only [rank, hst2, hst, hreq3, hresp, moves, ha, Bool.true_or, if_true]
        split <;> omega
      · have hst2 : (ICache.next s io).state = .READ := by
          simp [ICache.next, nextState, hst, ha, h3]
        have hreqc := reqCounter_next hst ha h3
        simp only [rank, hst2, hst, hreqc, hresp, moves, ha, Bool.true_or, if_true]
        split <;> omega
  | committing hst href howed =>
    have ha : arToMemFire s io = false := by simp [arToMemFire, arToMem, hst]
    cases hc : commit s io
    case false =>
      have hlt : rFromMemFire io = true → s.respCounter.toNat < 3 := lt_of_not_commit hst hc
      have hst2 : (ICache.next s io).state = .COMMIT := by
        simp [ICache.next, nextState, hst, hc]
      simp only [rank, hst2, hst, respCounter_next (.inr hst) hlt, moves, ha, Bool.false_or]
      split <;> rename_i hin
      · have := hlt hin
        omega
      · omega
    case true =>
      have hlast := last_of_commit hst hc
      have hst2 : (ICache.next s io).state = .FINISH := by
        simp [ICache.next, nextState, hst, hc]
      simp [rank, hst2, hst, moves, ha, hlast]
  | finished hst _ _ _ _ howed =>
    have ha : arToMemFire s io = false := by simp [arToMemFire, arToMem, hst]
    simp [rank, moves, ICache.next, nextState, hst, hr, ha,
      rFromMemFire_of_owed_nil hk.owedAnswers howed]

theorem state_next_of_still (hm : moves s io = false) (hr : rToIFFire s io = false) :
    (next s io).state = s.state := by
  simp only [moves, Bool.or_eq_false_iff] at hm
  cases hst : s.state <;> simp [next, nextState, hst, hm, hr, commit]

/-- An endless run in which the memory never stops to accept and to answer for good, and the
requester never refuses for good. -/
structure Fair (mem : BitVec 30 → Word) (p : Regs × Traffic) (i : Nat → Inputs) : Prop where
  kept : ∀ n, (observed.trace p i n).2.Kept mem (observed.trace p i n).1 (i n)
  accepts : ∀ n, ∃ m ≥ n, (i m).arToMemReady = true
  answers : ∀ n, ∃ m ≥ n,
    (observed.trace p i m).2.owed = [] ∨ (i m).rFromMem.valid = true
  takes : ∀ n, ∃ m ≥ n, (i m).rToIFReady = true

section Progress

variable {p : Regs × Traffic} {i : Nat → Inputs}

theorem persists {P : Regs × Traffic → Prop} {n : Nat} (hn : P (observed.trace p i n))
    (hstep : ∀ m ≥ n, P (observed.trace p i m) → P (observed.trace p i (m + 1))) :
    ∀ m ≥ n, P (observed.trace p i m) := by
  intro m hm
  induction m, hm using Nat.le_induction with
  | base => exact hn
  | succ m hm ih => exact hstep m hm ih

theorem exists_still (hf : Fair mem p i)
    (hinv : ∀ n, Inv mem (observed.trace p i n).1 (observed.trace p i n).2)
    (hv : ∀ n, (observed.trace p i n).1.reqValid = true)
    (hr : ∀ n, rToIFFire (observed.trace p i n).1 (i n) = false) :
    ∃ n, ∀ m ≥ n, moves (observed.trace p i m).1 (i m) = false := by
  have hstep (n : Nat) : rank (observed.trace p i (n + 1)).1 +
      (if moves (observed.trace p i n).1 (i n) then 1 else 0) ≤
        rank (observed.trace p i n).1 :=
    (hinv n).rank_next (hf.kept n) (hv n) (hr n)
  have hmin : ∃ r n, rank (observed.trace p i n).1 = r := ⟨_, 0, rfl⟩
  classical
  obtain ⟨n, hn⟩ := Nat.find_spec hmin
  refine ⟨n, fun m hm => ?_⟩
  have hle : rank (observed.trace p i m).1 ≤ Nat.find hmin := by
    refine persists (P := fun q => rank q.1 ≤ Nat.find hmin) (by rw [hn]) ?_ m hm
    intro k _ hk
    have := hstep k
    omega
  have hge : Nat.find hmin ≤ rank (observed.trace p i (m + 1)).1 :=
    Nat.find_min' hmin ⟨_, rfl⟩
  have := hstep m
  cases hmv : moves (observed.trace p i m).1 (i m)
  · rfl
  · rw [hmv] at this
    simp only [if_true] at this
    omega

theorem responds (h : observed.Reaches (fun p io => p.2.Kept mem p.1 io) p) (hf : Fair mem p i)
    (hv : p.1.reqValid = true) :
    ∃ n, rToIFFire (observed.trace p i n).1 (i n) = true := by
  by_contra hnone
  have hr (n : Nat) : rToIFFire (observed.trace p i n).1 (i n) = false := by
    simpa using fun hn => hnone ⟨n, hn⟩
  have hinv (n : Nat) : Inv mem (observed.trace p i n).1 (observed.trace p i n).2 :=
    Inv.of_reaches (h.trace hf.kept n)
  have hv' (n : Nat) : (observed.trace p i n).1.reqValid = true :=
    persists (P := fun q => q.1.reqValid = true) (n := 0) hv
      (fun m _ hm => reqValid_next hm (hr m)) n (Nat.zero_le n)
  obtain ⟨n, hstill⟩ := exists_still hf hinv hv' hr
  have hstate (m : Nat) (hm : m ≥ n) :
      (observed.trace p i m).1.state = (observed.trace p i n).1.state :=
    persists (P := fun q => q.1.state = (observed.trace p i n).1.state) rfl
      (fun k hk hst => (state_next_of_still (hstill k hk) (hr k)).trans hst) m hm
  cases hst : (observed.trace p i n).1.state
  case IDLE =>
    have hidle (m : Nat) (hm : m ≥ n) : (observed.trace p i m).1.state = .IDLE :=
      (hstate m hm).trans hst
    obtain ⟨m, hm, htake⟩ := hf.takes n
    have hmiss : hit (observed.trace p i m).1 = false := by
      have := hr m
      simpa [rToIFFire, rToIF, hidle m hm, hv' m, htake] using this
    obtain ⟨k, hk, haccept⟩ := hf.accepts m
    have hmissk : hit (observed.trace p i k).1 = false := by
      refine (persists (P := fun q => q.1.state = .IDLE ∧ hit q.1 = false)
        ⟨hidle m hm, hmiss⟩ ?_ k hk).2
      intro j hj hq
      exact ⟨hidle (j + 1) (by omega), (hinv j).phase.miss_next hq.1 (hv' j) hq.2⟩
    have := hstill k (by omega)
    simp [moves, arToMemFire, arToMem, hidle k (by omega), hv' k, hmissk, haccept] at this
  case READ =>
    obtain ⟨m, hm, haccept⟩ := hf.accepts n
    have := hstill m hm
    simp [moves, arToMemFire, arToMem, (hstate m hm).trans hst, haccept] at this
  case COMMIT =>
    obtain ⟨m, hm, hanswer⟩ := hf.answers n
    have hstm := (hstate m hm).trans hst
    have howed : (observed.trace p i m).2.owed ≠ [] := by
      cases (hinv m).phase with
      | committing _ _ howed =>
        rw [howed, blockWords_cons _ (observed.trace p i m).1.respCounter.isLt]
        simp
      | boot hst' => simp [hstm] at hst'
      | lookup hst' => simp [hstm] at hst'
      | reading hst' => simp [hstm] at hst'
      | finished hst' => simp [hstm] at hst'
    have := hstill m hm
    simp [moves, rFromMemFire_eq, hanswer.resolve_left howed] at this
  case FINISH =>
    obtain ⟨m, hm, htake⟩ := hf.takes n
    have := hr m
    simp [rToIFFire, rToIF, (hstate m hm).trans hst, htake] at this

end Progress

/-- The cache is the memory: in every run the responses are the words at the addresses of the
requests, in order, and a request that has no response yet gets one. -/
theorem transparent {p : Regs × Traffic}
    (h : observed.Reaches (fun p io => p.2.Kept mem p.1 io) p) :
    p.2.accepted.map (fun a => mem (wordAddr a)) =
        p.2.answered ++ (if p.1.reqValid then [mem (wordAddr p.1.req.addr)] else []) ∧
      ∀ i, Fair mem p i → p.1.reqValid = true →
        ∃ n, rToIFFire (observed.trace p i n).1 (i n) = true :=
  ⟨(Inv.of_reaches h).accounted, fun _ hf hv => responds h hf hv⟩

def Inputs.idle : Inputs :=
  ⟨⟨false, .zero⟩, true, true, ⟨false, ⟨0⟩⟩, false, true, fun _ => true⟩

/-- A miss on `0x10000004` in a memory in which every word is its own number, and a hit on the
next word of the block. -/
def missThenHit : List Inputs :=
  [{ Inputs.idle with arFromIF := ⟨true, { SRAMLikeReq.zero with addr := 0x10000004 }⟩ }, .idle]
    ++ (List.range 4).map (fun k =>
      { Inputs.idle with rFromMem := ⟨true, ⟨0x4000000 + BitVec.ofNat 32 k⟩⟩ })
    ++ [.idle, { Inputs.idle with
      arFromIF := ⟨true, { SRAMLikeReq.zero with addr := 0x10000008 }⟩ }, .idle]

example : (observed.run (.reset, .none) missThenHit).2.answered = [0x4000001, 0x4000002] := by
  decide +kernel

theorem transparent_missThenHit :
    let p := observed.run (.reset, .none) missThenHit
    p.2.accepted.map (fun a => (wordAddr a).setWidth 32) =
      p.2.answered ++ if p.1.reqValid then [(wordAddr p.1.req.addr).setWidth 32] else [] := by
  have hr := observed.reaches_run (fun p io => p.2.Kept (fun k => k.setWidth 32) p.1 io)
    (.reset, .none) missThenHit ⟨⟨fun _ _ => rfl, rfl, rfl, rfl, rfl, rfl, rfl, rfl⟩, rfl⟩
    (by decide +kernel)
  exact (transparent hr).1

end ICache

end FpgaNpc
