import FpgaNpc.Core.Accesses

open FpgaNpc.Hardware FpgaNpc.ControlSignals FpgaNpc.InterStage FpgaNpc.SRAMLike FpgaNpc.Riscv

namespace FpgaNpc.MEM

section Reserved

variable (s : Regs) (io : Inputs) (fromEXEValid : Bool)

def storeConditional : Bool := access s && isSC s

def loadReserved : Bool := access s && !(ren s && wen s) && isLR s

/-- The address that is reserved: that of the last LR to complete, unless an SC has since. -/
def reserved (r : Option Word) : Option Word :=
  if fromEXEFire s io fromEXEValid then
    if storeConditional s then none else if loadReserved s then some (vaddr s) else r
  else r

end Reserved

def reserving : Machine ((Regs × Port × Trail) × Option Word) StageInputs :=
  observed.monitor none fun p i r => reserved p.1 i.port i.fromEXEValid r

/-- What an SC comes to, `r` being reserved: the requests it issues and the value it returns. -/
inductive SCOutcome (s : Regs) (r : Option Word) : List SRAMLikeReq → Word → Prop
  | succeeds (w : SRAMLikeReq) (holds : r = some (vaddr s)) (wr : w.wr = true)
      (at' : w.addr = vaddr s) (data : w.wdata = memWdata s) : SCOutcome s r [w] 0
  | fails (lost : r ≠ some (vaddr s)) : SCOutcome s r [] 1

/-- In each of its cycles an SC has done nothing but a beginning of its outcome, and in the last
one all of it. -/
structure Decided (s : Regs) (g : Trail) (r : Option Word) (i : StageInputs) : Prop where
  begun : Asks s .sc → ∃ issued v, SCOutcome s r issued v ∧
    (g.cycle s i.port i.fromEXEValid).issued <+: issued ∧
      (g.cycle s i.port i.fromEXEValid).passes <+: [v]
  finished : Asks s .sc → fromEXEFire s i.port i.fromEXEValid = true →
    ∃ v, SCOutcome s r (g.cycle s i.port i.fromEXEValid).issued v ∧
      (g.cycle s i.port i.fromEXEValid).passes = [v]

/-- An SC to address 0 finds address 0 reserved, or another address and EXE with its next
instruction at hand. -/
def Tells (s : Regs) (r : Option Word) (fromEXEValid : Bool) : Prop :=
  storeConditional s = true → vaddr s = 0#32 → r = some 0#32 ∨ r ≠ none ∧ fromEXEValid = true

instance (s : Regs) (r : Option Word) (fromEXEValid : Bool) : Decidable (Tells s r fromEXEValid) :=
  inferInstanceAs (Decidable (_ = _ → _ = _ → _ ∨ _ ∧ _))

/-- What the reservation register holds while `r` is reserved. -/
inductive Guarded (s : Regs) (g : Trail) (r : Option Word) : Prop
  | kept (reservation : s.reservation = r.getD 0)
      (first : storeConditional s = true → s.state = .IDLE ∧ s.hasFired = false)
  | reserves (load : loadReserved s = true) (state : s.state = .WAIT_RESP)
  | failed (cond : storeConditional s = true) (state : s.state = .IDLE) (fired : s.hasFired = true)
      (reservation : s.reservation = 0) (lost : r ≠ some (vaddr s)) (off : vaddr s ≠ 0)
      (passes : g.passes = [1])
  | granted (cond : storeConditional s = true) (state : s.state ≠ .IDLE)
      (reservation : s.reservation = 0) (holds : r = some (vaddr s))

section Step

variable {s : Regs} {io : Inputs} {fromEXEValid : Bool} {toMEM : ExeMemBus}
variable {g : Trail} {port : Port} {r : Option Word}

theorem storeConditional_iff : storeConditional s = true ↔ access s = true ∧ isSC s = true := by
  simp [storeConditional]

theorem loadReserved_iff : loadReserved s = true ↔
    access s = true ∧ (ren s && wen s) = false ∧ isLR s = true := by
  simp only [loadReserved, Bool.and_eq_true, Bool.not_eq_true', and_assoc]

theorem not_isLR_of_isSC (h : isSC s = true) : isLR s = false := by
  simp [isLR, isSC_amo h]

theorem not_storeConditional_of_loadReserved (h : loadReserved s = true) :
    storeConditional s = false := by
  by_contra hs
  have hsc := (storeConditional_iff.1 (Bool.not_eq_false _ ▸ hs)).2
  simp [loadReserved, not_isLR_of_isSC hsc] at h

theorem next_reservation_same
    (hsc : s.state = .IDLE → storeConditional s = true →
      toWBValid s io = false ∧ reqFire s io = false)
    (hlr : s.state = .WAIT_RESP → isLR s = false) :
    (next s io fromEXEValid toMEM).reservation = s.reservation := by
  cases hst : s.state
  case IDLE =>
    cases hc : storeConditional s
    case false => cases ha : access s <;> simp_all [next, storeConditional]
    case true => simp [next, hst, toWBFire, hsc hst hc]
  case WAIT_RESP => simp [next, hst, hlr hst]
  all_goals simp [next, hst]

theorem next_reservation_sc (hst : s.state = .IDLE) (hc : storeConditional s = true)
    (hdone : toWBValid s io = true ∨ reqFire s io = true) :
    (next s io fromEXEValid toMEM).reservation = 0 := by
  simp [next, hst, toWBFire, storeConditional_iff.1 hc, hdone]

theorem next_reservation_lr (hst : s.state = .WAIT_RESP) (hlr : isLR s = true) :
    (next s io fromEXEValid toMEM).reservation = vaddr s := by
  simp [next, hst, hlr]

theorem Tracked.of_idle (ht : Tracked s port g) (hst : s.state = .IDLE) :
    g.issued = [] ∧ (s.hasFired = false → g.passes = []) := by
  cases ht with
  | idle _ _ trail passes => exact ⟨trail.1, passes.fresh⟩
  | wait state => exact absurd (state.symm.trans hst) (by decide)
  | amoRead state => exact absurd (state.symm.trans hst) (by decide)
  | amoCalc d state => exact absurd (state.symm.trans hst) (by decide)
  | amoLaunch d state => exact absurd (state.symm.trans hst) (by decide)
  | amoWrite d state => exact absurd (state.symm.trans hst) (by decide)

theorem Tracked.lr_of_wait (ht : Tracked s port g) (hst : s.state = .WAIT_RESP)
    (hlr : isLR s = true) : loadReserved s = true := by
  cases ht with
  | wait state acc one => exact loadReserved_iff.2 ⟨acc, one, hlr⟩
  | idle state => exact absurd (state.symm.trans hst) (by decide)
  | amoRead state => exact absurd (state.symm.trans hst) (by decide)
  | amoCalc d state => exact absurd (state.symm.trans hst) (by decide)
  | amoLaunch d state => exact absurd (state.symm.trans hst) (by decide)
  | amoWrite d state => exact absurd (state.symm.trans hst) (by decide)

theorem Tracked.wait_of_lr (ht : Tracked s port g) (hlr : loadReserved s = true)
    (hv : toWBValid s io = true) : s.state = .WAIT_RESP := by
  have hsc := not_storeConditional_of_loadReserved hlr
  obtain ⟨hacc, hone, -⟩ := loadReserved_iff.1 hlr
  cases ht with
  | wait state => exact state
  | idle state =>
    have := sc_of_toWBValid state hacc hv
    simp [storeConditional, hacc, this] at hsc
  | amoWrite d state acc both => simp [both] at hone
  | amoRead state => simp [toWBValid, state] at hv
  | amoCalc d state => simp [toWBValid, state] at hv
  | amoLaunch d state => simp [toWBValid, state] at hv

theorem Guarded.next_fire (hg : Guarded s g r) (ht : Tracked s port g)
    (hfire : fromEXEFire s io fromEXEValid = true) :
    Guarded (next s io fromEXEValid toMEM) .empty (reserved s io fromEXEValid r) := by
  obtain ⟨-, hv⟩ : fromEXEValid = true ∧ toWBValid s io = true := by
    simpa [fromEXEFire, fromEXEReady] using hfire
  refine .kept ?_ fun _ => ⟨nextState_of_fire hfire, by simp [next, toWBFire, hv, hfire]⟩
  rw [reserved, if_pos hfire]
  cases hc : storeConditional s
  case true =>
    rw [if_pos rfl]
    by_cases hst : s.state = .IDLE
    · exact next_reservation_sc hst hc (.inl hv)
    · rw [next_reservation_same (fun h => absurd h hst) fun _ =>
        not_isLR_of_isSC (storeConditional_iff.1 hc).2]
      cases hg with
      | kept reservation first => exact absurd (first hc).1 hst
      | reserves load => simp [not_storeConditional_of_loadReserved load] at hc
      | failed cond state => exact absurd state hst
      | granted cond state reservation => exact reservation
  case false =>
    rw [if_neg Bool.false_ne_true]
    cases hl : loadReserved s
    case true =>
      exact next_reservation_lr (ht.wait_of_lr hl hv) (loadReserved_iff.1 hl).2.2
    case false =>
      rw [if_neg Bool.false_ne_true, next_reservation_same (by simp [hc])]
      · cases hg with
        | kept reservation => exact reservation
        | reserves load => simp [load] at hl
        | failed cond => simp [cond] at hc
        | granted cond => simp [cond] at hc
      · intro hst
        by_contra hlr
        simp [ht.lr_of_wait hst (Bool.not_eq_false _ ▸ hlr)] at hl

theorem storeConditional_congr {s' : Regs} (h : s'.fromEXE = s.fromEXE) :
    storeConditional s' = storeConditional s := by
  obtain ⟨-, -, -, hacc, hsc, -⟩ := same_of_fromEXE h
  simp [storeConditional, hacc, hsc]

theorem loadReserved_congr {s' : Regs} (h : s'.fromEXE = s.fromEXE) :
    loadReserved s' = loadReserved s := by
  obtain ⟨hc, hr, hw, hacc, -⟩ := same_of_fromEXE h
  simp [loadReserved, hacc, hr, hw, isLR, hc]

theorem nextState_of_stay (hfire : fromEXEFire s io fromEXEValid = false)
    (hst : s.state ≠ .IDLE) : nextState s io fromEXEValid ≠ .IDLE := fun hn => by
  simp [fromEXEFire_of_idle hst hn] at hfire

theorem nextState_of_wait (hfire : fromEXEFire s io fromEXEValid = false)
    (hst : s.state = .WAIT_RESP) : nextState s io fromEXEValid = .WAIT_RESP := by
  have hn := nextState_of_stay hfire (by simp [hst])
  simp only [nextState, hst] at hn ⊢
  split at hn <;> simp_all

theorem holds_of_matches (hreg : s.reservation = r.getD 0) (heq : s.reservation = vaddr s)
    (hc : storeConditional s = true) (htells : Tells s r fromEXEValid) : r = some (vaddr s) := by
  cases r with
  | some a => exact congrArg some (hreg.symm.trans heq)
  | none =>
    obtain h | ⟨h, -⟩ := htells hc (heq.symm.trans hreg)
    · cases h
    · exact absurd rfl h

theorem matches_of_not_valid (hst : s.state = .IDLE) (hc : storeConditional s = true)
    (hv : toWBValid s io = false) : s.reservation = vaddr s := by
  obtain ⟨hacc, hsc⟩ := storeConditional_iff.1 hc
  simpa [toWBValid, hst, hacc, hsc] using hv

theorem Guarded.next_first (ht : Tracked s port g) (hfire : fromEXEFire s io fromEXEValid = false)
    (hc : storeConditional s = true) (hst : s.state = .IDLE) (hf : s.hasFired = false)
    (hreg : s.reservation = r.getD 0)
    (htells : Tells s r fromEXEValid) :
    Guarded (next s io fromEXEValid toMEM) (g.cycle s io fromEXEValid) r := by
  obtain ⟨hacc, hsc⟩ := storeConditional_iff.1 hc
  have hfrom := next_fromEXE_of_stay toMEM hfire
  have hc' := (storeConditional_congr hfrom).trans hc
  have hvaddr : vaddr (next s io fromEXEValid toMEM) = vaddr s :=
    (same_of_fromEXE hfrom).2.2.2.2.2.1
  cases hv : toWBValid s io
  case true =>
    have hne := (sc_of_toWBValid hst hacc hv).2
    have hstay := not_valid_of_stay hfire hv
    refine .failed hc' ?_ ?_ (next_reservation_sc hst hc (.inl hv)) ?_ ?_ ?_
    · simp [next, nextState, hst, reqFire_of_toWBValid hst hv]
    · simp [next, toWBFire, hv, hfire]
    · rw [hvaddr]
      rintro rfl
      exact hne hreg
    · rw [hvaddr]
      intro h0
      obtain rfl | ⟨-, hev⟩ := htells hc h0
      · exact hne (hreg.trans h0.symm)
      · simp [hstay] at hev
    · simp [cycle_passes, (ht.of_idle hst).2 hf, hv, hf, not_nop_of_access hacc,
        regWdata_of_failing hst hacc ⟨hsc, hne⟩]
  case false =>
    cases hreq : reqFire s io
    case true =>
      refine .granted hc' ?_ (next_reservation_sc hst hc (.inr hreq)) ?_
      · simp only [next, nextState, hst, hacc, hreq]
        cases ren s && wen s <;> simp
      · rw [hvaddr]
        exact holds_of_matches hreg (matches_of_not_valid hst hc hv) hc htells
    case false =>
      refine .kept ((next_reservation_same (fun _ _ => ⟨hv, hreq⟩) (by simp [hst])).trans hreg)
        fun _ => ⟨?_, ?_⟩
      · simp [next, nextState, hst, hreq]
      · simp [next, toWBFire, hv, hf]

theorem Guarded.next_stay (hg : Guarded s g r) (ht : Tracked s port g)
    (hfire : fromEXEFire s io fromEXEValid = false)
    (htells : Tells s r fromEXEValid) :
    Guarded (next s io fromEXEValid toMEM) (g.cycle s io fromEXEValid) r := by
  have hfrom := next_fromEXE_of_stay toMEM hfire
  have hvaddr : vaddr (MEM.next s io fromEXEValid toMEM) = vaddr s :=
    (same_of_fromEXE hfrom).2.2.2.2.2.1
  cases hg with
  | kept reservation first =>
    cases hc : storeConditional s
    case true => exact next_first ht hfire hc (first hc).1 (first hc).2 reservation htells
    case false =>
      have hc' := (storeConditional_congr hfrom).trans hc
      by_cases hlr : s.state = .WAIT_RESP ∧ isLR s = true
      · exact .reserves ((loadReserved_congr hfrom).trans (ht.lr_of_wait hlr.1 hlr.2))
          (nextState_of_wait hfire hlr.1)
      · refine .kept ((next_reservation_same (by simp [hc]) fun hst => ?_).trans reservation)
          (by simp [hc'])
        simpa [hst] using hlr
  | reserves load state =>
    exact .reserves ((loadReserved_congr hfrom).trans load) (nextState_of_wait hfire state)
  | failed cond state fired reservation lost off passes =>
    obtain ⟨hacc, hsc⟩ := storeConditional_iff.1 cond
    have hne : s.reservation ≠ vaddr s := fun h => off (h.symm.trans reservation)
    have hv : toWBValid s io = true := by simp [toWBValid, state, hacc, hsc, hne]
    refine .failed ((storeConditional_congr hfrom).trans cond) ?_ ?_
      (next_reservation_sc state cond (.inl hv)) (hvaddr ▸ lost) (hvaddr ▸ off) ?_
    · simp [MEM.next, nextState, state, reqFire_of_toWBValid state hv]
    · simp [MEM.next, toWBFire, hv, hfire]
    · simp [cycle_passes, fired, passes]
  | granted cond state reservation holds =>
    have hlr := not_isLR_of_isSC (storeConditional_iff.1 cond).2
    exact .granted ((storeConditional_congr hfrom).trans cond) (nextState_of_stay hfire state)
      ((next_reservation_same (fun h => absurd h state) fun _ => hlr).trans reservation)
      (hvaddr ▸ holds)

theorem Guarded.next (hg : Guarded s g r) (ht : Tracked s port g)
    (htells : Tells s r fromEXEValid) :
    Guarded (MEM.next s io fromEXEValid toMEM) (g.observe s io fromEXEValid)
      (reserved s io fromEXEValid r) := by
  cases hfire : fromEXEFire s io fromEXEValid
  case true =>
    rw [Trail.observe, hfire, if_pos rfl]
    exact hg.next_fire ht hfire
  case false =>
    rw [Trail.observe, reserved, hfire, if_neg Bool.false_ne_true, if_neg Bool.false_ne_true]
    exact hg.next_stay ht hfire htells

theorem Guarded.scPasses (hg : Guarded s g r)
    (htells : Tells s r fromEXEValid) : SCPasses s io fromEXEValid := by
  intro hst hacc hsc hne h0
  have hc := storeConditional_iff.2 ⟨hacc, hsc⟩
  cases hg with
  | kept reservation =>
    obtain rfl | ⟨-, hev⟩ := htells hc h0
    · exact absurd (reservation.trans h0.symm) hne
    · simp [fromEXEFire, fromEXEReady, toWBValid, hst, hacc, hsc, hne, hev]
  | reserves load state => simp [hst] at state
  | failed cond state fired reservation lost off => exact absurd h0 off
  | granted cond state => exact absurd hst state

theorem cycle_issued : (g.cycle s io fromEXEValid).issued =
    g.issued ++ if reqFire s io then [(req s).bits] else [] := rfl

theorem req_of_idle (hst : s.state = .IDLE) (hacc : access s = true) :
    (req s).bits = firstReq s := by
  simp [req, hst, hacc, firstReq]

/-- In this cycle the SC does no more than a beginning of its outcome, and all of it if it is passed
on. -/
def Follows (s : Regs) (io : Inputs) (fromEXEValid : Bool) (g : Trail) (r : Option Word) : Prop :=
  ∃ issued v, SCOutcome s r issued v ∧ (g.cycle s io fromEXEValid).issued <+: issued ∧
    (g.cycle s io fromEXEValid).passes <+: [v] ∧
      (toWBValid s io = true → (g.cycle s io fromEXEValid).issued = issued ∧
        (g.cycle s io fromEXEValid).passes = [v])

theorem writes_of_holds (hsc : Asks s .sc) (holds : r = some (vaddr s)) :
    SCOutcome s r [firstReq s] 0 :=
  .succeeds _ holds (by simp [firstReq, hsc.2.1, wen_of_access hsc.1 hsc.2.1]) rfl rfl

theorem follows_of_refused (hst : s.state = .IDLE) (htrail : g.issued = [])
    (hv : toWBValid s io = true) (lost : r ≠ some (vaddr s))
    (hpasses : (g.cycle s io fromEXEValid).passes = [1]) : Follows s io fromEXEValid g r := by
  have hissued : (g.cycle s io fromEXEValid).issued = [] := by
    simp [cycle_issued, htrail, reqFire_of_toWBValid hst hv]
  exact ⟨[], 1, .fails lost, by simp [hissued], by simp [hpasses], fun _ => ⟨hissued, hpasses⟩⟩

theorem follows_of_first (ht : Tracked s port g) (hsc : Asks s .sc) (hst : s.state = .IDLE)
    (hf : s.hasFired = false) (hreg : s.reservation = r.getD 0)
    (htells : Tells s r fromEXEValid) : Follows s io fromEXEValid g r := by
  have hc := storeConditional_iff.2 ⟨hsc.1, hsc.2.2⟩
  obtain ⟨hissued, hpasses⟩ := ht.of_idle hst
  cases hv : toWBValid s io
  case true =>
    have hne := (sc_of_toWBValid hst hsc.1 hv).2
    refine follows_of_refused hst hissued hv ?_ ?_
    · rintro rfl
      exact hne hreg
    · simp [cycle_passes, hpasses hf, hv, hf, not_nop_of_access hsc.1,
        regWdata_of_failing hst hsc.1 ⟨hsc.2.2, hne⟩]
  case false =>
    have holds := holds_of_matches hreg (matches_of_not_valid hst hc hv) hc htells
    refine ⟨[firstReq s], 0, writes_of_holds hsc holds, ?_, ?_, by simp [hv]⟩
    · rw [cycle_issued, hissued, req_of_idle hst hsc.1]
      split <;> simp
    · simp [cycle_passes, hpasses hf, hv]

theorem follows_of_granted (ht : Tracked s port g) (hsc : Asks s .sc) (hst : s.state ≠ .IDLE)
    (holds : r = some (vaddr s)) : Follows s io fromEXEValid g r := by
  cases ht with
  | idle state => exact absurd state hst
  | wait state acc one owed trail passes =>
    have hissued : (g.cycle s io fromEXEValid).issued = [firstReq s] := by
      simp [cycle_issued, trail, reqFire, req, state]
    have hdone (hv : toWBValid s io = true) : (g.cycle s io fromEXEValid).passes = [0] := by
      obtain ⟨v, hp, hP⟩ := (passes.done fromEXEValid hv fun _ hs => regWdata_of_sc state hs).2
        (not_nop_of_access hsc.1)
      rw [hp, hP hsc.2.2]
      rfl
    refine ⟨[firstReq s], 0, writes_of_holds hsc holds, by simp [hissued], ?_,
      fun hv => ⟨hissued, hdone hv⟩⟩
    cases hv : toWBValid s io
    case true => simp [hdone hv]
    case false =>
      obtain hp | ⟨v, hp, -, hP⟩ := passes.nil_or
      · simp [cycle_passes, hp, hv]
      · simp [cycle_passes, hp, hv, hP hsc.2.2]
  | amoRead _ _ both => simp [hsc.2.1] at both
  | amoCalc _ _ _ both => simp [hsc.2.1] at both
  | amoLaunch _ _ _ both => simp [hsc.2.1] at both
  | amoWrite _ _ _ both => simp [hsc.2.1] at both

theorem Guarded.follows (hg : Guarded s g r) (ht : Tracked s port g) (hsc : Asks s .sc)
    (htells : Tells s r fromEXEValid) : Follows s io fromEXEValid g r := by
  have hc := storeConditional_iff.2 ⟨hsc.1, hsc.2.2⟩
  cases hg with
  | kept reservation first =>
    exact follows_of_first ht hsc (first hc).1 (first hc).2 reservation htells
  | reserves load => simp [not_storeConditional_of_loadReserved load] at hc
  | failed cond state fired reservation lost off passes =>
    have hne : s.reservation ≠ vaddr s := fun h => off (h.symm.trans reservation)
    exact follows_of_refused state (ht.of_idle state).1
      (by simp [toWBValid, state, hsc.1, hsc.2.2, hne]) lost (by simp [cycle_passes, passes, fired])
  | granted cond state reservation holds => exact follows_of_granted ht hsc state holds

end Step

theorem sc_decided {p : (Regs × Port × Trail) × Option Word}
    (h : reserving.Reaches (fun p i => Tells p.1.1 p.2 i.fromEXEValid) p) (i : StageInputs)
    (ht : Tells p.1.1 p.2 i.fromEXEValid) : Decided p.1.1 p.1.2.2 p.2 i := by
  obtain ⟨htracked, hguarded⟩ : Tracked p.1.1 p.1.2.1 p.1.2.2 ∧ Guarded p.1.1 p.1.2.2 p.2 := by
    refine h.monitor_invariant
      (P := fun q r => Tracked q.1 q.2.1 q.2.2 ∧ Guarded q.1 q.2.2 r) (fun q hq => ?_)
      fun q r i ih htells => ⟨ih.1.next _ (ih.2.scPasses htells), ih.2.next ih.1 htells⟩
    obtain ⟨hs, hg⟩ := hq
    rw [hs, hg]
    exact ⟨tracked_reset, .kept rfl fun _ => ⟨rfl, rfl⟩⟩
  constructor
  · intro hsc
    obtain ⟨issued, v, hout, hissued, hpasses, -⟩ := hguarded.follows htracked hsc ht
    exact ⟨issued, v, hout, hissued, hpasses⟩
  · intro hsc hfire
    obtain ⟨issued, v, hout, -, -, hall⟩ := hguarded.follows htracked hsc ht
    obtain ⟨-, hv⟩ : i.fromEXEValid = true ∧ toWBValid p.1.1 i.port = true := by
      simpa [fromEXEFire, fromEXEReady] using hfire
    obtain ⟨hissued, hpasses⟩ := hall hv
    exact ⟨v, hissued ▸ hout, hpasses⟩

section Runs

def start : (Regs × Port × Trail) × Option Word := ((reset, .idle, .empty), none)

/-- An LR of address 64 and an SC to it, up to the answer to its write. -/
def lrSC : List StageInputs :=
  [quiet true (accessAt true AMOOp.LR true false 64 0), quiet false .zero,
   readAnswer 7 true (accessAt true AMOOp.SC false true 64 9), quiet false .zero]

theorem sc_decided_reserved :
    let p := reserving.run start lrSC
    p.2 = some 64 ∧ (p.1.2.2.issued.map fun r => (r.wr, r.addr, r.wdata)) = [(true, 64, 9)] ∧
      Decided p.1.1 p.1.2.2 p.2 writeAnswer := by
  have hr := reserving.reaches_run (fun p i => Tells p.1.1 p.2 i.fromEXEValid) start lrSC
    ⟨⟨rfl, rfl⟩, rfl⟩ (by decide +kernel)
  exact ⟨by decide +kernel, by decide +kernel, sc_decided hr writeAnswer (by decide +kernel)⟩

/-- An SC to address 0, no LR having been executed. -/
def unreservedSC : List StageInputs := [quiet true (accessAt true AMOOp.SC false true 0 9)]

theorem unreserved_sc_writes :
    let p := reserving.run start unreservedSC
    p.2 = none ∧
      ((p.1.2.2.cycle p.1.1 (quiet false .zero).port false).issued.map
        fun r => (r.wr, r.addr, r.wdata)) = [(true, 0, 9)] ∧
      ¬∀ p, reserving.Reaches (fun p i => p.1.2.1.Kept i.port) p → ∀ i, p.1.2.1.Kept i.port →
        Decided p.1.1 p.1.2.2 p.2 i := by
  refine ⟨by decide +kernel, by decide +kernel, fun h => ?_⟩
  have hr := reserving.reaches_run (fun p i => p.1.2.1.Kept i.port) start unreservedSC
    ⟨⟨rfl, rfl⟩, rfl⟩ (by decide +kernel)
  have hasks : Asks (reserving.run start unreservedSC).1.1 .sc :=
    ⟨by decide +kernel, by decide +kernel, by decide +kernel⟩
  obtain ⟨issued, v, hout, hissued, -⟩ :=
    (h _ hr (quiet false .zero) (by decide +kernel)).begun hasks
  have hone : ((reserving.run start unreservedSC).1.2.2.cycle (reserving.run start unreservedSC).1.1
      (quiet false .zero).port false).issued.length = 1 := by
    decide +kernel
  have hnone : (reserving.run start unreservedSC).2 = none := by decide +kernel
  cases hout with
  | succeeds w holds => simp [hnone] at holds
  | fails lost =>
    have := hissued.length_le
    simp [quiet] at hone
    simp [quiet, hone] at this

end Runs

end FpgaNpc.MEM
