import FpgaNpc.Core.Access

open FpgaNpc.Hardware FpgaNpc.ControlSignals FpgaNpc.InterStage FpgaNpc.SRAMLike FpgaNpc.Riscv

namespace FpgaNpc.MEM

section Passes

variable {s : Regs} {io : Inputs} {fromEXEValid : Bool} {g : Trail} {P Q : Word → Prop}

/-- An instruction that has been passed on, once, went with a value that meets `P`. -/
structure Passed (s : Regs) (g : Trail) (P : Word → Prop) : Prop where
  bubble : s.fromEXE.nop = true → g.passes = []
  fresh : s.hasFired = false → g.passes = []
  sent : s.fromEXE.nop = false → s.hasFired = true → ∃ v, g.passes = [v] ∧ P v

theorem cycle_passes : (g.cycle s io fromEXEValid).passes =
    g.passes ++ if toWBValid s io && !(s.fromEXE.nop || s.hasFired) then [regWdata s io] else [] :=
  rfl

theorem Passed.done (h : Passed s g P) (fromEXEValid : Bool) (hv : toWBValid s io = true)
    (hP : nop s = false → P (regWdata s io)) :
    (s.fromEXE.nop = true → (g.cycle s io fromEXEValid).passes = []) ∧
      (s.fromEXE.nop = false → ∃ v, (g.cycle s io fromEXEValid).passes = [v] ∧ P v) := by
  constructor
  · intro hn
    simp [cycle_passes, hn, h.bubble hn]
  · intro hn
    cases hf : s.hasFired
    case false =>
      exact ⟨regWdata s io, by simp [cycle_passes, hv, hn, hf, h.fresh hf],
        hP (by simp [nop, hn, hf])⟩
    case true =>
      obtain ⟨v, hg, hPv⟩ := h.sent hn hf
      exact ⟨v, by simp [cycle_passes, hf, hg], hPv⟩

theorem Passed.cycle (h : Passed s g P) (toMEM : ExeMemBus)
    (hfire : fromEXEFire s io fromEXEValid = false) (hPQ : ∀ v, P v → Q v)
    (hQ : toWBValid s io = true → nop s = false → Q (regWdata s io)) :
    Passed (MEM.next s io fromEXEValid toMEM) (g.cycle s io fromEXEValid) Q := by
  have hfrom : (MEM.next s io fromEXEValid toMEM).fromEXE = s.fromEXE := by
    simp [MEM.next, hfire]
  have hfired : (MEM.next s io fromEXEValid toMEM).hasFired =
      (toWBValid s io || s.hasFired) := by
    cases hv : toWBValid s io <;> simp [MEM.next, toWBFire, hfire, hv]
  constructor
  · rw [hfrom]
    intro hn
    simp [cycle_passes, hn, h.bubble hn]
  · rw [hfired, Bool.or_eq_false_iff]
    rintro ⟨hv, hf⟩
    simp [cycle_passes, hv, h.fresh hf]
  · rw [hfrom, hfired]
    intro hn hs
    cases hf : s.hasFired
    case false =>
      have hv : toWBValid s io = true := by simpa [hf] using hs
      exact ⟨regWdata s io, by simp [cycle_passes, hv, hn, hf, h.fresh hf],
        hQ hv (by simp [nop, hn, hf])⟩
    case true =>
      obtain ⟨v, hg, hPv⟩ := h.sent hn hf
      exact ⟨v, by simp [cycle_passes, hf, hg], hPQ v hPv⟩

end Passes

section Tracked

variable {s : Regs} {io : Inputs} {fromEXEValid : Bool} {g : Trail} {port : Port}
variable {P : Word → Prop}

def firstReq (s : Regs) : SRAMLikeReq :=
  { wr := !ren s && wen s
    size := reqSize s
    addr := vaddr s
    wdata := memWdata s
    wstrb := (controlSignals s).memRawMask <<< ((vaddr s).extractLsb 1 0).toNat
    len := 0 }

def amoReq (s : Regs) (d : Word) : SRAMLikeReq :=
  { wr := true
    size := 2
    addr := vaddr s
    wdata := AMOALU.res (controlSignals s).amoOp d (rs2 s)
    wstrb := 0xf
    len := 0 }

/-- The trail that each state of the machine stands for. -/
inductive Tracked (s : Regs) (port : Port) (g : Trail) : Prop
  | idle (state : s.state = .IDLE) (owed : port.outstanding = none)
      (trail : g.issued = [] ∧ g.reads = [])
      (passes : Passed s g fun v => access s = true →
        isSC s = true ∧ s.reservation ≠ vaddr s ∧ v ≠ 0#32)
  | wait (state : s.state = .WAIT_RESP) (acc : access s = true) (one : (ren s && wen s) = false)
      (owed : port.outstanding = some (!ren s && wen s))
      (trail : g.issued = [firstReq s] ∧ g.reads = [])
      (passes : Passed s g fun v => isSC s = true → v = 0#32)
  | amoRead (state : s.state = .AMO_WAIT_READ_RESP) (acc : access s = true)
      (both : ren s = true ∧ wen s = true) (owed : port.outstanding = some false)
      (trail : g.issued = [firstReq s] ∧ g.reads = []) (passes : Passed s g fun _ => False)
  | amoCalc (d : Word) (state : s.state = .AMO_CALC) (acc : access s = true)
      (both : ren s = true ∧ wen s = true) (owed : port.outstanding = none)
      (trail : g.issued = [firstReq s] ∧ g.reads = [d])
      (data : s.amoReadData = d ∧ s.amoRegWriteDataReg = d) (passes : Passed s g fun _ => False)
  | amoLaunch (d : Word) (state : s.state = .AMO_LAUNCH_WRITE_REQ) (acc : access s = true)
      (both : ren s = true ∧ wen s = true) (owed : port.outstanding = none)
      (trail : g.issued = [firstReq s] ∧ g.reads = [d])
      (data : s.amoAluResReg = (amoReq s d).wdata ∧ s.amoRegWriteDataReg = d)
      (passes : Passed s g fun _ => False)
  | amoWrite (d : Word) (state : s.state = .AMO_WAIT_WRITE_RESP) (acc : access s = true)
      (both : ren s = true ∧ wen s = true) (owed : port.outstanding = some true)
      (trail : g.issued = [firstReq s, amoReq s d] ∧ g.reads = [d])
      (data : s.amoRegWriteDataReg = d)
      (passes : Passed s g fun v => (controlSignals s).fuTypeAMO = true → v = d)

theorem Passed.nil_or (h : Passed s g P) :
    g.passes = [] ∨ ∃ v, g.passes = [v] ∧ s.fromEXE.nop = false ∧ P v := by
  cases hn : s.fromEXE.nop
  case true => exact .inl (h.bubble hn)
  case false =>
    cases hf : s.hasFired
    case false => exact .inl (h.fresh hf)
    case true =>
      obtain ⟨v, hg, hv⟩ := h.sent hn hf
      exact .inr ⟨v, hg, rfl, hv⟩

theorem regWdata_of_amo (h : (controlSignals s).fuTypeAMO = true) :
    regWdata s io = amoRegWriteData s io := by simp [regWdata, PriorityMux, h]

theorem same_of_fromEXE {s' : Regs} (h : s'.fromEXE = s.fromEXE) :
    controlSignals s' = controlSignals s ∧ ren s' = ren s ∧ wen s' = wen s ∧
      access s' = access s ∧ isSC s' = isSC s ∧ vaddr s' = vaddr s ∧ firstReq s' = firstReq s ∧
      ∀ d, amoReq s' d = amoReq s d := by
  have hc : controlSignals s' = controlSignals s := congrArg ExeMemBus.controlSignals h
  have hr : ren s' = ren s := by simp [ren, hc, h]
  have hw : wen s' = wen s := by simp [wen, hc, h]
  have hv : vaddr s' = vaddr s := by simp [vaddr, hc]
  refine ⟨hc, hr, hw, ?_, by simp [isSC, hc], hv, ?_, fun d => by simp [amoReq, rs2, hc, hv]⟩
  · simp [access, align, byteWise, hr, hw, hv, hc]
  · simp [firstReq, reqSize, memWdata, byteWise, hr, hw, hv, hc]

theorem next_fromEXE_of_stay (toMEM : ExeMemBus) (hfire : fromEXEFire s io fromEXEValid = false) :
    (next s io fromEXEValid toMEM).fromEXE = s.fromEXE := by simp [next, hfire]

section Done

theorem done_load (h : Asks s .load) (d v : Word) :
    Access.load.Done (vaddr s) (rs2 s) [firstReq s] [d] v :=
  .load _ d v (by simp [firstReq, h.2.1]) rfl

theorem done_store (h : Asks s .store) (v : Word) :
    Access.store.Done (vaddr s) (rs2 s) [firstReq s] [] v :=
  .store _ v (by simp [firstReq, h.2.1, wen_of_access h.1 h.2.1]) rfl

theorem done_sc (h : Asks s .sc) : Access.sc.Done (vaddr s) (rs2 s) [firstReq s] [] 0 :=
  .scSucceeds _ (by simp [firstReq, h.2.1, wen_of_access h.1 h.2.1]) rfl

theorem done_amo {k : AMOInst} (h : Asks s (.amo k)) (d : Word) :
    (Access.amo k).Done (vaddr s) (rs2 s) [firstReq s, amoReq s d] [d] d :=
  .amo k _ _ d (by simp [firstReq, h.2.1]) rfl rfl rfl
    (by rw [amoReq, h.2.2.2.2, AMOALU.res_amoOp])

end Done

theorem sc_of_toWBValid (hst : s.state = .IDLE) (ha : access s = true)
    (hv : toWBValid s io = true) : isSC s = true ∧ s.reservation ≠ vaddr s := by
  simpa [toWBValid, hst, ha] using hv

theorem reqFire_of_toWBValid (hst : s.state = .IDLE) (hv : toWBValid s io = true) :
    reqFire s io = false := by
  cases ha : access s
  case false => simp [reqFire, req, hst, ha]
  case true => simp [reqFire, req, hst, ha, sc_of_toWBValid hst ha hv]

theorem access_of_not_valid (hst : s.state = .IDLE) (hv : toWBValid s io = false) :
    access s = true := by
  by_contra ha
  simp [toWBValid, hst, ha] at hv

theorem nothing_or_sc {a : Access} (ha : Asks s a) (hsc : access s = true → isSC s = true) :
    a = .nothing ∨ a = .sc := by
  cases a with
  | nothing => exact .inl rfl
  | sc => exact .inr rfl
  | load => exact absurd (hsc ha.1) (by simp [ha.2.2])
  | store => exact absurd (hsc ha.1) (by simp [ha.2.2])
  | amo k => exact absurd (hsc ha.1) (by simp [not_isSC_of_amo ha])

theorem regWdata_of_failing (hst : s.state = .IDLE) (ha : access s = true)
    (hsc : isSC s = true ∧ s.reservation ≠ vaddr s) : regWdata s io = 1#32 := by
  have hne : (s.reservation != vaddr s) = true := bne_iff_ne.2 hsc.2
  rw [regWdata_of_amo (isSC_amo hsc.1).1]
  simp [amoRegWriteData, hst, ha, hsc.1, hne]

theorem regWdata_of_sc (hst : s.state = .WAIT_RESP) (hsc : isSC s = true) :
    regWdata s io = 0#32 := by
  have hlr : isLR s = false := by simp [isLR, isSC_amo hsc]
  rw [regWdata_of_amo (isSC_amo hsc).1]
  simp [amoRegWriteData, hst, hlr, hsc]

theorem regWdata_of_amoWrite (hst : s.state = .AMO_WAIT_WRITE_RESP)
    (hamo : (controlSignals s).fuTypeAMO = true) : regWdata s io = s.amoRegWriteDataReg := by
  rw [regWdata_of_amo hamo, amoRegWriteData, hst]

theorem passes_nil (h : Passed s g fun _ => False) : g.passes = [] :=
  h.nil_or.resolve_right fun ⟨_, _, _, hf⟩ => hf

namespace Tracked

theorem begun (h : Tracked s port g) (a : Access) (ha : Asks s a) : g.Begun s a := by
  cases h with
  | idle state owed trail passes =>
    rcases passes.nil_or with hp | ⟨v, hp, -, hv⟩
    · cases a with
      | nothing => exact ⟨[], [], 0, .nothing 0, by simp [trail], by simp [trail], by simp [hp]⟩
      | load => exact ⟨_, _, 0, done_load ha 0 0, by simp [trail], by simp [trail], by simp [hp]⟩
      | store => exact ⟨_, _, 0, done_store ha 0, by simp [trail], by simp [trail], by simp [hp]⟩
      | sc => exact ⟨_, _, 0, done_sc ha, by simp [trail], by simp [trail], by simp [hp]⟩
      | amo k => exact ⟨_, _, 0, done_amo ha 0, by simp [trail], by simp [trail], by simp [hp]⟩
    · obtain rfl | rfl := nothing_or_sc ha fun hacc => (hv hacc).1
      · exact ⟨[], [], v, .nothing v, by simp [trail], by simp [trail], by simp [hp]⟩
      · exact ⟨[], [], v, .scFails v (hv ha.1).2.2, by simp [trail], by simp [trail], by simp [hp]⟩
  | wait state acc one owed trail passes =>
    cases a with
    | nothing => simp [Asks, acc] at ha
    | load =>
      rcases passes.nil_or with hp | ⟨v, hp, -, -⟩
      · exact ⟨_, _, 0, done_load ha 0 0, by simp [trail], by simp [trail], by simp [hp]⟩
      · exact ⟨_, _, v, done_load ha 0 v, by simp [trail], by simp [trail], by simp [hp]⟩
    | store =>
      rcases passes.nil_or with hp | ⟨v, hp, -, -⟩
      · exact ⟨_, _, 0, done_store ha 0, by simp [trail], by simp [trail], by simp [hp]⟩
      · exact ⟨_, _, v, done_store ha v, by simp [trail], by simp [trail], by simp [hp]⟩
    | sc =>
      refine ⟨_, _, 0, done_sc ha, by simp [trail], by simp [trail], ?_⟩
      rcases passes.nil_or with hp | ⟨v, hp, -, hv⟩
      · simp [hp]
      · simp [hp, hv ha.2.2]
    | amo k => simp [ha.2.1, ha.2.2.1] at one
  | amoRead state acc both owed trail passes =>
    obtain ⟨k, rfl⟩ := exists_amo_of_both ha acc both
    exact ⟨_, _, 0, done_amo ha 0, by simp [trail], by simp [trail], by simp [passes_nil passes]⟩
  | amoCalc d state acc both owed trail data passes =>
    obtain ⟨k, rfl⟩ := exists_amo_of_both ha acc both
    exact ⟨_, _, d, done_amo ha d, by simp [trail], by simp [trail], by simp [passes_nil passes]⟩
  | amoLaunch d state acc both owed trail data passes =>
    obtain ⟨k, rfl⟩ := exists_amo_of_both ha acc both
    exact ⟨_, _, d, done_amo ha d, by simp [trail], by simp [trail], by simp [passes_nil passes]⟩
  | amoWrite d state acc both owed trail data passes =>
    obtain ⟨k, rfl⟩ := exists_amo_of_both ha acc both
    refine ⟨_, _, d, done_amo ha d, by simp [trail], by simp [trail], ?_⟩
    rcases passes.nil_or with hp | ⟨v, hp, -, hv⟩
    · simp [hp]
    · simp [hp, hv ha.2.2.2.1]

theorem answer_of_wait (hk : port.Kept io) {wr : Bool} (ho : port.outstanding = some wr) :
    (wr = true → io.rResp.valid = false) ∧ (wr = false → io.wResp.valid = false) := by
  constructor
  · rintro rfl
    by_contra hv
    simp [hk.read (Bool.not_eq_false _ ▸ hv)] at ho
  · rintro rfl
    by_contra hv
    simp [hk.write (Bool.not_eq_false _ ▸ hv)] at ho

theorem finished (h : Tracked s port g) (hk : port.Kept io)
    (hfire : fromEXEFire s io fromEXEValid = true) (a : Access) (ha : Asks s a) :
    (g.cycle s io fromEXEValid).Finished s a := by
  obtain ⟨hev, hv⟩ : fromEXEValid = true ∧ toWBValid s io = true := by
    simpa [fromEXEFire, fromEXEReady] using hfire
  cases h with
  | idle state owed trail passes =>
    have hreq := reqFire_of_toWBValid state hv
    have htrail : (g.cycle s io fromEXEValid).issued = [] ∧
        (g.cycle s io fromEXEValid).reads = [] := by
      simp [Trail.cycle, trail, hreq, rRespFire, rRespReady, state]
    obtain ⟨hnop, hsent⟩ := passes.done fromEXEValid hv fun _ hacc =>
      have hsc := sc_of_toWBValid state hacc hv
      ⟨hsc.1, hsc.2, by simp [regWdata_of_failing state hacc hsc]⟩
    obtain rfl | rfl := nothing_or_sc ha fun hacc => (sc_of_toWBValid state hacc hv).1
    · cases hn : s.fromEXE.nop
      case true => exact ⟨0, by rw [htrail.1, htrail.2]; exact .nothing 0, by simp [hnop hn, hn]⟩
      case false =>
        obtain ⟨v, hp, -⟩ := hsent hn
        exact ⟨v, by rw [htrail.1, htrail.2]; exact .nothing v, by simp [hp, hn]⟩
    · have hn := not_nop_of_access ha.1
      obtain ⟨v, hp, hP⟩ := hsent hn
      exact ⟨v, by rw [htrail.1, htrail.2]; exact .scFails v (hP ha.1).2.2, by simp [hp, hn]⟩
  | wait state acc one owed trail passes =>
    have hn := not_nop_of_access acc
    have hissued : (g.cycle s io fromEXEValid).issued = [firstReq s] := by
      simp [Trail.cycle, trail, reqFire, req, state]
    have hreads : (g.cycle s io fromEXEValid).reads =
        if io.rResp.valid then [io.rResp.bits.rdata] else [] := by
      simp [Trail.cycle, trail, rRespFire, rRespReady, state, hev]
    obtain ⟨v, hp, hP⟩ := (passes.done fromEXEValid hv fun _ hsc =>
      regWdata_of_sc state hsc).2 hn
    have hanswer := answer_of_wait hk owed
    cases a with
    | nothing => simp [Asks, acc] at ha
    | load =>
      have hr : io.rResp.valid = true := by
        simpa [toWBValid, state, hanswer.2 (by simp [ha.2.1])] using hv
      exact ⟨v, by rw [hissued, hreads, hr]; exact done_load ha _ v, by simp [hp, hn]⟩
    | store =>
      have hr := hanswer.1 (by simp [ha.2.1, wen_of_access ha.1 ha.2.1])
      exact ⟨v, by rw [hissued, hreads, hr]; exact done_store ha v, by simp [hp, hn]⟩
    | sc =>
      have hr := hanswer.1 (by simp [ha.2.1, wen_of_access ha.1 ha.2.1])
      obtain rfl := hP ha.2.2
      exact ⟨0, by rw [hissued, hreads, hr]; exact done_sc ha, by simp [hp, hn]⟩
    | amo k => simp [ha.2.1, ha.2.2.1] at one
  | amoWrite d state acc both owed trail data passes =>
    obtain ⟨k, rfl⟩ := exists_amo_of_both ha acc both
    have hn := not_nop_of_access acc
    obtain ⟨v, hp, hP⟩ := (passes.done fromEXEValid hv fun _ hamo =>
      (regWdata_of_amoWrite state hamo).trans data).2 hn
    obtain rfl := hP ha.2.2.2.1
    refine ⟨v, ?_, by simp [hp, hn]⟩
    have htrail : (g.cycle s io fromEXEValid).issued = [firstReq s, amoReq s v] ∧
        (g.cycle s io fromEXEValid).reads = [v] := by
      simp [Trail.cycle, trail, reqFire, req, rRespFire, rRespReady, state]
    rw [htrail.1, htrail.2]
    exact done_amo ha v
  | amoRead state => simp [toWBValid, state] at hv
  | amoCalc d state => simp [toWBValid, state] at hv
  | amoLaunch d state => simp [toWBValid, state] at hv

theorem passed (h : Tracked s port g) (hk : port.Kept io) (hv : toWBValid s io = true)
    (hn : nop s = false) : g.passes = [] ∧ ∀ a, Asks s a →
      (∃ reads, a.Done (vaddr s) (rs2 s) g.issued reads (regWdata s io)) ∧
        ∀ r ∈ g.issued.getLast?, if r.wr then io.wResp.valid = true else io.rResp.valid = true := by
  obtain ⟨hnop, hfired⟩ : s.fromEXE.nop = false ∧ s.hasFired = false := by
    simpa [MEM.nop] using hn
  cases h with
  | idle state owed trail passes =>
    refine ⟨passes.fresh hfired, fun a ha => ⟨⟨[], ?_⟩, by simp [trail]⟩⟩
    rw [trail.1]
    obtain rfl | rfl := nothing_or_sc ha fun hacc => (sc_of_toWBValid state hacc hv).1
    · exact .nothing _
    · rw [regWdata_of_failing state ha.1 (sc_of_toWBValid state ha.1 hv)]
      exact .scFails _ (by decide)
  | wait state acc one owed trail passes =>
    refine ⟨passes.fresh hfired, fun a ha => ?_⟩
    have hanswer := answer_of_wait hk owed
    have hresp : if (firstReq s).wr then io.wResp.valid = true else io.rResp.valid = true := by
      have hor : io.rResp.valid = true ∨ io.wResp.valid = true := by
        simpa [toWBValid, state] using hv
      cases hwr : (firstReq s).wr
      case false => exact hor.resolve_right (by simp [hanswer.2 hwr])
      case true => exact hor.resolve_left (by simp [hanswer.1 hwr])
    refine ⟨?_, by simpa [trail] using hresp⟩
    rw [trail.1]
    cases a with
    | nothing => simp [Asks, acc] at ha
    | load => exact ⟨_, done_load ha 0 _⟩
    | store => exact ⟨_, done_store ha _⟩
    | sc =>
      rw [regWdata_of_sc state ha.2.2]
      exact ⟨_, done_sc ha⟩
    | amo k => simp [ha.2.1, ha.2.2.1] at one
  | amoWrite d state acc both owed trail data passes =>
    refine ⟨passes.fresh hfired, fun a ha => ?_⟩
    obtain ⟨k, rfl⟩ := exists_amo_of_both ha acc both
    rw [regWdata_of_amoWrite state ha.2.2.2.1, data, trail.1]
    exact ⟨⟨_, done_amo ha d⟩, by simpa [amoReq, toWBValid, state] using hv⟩
  | amoRead state => simp [toWBValid, state] at hv
  | amoCalc d state => simp [toWBValid, state] at hv
  | amoLaunch d state => simp [toWBValid, state] at hv

theorem progress (h : Tracked s port g) (i : StageInputs) (hk : port.Kept i.port)
    (hu : Unblocked s port i) : fromEXEFire s i.port i.fromEXEValid = true ∨
      rank (nextState s i.port i.fromEXEValid) < rank s.state := by
  have hfire (hv : toWBValid s i.port = true) : fromEXEFire s i.port i.fromEXEValid = true := by
    simp [fromEXEFire, fromEXEReady, hu.next, hv]
  cases h with
  | idle state owed trail passes =>
    cases hv : toWBValid s i.port
    case true => exact .inl (hfire hv)
    case false =>
      have hacc := access_of_not_valid state hv
      have hvalid : (req s).valid = true := by
        simp only [toWBValid, state, hacc, if_true] at hv
        simp only [req, state, hacc, if_true, hv, Bool.not_false]
      have hreq : reqFire s i.port = true := by simp [reqFire, hvalid, hu.accepted hvalid]
      refine .inr ?_
      simp only [nextState, state, hacc, hreq]
      cases ren s && wen s <;> simp [rank]
  | wait state acc one owed trail passes =>
    refine .inl (hfire ?_)
    simpa [toWBValid, state] using hu.answered (by simp [owed])
  | amoRead state acc both owed trail passes =>
    have hr : i.port.rResp.valid = true :=
      (hu.answered (by simp [owed])).resolve_right (by simp [(answer_of_wait hk owed).2 rfl])
    exact .inr (by simp [nextState, rRespFire, rRespReady, state, hr, rank])
  | amoCalc d state => exact .inr (by simp [nextState, state, rank])
  | amoLaunch d state acc both owed trail data passes =>
    have hreq : reqFire s i.port = true := by
      simp [reqFire, req, state, hu.accepted (by simp [req, state])]
    exact .inr (by simp [nextState, state, hreq, rank])
  | amoWrite d state acc both owed trail data passes =>
    refine .inl (hfire ?_)
    have hw := (hu.answered (by simp [owed])).resolve_left
      (by simp [(answer_of_wait hk owed).1 rfl])
    simpa [toWBValid, state] using hw

end Tracked

end Tracked

end FpgaNpc.MEM
