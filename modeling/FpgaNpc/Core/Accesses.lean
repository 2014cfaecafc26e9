import FpgaNpc.Core.Operands
import FpgaNpc.Core.Trail

open FpgaNpc.Hardware FpgaNpc.ControlSignals FpgaNpc.InterStage FpgaNpc.SRAMLike FpgaNpc.Riscv

namespace FpgaNpc

namespace MEM

section Tracked

variable {s : Regs} {io : Inputs} {fromEXEValid : Bool} {g : Trail} {port : Port}

theorem Tracked.next_fire (h : Tracked s port g) (toMEM : ExeMemBus)
    (hfire : fromEXEFire s io fromEXEValid = true) :
    Tracked (next s io fromEXEValid toMEM) (port.observe s io fromEXEValid) .empty := by
  obtain ⟨hev, hv⟩ : fromEXEValid = true ∧ toWBValid s io = true := by
    simpa [fromEXEFire, fromEXEReady] using hfire
  refine .idle (nextState_of_fire hfire) ?_ ⟨rfl, rfl⟩ ⟨fun _ => rfl, fun _ => rfl, ?_⟩
  · cases h with
    | idle state owed trail passes =>
      have hreq := reqFire_of_toWBValid state hv
      simp [Port.observe, hreq, rRespFire, rRespReady, wRespFire, wRespReady, state, owed]
    | wait state acc one owed trail passes =>
      have hresp : rRespFire s io fromEXEValid = true ∨ wRespFire s io fromEXEValid = true := by
        simpa [toWBValid, state, rRespFire, rRespReady, wRespFire, wRespReady, hev] using hv
      rcases hresp with hresp | hresp <;> simp [Port.observe, reqFire, req, state, hresp]
    | amoWrite d state acc both owed trail data passes =>
      have hresp : wRespFire s io fromEXEValid = true := by
        simpa [toWBValid, state, wRespFire, wRespReady, hev] using hv
      simp [Port.observe, reqFire, req, state, hresp]
    | amoRead state => simp [toWBValid, state] at hv
    | amoCalc d state => simp [toWBValid, state] at hv
    | amoLaunch d state => simp [toWBValid, state] at hv
  · intro _ hf
    simp [MEM.next, toWBFire, hv, hfire] at hf

section Stay

variable (toMEM : ExeMemBus) (hfire : fromEXEFire s io fromEXEValid = false)

theorem not_valid_of_stay (hfire : fromEXEFire s io fromEXEValid = false)
    (hv : toWBValid s io = true) : fromEXEValid = false := by
  simpa [fromEXEFire, fromEXEReady, hv] using hfire

include hfire

theorem tracked_of_idle (state : s.state = .IDLE) (owed : port.outstanding = none)
    (trail : g.issued = [] ∧ g.reads = [])
    (passes : Passed s g fun v => access s = true →
      isSC s = true ∧ s.reservation ≠ vaddr s ∧ v ≠ 0#32)
    (hreq : reqFire s io = false)
    (hres : access s = true → isSC s = true → s.reservation ≠ vaddr s →
      (next s io fromEXEValid toMEM).reservation ≠ vaddr s) :
    Tracked (next s io fromEXEValid toMEM) (port.observe s io fromEXEValid)
      (g.cycle s io fromEXEValid) := by
  obtain ⟨-, -, -, hacc, hisSC, hvaddr, -, -⟩ := same_of_fromEXE (next_fromEXE_of_stay toMEM hfire)
  refine .idle ?_ ?_ ⟨?_, ?_⟩ (passes.cycle toMEM hfire (fun v hP ha => ?_) fun hv _ ha => ?_)
  · simp [next, nextState, state, hreq]
  · simp [Port.observe, hreq, rRespFire, rRespReady, wRespFire, wRespReady, state, owed]
  · simp [Trail.cycle, trail, hreq]
  · simp [Trail.cycle, trail, rRespFire, rRespReady, state]
  · rw [hacc] at ha
    rw [hisSC, hvaddr]
    obtain ⟨hs, hne, hv0⟩ := hP ha
    exact ⟨hs, hres ha hs hne, hv0⟩
  · rw [hacc] at ha
    rw [hisSC, hvaddr]
    have hs := sc_of_toWBValid state ha hv
    exact ⟨hs.1, hres ha hs.1 hs.2, by simp [regWdata_of_failing state ha hs]⟩

theorem tracked_of_accepted (state : s.state = .IDLE) (trail : g.issued = [] ∧ g.reads = [])
    (passes : Passed s g fun v => access s = true →
      isSC s = true ∧ s.reservation ≠ vaddr s ∧ v ≠ 0#32)
    (ha : access s = true) (hv : toWBValid s io = false) (hreq : reqFire s io = true) :
    Tracked (next s io fromEXEValid toMEM) (port.observe s io fromEXEValid)
      (g.cycle s io fromEXEValid) := by
  obtain ⟨-, hren, hwen, hacc, -, -, hfirst, -⟩ :=
    same_of_fromEXE (next_fromEXE_of_stay toMEM hfire)
  have howed : (port.observe s io fromEXEValid).outstanding = some (!ren s && wen s) := by
    simp [Port.observe, hreq, req, state, ha]
  have htrail : (g.cycle s io fromEXEValid).issued = [firstReq (next s io fromEXEValid toMEM)] ∧
      (g.cycle s io fromEXEValid).reads = [] := by
    rw [hfirst]
    simp [Trail.cycle, trail, hreq, req, state, ha, firstReq, rRespFire, rRespReady]
  have hnone (Q : Word → Prop) :
      Passed (next s io fromEXEValid toMEM) (g.cycle s io fromEXEValid) Q := by
    refine passes.cycle toMEM hfire (fun v hP => ?_) (by simp [hv])
    obtain ⟨hs, hne, -⟩ := hP ha
    simp [toWBValid, state, ha, hs, hne] at hv
  cases hboth : ren s && wen s
  case false =>
    exact .wait (by simp [next, nextState, state, ha, hreq, hboth]) (hacc.trans ha)
      (by rw [hren, hwen, hboth]) (by rw [howed, hren, hwen]) htrail (hnone _)
  case true =>
    have hb : ren s = true ∧ wen s = true := by simpa using hboth
    exact .amoRead (by simp [next, nextState, state, ha, hreq, hb]) (hacc.trans ha)
      ⟨hren.trans hb.1, hwen.trans hb.2⟩ (by rw [howed, hb.1]; rfl) htrail (hnone _)

theorem tracked_of_wait (state : s.state = .WAIT_RESP) (acc : access s = true)
    (one : (ren s && wen s) = false) (owed : port.outstanding = some (!ren s && wen s))
    (trail : g.issued = [firstReq s] ∧ g.reads = [])
    (passes : Passed s g fun v => isSC s = true → v = 0#32) :
    Tracked (next s io fromEXEValid toMEM) (port.observe s io fromEXEValid)
      (g.cycle s io fromEXEValid) := by
  obtain ⟨-, hren, hwen, hacc, hisSC, -, hfirst, -⟩ :=
    same_of_fromEXE (next_fromEXE_of_stay toMEM hfire)
  have hquiet : rRespFire s io fromEXEValid = false ∧ wRespFire s io fromEXEValid = false := by
    cases hv : toWBValid s io
    case true =>
      simp [rRespFire, rRespReady, wRespFire, wRespReady, state, not_valid_of_stay hfire hv]
    case false =>
      have hno : io.rResp.valid = false ∧ io.wResp.valid = false := by
        simpa [toWBValid, state] using hv
      simp [rRespFire, wRespFire, hno]
  refine .wait (by simp [next, nextState, state, hquiet]) (hacc.trans acc)
    (by rw [hren, hwen, one])
    (by rw [hren, hwen]; simp [Port.observe, reqFire, req, state, hquiet, owed])
    (by rw [hfirst]; simp [Trail.cycle, trail, reqFire, req, state, hquiet]) ?_
  rw [hisSC]
  exact passes.cycle toMEM hfire (fun _ hP => hP) fun _ _ => regWdata_of_sc state

theorem tracked_of_amoRead (state : s.state = .AMO_WAIT_READ_RESP) (acc : access s = true)
    (both : ren s = true ∧ wen s = true) (owed : port.outstanding = some false)
    (trail : g.issued = [firstReq s] ∧ g.reads = []) (passes : Passed s g fun _ => False) :
    Tracked (next s io fromEXEValid toMEM) (port.observe s io fromEXEValid)
      (g.cycle s io fromEXEValid) := by
  obtain ⟨-, hren, hwen, hacc, -, -, hfirst, -⟩ :=
    same_of_fromEXE (next_fromEXE_of_stay toMEM hfire)
  have hno : Passed (next s io fromEXEValid toMEM) (g.cycle s io fromEXEValid) fun _ => False :=
    passes.cycle toMEM hfire (fun _ hP => hP) (by simp [toWBValid, state])
  have hissued : (g.cycle s io fromEXEValid).issued = [firstReq s] := by
    simp [Trail.cycle, trail, reqFire, req, state]
  cases hr : io.rResp.valid
  case false =>
    have hquiet : rRespFire s io fromEXEValid = false := by simp [rRespFire, hr]
    refine .amoRead (by simp [next, nextState, state, hquiet]) (hacc.trans acc)
      ⟨hren.trans both.1, hwen.trans both.2⟩ ?_ ⟨by rw [hissued, hfirst], ?_⟩ hno
    · simp [Port.observe, reqFire, req, state, hquiet, wRespFire, wRespReady, owed]
    · simp [Trail.cycle, trail, hquiet]
  case true =>
    have htaken : rRespFire s io fromEXEValid = true := by simp [rRespFire, rRespReady, state, hr]
    refine .amoCalc io.rResp.bits.rdata (by simp [next, nextState, state, htaken])
      (hacc.trans acc) ⟨hren.trans both.1, hwen.trans both.2⟩ ?_
      ⟨by rw [hissued, hfirst], ?_⟩ ?_ hno
    · simp [Port.observe, reqFire, req, state, htaken]
    · simp [Trail.cycle, trail, htaken]
    · simp [next, state, htaken]

theorem tracked_of_amoCalc (d : Word) (state : s.state = .AMO_CALC) (acc : access s = true)
    (both : ren s = true ∧ wen s = true) (owed : port.outstanding = none)
    (trail : g.issued = [firstReq s] ∧ g.reads = [d])
    (data : s.amoReadData = d ∧ s.amoRegWriteDataReg = d) (passes : Passed s g fun _ => False) :
    Tracked (next s io fromEXEValid toMEM) (port.observe s io fromEXEValid)
      (g.cycle s io fromEXEValid) := by
  obtain ⟨-, hren, hwen, hacc, -, -, hfirst, hamo⟩ :=
    same_of_fromEXE (next_fromEXE_of_stay toMEM hfire)
  refine .amoLaunch d (by simp [next, nextState, state]) (hacc.trans acc)
    ⟨hren.trans both.1, hwen.trans both.2⟩ ?_ ⟨?_, ?_⟩ ⟨?_, ?_⟩
    (passes.cycle toMEM hfire (fun _ hP => hP) (by simp [toWBValid, state]))
  · simp [Port.observe, reqFire, req, state, rRespFire, rRespReady, wRespFire, wRespReady, owed]
  · rw [hfirst]
    simp [Trail.cycle, trail, reqFire, req, state]
  · simp [Trail.cycle, trail, rRespFire, rRespReady, state]
  · rw [hamo]
    simp [next, state, amoAluRes, data.1, amoReq, rs2]
  · simp [next, state, data.2]

theorem tracked_of_amoLaunch (d : Word) (state : s.state = .AMO_LAUNCH_WRITE_REQ)
    (acc : access s = true) (both : ren s = true ∧ wen s = true) (owed : port.outstanding = none)
    (trail : g.issued = [firstReq s] ∧ g.reads = [d])
    (data : s.amoAluResReg = (amoReq s d).wdata ∧ s.amoRegWriteDataReg = d)
    (passes : Passed s g fun _ => False) :
    Tracked (next s io fromEXEValid toMEM) (port.observe s io fromEXEValid)
      (g.cycle s io fromEXEValid) := by
  obtain ⟨-, hren, hwen, hacc, -, -, hfirst, hamo⟩ :=
    same_of_fromEXE (next_fromEXE_of_stay toMEM hfire)
  have hno (Q : Word → Prop) :
      Passed (next s io fromEXEValid toMEM) (g.cycle s io fromEXEValid) Q :=
    passes.cycle toMEM hfire (fun _ hP => hP.elim) (by simp [toWBValid, state])
  have hreads : (g.cycle s io fromEXEValid).reads = [d] := by
    simp [Trail.cycle, trail, rRespFire, rRespReady, state]
  have hreg : (next s io fromEXEValid toMEM).amoRegWriteDataReg = d := by
    simp [next, state, data.2]
  cases hreq : reqFire s io
  case false =>
    refine .amoLaunch d (by simp [next, nextState, state, hreq]) (hacc.trans acc)
      ⟨hren.trans both.1, hwen.trans both.2⟩ ?_ ⟨?_, hreads⟩ ⟨?_, hreg⟩ (hno _)
    · simp [Port.observe, hreq, state, rRespFire, rRespReady, wRespFire, wRespReady, owed]
    · rw [hfirst]
      simp [Trail.cycle, trail, hreq]
    · rw [hamo]
      simp [next, state, data.1]
  case true =>
    refine .amoWrite d (by simp [next, nextState, state, hreq]) (hacc.trans acc)
      ⟨hren.trans both.1, hwen.trans both.2⟩ ?_ ⟨?_, hreads⟩ hreg (hno _)
    · simp [Port.observe, hreq, req, state]
    · rw [hfirst, hamo]
      simp [Trail.cycle, trail, hreq, req, state, data.1, amoReq]

theorem tracked_of_amoWrite (d : Word) (state : s.state = .AMO_WAIT_WRITE_RESP)
    (acc : access s = true) (both : ren s = true ∧ wen s = true)
    (owed : port.outstanding = some true)
    (trail : g.issued = [firstReq s, amoReq s d] ∧ g.reads = [d])
    (data : s.amoRegWriteDataReg = d)
    (passes : Passed s g fun v => (controlSignals s).fuTypeAMO = true → v = d) :
    Tracked (next s io fromEXEValid toMEM) (port.observe s io fromEXEValid)
      (g.cycle s io fromEXEValid) := by
  obtain ⟨hc, hren, hwen, hacc, -, -, hfirst, hamo⟩ :=
    same_of_fromEXE (next_fromEXE_of_stay toMEM hfire)
  have hquiet : wRespFire s io fromEXEValid = false := by
    cases hv : toWBValid s io
    case true => simp [wRespFire, wRespReady, state, not_valid_of_stay hfire hv]
    case false =>
      have hno : io.wResp.valid = false := by simpa [toWBValid, state] using hv
      simp [wRespFire, hno]
  refine .amoWrite d (by simp [next, nextState, state, hquiet]) (hacc.trans acc)
    ⟨hren.trans both.1, hwen.trans both.2⟩ ?_ ⟨?_, ?_⟩ (by simp [next, state, data]) ?_
  · simp [Port.observe, reqFire, req, state, rRespFire, rRespReady, hquiet, owed]
  · rw [hfirst, hamo]
    simp [Trail.cycle, trail, reqFire, req, state]
  · simp [Trail.cycle, trail, rRespFire, rRespReady, state]
  · rw [hc]
    exact passes.cycle toMEM hfire (fun _ hP => hP) fun _ _ hfu =>
      (regWdata_of_amoWrite state hfu).trans data

theorem Tracked.next_stay (h : Tracked s port g) (hsc : SCPasses s io fromEXEValid) :
    Tracked (next s io fromEXEValid toMEM) (port.observe s io fromEXEValid)
      (g.cycle s io fromEXEValid) := by
  cases h with
  | idle state owed trail passes =>
    cases hv : toWBValid s io
    case true =>
      have hreq := reqFire_of_toWBValid state hv
      -- an SC that failed and is held up clears the reservation, but not to its own address
      refine tracked_of_idle toMEM hfire state owed trail passes hreq fun ha hs hne h0 => ?_
      have hres : (next s io fromEXEValid toMEM).reservation = 0#32 := by
        simp [next, state, ha, toWBFire, hv, hs]
      simp [hsc state ha hs hne (h0.symm.trans hres)] at hfire
    case false =>
      have ha := access_of_not_valid state hv
      cases hreq : reqFire s io
      case true => exact tracked_of_accepted toMEM hfire state trail passes ha hv hreq
      case false =>
        refine tracked_of_idle toMEM hfire state owed trail passes hreq fun _ _ hne => ?_
        simpa [next, state, toWBFire, hv, hreq] using hne
  | wait state acc one owed trail passes =>
    exact tracked_of_wait toMEM hfire state acc one owed trail passes
  | amoRead state acc both owed trail passes =>
    exact tracked_of_amoRead toMEM hfire state acc both owed trail passes
  | amoCalc d state acc both owed trail data passes =>
    exact tracked_of_amoCalc toMEM hfire d state acc both owed trail data passes
  | amoLaunch d state acc both owed trail data passes =>
    exact tracked_of_amoLaunch toMEM hfire d state acc both owed trail data passes
  | amoWrite d state acc both owed trail data passes =>
    exact tracked_of_amoWrite toMEM hfire d state acc both owed trail data passes

end Stay

theorem fromEXEFire_of_idle (hst : s.state ≠ .IDLE)
    (hn : nextState s io fromEXEValid = .IDLE) : fromEXEFire s io fromEXEValid = true := by
  cases h : s.state <;> simp only [nextState, h] at hn
  case IDLE => exact absurd h hst
  case WAIT_RESP =>
    have hresp : rRespFire s io fromEXEValid = true ∨ wRespFire s io fromEXEValid = true := by
      by_contra hno
      simp_all
    rcases hresp with hr | hw
    · simp only [rRespFire, rRespReady, h, Bool.and_eq_true] at hr
      simp [fromEXEFire, fromEXEReady, toWBValid, h, hr]
    · simp only [wRespFire, wRespReady, h, Bool.and_eq_true] at hw
      simp [fromEXEFire, fromEXEReady, toWBValid, h, hw]
  case AMO_WAIT_WRITE_RESP =>
    have hw : wRespFire s io fromEXEValid = true := by
      by_contra hno
      simp_all
    simp only [wRespFire, wRespReady, h, Bool.and_eq_true] at hw
    simp [fromEXEFire, fromEXEReady, toWBValid, h, hw]
  case AMO_CALC => simp at hn
  all_goals split at hn <;> simp at hn

theorem Tracked.next (h : Tracked s port g) (toMEM : ExeMemBus) (hsc : SCPasses s io fromEXEValid) :
    Tracked (MEM.next s io fromEXEValid toMEM) (port.observe s io fromEXEValid)
      (g.observe s io fromEXEValid) := by
  cases hfire : fromEXEFire s io fromEXEValid
  case true =>
    rw [Trail.observe, hfire, if_pos rfl]
    exact h.next_fire toMEM hfire
  case false =>
    rw [Trail.observe, hfire, if_neg Bool.false_ne_true]
    exact h.next_stay toMEM hfire hsc

theorem tracked_reset : Tracked reset .idle .empty :=
  .idle rfl rfl ⟨rfl, rfl⟩ ⟨fun _ => rfl, fun _ => rfl, fun _ hf => by simp [reset] at hf⟩

theorem accesses_orderly {p : Regs × Port × Trail} (h : observed.Reaches Kept p)
    (i : StageInputs) (hk : Kept p i) : Orderly p.1 p.2.1 p.2.2 i := by
  have ht : Tracked p.1 p.2.1 p.2.2 := by
    refine h.monitor_invariant (P := fun s (g : Port × Trail) => Tracked s g.1 g.2) (fun s hs => ?_)
      fun _ _ _ ih hk => ih.next _ hk.2
    exact hs ▸ tracked_reset
  exact ⟨ht.begun, ht.finished hk.1, ht.passed hk.1, nextState_of_fire, fromEXEFire_of_idle,
    ht.progress i hk.1⟩

end Tracked

section Runs

def accessAt (amo : Bool) (amoOp : BitVec 4) (read write : Bool) (addr rs2 : Word) : ExeMemBus :=
  { ExeMemBus.zero with
    controlSignals := ⟨0xf, false, addr, rs2, true, write, read, amo, amoOp⟩ }

def quiet (fromEXEValid : Bool) (toMEM : ExeMemBus) : StageInputs :=
  ⟨⟨true, ⟨false, ⟨0⟩⟩, ⟨false, ⟨false⟩⟩⟩, fromEXEValid, toMEM⟩

def readAnswer (d : Word) (fromEXEValid : Bool) (toMEM : ExeMemBus) : StageInputs :=
  ⟨⟨true, ⟨true, ⟨d⟩⟩, ⟨false, ⟨false⟩⟩⟩, fromEXEValid, toMEM⟩

/-- An AMOADD of 5 to the word 7 at address 64, up to the answer to its write. -/
def amoAdd : List StageInputs :=
  [quiet true (accessAt true AMOOp.ADD true true 64 5), quiet false .zero, quiet false .zero,
   readAnswer 7 false .zero, quiet false .zero, quiet false .zero]

def writeAnswer : StageInputs := ⟨⟨true, ⟨false, ⟨0⟩⟩, ⟨true, ⟨false⟩⟩⟩, true, .zero⟩

theorem accesses_orderly_amoAdd :
    let p := observed.run (reset, Port.idle, Trail.empty) amoAdd
    (p.2.2.issued.map fun r => (r.wr, r.addr, r.wdata)) = [(false, 64, 5), (true, 64, 12)] ∧
      Orderly p.1 p.2.1 p.2.2 writeAnswer := by
  have hr := observed.reaches_run Kept (reset, Port.idle, Trail.empty) amoAdd ⟨rfl, rfl⟩
    (by decide +kernel)
  exact ⟨by decide +kernel, accesses_orderly hr writeAnswer (by decide +kernel)⟩

/-- An SC to address 0 with the reservation at 4, which fails and is held up for a cycle. -/
def heldSC : List StageInputs :=
  [quiet true (accessAt true AMOOp.LR true false 4 0), quiet false .zero,
   readAnswer 0 true (accessAt true AMOOp.SC false true 0 9), quiet false .zero, quiet false .zero]

theorem failed_sc_writes :
    let p := observed.run (reset, Port.idle, Trail.empty) heldSC
    p.2.2.passes = [1] ∧ (p.2.2.issued.map fun r => (r.wr, r.addr, r.wdata)) = [(true, 0, 9)] ∧
      ¬∀ p, observed.Reaches (fun p i => p.2.1.Kept i.port) p → ∀ i, p.2.1.Kept i.port →
        Orderly p.1 p.2.1 p.2.2 i := by
  refine ⟨by decide +kernel, by decide +kernel, fun h => ?_⟩
  have hr := observed.reaches_run (fun p i => p.2.1.Kept i.port) (reset, Port.idle, Trail.empty)
    heldSC ⟨rfl, rfl⟩ (by decide +kernel)
  have hasks : Asks (observed.run (reset, Port.idle, Trail.empty) heldSC).1 .sc :=
    ⟨by decide +kernel, by decide +kernel, by decide +kernel⟩
  obtain ⟨issued, reads, v, hdone, hissued, -, hpasses⟩ :=
    (h _ hr (quiet false .zero) (by decide +kernel)).begun .sc hasks
  have hone : (observed.run (reset, Port.idle, Trail.empty) heldSC).2.2.issued.length = 1 := by
    decide +kernel
  have hpass : (observed.run (reset, Port.idle, Trail.empty) heldSC).2.2.passes = [1] := by
    decide +kernel
  cases hdone with
  | scFails v code =>
    have := hissued.length_le
    simp [hone] at this
  | scSucceeds w wr at' =>
    rw [hpass] at hpasses
    simp at hpasses

end Runs

end MEM

theorem Core.memStage_reaches {B : Build} {p : Core.Regs × MEM.Port}
    (h : (withDataPort B).Reaches (fun p io => p.2.Kept io.dbus ∧ SCPasses B p.1 io) p) :
    ∃ g, MEM.observed.Reaches MEM.Kept (p.1.memStage, p.2, g) := by
  induction h with
  | reset h => exact ⟨.empty, .reset ⟨h.1.memStage, by rw [h.2]⟩⟩
  | @next p io _ hk ih =>
    obtain ⟨g, hg⟩ := ih
    have hkept : MEM.Kept (p.1.memStage, p.2, g) ⟨io.dbus,
        EXE.toMEMValid p.1.exeStage (exeInputs B p.1 io), toMEM B p.1 io⟩ := hk
    exact ⟨_, hg.next hkept⟩

end FpgaNpc
