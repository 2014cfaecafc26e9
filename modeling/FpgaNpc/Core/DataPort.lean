import FpgaNpc.Core.Handshake

open FpgaNpc.Hardware FpgaNpc.ControlSignals FpgaNpc.InterStage FpgaNpc.SRAMLike

namespace FpgaNpc.MEM

/-- The history of the data port: whether the accepted request that is not answered yet is a
write, and the responses that were on offer in the last cycle and not taken. -/
structure Port where
  outstanding : Option Bool
  rHeld : Option Word
  wHeld : Bool

def Port.idle : Port := ⟨none, none, false⟩

variable (s : Regs) (io : Inputs) (fromEXEValid : Bool)

def Port.observe (g : Port) : Port where
  outstanding :=
    if reqFire s io then some (req s).bits.wr
    else if rRespFire s io fromEXEValid || wRespFire s io fromEXEValid then none
    else g.outstanding
  rHeld :=
    if io.rResp.valid && !rRespFire s io fromEXEValid then some io.rResp.bits.rdata else none
  wHeld := io.wResp.valid && !wRespFire s io fromEXEValid

/-- The port answers accepted requests only, each on its own channel, and holds a response
until it is taken. -/
structure Port.Kept (g : Port) (io : Inputs) : Prop where
  read : io.rResp.valid = true → g.outstanding = some false
  write : io.wResp.valid = true → g.outstanding = some true
  rHeld : ∀ d ∈ g.rHeld, io.rResp = ⟨true, ⟨d⟩⟩
  wHeld : g.wHeld = true → io.wResp.valid = true

instance (g : Port) (io : Inputs) : Decidable (g.Kept io) :=
  decidable_of_iff ((io.rResp.valid = true → g.outstanding = some false) ∧
      (io.wResp.valid = true → g.outstanding = some true) ∧
      (g.rHeld.all fun d => io.rResp = ⟨true, ⟨d⟩⟩) ∧ (g.wHeld = true → io.wResp.valid = true))
    (by simp only [Option.all_eq_true, decide_eq_true_eq]
        exact ⟨fun ⟨hr, hw, hrh, hwh⟩ => ⟨hr, hw, hrh, hwh⟩,
          fun ⟨hr, hw, hrh, hwh⟩ => ⟨hr, hw, hrh, hwh⟩⟩)

structure Served (g : Port) : Prop where
  waiting : s.state = .WAIT_RESP → g.outstanding = some (!ren s && wen s)
  amo : s.state ≠ .IDLE → s.state ≠ .WAIT_RESP → ren s = true ∧ wen s = true

/-- The memory operation is one that the truth table has: both a read and a write only for an
AMO, and LR reads. -/
structure TableOp : Prop where
  both : ren s = true → wen s = true → (controlSignals s).fuTypeAMO = true
  lr : isLR s = true → s.fromEXE.nop = false → ren s = true

/-- No SC to address 0 that fails is held up in the stage: by clearing the reservation it would
make that of its own address. -/
def SCPasses : Prop :=
  s.state = .IDLE → access s = true → isSC s = true → s.reservation ≠ vaddr s →
    vaddr s = 0#32 → fromEXEFire s io fromEXEValid = true

instance : Decidable (SCPasses s io fromEXEValid) :=
  inferInstanceAs (Decidable (_ = _ → _ = _ → _ = _ → _ ≠ _ → _ = _ → _ = _))

variable {s io fromEXEValid} {toMEM : ExeMemBus} {g : Port} {io' : Inputs}

theorem TableOp.congr {s' : Regs} (hfrom : s'.fromEXE = s.fromEXE) (h : TableOp s) :
    TableOp s' := by
  have hcontrol : controlSignals s' = controlSignals s :=
    congrArg ExeMemBus.controlSignals hfrom
  have hren : ren s' = ren s := by simp [ren, hcontrol, hfrom]
  have hwen : wen s' = wen s := by simp [wen, hcontrol, hfrom]
  constructor
  · rw [hren, hwen, hcontrol]
    exact h.both
  · rw [isLR, hcontrol, hfrom, hren]
    exact h.lr

theorem nextState_wait (h : nextState s io fromEXEValid = .WAIT_RESP) :
    s.state = .IDLE ∧ access s = true ∧ reqFire s io = true ∨
      s.state = .WAIT_RESP ∧ rRespFire s io fromEXEValid = false ∧
        wRespFire s io fromEXEValid = false := by
  cases hst : s.state <;> simp only [nextState, hst] at h
  case IDLE => exact .inl (by simp_all; split at h <;> simp_all)
  case WAIT_RESP => exact .inr (by split at h <;> simp_all)
  case AMO_CALC => simp at h
  all_goals split at h <;> simp at h

theorem nextState_busy (h : nextState s io fromEXEValid ≠ .IDLE) :
    s.state = .IDLE ∧ access s = true ∨ s.state ≠ .IDLE := by
  cases hst : s.state <;> simp only [nextState, hst] at h
  case IDLE => exact .inl (by split at h <;> simp_all)
  all_goals exact .inr (by decide)

theorem nextState_amo (hi : nextState s io fromEXEValid ≠ .IDLE)
    (hw : nextState s io fromEXEValid ≠ .WAIT_RESP) :
    s.state = .IDLE ∧ ren s = true ∧ wen s = true ∨ s.state ≠ .IDLE ∧ s.state ≠ .WAIT_RESP := by
  cases hst : s.state <;> simp only [nextState, hst] at hi hw
  case IDLE => exact .inl (by split at hi <;> simp_all)
  case WAIT_RESP => split at hi <;> simp_all
  all_goals exact .inr (by decide)

theorem Served.next (h : Served s g) :
    Served (next s io fromEXEValid toMEM) (g.observe s io fromEXEValid) := by
  cases hfire : fromEXEFire s io fromEXEValid
  case true =>
    have hidle := nextState_of_fire hfire
    exact ⟨fun hs => absurd (hidle.symm.trans hs) (by decide), fun hs => absurd hidle hs⟩
  case false =>
    have hren : ren (MEM.next s io fromEXEValid toMEM) = ren s := by
      simp [ren, controlSignals, MEM.next, hfire]
    have hwen : wen (MEM.next s io fromEXEValid toMEM) = wen s := by
      simp [wen, controlSignals, MEM.next, hfire]
    constructor
    · intro hw
      rw [hren, hwen]
      rcases nextState_wait hw with ⟨hst, ha, hreq⟩ | ⟨hst, hr, hw⟩
      · simp [Port.observe, hreq, req, hst, ha]
      · simp [Port.observe, hr, hw, reqFire, req, hst, h.waiting hst]
    · intro hi hw
      rw [hren, hwen]
      rcases nextState_amo hi hw with ⟨-, hboth⟩ | ⟨hi, hw⟩
      · exact hboth
      · exact h.amo hi hw

theorem next_of_sent (toMEM : ExeMemBus) (hvalid : toWBValid s io = true)
    (hfire : fromEXEFire s io fromEXEValid = false) :
    (next s io fromEXEValid toMEM).fromEXE = s.fromEXE ∧
      (next s io fromEXEValid toMEM).state = s.state ∧
      rRespFire s io fromEXEValid = false ∧ wRespFire s io fromEXEValid = false := by
  have hv : fromEXEValid = false := by simpa [fromEXEFire, fromEXEReady, hvalid] using hfire
  have hstate : nextState s io fromEXEValid = s.state := by
    by_contra hne
    cases hst : s.state <;>
      simp_all [nextState, toWBValid, rRespFire, wRespFire, rRespReady, wRespReady, reqFire, req]
  refine ⟨by simp [next, hfire], hstate, ?_, ?_⟩
  · cases hst : s.state <;> simp_all [rRespFire, rRespReady, toWBValid]
  · cases hst : s.state <;> simp_all [wRespFire, wRespReady, toWBValid]

theorem regWdata_congr {s' : Regs} (hfrom : s'.fromEXE = s.fromEXE)
    (hamo : (controlSignals s).fuTypeAMO = true → amoRegWriteData s' io' = amoRegWriteData s io)
    (hread : (controlSignals s).fuTypeAMO = false → ren s = true → io'.rResp = io.rResp) :
    regWdata s' io' = regWdata s io := by
  have hc : controlSignals s' = controlSignals s := congrArg ExeMemBus.controlSignals hfrom
  have hr : ren s' = ren s := by simp [ren, hc, hfrom]
  cases ha : (controlSignals s).fuTypeAMO
  case true => simp [regWdata, PriorityMux, hc, ha, hamo ha]
  case false =>
    cases hren : ren s
    case true =>
      have hres : memRes s' io' = memRes s io := by
        simp [memRes, rdataShift, offset, vaddr, byteWise, hc, hread ha hren]
      simp [regWdata, PriorityMux, hc, ha, hr, hren, hres]
    case false => simp [regWdata, PriorityMux, hc, ha, hr, hren]

theorem next_amoRegWriteDataReg (h : s.state ≠ .AMO_WAIT_READ_RESP) :
    (next s io fromEXEValid toMEM).amoRegWriteDataReg = amoRegWriteData s io := by
  cases hst : s.state <;> simp_all [next, amoRegWriteData]

structure Stays (s : Regs) (io : Inputs) (s' : Regs) (io' : Inputs) : Prop where
  fromEXE : s'.fromEXE = s.fromEXE
  state : s'.state = s.state
  rResp : io.rResp.valid = true → io'.rResp = io.rResp
  wResp : io.wResp.valid = true → io'.wResp.valid = true
  dataReg : s.state ≠ .AMO_WAIT_READ_RESP → s'.amoRegWriteDataReg = amoRegWriteData s io
  reservation : s.state = .IDLE → access s = true → isSC s = true → s'.reservation = 0#32

theorem Stays.of_sent (toMEM : ExeMemBus) (hvalid : toWBValid s io = true)
    (hfire : fromEXEFire s io fromEXEValid = false)
    (hk' : (g.observe s io fromEXEValid).Kept io') :
    Stays s io (MEM.next s io fromEXEValid toMEM) io' := by
  obtain ⟨hfrom, hstate, hr, hw⟩ := next_of_sent toMEM hvalid hfire
  refine ⟨hfrom, hstate, fun hrv => ?_, fun hwv => ?_, next_amoRegWriteDataReg,
    fun hst ha hs => ?_⟩
  · have hheld := hk'.rHeld io.rResp.bits.rdata (by simp [Port.observe, hrv, hr])
    rw [hheld, ← hrv]
  · exact hk'.wHeld (by simp [Port.observe, hwv, hw])
  · simp [MEM.next, hst, ha, toWBFire, hvalid, hs]

section

variable {s' : Regs} (hs : Stays s io s' io')
include hs

theorem Stays.controlSignals : controlSignals s' = MEM.controlSignals s :=
  congrArg ExeMemBus.controlSignals hs.fromEXE

theorem Stays.vaddr : vaddr s' = MEM.vaddr s := by
  simp [MEM.vaddr, hs.controlSignals]

theorem Stays.access : access s' = MEM.access s := by
  simp [MEM.access, ren, wen, align, MEM.vaddr, byteWise, hs.controlSignals, hs.fromEXE]

theorem Stays.isSC : isSC s' = MEM.isSC s := by
  simp [MEM.isSC, hs.controlSignals]

theorem Stays.isLR : isLR s' = MEM.isLR s := by
  simp [MEM.isLR, hs.controlSignals]

theorem Stays.again_of_no_access (hst : s.state = .IDLE) (ha : MEM.access s = false) :
    toWBValid s' io' = true ∧ (regWrite s = true → regWdata s' io' = regWdata s io) := by
  have hdata := hs.dataReg (by simp [hst])
  refine ⟨by simp [toWBValid, hs.state, hst, hs.access, ha], fun hwrite => ?_⟩
  refine regWdata_congr hs.fromEXE (fun _ => ?_) (fun _ hren => ?_)
  · simp [amoRegWriteData, hs.state, hst, hs.access, ha, hdata]
  · simp only [regWrite, hren, if_true] at hwrite
    simp [MEM.access, hren, hwrite] at ha

theorem Stays.again_of_failed (hst : s.state = .IDLE) (ha : MEM.access s = true)
    (hsc : MEM.isSC s = true) (hres : s.reservation ≠ MEM.vaddr s) (hne : 0#32 ≠ MEM.vaddr s) :
    toWBValid s' io' = true ∧ (regWrite s = true → regWdata s' io' = regWdata s io) := by
  have hcleared := hs.reservation hst ha hsc
  refine ⟨by simpa [toWBValid, hs.state, hst, hs.access, ha, hs.isSC, hsc, hcleared, hs.vaddr]
    using hne, fun _ => ?_⟩
  refine regWdata_congr hs.fromEXE (fun _ => ?_) (fun hn _ => ?_)
  · have hne' : (0#32 != MEM.vaddr s) = true := by simpa using hne
    have hres' : (s.reservation != MEM.vaddr s) = true := by simpa using hres
    simp [amoRegWriteData, hs.state, hst, hs.access, ha, hs.isSC, hsc, hcleared, hs.vaddr, hne',
      hres']
  · simp [MEM.isSC, hn] at hsc

theorem Stays.again_of_waiting (hst : s.state = .WAIT_RESP) (h : Served s g) (ht : TableOp s)
    (hnop : s.fromEXE.nop = false) (hk : g.Kept io) (hvalid : toWBValid s io = true) :
    toWBValid s' io' = true ∧ (regWrite s = true → regWdata s' io' = regWdata s io) := by
  have hdata := hs.dataReg (by simp [hst])
  have hread : ren s = true → io'.rResp = io.rResp := by
    intro hren
    refine hs.rResp ?_
    simp only [toWBValid, hst, Bool.or_eq_true] at hvalid
    refine hvalid.resolve_right fun hwv => ?_
    have := hk.write hwv
    simp [h.waiting hst, hren] at this
  constructor
  · simp only [toWBValid, hst, Bool.or_eq_true] at hvalid
    rcases hvalid with hv | hv
    · simp [toWBValid, hs.state, hst, hs.rResp hv, hv]
    · simp [toWBValid, hs.state, hst, hs.wResp hv]
  · refine fun _ => regWdata_congr hs.fromEXE (fun _ => ?_) (fun _ => hread)
    cases hlr : MEM.isLR s
    case true =>
      simp [amoRegWriteData, hs.state, hst, hs.isLR, hlr, hread (ht.lr hlr hnop)]
    case false =>
      simp only [amoRegWriteData, hs.state, hst, hs.isLR, hlr, hs.isSC, hdata]
      cases MEM.isSC s <;> simp

theorem Stays.again_of_amo (hst : s.state = .AMO_WAIT_WRITE_RESP) (h : Served s g)
    (ht : TableOp s) (hvalid : toWBValid s io = true) :
    toWBValid s' io' = true ∧ (regWrite s = true → regWdata s' io' = regWdata s io) := by
  have hboth := h.amo (by simp [hst]) (by simp [hst])
  have hdata := hs.dataReg (by simp [hst])
  constructor
  · simp only [toWBValid, hst] at hvalid
    simp [toWBValid, hs.state, hst, hs.wResp hvalid]
  · refine fun _ => regWdata_congr hs.fromEXE (fun _ => ?_) (fun hn _ => ?_)
    · simp [amoRegWriteData, hs.state, hst, hdata]
    · simp [ht.both hboth.1 hboth.2] at hn

end

theorem Served.again (h : Served s g) (toMEM : ExeMemBus) (ht : TableOp s)
    (hnop : s.fromEXE.nop = false) (hk : g.Kept io) (hvalid : toWBValid s io = true)
    (hfire : fromEXEFire s io fromEXEValid = false) (hsc : SCPasses s io fromEXEValid)
    (hk' : (g.observe s io fromEXEValid).Kept io') :
    toWBValid (MEM.next s io fromEXEValid toMEM) io' = true ∧
      (regWrite s = true →
        regWdata (MEM.next s io fromEXEValid toMEM) io' = regWdata s io) := by
  have hs := Stays.of_sent toMEM hvalid hfire hk'
  cases hst : s.state
  case IDLE =>
    cases ha : access s
    case false => exact hs.again_of_no_access hst ha
    case true =>
      obtain ⟨hisSC, hres⟩ : isSC s = true ∧ s.reservation ≠ vaddr s := by
        simpa [toWBValid, hst, ha] using hvalid
      refine hs.again_of_failed hst ha hisSC hres fun h0 => ?_
      simp [hsc hst ha hisSC hres h0.symm] at hfire
  case WAIT_RESP => exact hs.again_of_waiting hst h ht hnop hk hvalid
  case AMO_WAIT_WRITE_RESP => exact hs.again_of_amo hst h ht hvalid
  all_goals simp [toWBValid, hst] at hvalid

end FpgaNpc.MEM
