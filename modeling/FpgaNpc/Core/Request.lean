import FpgaNpc.Core.Trail

open FpgaNpc.Hardware FpgaNpc.InterStage FpgaNpc.SRAMLike

namespace FpgaNpc.MEM

def awaits (s : Regs) : Option Bool :=
  match s.state with
  | .WAIT_RESP => some (!ren s && wen s)
  | .AMO_WAIT_READ_RESP => some false
  | .AMO_WAIT_WRITE_RESP => some true
  | .IDLE | .AMO_CALC | .AMO_LAUNCH_WRITE_REQ => none

variable {s : Regs} {io : Inputs} {fromEXEValid : Bool} {toMEM : ExeMemBus}

theorem req_of_awaits {wr : Bool} (h : awaits s = some wr) : (req s).valid = false := by
  cases hst : s.state <;> simp_all [awaits, req]

theorem toWBValid_of_req (h : (req s).valid = true) : toWBValid s io = false := by
  cases hst : s.state
  case IDLE =>
    simp only [req, hst] at h
    split at h
    case isTrue ha =>
      simp only [toWBValid, hst, ha, if_true]
      exact Bool.not_eq_true' _ ▸ h
    case isFalse => simp at h
  case AMO_LAUNCH_WRITE_REQ => simp [toWBValid, hst]
  all_goals simp [req, hst] at h

theorem access_of_req (hst : s.state = .IDLE) (h : (req s).valid = true) : access s = true := by
  by_contra ha
  simp [req, hst, ha] at h

theorem fromEXEFire_of_req (h : (req s).valid = true) :
    fromEXEFire s io fromEXEValid = false := by
  simp [fromEXEFire, fromEXEReady, toWBValid_of_req h]

theorem awaits_next : awaits (next s io fromEXEValid toMEM) =
    if reqFire s io then some (req s).bits.wr
    else if rRespFire s io fromEXEValid || wRespFire s io fromEXEValid then none
    else awaits s := by
  cases hfire : fromEXEFire s io fromEXEValid
  case true =>
    have hidle : (next s io fromEXEValid toMEM).state = .IDLE := nextState_of_fire hfire
    have hreq : reqFire s io = false := by
      cases hv : (req s).valid
      · simp [reqFire, hv]
      · simp [fromEXEFire_of_req hv] at hfire
    simp only [fromEXEFire, fromEXEReady, Bool.and_eq_true] at hfire
    cases hst : s.state <;>
      simp_all [awaits, toWBValid, rRespFire, rRespReady, wRespFire, wRespReady]
  case false =>
    obtain ⟨-, hren, hwen, -⟩ := same_of_fromEXE (next_fromEXE_of_stay toMEM hfire)
    have hst' : (next s io fromEXEValid toMEM).state = nextState s io fromEXEValid := rfl
    simp only [awaits, hst', hren, hwen]
    cases hst : s.state
    case IDLE =>
      have hr : rRespFire s io fromEXEValid = false := by simp [rRespFire, rRespReady, hst]
      have hw : wRespFire s io fromEXEValid = false := by simp [wRespFire, wRespReady, hst]
      cases hreq : reqFire s io
      case false => simp [nextState, hst, hreq, hr, hw]
      case true =>
        have ha := access_of_req hst (by simp_all [reqFire] : (req s).valid = true)
        have hwr : (req s).bits.wr = (!ren s && wen s) := by simp [req, hst, ha]
        cases hren : ren s <;> cases hwen : wen s <;>
          simp [nextState, hst, ha, hreq, hren, hwen, hwr]
    case WAIT_RESP =>
      have hreq : reqFire s io = false := by simp [reqFire, req, hst]
      cases hresp : rRespFire s io fromEXEValid || wRespFire s io fromEXEValid <;>
        simp [nextState, hst, hreq, hresp]
    case AMO_WAIT_READ_RESP =>
      have hreq : reqFire s io = false := by simp [reqFire, req, hst]
      have hw : wRespFire s io fromEXEValid = false := by simp [wRespFire, wRespReady, hst]
      cases hr : rRespFire s io fromEXEValid <;> simp [nextState, hst, hreq, hr, hw]
    case AMO_CALC =>
      have hreq : reqFire s io = false := by simp [reqFire, req, hst]
      simp [nextState, hst, hreq]
    case AMO_LAUNCH_WRITE_REQ =>
      have hr : rRespFire s io fromEXEValid = false := by simp [rRespFire, rRespReady, hst]
      have hw : wRespFire s io fromEXEValid = false := by simp [wRespFire, wRespReady, hst]
      cases hreq : reqFire s io
      case false => simp [nextState, hst, hreq, hr, hw]
      case true => simp [nextState, hst, hreq, req]
    case AMO_WAIT_WRITE_RESP =>
      have hreq : reqFire s io = false := by simp [reqFire, req, hst]
      have hr : rRespFire s io fromEXEValid = false := by simp [rRespFire, rRespReady, hst]
      cases hw : wRespFire s io fromEXEValid <;> simp [nextState, hst, hreq, hr, hw]

theorem req_of_fromEXE {s' : Regs} (hfrom : s'.fromEXE = s.fromEXE) (hst : s.state = .IDLE)
    (hst' : s'.state = .IDLE) (hres : s'.reservation = s.reservation) : req s' = req s := by
  obtain ⟨hc, hren, hwen, hacc, hsc, hvaddr, -⟩ := same_of_fromEXE hfrom
  simp [req, hst, hst', hacc, hsc, hvaddr, hres, hren, hwen, reqSize, memWdata, byteWise, hc]

theorem req_next (hv : (req s).valid = true) (hwait : reqFire s io = false) :
    req (next s io fromEXEValid toMEM) = req s := by
  have hstay : fromEXEFire s io fromEXEValid = false := fromEXEFire_of_req hv
  have hfrom := next_fromEXE_of_stay toMEM hstay
  have hsent : toWBValid s io = false := toWBValid_of_req hv
  cases hst : s.state
  case IDLE =>
    refine req_of_fromEXE hfrom hst ?_ ?_
    · simp [next, nextState, hst, hwait]
    · simp [next, toWBFire, hst, hwait, hsent]
  case AMO_LAUNCH_WRITE_REQ =>
    have hst' : (next s io fromEXEValid toMEM).state = .AMO_LAUNCH_WRITE_REQ := by
      simp [next, nextState, hst, hwait]
    have hres : (next s io fromEXEValid toMEM).amoAluResReg = s.amoAluResReg := by
      simp [next, hst]
    obtain ⟨-, -, -, -, -, hvaddr, -⟩ := same_of_fromEXE hfrom
    simp [req, hst, hst', hvaddr, hres]
  all_goals simp [req, hst] at hv

theorem resp_of_awaits {wr : Bool} (h : awaits s = some wr) (hv : toWBValid s io = true) :
    io.rResp.valid = true ∨ io.wResp.valid = true := by
  cases hst : s.state <;> simp_all [awaits, toWBValid]

end FpgaNpc.MEM
