import FpgaNpc.Top.Bus

open FpgaNpc.Hardware FpgaNpc.SRAMLike

namespace FpgaNpc.Top

open Memory (Store)

variable {B : Core.Build} {image : BitVec 30 → Word} {s : Regs} {io : Inputs}
  {issued : List Store} {g : Arbiter.Owed}

section Writing

variable {req : SRAMLikeReq} {state : WriteState} {bPending : Bool} {m : Memory.Regs}
  {mio : Memory.Inputs} {master : AXI4.Master}

theorem Writing.of_both (hstate : state = .WriteIDLE) (hb : bPending = true) {aw : AXI4.AW}
    {w : AXI4.W} (haw : Memory.awNow m mio master = some aw)
    (hw : Memory.wNow m mio master = some w) (hu : m.unanswered = false) :
    Writing req state bPending (Memory.next image m mio master)
      (m.settled ++ [⟨aw.addr, w.data, w.strb⟩]) := by
  have hs : Memory.settling m mio master =
      if mio.settles then some ⟨aw.addr, w.data, w.strb⟩ else none := by
    simp [Memory.settling, haw, hw]
  cases hset : mio.settles
  case true =>
    rw [hset, if_pos rfl] at hs
    exact .settled hstate hb (by simp [Memory.next, hs]) (by simp [Memory.next, hs])
      (by simp [Memory.next, hs]) (by simp [Memory.next, hs])
  case false =>
    rw [hset, if_neg Bool.false_ne_true] at hs
    exact .taken aw w hstate hb (by simp [Memory.next, hs, haw]) (by simp [Memory.next, hs, hw])
      (by simp [Memory.next, hs, hu]) (by simp [Memory.next, hs])

theorem Writing.free_next (hstate : state = .WriteIDLE) (hb : bPending = false)
    (haw : Memory.awNow m mio master = none) (hw : Memory.wNow m mio master = none)
    (hu : (!Memory.bFire m mio master && m.unanswered) = false) :
    Writing req state bPending (Memory.next image m mio master) m.settled := by
  obtain ⟨hs', haw', hw', hu'⟩ := Memory.next_of_half image (.inl haw)
  exact .free hstate hb (haw'.trans haw) (hw'.trans hw) (hu'.trans hu) hs'.symm

theorem Writing.address_next (hstate : state = .WaitWChannel) (hb : bPending = false)
    {aw : AXI4.AW} (haw : Memory.awNow m mio master = some aw) (haddr : aw.addr = req.addr)
    (hw : Memory.wNow m mio master = none) (hu : m.unanswered = false) :
    Writing req state bPending (Memory.next image m mio master) m.settled := by
  obtain ⟨hs', haw', hw', hu'⟩ := Memory.next_of_half image (.inr hw)
  exact .address aw hstate hb (haw'.trans haw) haddr (hw'.trans hw) (by simp [hu', hu]) hs'.symm

theorem Writing.data_next (hstate : state = .WaitAWChannel) (hb : bPending = false)
    (haw : Memory.awNow m mio master = none) {w : AXI4.W}
    (hw : Memory.wNow m mio master = some w) (hdata : w.data = req.wdata)
    (hstrb : w.strb = req.wstrb) (hu : m.unanswered = false) :
    Writing req state bPending (Memory.next image m mio master) m.settled := by
  obtain ⟨hs', haw', hw', hu'⟩ := Memory.next_of_half image (.inl haw)
  exact .data w hstate hb (haw'.trans haw) (hw'.trans hw) hdata hstrb (by simp [hu', hu])
    hs'.symm

end Writing

def writes (s : Regs) : Bool :=
  (MEM.req s.core.memStage).valid && (MEM.req s.core.memStage).bits.wr

theorem aw_eq : (bus B image s io).aw =
    ⟨writes s && s.arbiter.writeState != .WaitWChannel,
      ⟨(MEM.req s.core.memStage).bits.addr, 0,
        (MEM.req s.core.memStage).bits.size.setWidth 3, .INCR⟩⟩ := rfl

theorem w_eq : (bus B image s io).w =
    ⟨writes s && s.arbiter.writeState != .WaitAWChannel,
      ⟨(MEM.req s.core.memStage).bits.wdata, (MEM.req s.core.memStage).bits.wstrb, true⟩⟩ := rfl

theorem awFire_eq : Arbiter.awFire s.arbiter (arbiterInputs B image s io) =
    ((bus B image s io).aw.valid && io.memory.awReady) := rfl

theorem wFire_eq : Arbiter.wFire s.arbiter (arbiterInputs B image s io) =
    ((bus B image s io).w.valid && io.memory.wReady) := rfl

theorem awNow_of_fire (h : Arbiter.awFire s.arbiter (arbiterInputs B image s io) = true) :
    Memory.awNow s.memory io.memory (bus B image s io) = some (bus B image s io).aw.bits :=
  if_pos (awFire_eq.symm.trans h)

theorem awNow_of_not (h : Arbiter.awFire s.arbiter (arbiterInputs B image s io) = false) :
    Memory.awNow s.memory io.memory (bus B image s io) = s.memory.aw :=
  if_neg (Bool.eq_false_iff.1 (awFire_eq.symm.trans h))

theorem wNow_of_fire (h : Arbiter.wFire s.arbiter (arbiterInputs B image s io) = true) :
    Memory.wNow s.memory io.memory (bus B image s io) = some (bus B image s io).w.bits :=
  if_pos (wFire_eq.symm.trans h)

theorem wNow_of_not (h : Arbiter.wFire s.arbiter (arbiterInputs B image s io) = false) :
    Memory.wNow s.memory io.memory (bus B image s io) = s.memory.w :=
  if_neg (Bool.eq_false_iff.1 (wFire_eq.symm.trans h))

def written (B : Core.Build) (image : BitVec 30 → Word) (s : Regs) (io : Inputs) : Bool :=
  writes s && Arbiter.dbusWReady s.arbiter (arbiterInputs B image s io)

theorem issues_eq (B : Core.Build) : issues image s io = if written B image s io then
    [⟨(MEM.req s.core.memStage).bits.addr, (MEM.req s.core.memStage).bits.wdata,
      (MEM.req s.core.memStage).bits.wstrb⟩] else [] := by
  have hready : (dbus image s io).reqReady = Arbiter.dbusReqReady s.arbiter
    (arbiterInputs B image s io) := rfl
  cases hv : (MEM.req s.core.memStage).valid <;> cases hwr : (MEM.req s.core.memStage).bits.wr <;>
    simp [issues, MEM.reqFire, written, writes, hv, hwr, hready, Arbiter.dbusReqReady,
      arbiterInputs, requests]

theorem issues_of_not (h : written B image s io = false) : issues image s io = [] := by
  rw [issues_eq B, h, if_neg Bool.false_ne_true]

theorem issues_of_written (h : written B image s io = true) : issues image s io =
    [⟨(MEM.req s.core.memStage).bits.addr, (MEM.req s.core.memStage).bits.wdata,
      (MEM.req s.core.memStage).bits.wstrb⟩] := by
  rw [issues_eq B, h, if_pos rfl]

theorem bPending_eq : (g.observe s.arbiter (arbiterInputs B image s io)).bPending =
    if written B image s io then true
    else if Memory.bFire s.memory io.memory (bus B image s io) then false else g.bPending := rfl

namespace BusInv

theorem req_of_wait (hv : (MEM.req s.core.memStage).valid = true)
    (hready : Arbiter.dbusReqReady s.arbiter (arbiterInputs B image s io) = false) :
    MEM.req (next B image s io).core.memStage = MEM.req s.core.memStage := by
  refine MEM.req_next hv ?_
  have hfire : MEM.reqFire s.core.memStage (coreInputs image s io).dbus =
    ((MEM.req s.core.memStage).valid &&
      Arbiter.dbusReqReady s.arbiter (arbiterInputs B image s io)) := rfl
  rw [hfire, hready, Bool.and_false]

theorem req_held (hv : writes s = true) (hwait : written B image s io = false) :
    MEM.req (next B image s io).core.memStage = MEM.req s.core.memStage := by
  rw [written, hv, Bool.true_and] at hwait
  simp only [writes, Bool.and_eq_true] at hv
  refine req_of_wait (B := B) hv.1 ?_
  have hready : Arbiter.dbusReqReady s.arbiter (arbiterInputs B image s io) =
    if (MEM.req s.core.memStage).bits.wr then
      Arbiter.dbusWReady s.arbiter (arbiterInputs B image s io) else _ := rfl
  rw [hready, hv.2, if_pos rfl, hwait]

theorem writes_of_awFire
    (h : Arbiter.awFire s.arbiter (arbiterInputs B image s io) = true) : writes s = true := by
  rw [awFire_eq, aw_eq, Bool.and_eq_true, Bool.and_eq_true] at h
  exact h.1.1

theorem writes_of_wFire
    (h : Arbiter.wFire s.arbiter (arbiterInputs B image s io) = true) : writes s = true := by
  rw [wFire_eq, w_eq, Bool.and_eq_true, Bool.and_eq_true] at h
  exact h.1.1

theorem writes_of_begun (h : BusInv s issued g) (hs : s.arbiter.writeState ≠ .WriteIDLE) :
    writes s = true := by
  obtain ⟨r, hr, hwr⟩ := h.arbiter.writing hs
  simp [writes, h.dbusHeld r hr, hwr]

theorem not_writes_of_pending (h : BusInv s issued g) (hb : g.bPending = true) :
    writes s = false := by
  have ha := h.pending.symm.trans (h.arbiter.bPending hb).1
  simp [writes, MEM.req_of_awaits ha]

theorem quiet_of_pending (h : BusInv s issued g) (hb : g.bPending = true) (B : Core.Build)
    (image : BitVec 30 → Word) (io : Inputs) :
    Arbiter.awFire s.arbiter (arbiterInputs B image s io) = false ∧
      Arbiter.wFire s.arbiter (arbiterInputs B image s io) = false ∧
        written B image s io = false := by
  have hwrites := h.not_writes_of_pending hb
  exact ⟨by simp [awFire_eq, aw_eq, hwrites], by simp [wFire_eq, w_eq, hwrites],
    by simp [written, hwrites]⟩

theorem writing_next (h : BusInv s issued g) :
    Writing (MEM.req (next B image s io).core.memStage).bits
      (next B image s io).arbiter.writeState
      (g.observe s.arbiter (arbiterInputs B image s io)).bPending
      (next B image s io).memory (issued ++ issues image s io) := by
  have hst : (next B image s io).arbiter.writeState =
    Arbiter.writeStateNext s.arbiter (arbiterInputs B image s io) := rfl
  have hm : (next B image s io).memory = Memory.next image s.memory io.memory (bus B image s io) :=
    rfl
  rw [hst, hm, bPending_eq]
  cases h.writing with
  | free hstate hb haw hw hu hi =>
    have hbf : Memory.bFire s.memory io.memory (bus B image s io) = false := by
      simp [Memory.bFire, Memory.b, hu]
    have hwr : written B image s io = (writes s &&
        (Arbiter.awFire s.arbiter (arbiterInputs B image s io) &&
          Arbiter.wFire s.arbiter (arbiterInputs B image s io))) := by
      simp [written, Arbiter.dbusWReady, hstate]
    cases haf : Arbiter.awFire s.arbiter (arbiterInputs B image s io) <;>
      cases hwf : Arbiter.wFire s.arbiter (arbiterInputs B image s io) <;>
      simp only [haf, hwf, Bool.and_false, Bool.and_true] at hwr
    case false.false =>
      rw [hwr, if_neg Bool.false_ne_true, issues_of_not hwr, List.append_nil, hi]
      exact .free_next (by simp [Arbiter.writeStateNext, hstate, haf, hwf]) (by simp [hbf, hb])
        ((awNow_of_not haf).trans haw) ((wNow_of_not hwf).trans hw) (by simp [hu])
    case false.true =>
      rw [hwr, if_neg Bool.false_ne_true, issues_of_not hwr, List.append_nil, hi,
        req_held (writes_of_wFire hwf) hwr]
      exact .data_next (by simp [Arbiter.writeStateNext, hstate, haf, hwf]) (by simp [hbf, hb])
        ((awNow_of_not haf).trans haw) (wNow_of_fire hwf) rfl rfl hu
    case true.false =>
      rw [hwr, if_neg Bool.false_ne_true, issues_of_not hwr, List.append_nil, hi,
        req_held (writes_of_awFire haf) hwr]
      exact .address_next (by simp [Arbiter.writeStateNext, hstate, haf, hwf]) (by simp [hbf, hb])
        (awNow_of_fire haf) rfl ((wNow_of_not hwf).trans hw) hu
    case true.true =>
      rw [writes_of_awFire haf] at hwr
      rw [hwr, if_pos rfl, issues_of_written hwr, hi]
      exact .of_both (by simp [Arbiter.writeStateNext, hstate, haf, hwf]) rfl
        (awNow_of_fire haf) (wNow_of_fire hwf) hu
  | address aw hstate hb haw haddr hw hu hi =>
    have hwrites := h.writes_of_begun (by simp [hstate])
    have haf : Arbiter.awFire s.arbiter (arbiterInputs B image s io) = false := by
      simp [awFire_eq, aw_eq, hstate]
    have hwr : written B image s io =
        Arbiter.wFire s.arbiter (arbiterInputs B image s io) := by
      simp [written, Arbiter.dbusWReady, hstate, hwrites]
    have haw' := (awNow_of_not haf).trans haw
    cases hwf : Arbiter.wFire s.arbiter (arbiterInputs B image s io) <;> rw [hwf] at hwr
    case false =>
      rw [hwr, if_neg Bool.false_ne_true, issues_of_not hwr, List.append_nil, hi,
        req_held hwrites hwr]
      exact .address_next (by simp [Arbiter.writeStateNext, hstate, hwf]) (by simp [hb])
        haw' haddr ((wNow_of_not hwf).trans hw) hu
    case true =>
      rw [hwr, if_pos rfl, issues_of_written hwr, hi, ← haddr]
      exact .of_both (by simp [Arbiter.writeStateNext, hstate, hwf]) rfl haw'
        (wNow_of_fire hwf) hu
  | data w hstate hb haw hw hdata hstrb hu hi =>
    have hwrites := h.writes_of_begun (by simp [hstate])
    have hwf : Arbiter.wFire s.arbiter (arbiterInputs B image s io) = false := by
      simp [wFire_eq, w_eq, hstate]
    have hwr : written B image s io =
        Arbiter.awFire s.arbiter (arbiterInputs B image s io) := by
      simp [written, Arbiter.dbusWReady, hstate, hwrites]
    have hw' := (wNow_of_not hwf).trans hw
    cases haf : Arbiter.awFire s.arbiter (arbiterInputs B image s io) <;> rw [haf] at hwr
    case false =>
      rw [hwr, if_neg Bool.false_ne_true, issues_of_not hwr, List.append_nil, hi,
        req_held hwrites hwr]
      exact .data_next (by simp [Arbiter.writeStateNext, hstate, haf]) (by simp [hb])
        ((awNow_of_not haf).trans haw) hw' hdata hstrb hu
    case true =>
      rw [hwr, if_pos rfl, issues_of_written hwr, hi, ← hdata, ← hstrb]
      exact .of_both (by simp [Arbiter.writeStateNext, hstate, haf]) rfl
        (awNow_of_fire haf) hw' hu
  | taken aw w hstate hb haw hw hu hi =>
    obtain ⟨haf, hwf, hwr⟩ := h.quiet_of_pending hb B image io
    rw [hwr, if_neg Bool.false_ne_true, issues_of_not hwr, List.append_nil, hi]
    exact .of_both (by simp [Arbiter.writeStateNext, hstate, haf, hwf])
      (by simp [Memory.bFire, Memory.b, hu, hb]) ((awNow_of_not haf).trans haw)
      ((wNow_of_not hwf).trans hw) hu
  | settled hstate hb haw hw hu hi =>
    obtain ⟨haf, hwf, hwr⟩ := h.quiet_of_pending hb B image io
    have hst' : Arbiter.writeStateNext s.arbiter (arbiterInputs B image s io) = .WriteIDLE := by
      simp [Arbiter.writeStateNext, hstate, haf, hwf]
    have haw' := (awNow_of_not haf).trans haw
    have hw' := (wNow_of_not hwf).trans hw
    rw [hwr, if_neg Bool.false_ne_true, issues_of_not hwr, List.append_nil, hi]
    cases hbf : Memory.bFire s.memory io.memory (bus B image s io)
    case true => exact .free_next hst' rfl haw' hw' (by simp [hbf])
    case false =>
      obtain ⟨hs', haw'', hw'', hu'⟩ := Memory.next_of_half image (.inl haw')
      exact .settled hst' hb (haw''.trans haw') (hw''.trans hw') (by simp [hu', hbf, hu]) hs'.symm

end BusInv

end FpgaNpc.Top
