import FpgaNpc.Top.Writes

open FpgaNpc.Hardware FpgaNpc.SRAMLike

namespace FpgaNpc.Top

open Memory (Store)

variable {B : Core.Build} {image : BitVec 30 → Word} {s : Regs} {io : Inputs}
  {issued : List Store} {g : Arbiter.Owed} {H C A : BitVec 30 → Word → Prop}
  {owed : List (BitVec 30)}

theorem rFire_eq : Memory.rFire image s.memory io.memory (bus B image s io) =
    Arbiter.rFire s.arbiter (arbiterInputs B image s io) := rfl

theorem arFire_eq : Memory.arFire io.memory (bus B image s io) =
    Arbiter.arFire s.arbiter (arbiterInputs B image s io) := rfl

theorem newLeft_of_not (h : Arbiter.arFire s.arbiter (arbiterInputs B image s io) = false) :
    Memory.newLeft io.memory (bus B image s io) = [] :=
  if_neg (Bool.eq_false_iff.1 h)

theorem newLeft_of_fire (h : Arbiter.arFire s.arbiter (arbiterInputs B image s io) = true) :
    Memory.newLeft io.memory (bus B image s io) =
      Memory.asked (Arbiter.arBits s.arbiter (arbiterInputs B image s io)) :=
  if_pos h

theorem next_id (B : Core.Build) (image : BitVec 30 → Word) (s : Regs) (io : Inputs) :
    (next B image s io).memory.id =
    if Arbiter.arFire s.arbiter (arbiterInputs B image s io) then
      (Arbiter.arBits s.arbiter (arbiterInputs B image s io)).id else s.memory.id := rfl

theorem not_busy_of_arFire
    (h : Arbiter.arFire s.arbiter (arbiterInputs B image s io) = true) :
    s.arbiter.reqBusy = false := by
  simp only [Arbiter.arFire, Arbiter.arValid, Bool.and_eq_true, Bool.not_eq_true'] at h
  exact h.1.1.1

theorem r_eq : (arbiterInputs B image s io).r = Memory.r image s.memory io.memory := rfl

namespace BusInv

theorem owed_of_arFire (h : BusInv s issued g)
    (ha : Arbiter.arFire s.arbiter (arbiterInputs B image s io) = true) :
    Memory.owed s.memory = [] := h.idle (not_busy_of_arFire ha)

theorem rFire_of_arFire (h : BusInv s issued g)
    (ha : Arbiter.arFire s.arbiter (arbiterInputs B image s io) = true) :
    Arbiter.rFire s.arbiter (arbiterInputs B image s io) = false := by
  simp [Arbiter.rFire, r_eq, Memory.r_valid_of_owed (h.owed_of_arFire ha)]

theorem owed_next (h : BusInv s issued g) : Memory.owed (next B image s io).memory =
    (if Arbiter.rFire s.arbiter (arbiterInputs B image s io) then
      (Memory.owed s.memory).tail else Memory.owed s.memory) ++
      Memory.newLeft io.memory (bus B image s io) :=
  Memory.owed_next h.owed_of_arFire

theorem idle_next (h : BusInv s issued g) (hb : (next B image s io).arbiter.reqBusy = false) :
    Memory.owed (next B image s io).memory = [] := by
  have hbusy : (next B image s io).arbiter.reqBusy =
    if Arbiter.arFire s.arbiter (arbiterInputs B image s io) then true
    else if Arbiter.rFire s.arbiter (arbiterInputs B image s io) &&
      (Memory.r image s.memory io.memory).bits.last then false else s.arbiter.reqBusy := rfl
  have ha : Arbiter.arFire s.arbiter (arbiterInputs B image s io) = false := by
    by_contra ha
    simp [hbusy, ha] at hb
  rw [h.owed_next, newLeft_of_not ha, List.append_nil]
  cases hr : Arbiter.rFire s.arbiter (arbiterInputs B image s io)
  case false => exact h.idle (by simpa [hbusy, ha, hr] using hb)
  case true =>
    cases hl : (Memory.r image s.memory io.memory).bits.last
    case true =>
      have hv : (Memory.r image s.memory io.memory).valid = true := by
        simp only [Arbiter.rFire, r_eq, Bool.and_eq_true] at hr
        exact hr.1
      exact Memory.tail_owed_of_last hv hl
    case false =>
      have hnil := h.idle (by simpa [hbusy, ha, hl] using hb)
      simp [hnil]

theorem ibusQueue_next (h : BusInv s issued g) :
    (next B image s io).arbiter.rChannelIBusQueue = none := by
  have hready : (arbiterInputs B image s io).ibusRespReady =
      Arbiter.rChannelIBusValid (arbiterInputs B image s io) := by
    have hr : (arbiterInputs B image s io).ibusRespReady =
      s.arbiter.rChannelIBusQueue.deqValid
        (Arbiter.rChannelIBusValid (arbiterInputs B image s io)) := rfl
    rw [hr, h.ibusQueue]
    rfl
  have hq : (next B image s io).arbiter.rChannelIBusQueue = FlowQueue.next
    s.arbiter.rChannelIBusQueue (Arbiter.rChannelIBusValid (arbiterInputs B image s io)) _
      (arbiterInputs B image s io).ibusRespReady := rfl
  rw [hq, hready, h.ibusQueue]
  cases Arbiter.rChannelIBusValid (arbiterInputs B image s io) <;> simp [FlowQueue.next]

theorem ids_next (h : BusInv s issued g) :
    (next B image s io).memory.id = 0 ∨ (next B image s io).memory.id = 1 := by
  rw [next_id, Arbiter.arBits_id]
  cases Arbiter.arFire s.arbiter (arbiterInputs B image s io)
  case false => exact h.ids
  case true => cases Arbiter.servesDBus s.arbiter (arbiterInputs B image s io) <;> simp

end BusInv

theorem awaits_next (B : Core.Build) (image : BitVec 30 → Word) (s : Regs) (io : Inputs) :
    MEM.awaits (next B image s io).core.memStage =
    if Arbiter.dbusReqFire s.arbiter (arbiterInputs B image s io) then
      some (MEM.req s.core.memStage).bits.wr
    else if Arbiter.dbusRRespFire s.arbiter (arbiterInputs B image s io) ||
      Arbiter.dbusWRespFire s.arbiter (arbiterInputs B image s io) then none
    else MEM.awaits s.core.memStage := MEM.awaits_next

theorem rRespFire_valid
    (h : Arbiter.dbusRRespFire s.arbiter (arbiterInputs B image s io) = true) :
    (dbus image s io).rResp.valid = true := by
  rw [Arbiter.dbusRRespFire, Bool.and_eq_true] at h
  exact h.1

theorem wRespFire_valid
    (h : Arbiter.dbusWRespFire s.arbiter (arbiterInputs B image s io) = true) :
    (dbus image s io).wResp.valid = true := by
  rw [Arbiter.dbusWRespFire, Bool.and_eq_true] at h
  exact h.1

theorem not_reqFire_of_awaits {wr : Bool} (h : MEM.awaits s.core.memStage = some wr) :
    Arbiter.dbusReqFire s.arbiter (arbiterInputs B image s io) = false := by
  have hv := MEM.req_of_awaits h
  simp [Arbiter.dbusReqFire, arbiterInputs, requests, hv]

namespace BusInv

theorem awaits_of_arFire (h : BusInv s issued g)
    (hok : ¬Arbiter.FetchesAwReqBusy s.arbiter (arbiterInputs B image s io))
    (ha : Arbiter.arFire s.arbiter (arbiterInputs B image s io) = true)
    (hd : Arbiter.servesDBus s.arbiter (arbiterInputs B image s io) = true) :
    MEM.awaits s.core.memStage = none ∧
      MEM.awaits (next B image s io).core.memStage = some false := by
  have hf := ((h.arbiter.readsForwarded_iff (h.kept B image io)).2 hok).dbus.2
    ⟨ha, by simp [Arbiter.arBits_id, hd], by simp [Arbiter.arBits_addr, hd]⟩
  simp only [Arbiter.dbusRead, Bool.and_eq_true, Bool.not_eq_true'] at hf
  have hreq : Arbiter.dbusReqFire s.arbiter (arbiterInputs B image s io) = true := by
    simp [Arbiter.dbusReqFire, hf]
  refine ⟨?_, ?_⟩
  · cases hw : MEM.awaits s.core.memStage with
    | none => rfl
    | some wr => simp [not_reqFire_of_awaits hw] at hreq
  · have hwr : (MEM.req s.core.memStage).bits.wr = false := hf.1.2
    rw [awaits_next, hreq, if_pos rfl, hwr]

theorem dbusLeft_next (h : BusInv s issued g)
    (hn : Arbiter.arFire s.arbiter (arbiterInputs B image s io) = true →
      Arbiter.servesDBus s.arbiter (arbiterInputs B image s io) = false) :
    dbusLeft (next B image s io) +
      (if Arbiter.rChannelDBusValid (arbiterInputs B image s io) &&
        s.arbiter.rChannelDBusQueue.enqReady then 1 else 0) ≤ dbusLeft s := by
  have hvalid : Arbiter.rChannelDBusValid (arbiterInputs B image s io) = true →
      (Memory.r image s.memory io.memory).valid = true ∧ s.memory.id = 1 := by
    intro hv
    have hv' : ((Memory.r image s.memory io.memory).bits.id == 1 &&
      (Memory.r image s.memory io.memory).valid) = true := hv
    rw [Bool.and_eq_true, beq_iff_eq] at hv'
    obtain ⟨_, _, _, hid, _⟩ := Memory.r_spec hv'.2
    exact ⟨hv'.2, hid.symm.trans hv'.1⟩
  rw [dbusLeft, h.owed_next, next_id]
  cases ha : Arbiter.arFire s.arbiter (arbiterInputs B image s io)
  case true =>
    have hv : Arbiter.rChannelDBusValid (arbiterInputs B image s io) = false := by
      by_contra hv
      have := (hvalid (Bool.not_eq_false _ ▸ hv)).1
      simp [Memory.r_valid_of_owed (h.owed_of_arFire ha)] at this
    simp [Arbiter.arBits_id, hn ha, hv]
  case false =>
    rw [newLeft_of_not ha, List.append_nil, if_neg Bool.false_ne_true, dbusLeft]
    by_cases hid : s.memory.id = 0
    case pos =>
      have hv : Arbiter.rChannelDBusValid (arbiterInputs B image s io) = false := by
        by_contra hv
        have := (hvalid (Bool.not_eq_false _ ▸ hv)).2
        simp [hid] at this
      simp [hid, hv]
    case neg =>
      rw [if_neg hid, if_neg hid]
      cases hv : Arbiter.rChannelDBusValid (arbiterInputs B image s io) &&
        s.arbiter.rChannelDBusQueue.enqReady
      case false => 
        split <;> simp
      case true =>
        rw [Bool.and_eq_true] at hv
        obtain ⟨hr, hid1⟩ := hvalid hv.1
        obtain ⟨a, rest, hw, hrid, -⟩ := Memory.r_spec hr
        have hf : Arbiter.rFire s.arbiter (arbiterInputs B image s io) = true := by
          simp [Arbiter.rFire, Arbiter.rReady, r_eq, hr, hrid, hid1, hv.2]
        rw [hf, if_pos rfl, if_pos rfl, Memory.owed_eq image s.memory io.memory, hw]
        simp

theorem dbusOwed_next (h : BusInv s issued g)
    (hok : ¬Arbiter.FetchesAwReqBusy s.arbiter (arbiterInputs B image s io)) :
    Top.dbusOwed (next B image s io) ≤
      if MEM.awaits (next B image s io).core.memStage = some false then 1 else 0 := by
  have hq : (next B image s io).arbiter.rChannelDBusQueue =
    FlowQueue.next s.arbiter.rChannelDBusQueue
      (Arbiter.rChannelDBusValid (arbiterInputs B image s io)) _
      (arbiterInputs B image s io).dbusRRespReady := rfl
  have howed := h.dbusOwed
  rw [Top.dbusOwed] at howed ⊢
  rw [hq, FlowQueue.length_next]
  by_cases hn : Arbiter.arFire s.arbiter (arbiterInputs B image s io) = true ∧
    Arbiter.servesDBus s.arbiter (arbiterInputs B image s io) = true
  case pos =>
    obtain ⟨hold, hnew⟩ := h.awaits_of_arFire hok hn.1 hn.2
    rw [hold, if_neg (by simp)] at howed
    have hone : dbusLeft (next B image s io) = 1 := by
      rw [dbusLeft, h.owed_next, h.rFire_of_arFire hn.1, h.owed_of_arFire hn.1, next_id, hn.1,
        newLeft_of_fire hn.1]
      simp [Memory.asked, Arbiter.arBits_id, Arbiter.arBits_len, hn.2]
    have hv : Arbiter.rChannelDBusValid (arbiterInputs B image s io) = false := by
      simp [Arbiter.rChannelDBusValid, r_eq, Memory.r_valid_of_owed (h.owed_of_arFire hn.1)]
    have hempty : s.arbiter.rChannelDBusQueue.toList.length = 0 := by omega
    rw [hone, hnew, hv, hempty]
    simp
  case neg =>
    have hleft := h.dbusLeft_next fun ha => Bool.eq_false_iff.2 fun hs => hn ⟨ha, hs⟩
    have hresp : Arbiter.dbusRRespFire s.arbiter (arbiterInputs B image s io) =
      ((s.arbiter.rChannelDBusQueue.isSome ||
        Arbiter.rChannelDBusValid (arbiterInputs B image s io)) &&
        (arbiterInputs B image s io).dbusRRespReady) := rfl
    by_cases hw : MEM.awaits s.core.memStage = some false
    case neg =>
      rw [if_neg hw] at howed
      refine Nat.le_trans ?_ (Nat.zero_le _)
      generalize (if (_ && _) = true then 1 else 0) = arrived at hleft ⊢
      split <;> omega
    case pos =>
      have hwresp : Arbiter.dbusWRespFire s.arbiter (arbiterInputs B image s io) = false := by
        by_contra hf
        simp [h.awaits_of_wResp (wRespFire_valid (Bool.not_eq_false _ ▸ hf))] at hw
      rw [if_pos hw] at howed
      rw [awaits_next, not_reqFire_of_awaits hw, hwresp, hw, hresp]
      cases hready : (arbiterInputs B image s io).dbusRRespReady
      case false =>
        generalize (if (_ && _) = true then 1 else 0) = arrived at hleft ⊢
        simp
        omega
      case true =>
        cases hqs : s.arbiter.rChannelDBusQueue <;>
          cases hv : Arbiter.rChannelDBusValid (arbiterInputs B image s io) <;>
          simp [hqs, hv, FlowQueue.enqReady] at howed hleft ⊢ <;> omega

theorem pending_next (h : BusInv s issued g) :
    (g.observe s.arbiter (arbiterInputs B image s io)).dbusPending =
      MEM.awaits (next B image s io).core.memStage := by
  have hr (hf : Arbiter.dbusRRespFire s.arbiter (arbiterInputs B image s io) = true) :
      MEM.awaits s.core.memStage = some false := h.awaits_of_rResp (rRespFire_valid hf)
  have hw (hf : Arbiter.dbusWRespFire s.arbiter (arbiterInputs B image s io) = true) :
      MEM.awaits s.core.memStage = some true := h.awaits_of_wResp (wRespFire_valid hf)
  rw [awaits_next, Arbiter.Owed.observe, h.pending]
  cases Arbiter.dbusReqFire s.arbiter (arbiterInputs B image s io)
  case true => rfl
  case false =>
    cases hrf : Arbiter.dbusRRespFire s.arbiter (arbiterInputs B image s io)
    case true => simp [hr hrf]
    case false =>
      cases hwf : Arbiter.dbusWRespFire s.arbiter (arbiterInputs B image s io)
      case true => simp [hw hwf]
      case false => simp

theorem ibusHeld_next (hc : ICache.Phase H C A s.icache owed) :
    ∀ r ∈ (g.observe s.arbiter (arbiterInputs B image s io)).ibusHeld,
      ICache.arToMem (next B image s io).icache = ⟨true, r⟩ := by
  intro r hr
  have hheld : (g.observe s.arbiter (arbiterInputs B image s io)).ibusHeld =
    if (ICache.arToMem s.icache).valid &&
      !Arbiter.ibusReqReady s.arbiter (arbiterInputs B image s io) then
        some (ICache.arToMem s.icache).bits else none := rfl
  rw [hheld, Option.mem_def, Option.ite_none_right_eq_some, Bool.and_eq_true,
    Bool.not_eq_true', Option.some.injEq] at hr
  obtain ⟨⟨hv, hready⟩, rfl⟩ := hr
  have hwait : ICache.arToMemFire s.icache (icacheInputs B image s io) = false := by
    have hfire : ICache.arToMemFire s.icache (icacheInputs B image s io) =
      ((ICache.arToMem s.icache).valid &&
        Arbiter.ibusReqReady s.arbiter (arbiterInputs B image s io)) := rfl
    rw [hfire, hready, Bool.and_false]
  have hnext : ICache.arToMem (next B image s io).icache = _ := hc.arToMem_next hv hwait
  rw [hnext, ← hv]

theorem dbusHeld_next :
    ∀ r ∈ (g.observe s.arbiter (arbiterInputs B image s io)).dbusHeld,
      MEM.req (next B image s io).core.memStage = ⟨true, r⟩ := by
  intro r hr
  have hheld : (g.observe s.arbiter (arbiterInputs B image s io)).dbusHeld =
    if (MEM.req s.core.memStage).valid &&
      !Arbiter.dbusReqReady s.arbiter (arbiterInputs B image s io) then
        some (MEM.req s.core.memStage).bits else none := rfl
  rw [hheld, Option.mem_def, Option.ite_none_right_eq_some, Bool.and_eq_true,
    Bool.not_eq_true', Option.some.injEq] at hr
  obtain ⟨⟨hv, hready⟩, rfl⟩ := hr
  rw [req_of_wait hv hready, ← hv]

theorem next (h : BusInv s issued g) (hc : ICache.Phase H C A s.icache owed)
    (hok : ¬Arbiter.FetchesAwReqBusy s.arbiter (arbiterInputs B image s io)) :
    BusInv (Top.next B image s io) (issued ++ issues image s io)
      (g.observe s.arbiter (arbiterInputs B image s io)) where
  arbiter := h.arbiter.next (h.kept B image io)
  ibusHeld := ibusHeld_next hc
  dbusHeld := dbusHeld_next
  pending := h.pending_next
  writing := h.writing_next
  idle := h.idle_next
  ids := h.ids_next
  ibusQueue := h.ibusQueue_next
  dbusOwed := h.dbusOwed_next hok

theorem reset (hm : s.core.memStage = MEM.reset) (ha : s.arbiter = Arbiter.reset)
    (hmem : s.memory = Memory.reset) : BusInv s [] .nothing where
  arbiter := ha ▸ Arbiter.Inv.reset
  ibusHeld r hr := by simp [Arbiter.Owed.nothing] at hr
  dbusHeld r hr := by simp [Arbiter.Owed.nothing] at hr
  pending := by rw [hm]; rfl
  writing := by rw [ha, hmem]; exact .free rfl rfl rfl rfl rfl rfl
  idle _ := by rw [hmem]; rfl
  ids := .inl (by rw [hmem]; rfl)
  ibusQueue := by rw [ha]; rfl
  dbusOwed := by
    rw [Top.dbusOwed, dbusLeft, ha, hmem]
    exact Nat.zero_le _

theorem asked_of_ibus (hd : Arbiter.servesDBus s.arbiter (arbiterInputs B image s io) = false) :
    Memory.asked (Arbiter.arBits s.arbiter (arbiterInputs B image s io)) =
      ICache.asked (ICache.arToMem s.icache).bits := by
  have hlt := (ICache.arToMem s.icache).bits.len.isLt
  rw [Memory.asked, Arbiter.arBits_len, Arbiter.arBits_addr, hd, if_neg Bool.false_ne_true,
    if_neg Bool.false_ne_true, BitVec.toNat_setWidth, Nat.mod_eq_of_lt (by omega)]
  rfl

theorem rFromMemFire_eq (h : BusInv s issued g) :
    ICache.rFromMemFire (icacheInputs B image s io) =
      ((Memory.r image s.memory io.memory).bits.id == 0 &&
        (Memory.r image s.memory io.memory).valid) := by
  have hr : (icacheInputs B image s io).rFromMem.valid = s.arbiter.rChannelIBusQueue.deqValid
    ((Memory.r image s.memory io.memory).bits.id == 0 &&
      (Memory.r image s.memory io.memory).valid) := rfl
  rw [ICache.rFromMemFire_eq, hr, h.ibusQueue]
  rfl

theorem icacheOwed_next (h : BusInv s issued g)
    (hok : ¬Arbiter.FetchesAwReqBusy s.arbiter (arbiterInputs B image s io)) :
    icacheOwed (Top.next B image s io) =
      ICache.owedNext s.icache (icacheInputs B image s io) (icacheOwed s) := by
  have hask : ICache.arToMemFire s.icache (icacheInputs B image s io) = true ↔ _ :=
    ((h.arbiter.readsForwarded_iff (h.kept B image io)).2 hok).ibus
  rw [icacheOwed, next_id, h.owed_next, ICache.owedNext, h.rFromMemFire_eq]
  cases ha : Arbiter.arFire s.arbiter (arbiterInputs B image s io)
  case true =>
    have hnil := h.owed_of_arFire ha
    have hcache : icacheOwed s = [] := by simp [icacheOwed, hnil]
    have hr : (Memory.r image s.memory io.memory).valid = false := Memory.r_valid_of_owed hnil
    rw [h.rFire_of_arFire ha, newLeft_of_fire ha, hnil, hcache, hr, Arbiter.arBits_id]
    cases hd : Arbiter.servesDBus s.arbiter (arbiterInputs B image s io)
    case true =>
      have hno : ICache.arToMemFire s.icache (icacheInputs B image s io) = false := by
        by_contra hf
        have hid := (hask.1 (Bool.not_eq_false _ ▸ hf)).2.1
        simp [Arbiter.arBits_id, hd] at hid
      simp [hno]
    case false =>
      have hyes : ICache.arToMemFire s.icache (icacheInputs B image s io) = true :=
        hask.2 ⟨ha, by simp [Arbiter.arBits_id, hd], by simp [Arbiter.arBits_addr, hd],
          by simp [Arbiter.arBits_len, hd]⟩
      simp [hyes, asked_of_ibus hd]
  case false =>
    have hno : ICache.arToMemFire s.icache (icacheInputs B image s io) = false := by
      by_contra hf
      simp [(hask.1 (Bool.not_eq_false _ ▸ hf)).1] at ha
    rw [newLeft_of_not ha, hno, icacheOwed]
    by_cases hid : s.memory.id = 0
    case neg =>
      simp only [Bool.false_eq_true, if_false, if_neg hid, List.tail_nil, ite_self,
        List.append_nil]
    case pos =>
      cases hr : (Memory.r image s.memory io.memory).valid
      case false => simp [hid, Arbiter.rFire, r_eq, hr]
      case true =>
        obtain ⟨_, _, _, hrid, -⟩ := Memory.r_spec hr
        simp [hid, Arbiter.rFire, Arbiter.rReady, r_eq, hr, hrid, h.ibusQueue, FlowQueue.enqReady]

theorem answers (h : BusInv s issued g) (hC : s.memory.id = 0 →
    ∀ x ∈ Memory.wordsNow image s.memory io.memory, C x.1 x.2) :
    ICache.Answers C (icacheOwed s) (icacheInputs B image s io) := by
  intro hv
  rw [← ICache.rFromMemFire_eq, h.rFromMemFire_eq, Bool.and_eq_true, beq_iff_eq] at hv
  obtain ⟨a, rest, hw, hid, -⟩ := Memory.r_spec hv.2
  rw [hid] at hv
  have hdata : (icacheInputs B image s io).rFromMem.bits.rdata =
      (Memory.r image s.memory io.memory).bits.data := by
    have hq : (icacheInputs B image s io).rFromMem.bits.rdata =
      s.arbiter.rChannelIBusQueue.deqBits (Memory.r image s.memory io.memory).bits.data := rfl
    rw [hq, h.ibusQueue]
    rfl
  refine ⟨a, ?_, ?_⟩
  · simp [icacheOwed, hv.1, Memory.owed_eq image s.memory io.memory, hw]
  · rw [hdata]
    exact hC hv.1 _ (by rw [hw]; exact List.mem_cons_self)

end BusInv

end FpgaNpc.Top
