import FpgaNpc.Sdram.Axi
import FpgaNpc.Sdram.Bursts
import FpgaNpc.Sdram.Schedule

open FpgaNpc.Hardware FpgaNpc.AXI4

namespace FpgaNpc.Sdram.Pmem

/-- The valid payload of a channel that is not accepted stands. -/
def standing {α : Type} (c : Irrevocable α) (ready : Bool) : Option α :=
  if c.valid && !ready then some c.bits else none

def Stands {α : Type} (o : Option α) (c : Irrevocable α) : Prop := ∀ a ∈ o, c = ⟨true, a⟩

instance {α : Type} [DecidableEq α] (o : Option α) (c : Irrevocable α) : Decidable (Stands o c) :=
  inferInstanceAs (Decidable (∀ a ∈ o, c = ⟨true, a⟩))

theorem stands_standing {α : Type} {c : Irrevocable α} {ready : Bool} :
    Stands (standing c ready) c := by
  intro a ha
  obtain ⟨valid, bits⟩ := c
  cases valid <;> cases ready <;> simp_all [standing]

def port (s : Regs) (io : Bus) : Core.Inport :=
  ⟨ramWr s io, ramRd s io, ramAddr s io, io.w.bits.data⟩

structure ReadOffered (s : Regs) (ar : Option Address) (addr : Word) : Prop where
  room : s.requests.accept = true
  holdRd : s.reqHoldRd = true
  holdWr : s.reqHoldWr = false
  noWrite : s.reqWr = false
  source : s.reqRd = true ∧ addr = s.reqAddr ∨
    s.reqRd = false ∧ ∃ a, ar = some a ∧ addr = a.addr

structure WriteOffered (s : Regs) (aw : Option Address) (w : Option W) (strb : BitVec 4)
    (addr : Word) : Prop where
  room : s.requests.accept = true
  holdWr : s.reqHoldWr = true
  holdRd : s.reqHoldRd = false
  noRead : s.reqRd = false
  data : ∃ x, w = some x ∧ strb = x.strb ∧ strb ≠ 0
  source : s.reqWr = true ∧ addr = s.reqAddr ∨
    s.reqWr = false ∧ ∃ a, aw = some a ∧ addr = a.addr

/-- What waits for the memory is what the channels or the burst in progress go on to ask for. -/
def Offered (s : Regs) (aw : Option Address) (w : Option W) (ar : Option Address) :
    Option Core.Inport → Prop
  | none => s.reqHoldRd = false ∧ s.reqHoldWr = false
  | some r =>
    if r.rd then r.wr = 0 ∧ ReadOffered s ar r.addr else WriteOffered s aw w r.wr r.addr

section Laws

variable {s : Regs} {io : Bus} {ram : Ram} {aw ar : Option Address} {w : Option W}

theorem ReadOffered.active {addr : Word} (h : ReadOffered s ar addr) (hk : Stands ar io.ar) :
    readActive s io = true ∧ writeActive s io = false ∧ ramAddr s io = addr := by
  rcases h.source with ⟨hrd, rfl⟩ | ⟨hrd, a, rfl, rfl⟩
  · simp [readActive, writeActive, ramAddr, h.room, h.noWrite, hrd]
  · have har := hk a rfl
    simp [readActive, writeActive, ramAddr, readPrio, writePrio, h.room, h.noWrite, h.holdRd,
      h.holdWr, hrd, har]

theorem WriteOffered.active {strb : BitVec 4} {addr : Word} (h : WriteOffered s aw w strb addr)
    (hkaw : Stands aw io.aw) (hkw : Stands w io.w) : writeActive s io = true ∧
      readActive s io = false ∧ io.w.valid = true ∧ ramWr s io = strb ∧ ramAddr s io = addr := by
  obtain ⟨x, rfl, rfl, hne⟩ := h.data
  have hw := hkw x rfl
  rcases h.source with ⟨hwr, rfl⟩ | ⟨hwr, a, rfl, rfl⟩
  · simp [readActive, writeActive, ramWr, ramAddr, h.room, h.noRead, hwr, hw]
  · have haw := hkaw a rfl
    simp [readActive, writeActive, ramWr, ramAddr, readPrio, writePrio, h.room, h.noRead, h.holdRd,
      h.holdWr, hwr, hw, haw]

theorem Offered.holds {g : Option Core.Inport} (h : Offered s aw w ar g)
    (hg : ∀ r ∈ g, r.request = r) (hkaw : Stands aw io.aw) (hkw : Stands w io.w)
    (hkar : Stands ar io.ar) :
    Core.Holds g (port s io) := by
  rintro r rfl
  have hr := hg r rfl
  rw [Offered] at h
  split_ifs at h with hrd
  · obtain ⟨hread, hwrite, haddr⟩ := h.2.active hkar
    rw [← hr]
    simp [Core.Inport.request, port, ramRd, ramWr, hread, hwrite, haddr, hrd, h.1]
  · obtain ⟨hwrite, hread, -, hstrb, haddr⟩ := h.active hkaw hkw
    rw [← hr]
    simp [Core.Inport.request, port, ramRd, hread, hstrb, haddr, hrd]

theorem active_exclusive (hhold : s.reqHoldRd = false ∨ s.reqHoldWr = false)
    (hread : readActive s io = true) : writeActive s io = false := by
  simp only [readActive, writeActive, readPrio, writePrio] at *
  grind

theorem requestNext_of_wait (h : ram.accept = false) : requestNext s io ram = s := by
  simp [requestNext, reqPush, awFire, awReady, arFire, arReady, h]

theorem accept_next_of_wait (h : ram.accept = false) (hroom : s.requests.accept = true) :
    (next s io ram).requests.accept = true := by
  have hpush : s.requests.pushes (reqPush s io ram) = false := by simp [Fifo.pushes, reqPush, h]
  exact Fifo.accept_next hroom hpush

theorem Offered.hold {g : Option Core.Inport} (h : Offered s aw w ar g) :
    s.reqHoldRd = false ∨ s.reqHoldWr = false := by
  cases g with
  | none => exact .inl h.1
  | some r =>
    rw [Offered] at h
    split_ifs at h
    · exact .inr h.2.holdWr
    · exact .inl h.holdRd

theorem Offered.holdWr_of_read {g : Option Core.Inport} (h : Offered s aw w ar g)
    (hkaw : Stands aw io.aw) (hkw : Stands w io.w) (hread : readActive s io = true) :
    s.reqHoldWr = false := by
  cases g with
  | none => exact h.2
  | some r =>
    rw [Offered] at h
    split_ifs at h
    · exact h.2.holdWr
    · simp [(h.active hkaw hkw).2.1] at hread

theorem Offered.holdRd_of_not_read {g : Option Core.Inport} (h : Offered s aw w ar g)
    (hkar : Stands ar io.ar) (hread : readActive s io = false) : s.reqHoldRd = false := by
  cases g with
  | none => exact h.1
  | some r =>
    rw [Offered] at h
    split_ifs at h
    · simp [(h.2.active hkar).1] at hread
    · exact h.holdRd

theorem Offered.holdWr_of_idle {g : Option Core.Inport} (h : Offered s aw w ar g)
    (hkaw : Stands aw io.aw) (hkw : Stands w io.w) (hwrite : ramWr s io = 0) :
    s.reqHoldWr = false := by
  cases g with
  | none => exact h.2
  | some r =>
    rw [Offered] at h
    split_ifs at h
    · exact h.2.holdWr
    · obtain ⟨x, -, -, hne⟩ := h.data
      exact absurd ((h.active hkaw hkw).2.2.2.1.symm.trans hwrite) hne

theorem Offered.next_of_wait {g : Option Core.Inport} (h : Offered s aw w ar g)
    (hkaw : Stands aw io.aw) (hkw : Stands w io.w) (hkar : Stands ar io.ar)
    (ha : ram.accept = false) :
    Offered (next s io ram) (standing io.aw (awReady s io ram)) (standing io.w (wReady s io ram))
      (standing io.ar (arReady s io ram))
      (if Core.req (port s io) then some (port s io).request else none) := by
  have hreq : requestNext s io ram = s := requestNext_of_wait ha
  cases hread : readActive s io
  case true =>
    have hwrite := active_exclusive h.hold hread
    have hcond : Core.req (port s io) = true := by simp [Core.req, port, ramRd, hread]
    have hinput := hread
    simp only [readActive, Bool.and_eq_true, Bool.or_eq_true, Bool.not_eq_true'] at hinput
    obtain ⟨⟨⟨hsource, hwr⟩, hroom⟩, -⟩ := hinput
    rw [hcond, if_pos rfl, Offered, if_pos (by simp [Core.Inport.request, port, ramRd, hread])]
    refine ⟨by simp [Core.Inport.request, port, ramWr, hwrite], accept_next_of_wait ha hroom, ?_,
      ?_, ?_, ?_⟩
    · simp [next, ramRd, hread, ha]
    · simp [next, ramWr, hwrite, ha, h.holdWr_of_read hkaw hkw hread]
    · simp [next, hreq, hwr]
    · cases hrd : s.reqRd
      case true =>
        exact .inl ⟨by simp [next, hreq, hrd],
          by simp [next, hreq, Core.Inport.request, port, ramAddr, hrd]⟩
      case false =>
        have hvalid : io.ar.valid = true := by simpa [hrd] using hsource
        exact .inr ⟨by simp [next, hreq, hrd], io.ar.bits,
          by simp [standing, hvalid, arReady, ha],
          by simp [Core.Inport.request, port, ramAddr, hrd, hwr, hwrite]⟩
  case false =>
    by_cases hwr : ramWr s io = 0#4
    · have hcond : Core.req (port s io) = false := by simp [Core.req, port, ramRd, hread, hwr]
      rw [hcond, if_neg Bool.false_ne_true]
      exact ⟨by simp [next, ramRd, hread, ha, h.holdRd_of_not_read hkar hread],
        by simp [next, hwr, ha, h.holdWr_of_idle hkaw hkw hwr]⟩
    · have hcond : Core.req (port s io) = true := by simp [Core.req, port, ramRd, hread, hwr]
      have hactive : writeActive s io = true ∧ io.w.valid = true := by
        rw [ramWr] at hwr
        by_contra hn
        simp_all
      have hinput := hactive.1
      simp only [writeActive, Bool.and_eq_true, Bool.or_eq_true, Bool.not_eq_true'] at hinput
      obtain ⟨⟨⟨hsource, hrd⟩, hroom⟩, -⟩ := hinput
      rw [hcond, if_pos rfl, Offered, if_neg (by simp [Core.Inport.request, port, ramRd, hread])]
      refine ⟨accept_next_of_wait ha hroom, ?_, ?_, ?_, ?_, ?_⟩
      · simp [next, hwr, ha]
      · simp [next, ramRd, hread, ha, h.holdRd_of_not_read hkar hread]
      · simp [next, hreq, hrd]
      · exact ⟨io.w.bits, by simp [standing, hactive.2, wReady, ha],
          by simp [Core.Inport.request, port, ramWr, hactive],
          by simpa [Core.Inport.request, port] using hwr⟩
      · cases hwr' : s.reqWr
        case true =>
          exact .inl ⟨by simp [next, hreq, hwr'],
            by simp [next, hreq, Core.Inport.request, port, ramAddr, hwr']⟩
        case false =>
          have hvalid : io.aw.valid = true := by simpa [hwr'] using hsource
          exact .inr ⟨by simp [next, hreq, hwr'], io.aw.bits,
            by simp [standing, hvalid, awReady, ha],
            by simp [Core.Inport.request, port, ramAddr, hrd, hwr', hactive.1]⟩

theorem offered_next_of_accept (ha : ram.accept = true) {aw ar : Option Address} {w : Option W} :
    Offered (next s io ram) aw w ar none := by
  exact ⟨by simp [next, ha], by simp [next, ha]⟩

end Laws

section Accepted

def advance (a : Address) (k : Nat) : Option (Address × Nat) :=
  if k = a.len.toNat then none else some (a, k + 1)

/-- The request registers hold what is left of the burst, from its `k`th beat on. -/
structure Running (s : Regs) (a : Address) (k : Nat) : Prop where
  le : k ≤ a.len.toNat
  addr : s.reqAddr = a.counted k
  len : s.reqLen.toNat = a.len.toNat - k
  id : s.reqId = a.id
  burst : s.reqAxburst = a.burst
  axlen : s.reqAxlen = a.len
  legal : a.Legal

def InBurst (s : Regs) (active : Bool) : Option (Address × Nat) → Prop
  | none => active = false
  | some (a, k) => active = true ∧ Running s a k

def FromBurst (burst : Option (Address × Nat)) (fire : Bool) (c : Irrevocable Address)
    (a : Address) (k : Nat) : Prop :=
  burst = some (a, k) ∧ fire = false ∨ burst = none ∧ k = 0 ∧ fire = true ∧ c = ⟨true, a⟩

variable {s : Regs} {io : Bus} {ram : Ram} {aw ar : Option Address} {w : Option W} {a : Address}
  {k : Nat} {addr : Word} {burst : Option (Address × Nat)}

theorem reqLen_eq_zero (h : Running s a k) : s.reqLen = 0 ↔ k = a.len.toNat := by
  rw [← BitVec.toNat_inj, h.len]
  have := h.le
  simp only [BitVec.ofNat_eq_ofNat, BitVec.toNat_ofNat]
  omega

theorem Running.advance (h : Running s a k) (hne : k ≠ a.len.toNat) {s' : Regs}
    (haddr : s'.reqAddr = calculateAddrNext s.reqAddr s.reqAxburst s.reqAxlen)
    (hlen : s'.reqLen = s.reqLen - 1) (hid : s'.reqId = s.reqId)
    (hburst : s'.reqAxburst = s.reqAxburst) (haxlen : s'.reqAxlen = s.reqAxlen) :
    Running s' a (k + 1) := by
  have hle := h.le
  refine ⟨by omega, ?_, ?_, hid.trans h.id, hburst.trans h.burst, haxlen.trans h.axlen, h.legal⟩
  · rw [haddr, h.burst, h.axlen, h.addr, Address.counted_succ]
  · have hold := h.len
    rw [hlen]
    have hlt : a.len.toNat - k < 2 ^ 8 := by
      have := a.len.isLt
      omega
    bv_omega

theorem Running.first (hne : a.len ≠ 0) (hlegal : a.Legal) {s' : Regs}
    (haddr : s'.reqAddr = calculateAddrNext a.addr a.burst a.len)
    (hlen : s'.reqLen = a.len - 1) (hid : s'.reqId = a.id) (hburst : s'.reqAxburst = a.burst)
    (haxlen : s'.reqAxlen = a.len) : Running s' a 1 := by
  have hpos : a.len.toNat ≠ 0 := fun h => hne (BitVec.eq_of_toNat_eq h)
  refine ⟨by omega, haddr, ?_, hid, hburst, haxlen, hlegal⟩
  rw [hlen]
  bv_omega

theorem InBurst.next_of_wait {active : Bool} (h : InBurst s active burst)
    (ha : ram.accept = false) : InBurst (next s io ram) active burst := by
  have hreq : requestNext s io ram = s := requestNext_of_wait ha
  obtain _ | ⟨a, k⟩ := burst
  · exact h
  · obtain ⟨hactive, hrun⟩ := h
    refine ⟨hactive, hrun.le, ?_, ?_, ?_, ?_, ?_, hrun.legal⟩
    · rw [next, hreq, ← hrun.addr]
    · rw [next, hreq, ← hrun.len]
    · rw [next, hreq, ← hrun.id]
    · rw [next, hreq, ← hrun.burst]
    · rw [next, hreq, ← hrun.axlen]

theorem len_eq_zero : a.len = 0 ↔ 0 = a.len.toNat := by
  rw [← BitVec.toNat_inj, eq_comm]
  rfl

theorem requestNext_of_burst (hrun : Running s a k) (hpush : reqPush s io ram = true)
    (haw : awFire s io ram = false) (har : arFire s io ram = false) :
    (requestNext s io ram).reqRd = (s.reqRd && decide (k ≠ a.len.toNat)) ∧
      (requestNext s io ram).reqWr = (s.reqWr && decide (k ≠ a.len.toNat)) ∧
      (k ≠ a.len.toNat → Running (requestNext s io ram) a (k + 1)) := by
  have hzero := reqLen_eq_zero hrun
  by_cases hlast : k = a.len.toNat
  · simp [requestNext, hpush, haw, har, hzero.2 hlast, hlast]
  · have hmore : s.reqLen ≠ 0#8 := fun h0 => hlast (hzero.1 h0)
    refine ⟨by simp [requestNext, hpush, haw, har, hmore, hlast],
      by simp [requestNext, hpush, haw, har, hmore, hlast],
      fun _ => hrun.advance hlast ?_ ?_ ?_ ?_ ?_⟩
    all_goals simp [requestNext, hpush, haw, har, hmore]

theorem ReadOffered.accepted (h : ReadOffered s ar addr) (hb : InBurst s s.reqRd burst)
    (hk : Stands ar io.ar) (hlegal : io.ar.valid = true → io.ar.bits.Legal)
    (ha : ram.accept = true) : ∃ a k, FromBurst burst (arFire s io ram) io.ar a k ∧ a.Legal ∧
      addr = a.counted k ∧ reqIn s io ram = ⟨true, decide (k = a.len.toNat), a.id⟩ ∧
      reqPush s io ram = true ∧ awFire s io ram = false ∧ wFire s io ram = false ∧
      InBurst (next s io ram) (next s io ram).reqRd (advance a k) ∧
      (next s io ram).reqWr = false := by
  obtain ⟨hread, hwrite, -⟩ := h.active hk
  have hpush : reqPush s io ram = true := by simp [reqPush, ramRd, hread, ha]
  have haw : awFire s io ram = false := by simp [awFire, awReady, hwrite]
  have hw : wFire s io ram = false := by simp [wFire, wReady, hwrite]
  rcases h.source with ⟨hrd, rfl⟩ | ⟨hrd, a, rfl, rfl⟩
  · obtain _ | ⟨a, k⟩ := burst
    · simp [InBurst, hrd] at hb
    obtain ⟨-, hrun⟩ := hb
    have har : arFire s io ram = false := by simp [arFire, arReady, hrd]
    obtain ⟨hrd', hwr', hrun'⟩ := requestNext_of_burst hrun hpush haw har
    have hzero := reqLen_eq_zero hrun
    refine ⟨a, k, .inl ⟨rfl, har⟩, hrun.legal, hrun.addr, ?_, hpush, haw, hw, ?_, ?_⟩
    · simp only [reqIn, haw, har, Bool.false_eq_true, if_false, ramRd, hread, hrun.id, hzero]
    · rw [advance]
      split_ifs with hlast
      · simp [InBurst, next, hrd', hlast]
      · refine ⟨by simp [next, hrd', hrd, hlast], ?_⟩
        have hrun'' := hrun' hlast
        exact ⟨hrun''.le, hrun''.addr, hrun''.len, hrun''.id, hrun''.burst, hrun''.axlen,
          hrun''.legal⟩
    · simp [next, hwr', h.noWrite]
  · obtain _ | ⟨a', k⟩ := burst
    swap
    · simp [InBurst, hrd] at hb
    have hchannel := hk a rfl
    have har : arFire s io ram = true := by
      simp [arFire, arReady, hchannel, hread, hrd, ha, h.room]
    have hl : a.Legal := by
      have := hlegal (by simp [hchannel])
      rwa [hchannel] at this
    refine ⟨a, 0, .inr ⟨rfl, rfl, har, hchannel⟩, hl, rfl, ?_, hpush, haw, hw, ?_, ?_⟩
    · simp only [reqIn, har, if_true, hchannel, len_eq_zero]
    · rw [advance]
      split_ifs with hlast
      · have hzero := len_eq_zero.2 hlast
        simp [InBurst, next, requestNext, haw, har, hchannel, hzero]
      · have hne : a.len ≠ 0#8 := fun h0 => hlast (len_eq_zero.1 h0)
        refine ⟨by simp [next, requestNext, haw, har, hchannel, hne], .first hne hl ?_ ?_ ?_ ?_ ?_⟩
        all_goals simp [next, requestNext, haw, har, hchannel]
    · by_cases hzero : s.reqLen = 0#8 <;>
        simp [next, requestNext, haw, har, hpush, hzero, h.noWrite]

theorem WriteOffered.accepted {strb : BitVec 4} (h : WriteOffered s aw w strb addr)
    (hb : InBurst s s.reqWr burst) (hkaw : Stands aw io.aw) (hkw : Stands w io.w)
    (hlegal : io.aw.valid = true → io.aw.bits.Legal)
    (hlast : burst = none → io.aw.valid = true → io.w.valid = true →
      io.w.bits.last = decide (io.aw.bits.len = 0))
    (ha : ram.accept = true) : ∃ a k, FromBurst burst (awFire s io ram) io.aw a k ∧ a.Legal ∧
      addr = a.counted k ∧ reqIn s io ram = ⟨false, decide (k = a.len.toNat), a.id⟩ ∧
      reqPush s io ram = true ∧ arFire s io ram = false ∧ wFire s io ram = true ∧
      InBurst (next s io ram) (next s io ram).reqWr (advance a k) ∧
      (next s io ram).reqRd = false := by
  obtain ⟨hwrite, hread, hvalid, hstrb, -⟩ := h.active hkaw hkw
  obtain ⟨x, rfl, rfl, hne⟩ := h.data
  have hpush : reqPush s io ram = true := by
    have hne' : x.strb ≠ 0#4 := hne
    simp [reqPush, ha, hstrb, hne']
  have har : arFire s io ram = false := by simp [arFire, arReady, hread]
  have hw : wFire s io ram = true := by simp [wFire, wReady, hwrite, hvalid, ha, h.room]
  rcases h.source with ⟨hwr, rfl⟩ | ⟨hwr, a, rfl, rfl⟩
  · obtain _ | ⟨a, k⟩ := burst
    · simp [InBurst, hwr] at hb
    obtain ⟨-, hrun⟩ := hb
    have haw : awFire s io ram = false := by simp [awFire, awReady, hwr]
    obtain ⟨hrd', hwr', hrun'⟩ := requestNext_of_burst hrun hpush haw har
    have hzero := reqLen_eq_zero hrun
    refine ⟨a, k, .inl ⟨rfl, haw⟩, hrun.legal, hrun.addr, ?_, hpush, har, hw, ?_, ?_⟩
    · simp only [reqIn, haw, har, Bool.false_eq_true, if_false, ramRd, hread, hrun.id, hzero]
    · rw [advance]
      split_ifs with hend
      · simp [InBurst, next, hwr', hend]
      · refine ⟨by simp [next, hwr', hwr, hend], ?_⟩
        have hrun'' := hrun' hend
        exact ⟨hrun''.le, hrun''.addr, hrun''.len, hrun''.id, hrun''.burst, hrun''.axlen,
          hrun''.legal⟩
    · simp [next, hrd', h.noRead]
  · obtain _ | ⟨a', k⟩ := burst
    swap
    · simp [InBurst, hwr] at hb
    have hchannel := hkaw a rfl
    have haw : awFire s io ram = true := by
      simp [awFire, awReady, hchannel, hwrite, hwr, ha, h.room]
    have hl : a.Legal := by
      have := hlegal (by simp [hchannel])
      rwa [hchannel] at this
    have hend : io.w.bits.last = decide (a.len = 0) := by
      have := hlast rfl (by simp [hchannel]) hvalid
      rwa [hchannel] at this
    refine ⟨a, 0, .inr ⟨rfl, rfl, haw, hchannel⟩, hl, rfl, ?_, hpush, har, hw, ?_, ?_⟩
    · simp only [reqIn, haw, har, Bool.false_eq_true, if_false, if_true, hchannel, len_eq_zero]
    · rw [advance]
      split_ifs with hlast'
      · have hzero := len_eq_zero.2 hlast'
        simp [InBurst, next, requestNext, haw, hw, hend, hzero]
      · have hne' : a.len ≠ 0#8 := fun h0 => hlast' (len_eq_zero.1 h0)
        refine ⟨by simp [next, requestNext, haw, hw, hend, hne'], .first hne' hl ?_ ?_ ?_ ?_ ?_⟩
        all_goals simp [next, requestNext, haw, hw, hchannel]
    · by_cases hzero : s.reqLen = 0#8 <;>
        simp [next, requestNext, haw, hw, hpush, hzero, h.noRead]

end Accepted

end FpgaNpc.Sdram.Pmem
