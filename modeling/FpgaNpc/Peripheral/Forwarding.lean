import FpgaNpc.Peripheral.Arbiter

open FpgaNpc.Hardware FpgaNpc.SRAMLike

namespace FpgaNpc.Arbiter

/-- What the requesters and the slave still owe: the requests that are not accepted yet, the
accepted dbus request without a response (`true` for a write), and a write without its B. -/
structure Owed where
  ibusHeld : Option SRAMLikeReq
  dbusHeld : Option SRAMLikeReq
  dbusPending : Option Bool
  bPending : Bool

def Owed.nothing : Owed := ⟨none, none, none, false⟩

def Owed.observe (s : Regs) (io : Inputs) (g : Owed) : Owed where
  ibusHeld := if io.ibusReq.valid && !ibusReqReady s io then some io.ibusReq.bits else none
  dbusHeld := if io.dbusReq.valid && !dbusReqReady s io then some io.dbusReq.bits else none
  dbusPending :=
    if dbusReqFire s io then some io.dbusReq.bits.wr
    else if g.dbusPending = some false ∧ dbusRRespFire s io = true then none
    else if g.dbusPending = some true ∧ dbusWRespFire s io = true then none
    else g.dbusPending
  bPending :=
    if dbusWrite io && dbusWReady s io then true else if bFire s io then false else g.bPending

def observed : Machine (Regs × Owed) Inputs := machine.monitor .nothing Owed.observe

/-- The requesters hold a request until it is accepted, the dbus has at most one outstanding,
and the slave answers only accepted writes. -/
structure Owed.Kept (g : Owed) (io : Inputs) : Prop where
  ibus : ∀ r ∈ g.ibusHeld, io.ibusReq = ⟨true, r⟩
  dbus : ∀ r ∈ g.dbusHeld, io.dbusReq = ⟨true, r⟩
  single : g.dbusPending.isSome → io.dbusReq.valid = false
  b : io.b.valid = true → g.bPending = true

instance (g : Owed) (io : Inputs) : Decidable (g.Kept io) :=
  decidable_of_iff ((∀ r ∈ g.ibusHeld, io.ibusReq = ⟨true, r⟩) ∧
      (∀ r ∈ g.dbusHeld, io.dbusReq = ⟨true, r⟩) ∧
      (g.dbusPending.isSome → io.dbusReq.valid = false) ∧ (io.b.valid = true → g.bPending = true))
    ⟨fun ⟨hi, hd, hs, hb⟩ => ⟨hi, hd, hs, hb⟩, fun ⟨hi, hd, hs, hb⟩ => ⟨hi, hd, hs, hb⟩⟩

structure ReadsForwarded (s : Regs) (io : Inputs) : Prop where
  ibus : ibusReqFire s io = true ↔ arFire s io = true ∧ (arBits s io).id = 0 ∧
    (arBits s io).addr = io.ibusReq.bits.addr ∧
    (arBits s io).len = io.ibusReq.bits.len.setWidth 8
  dbus : (dbusRead io && dbusReqReady s io) = true ↔ arFire s io = true ∧
    (arBits s io).id = 1 ∧ (arBits s io).addr = io.dbusReq.bits.addr

/-- A fetch is granted the free read channel although its address is the one that
`awReqBusy` holds. -/
def FetchesAwReqBusy (s : Regs) (io : Inputs) : Prop :=
  io.ibusReq.valid = true ∧ io.arReady = true ∧ s.reqBusy = false ∧
    servesDBus s io = false ∧ io.ibusReq.bits.addr = s.awReqBusy.addr

instance (s : Regs) (io : Inputs) : Decidable (FetchesAwReqBusy s io) :=
  inferInstanceAs (Decidable (_ ∧ _))

variable {s : Regs} {io : Inputs} {g : Owed}

theorem arBits_addr : (arBits s io).addr =
    if servesDBus s io then io.dbusReq.bits.addr else io.ibusReq.bits.addr := by
  cases h : s.reqLock <;> simp [arBits, servesDBus, h]

theorem arBits_id : (arBits s io).id = if servesDBus s io then 1 else 0 := by
  cases h : s.reqLock <;> simp [arBits, servesDBus, h]

theorem arBits_len : (arBits s io).len =
    if servesDBus s io then 0 else io.ibusReq.bits.len.setWidth 8 := by
  cases h : s.reqLock <;> simp [arBits, servesDBus, h]

theorem ibusReqReady_eq :
    ibusReqReady s io = (io.arReady && !s.reqBusy && !servesDBus s io) := by
  cases h : s.reqLock <;> simp [ibusReqReady, servesDBus, h]

theorem dbusReqReady_of_read (h : dbusRead io = true) : dbusReqReady s io =
    (io.arReady && !s.reqBusy && ((s.reqLock && s.selDBus) ||
      (!s.reqLock && io.dbusReq.bits.addr != s.awReqBusy.addr))) := by
  have hwr : io.dbusReq.bits.wr = false := by
    simp only [dbusRead, Bool.and_eq_true, Bool.not_eq_true'] at h
    exact h.2
  rw [dbusReqReady, arBits_addr, hwr]
  cases hl : s.reqLock <;> simp [servesDBus, hl, h]

structure Inv (s : Regs) (g : Owed) : Prop where
  lockedDBus : s.reqLock = true → s.selDBus = true →
    ∃ r, g.dbusHeld = some r ∧ r.wr = false ∧ r.addr ≠ 0
  lockedIBus : s.reqLock = true → s.selDBus = false → ∃ r, g.ibusHeld = some r
  writing : s.writeState ≠ .WriteIDLE → ∃ r, g.dbusHeld = some r ∧ r.wr = true
  awReqBusy : s.awReqBusy.addr ≠ 0 → s.writeState = .WaitWChannel ∨ g.bPending = true
  bPending : g.bPending = true → g.dbusPending = some true ∧ s.bChannelQueue = none
  bQueued : s.bChannelQueue ≠ none → g.dbusPending = some true ∧ g.bPending = false

namespace Inv

theorem reset : Inv Arbiter.reset .nothing := by
  constructor <;> simp [Arbiter.reset, Owed.nothing, AXI4.AW.zero]

theorem of_dbusRead (h : Inv s g) (hk : g.Kept io) (hr : dbusRead io = true) :
    s.awReqBusy.addr = 0 := by
  by_contra haw
  simp only [dbusRead, Bool.and_eq_true, Bool.not_eq_true'] at hr
  rcases h.awReqBusy haw with hw | hb
  · obtain ⟨r, hheld, hwr⟩ := h.writing (by simp [hw])
    rw [hk.dbus r hheld] at hr
    simp [hwr] at hr
  · have := hk.single (by simp [(h.bPending hb).1])
    simp [this] at hr

theorem readsForwarded_iff (h : Inv s g) (hk : g.Kept io) :
    ReadsForwarded s io ↔ ¬FetchesAwReqBusy s io := by
  constructor
  · rintro hf ⟨hv, har, hbusy, hsel, haddr⟩
    have hfire : ibusReqFire s io = true := by
      simp [ibusReqFire, ibusReqReady_eq, hv, har, hbusy, hsel]
    have := (hf.ibus.1 hfire).1
    simp [arFire, arValid, arBits_addr, hsel, haddr] at this
  · intro hn
    constructor
    · cases hsel : servesDBus s io
      case true => simp [ibusReqFire, ibusReqReady_eq, hsel, arBits_id]
      case false =>
        have hread : s.reqLock = false → dbusRead io = false := by
          intro hl
          simpa [servesDBus, hl] using hsel
        have hvalid : s.reqLock = true → io.ibusReq.valid = true := by
          intro hl
          obtain ⟨r, hr⟩ := h.lockedIBus hl (by simpa [servesDBus, hl] using hsel)
          simp [hk.ibus r hr]
        have haddr : io.ibusReq.valid = true → io.arReady = true → s.reqBusy = false →
            io.ibusReq.bits.addr ≠ s.awReqBusy.addr := by
          intro hv har hbusy ha
          exact hn ⟨hv, har, hbusy, hsel, ha⟩
        simp only [ibusReqFire, ibusReqReady_eq, arFire, arValid, arBits_id, arBits_addr,
          arBits_len, hsel]
        cases hl : s.reqLock <;> simp_all <;> grind
    · cases hread : dbusRead io
      case true =>
        have haw := h.of_dbusRead hk hread
        rw [Bool.true_and, dbusReqReady_of_read hread]
        cases hl : s.reqLock
        case false => simp [arFire, arValid, arBits_id, arBits_addr, servesDBus, hl, hread]; grind
        case true =>
          cases hs : s.selDBus
          case false => simp [arBits_id, servesDBus, hl, hs]
          case true =>
            obtain ⟨r, hheld, hwr, hr0⟩ := h.lockedDBus hl hs
            have ha : io.dbusReq.bits.addr ≠ s.awReqBusy.addr := by
              rw [hk.dbus r hheld, haw]
              exact hr0
            simp [arFire, arValid, arBits_id, arBits_addr, servesDBus, hl, hs, hread, ha]
            grind
      case false =>
        have hsel : servesDBus s io = false := by
          cases hl : s.reqLock
          case false => simp [servesDBus, hl, hread]
          case true =>
            cases hs : s.selDBus
            case false => simp [servesDBus, hl, hs]
            case true =>
              obtain ⟨r, hheld, hwr, -⟩ := h.lockedDBus hl hs
              simp [dbusRead, hk.dbus r hheld, hwr] at hread
        simp [arBits_id, hsel]

theorem dbusValid_of_pending (hk : g.Kept io) {wr : Bool} (hp : g.dbusPending = some wr) :
    io.dbusReq.valid = false := hk.single (by simp [hp])

theorem quiet_of_dbusValid (h : Inv s g) (hk : g.Kept io) (hv : io.dbusReq.valid = true) :
    g.bPending = false ∧ io.b.valid = false ∧ s.bChannelQueue = none := by
  have hnp : g.dbusPending ≠ some true := by
    intro hp
    simp [dbusValid_of_pending hk hp] at hv
  have hb : g.bPending = false := by
    cases hb : g.bPending
    · rfl
    · exact absurd (h.bPending hb).1 hnp
  refine ⟨hb, ?_, ?_⟩
  · cases hbv : io.b.valid
    · rfl
    · simp [hk.b hbv] at hb
  · by_contra hq
    exact hnp (h.bQueued hq).1

theorem lockedDBus_next (h : Inv s g) (hk : g.Kept io) (hl : (next s io).reqLock = true)
    (hs : (next s io).selDBus = true) :
    ∃ r, (g.observe s io).dbusHeld = some r ∧ r.wr = false ∧ r.addr ≠ 0 := by
  have har : io.arReady = false := by
    cases har : io.arReady
    · rfl
    · simp [Arbiter.next, har] at hl
  have hread : dbusRead io = true ∧ io.dbusReq.bits.addr ≠ 0 := by
    cases hlock : s.reqLock
    case true =>
      have hsel : s.selDBus = true := by
        cases hav : arValid s io <;> simpa [Arbiter.next, hlock, har, hav] using hs
      obtain ⟨r, hr, hwr, hr0⟩ := h.lockedDBus hlock hsel
      exact ⟨by simp [dbusRead, hk.dbus r hr, hwr], by simpa [hk.dbus r hr] using hr0⟩
    case false =>
      have hav : arValid s io = true := by
        cases hav : arValid s io
        · simp [Arbiter.next, hlock, har, hav] at hl
        · rfl
      have hread : dbusRead io = true := by
        simpa [Arbiter.next, hlock, har, hav] using hs
      simp only [arValid, arBits_addr, servesDBus, hlock, hread, h.of_dbusRead hk hread,
        Bool.and_eq_true, bne_iff_ne] at hav
      exact ⟨hread, hav.2⟩
  have hready : dbusReqReady s io = false := by rw [dbusReqReady_of_read hread.1]; simp [har]
  simp only [dbusRead, Bool.and_eq_true, Bool.not_eq_true'] at hread
  exact ⟨io.dbusReq.bits, by simp [Owed.observe, hread, hready], hread.1.2, hread.2⟩

theorem lockedIBus_next (h : Inv s g) (hk : g.Kept io) (hl : (next s io).reqLock = true)
    (hs : (next s io).selDBus = false) : ∃ r, (g.observe s io).ibusHeld = some r := by
  have har : io.arReady = false := by
    cases har : io.arReady
    · rfl
    · simp [Arbiter.next, har] at hl
  have hvalid : io.ibusReq.valid = true := by
    cases hlock : s.reqLock
    case true =>
      have hsel : s.selDBus = false := by
        cases hav : arValid s io <;> simpa [Arbiter.next, hlock, har, hav] using hs
      obtain ⟨r, hr⟩ := h.lockedIBus hlock hsel
      simp [hk.ibus r hr]
    case false =>
      have hav : arValid s io = true := by
        cases hav : arValid s io
        · simp [Arbiter.next, hlock, har, hav] at hl
        · rfl
      have hread : dbusRead io = false := by
        simpa [Arbiter.next, hlock, har, hav] using hs
      simp only [arValid, hread, Bool.false_or, Bool.and_eq_true] at hav
      exact hav.1.2
  exact ⟨io.ibusReq.bits, by simp [Owed.observe, hvalid, ibusReqReady, har]⟩

theorem writing_next (h : Inv s g) (hk : g.Kept io)
    (hw : (next s io).writeState ≠ .WriteIDLE) :
    ∃ r, (g.observe s io).dbusHeld = some r ∧ r.wr = true := by
  have hnready : dbusWReady s io = false := by
    cases hs : s.writeState <;> simp only [Arbiter.next, writeStateNext, hs] at hw <;>
      simp only [dbusWReady, hs] <;> grind
  have hwrite : dbusWrite io = true := by
    by_cases hs : s.writeState = .WriteIDLE
    · have hfire : awFire s io = true ∨ wFire s io = true := by
        simp only [Arbiter.next, writeStateNext, hs] at hw
        grind
      rcases hfire with hf | hf
      · simp only [awFire, aw, Bool.and_eq_true] at hf
        simp [dbusWrite, hf.1.1]
      · simp only [wFire, w, Bool.and_eq_true] at hf
        simp [dbusWrite, hf.1.1]
    · obtain ⟨r, hr, hwr⟩ := h.writing hs
      simp [dbusWrite, hk.dbus r hr, hwr]
  simp only [dbusWrite, Bool.and_eq_true] at hwrite
  exact ⟨io.dbusReq.bits, by simp [Owed.observe, dbusReqReady, hwrite, hnready], hwrite.2⟩

theorem bPending_observe (h : Inv s g) (hk : g.Kept io) (hp : (g.observe s io).bPending = true) :
    (g.observe s io).dbusPending = some true ∧ (next s io).bChannelQueue = none := by
  cases hset : dbusWrite io && dbusWReady s io
  case true =>
    simp only [Bool.and_eq_true, dbusWrite] at hset
    obtain ⟨-, hb, hq⟩ := h.quiet_of_dbusValid hk hset.1.1
    simp [Owed.observe, dbusReqFire, dbusReqReady, hset, Arbiter.next, hq, hb, FlowQueue.next]
  case false =>
    have hbf : bFire s io = false := by
      by_contra hb
      simp [Owed.observe, hset, hb] at hp
    have hg : g.bPending = true := by simpa [Owed.observe, hset, hbf] using hp
    obtain ⟨hpend, hq⟩ := h.bPending hg
    have hbv : io.b.valid = false := by
      simpa [bFire, bReady, FlowQueue.enqReady, hq] using hbf
    simp [Owed.observe, dbusReqFire, dbusValid_of_pending hk hpend, hpend, dbusWRespFire,
      dbusWResp, FlowQueue.deqValid, hq, hbv, Arbiter.next, FlowQueue.next]

theorem awReqBusy_next (h : Inv s g) (hk : g.Kept io) (ha : (next s io).awReqBusy.addr ≠ 0) :
    (next s io).writeState = .WaitWChannel ∨ (g.observe s io).bPending = true := by
  cases haw : awFire s io
  case true =>
    have hwrite : dbusWrite io = true := by
      simp only [awFire, aw, Bool.and_eq_true] at haw
      simp [dbusWrite, haw.1.1]
    have hs : s.writeState ≠ .WaitWChannel := by
      intro hs
      simp [awFire, aw, hs] at haw
    cases hst : s.writeState
    case WriteIDLE =>
      cases hwf : wFire s io
      case true => exact .inr (by simp [Owed.observe, hwrite, dbusWReady, hst, haw, hwf])
      case false => exact .inl (by simp [Arbiter.next, writeStateNext, hst, haw, hwf])
    case WaitWChannel => exact absurd hst hs
    case WaitAWChannel => exact .inr (by simp [Owed.observe, hwrite, dbusWReady, hst, haw])
  case false =>
    have hb : io.b.valid = false := by
      cases hb : io.b.valid
      · rfl
      · simp [Arbiter.next, haw, hb, AXI4.AW.zero] at ha
    have hbf : bFire s io = false := by simp [bFire, hb]
    rcases h.awReqBusy (by simpa [Arbiter.next, haw, hb] using ha) with hw | hp
    · cases hwf : wFire s io
      case true =>
        obtain ⟨r, hr, hwr⟩ := h.writing (by simp [hw])
        exact .inr (by simp [Owed.observe, dbusWrite, hk.dbus r hr, hwr, dbusWReady, hw, hwf])
      case false => exact .inl (by simp [Arbiter.next, writeStateNext, hw, hwf])
    · exact .inr (by simp [Owed.observe, hbf, hp])

theorem bQueued_next (h : Inv s g) (hk : g.Kept io) (hq : (next s io).bChannelQueue ≠ none) :
    (g.observe s io).dbusPending = some true ∧ (g.observe s io).bPending = false := by
  have hready : io.dbusWRespReady = false := by
    cases hr : io.dbusWRespReady
    · rfl
    · simp [Arbiter.next, hr, FlowQueue.next_ready] at hq
  have hdue : g.dbusPending = some true ∧ (g.bPending = true → bFire s io = true) := by
    cases hold : s.bChannelQueue
    case some b => simp [h.bQueued (by simp [hold])]
    case none =>
      have hbv : io.b.valid = true := by
        by_contra hb
        simp [Arbiter.next, hold, hb, FlowQueue.next] at hq
      exact ⟨(h.bPending (hk.b hbv)).1,
        fun _ => by simp [bFire, bReady, hbv, hold, FlowQueue.enqReady]⟩
  have hv := dbusValid_of_pending hk hdue.1
  refine ⟨by simp [Owed.observe, dbusReqFire, hv, hdue.1, dbusWRespFire, hready], ?_⟩
  cases hp : g.bPending
  · simp [Owed.observe, dbusWrite, hv, hp]
  · simp [Owed.observe, dbusWrite, hv, hdue.2 hp]

theorem next (h : Inv s g) (hk : g.Kept io) : Inv (Arbiter.next s io) (g.observe s io) where
  lockedDBus := h.lockedDBus_next hk
  lockedIBus := h.lockedIBus_next hk
  writing := h.writing_next hk
  awReqBusy := h.awReqBusy_next hk
  bPending := h.bPending_observe hk
  bQueued := h.bQueued_next hk

end Inv

theorem Inv.of_reaches {p : Regs × Owed}
    (h : observed.Reaches (fun p io => p.2.Kept io) p) : Inv p.1 p.2 :=
  h.monitor_invariant (P := Inv) (fun _ hs => hs ▸ Inv.reset) fun _ _ _ ih hk => ih.next hk

theorem reads_forwarded_iff {p : Regs × Owed}
    (h : observed.Reaches (fun p io => p.2.Kept io) p) (hk : p.2.Kept io) :
    ReadsForwarded p.1 io ↔ ¬FetchesAwReqBusy p.1 io :=
  (Inv.of_reaches h).readsForwarded_iff hk

def Inputs.idle : Inputs where
  ibusReq := ⟨false, .zero⟩
  ibusRespReady := true
  dbusReq := ⟨false, .zero⟩
  dbusRRespReady := true
  dbusWRespReady := true
  arReady := true
  r := ⟨false, ⟨0, 0, false, 0⟩⟩
  awReady := true
  wReady := true
  b := ⟨false, ⟨0, 0⟩⟩

def storeAt (a : Word) : Irrevocable SRAMLikeReq :=
  ⟨true, { SRAMLikeReq.zero with wr := true, size := 2, addr := a, wstrb := 0xf }⟩

def fetchAt (a : Word) : Irrevocable SRAMLikeReq :=
  ⟨true, { SRAMLikeReq.zero with size := 2, addr := a }⟩

theorem reads_forwarded_iff_store :
    ReadsForwarded (observed.run (Arbiter.reset, Owed.nothing)
      [{ Inputs.idle with dbusReq := storeAt 0x80000000 }]).1
      { Inputs.idle with ibusReq := fetchAt 0x80000004 } ↔ True := by
  have hr := observed.reaches_run (fun p io => p.2.Kept io) (Arbiter.reset, Owed.nothing)
    [{ Inputs.idle with dbusReq := storeAt 0x80000000 }] ⟨rfl, rfl⟩ (by decide +kernel)
  rw [reads_forwarded_iff hr (by decide +kernel), iff_true]
  rintro ⟨-, -, -, -, h⟩
  revert h
  decide +kernel

/-- A store waits for its response, and the fetch of the stored word is accepted for good. -/
theorem fetch_of_stored_word_lost :
    ¬∀ p, observed.Reaches (fun p io => p.2.Kept io) p → ∀ io, p.2.Kept io →
      ReadsForwarded p.1 io := by
  intro h
  have hr := observed.reaches_run (fun p io => p.2.Kept io) (Arbiter.reset, Owed.nothing)
    [{ Inputs.idle with dbusReq := storeAt 0x80000000 }] ⟨rfl, rfl⟩ (by decide +kernel)
  have hfire := ((h _ hr { Inputs.idle with ibusReq := fetchAt 0x80000000 }
    (by decide +kernel)).ibus.1 (by decide +kernel)).1
  revert hfire
  decide +kernel

end FpgaNpc.Arbiter
