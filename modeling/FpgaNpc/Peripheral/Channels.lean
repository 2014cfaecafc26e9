import FpgaNpc.Peripheral.Forwarding

open FpgaNpc.Hardware FpgaNpc.SRAMLike

namespace FpgaNpc.Arbiter

section ReadChannel

structure Owed.Holds (g : Owed) (io : Inputs) : Prop where
  ibus : ∀ r ∈ g.ibusHeld, io.ibusReq = ⟨true, r⟩
  dbus : ∀ r ∈ g.dbusHeld, io.dbusReq = ⟨true, r⟩

instance (g : Owed) (io : Inputs) : Decidable (g.Holds io) :=
  decidable_of_iff ((∀ r ∈ g.ibusHeld, io.ibusReq = ⟨true, r⟩) ∧
      (∀ r ∈ g.dbusHeld, io.dbusReq = ⟨true, r⟩))
    ⟨fun ⟨hi, hd⟩ => ⟨hi, hd⟩, fun ⟨hi, hd⟩ => ⟨hi, hd⟩⟩

def ARStable (s : Regs) (io io' : Inputs) : Prop :=
  arValid (next s io) io' = true ∧ arBits (next s io) io' = arBits s io

/-- The address register of the writes comes to hold the address of the read: it takes the
address of a write, or the zero that stands for no write. -/
def HidesRead (s : Regs) (io : Inputs) : Prop :=
  if awFire s io then (aw s io).bits.addr = (arBits s io).addr
  else io.b.valid = true ∧ (arBits s io).addr = 0

instance (s : Regs) (io io' : Inputs) : Decidable (ARStable s io io') :=
  inferInstanceAs (Decidable (_ ∧ _))

instance (s : Regs) (io : Inputs) : Decidable (HidesRead s io) :=
  inferInstanceAs (Decidable (if awFire s io then _ = _ else _ ∧ _))

structure Locked (s : Regs) (g : Owed) : Prop where
  dbus : s.reqLock = true → s.selDBus = true → ∃ r, g.dbusHeld = some r ∧ r.wr = false
  ibus : s.reqLock = true → s.selDBus = false → ∃ r, g.ibusHeld = some r

variable {s : Regs} {io io' : Inputs} {g : Owed}

theorem arBits_eq : arBits s io =
    if servesDBus s io then ⟨io.dbusReq.bits.addr, 1, 0, io.dbusReq.bits.size.setWidth 3, .INCR⟩
    else ⟨io.ibusReq.bits.addr, 0, io.ibusReq.bits.len.setWidth 8, 2, .INCR⟩ := by
  cases hl : s.reqLock <;> cases hs : s.selDBus <;> cases hd : dbusRead io <;>
    simp [arBits, servesDBus, hl, hs, hd]

theorem Locked.dbusRead_of_serves (h : Locked s g) (hk : g.Holds io)
    (hsel : servesDBus s io = true) : dbusRead io = true := by
  cases hl : s.reqLock
  case false => simpa [servesDBus, hl] using hsel
  case true =>
    obtain ⟨r, hr, hwr⟩ := h.dbus hl (by simpa [servesDBus, hl] using hsel)
    simp [dbusRead, hk.dbus r hr, hwr]

theorem Locked.ibusValid_of_serves (h : Locked s g) (hk : g.Holds io) (hv : arValid s io = true)
    (hsel : servesDBus s io = false) : io.ibusReq.valid = true := by
  cases hl : s.reqLock
  case false =>
    have hd : dbusRead io = false := by simpa [servesDBus, hl] using hsel
    simp only [arValid, hd, Bool.false_or, Bool.and_eq_true] at hv
    exact hv.1.2
  case true =>
    obtain ⟨r, hr⟩ := h.ibus hl (by simpa [servesDBus, hl] using hsel)
    simp [hk.ibus r hr]

theorem lock_next_of_wait (hv : arValid s io = true) (hr : io.arReady = false) :
    (next s io).reqLock = true ∧ (next s io).selDBus = servesDBus s io := by
  simp [next, hv, hr, servesDBus]

theorem Locked.held_of_wait (h : Locked s g) (hk : g.Holds io) (hv : arValid s io = true)
    (hr : io.arReady = false) :
    (servesDBus s io = true → (g.observe s io).dbusHeld = some io.dbusReq.bits ∧
      dbusRead io = true) ∧
      (servesDBus s io = false → (g.observe s io).ibusHeld = some io.ibusReq.bits) := by
  constructor
  · intro hsel
    have hread := h.dbusRead_of_serves hk hsel
    have hready : dbusReqReady s io = false := by simp [dbusReqReady_of_read hread, hr]
    have hvalid : io.dbusReq.valid = true := by
      simp only [dbusRead, Bool.and_eq_true] at hread
      exact hread.1
    exact ⟨by simp [Owed.observe, hvalid, hready], hread⟩
  · intro hsel
    simp [Owed.observe, h.ibusValid_of_serves hk hv hsel, ibusReqReady, hr]

theorem Locked.next (h : Locked s g) (hk : g.Holds io) :
    Locked (Arbiter.next s io) (g.observe s io) := by
  have hwait : (Arbiter.next s io).reqLock = true → io.arReady = false := by
    cases hr : io.arReady
    case false => simp
    case true => simp [Arbiter.next, hr]
  constructor
  · intro hl hs
    have hr := hwait hl
    cases hv : arValid s io
    case true =>
      rw [(lock_next_of_wait hv hr).2] at hs
      obtain ⟨hheld, hread⟩ := (h.held_of_wait hk hv hr).1 hs
      simp only [dbusRead, Bool.and_eq_true, Bool.not_eq_true'] at hread
      exact ⟨_, hheld, hread.2⟩
    case false =>
      -- the lock is an old one, whose read address is hidden at present
      have hl' : s.reqLock = true := by simpa [Arbiter.next, hv, hr] using hl
      have hs' : s.selDBus = true := by simpa [Arbiter.next, hv] using hs
      have hread := h.dbusRead_of_serves hk (by simp [servesDBus, hl', hs'])
      have hready : dbusReqReady s io = false := by simp [dbusReqReady_of_read hread, hr]
      simp only [dbusRead, Bool.and_eq_true, Bool.not_eq_true'] at hread
      exact ⟨_, by simp [Owed.observe, hread.1, hready], hread.2⟩
  · intro hl hs
    have hr := hwait hl
    cases hv : arValid s io
    case true =>
      rw [(lock_next_of_wait hv hr).2] at hs
      exact ⟨_, (h.held_of_wait hk hv hr).2 hs⟩
    case false =>
      have hl' : s.reqLock = true := by simpa [Arbiter.next, hv, hr] using hl
      have hs' : s.selDBus = false := by simpa [Arbiter.next, hv] using hs
      obtain ⟨r, hheld⟩ := h.ibus hl' hs'
      exact ⟨r, by simp [Owed.observe, hk.ibus r hheld, ibusReqReady, hr]⟩

theorem Locked.reset (hs : s = Arbiter.reset) : Locked s .nothing := by
  constructor <;> simp [hs, Arbiter.reset]

theorem Locked.arBits_next (h : Locked s g) (hk : g.Holds io)
    (hk' : (g.observe s io).Holds io') (hv : arValid s io = true) (hr : io.arReady = false) :
    arBits (Arbiter.next s io) io' = arBits s io ∧
      (dbusRead io' = true ∨ io'.ibusReq.valid = true) := by
  obtain ⟨hl, hs⟩ := lock_next_of_wait hv hr
  have hsel : servesDBus (Arbiter.next s io) io' = servesDBus s io := by
    rw [← hs]
    simp [servesDBus, hl]
  obtain ⟨hd, hi⟩ := h.held_of_wait hk hv hr
  rw [arBits_eq, arBits_eq, hsel]
  cases hserves : servesDBus s io
  case true =>
    obtain ⟨hheld, hread⟩ := hd hserves
    have hsame := hk'.dbus _ hheld
    have hwr : io.dbusReq.bits.wr = false := by
      simp only [dbusRead, Bool.and_eq_true, Bool.not_eq_true'] at hread
      exact hread.2
    exact ⟨by simp [hsame], .inl (by simp [dbusRead, hsame, hwr])⟩
  case false =>
    have hsame := hk'.ibus _ (hi hserves)
    exact ⟨by simp [hsame], .inr (by simp [hsame])⟩

theorem awReqBusy_next_of_valid (hv : arValid s io = true) :
    (arBits s io).addr = (next s io).awReqBusy.addr ↔ HidesRead s io := by
  simp only [arValid, Bool.and_eq_true, bne_iff_ne] at hv
  rw [HidesRead]
  cases haw : awFire s io
  case true =>
    have hnext : (next s io).awReqBusy = (aw s io).bits := by simp [next, haw]
    rw [hnext, if_pos rfl]
    exact eq_comm
  case false =>
    cases hb : io.b.valid
    case true => simp [next, haw, hb, AXI4.AW.zero]
    case false => simpa [next, haw, hb] using hv.2

theorem ar_stable_iff {p : Regs × Owed}
    (h : observed.Reaches (fun p io => p.2.Holds io) p) (hk : p.2.Holds io)
    (hk' : (p.2.observe p.1 io).Holds io') (hv : arValid p.1 io = true)
    (hr : io.arReady = false) : ARStable p.1 io io' ↔ ¬HidesRead p.1 io := by
  have hlock : Locked p.1 p.2 :=
    h.monitor_invariant (P := Locked) (fun _ hs => Locked.reset hs) fun _ _ _ ih hk => ih.next hk
  obtain ⟨hbits, hreq⟩ := hlock.arBits_next hk hk' hv hr
  have hbusy : (next p.1 io).reqBusy = false := by
    have hfree : p.1.reqBusy = false := by
      simp only [arValid, Bool.and_eq_true, Bool.not_eq_true'] at hv
      exact hv.1.1
    simp [next, arFire, hr, hfree]
  have hval : arValid (next p.1 io) io' = true ↔
      (arBits p.1 io).addr ≠ (next p.1 io).awReqBusy.addr := by
    rw [← hbits]
    rcases hreq with hreq | hreq <;> simp [arValid, hbusy, hreq]
  rw [ARStable, hval, ← awReqBusy_next_of_valid hv]
  exact and_iff_left hbits

/-- A fetch waits, and a store to the next word begins. -/
theorem ar_stable_iff_load :
    ARStable Arbiter.reset
        { Inputs.idle with ibusReq := fetchAt 0x80000000, dbusReq := storeAt 0x80000004,
                           arReady := false }
        { Inputs.idle with ibusReq := fetchAt 0x80000000 } ↔ True := by
  have hr := observed.reaches_run (fun p io => p.2.Holds io) (Arbiter.reset, Owed.nothing) []
    ⟨rfl, rfl⟩ trivial
  rw [← iff_true_intro (by decide +kernel : ¬HidesRead Arbiter.reset
    { Inputs.idle with ibusReq := fetchAt 0x80000000, dbusReq := storeAt 0x80000004,
                       arReady := false })]
  exact ar_stable_iff hr (by decide +kernel) (by decide +kernel) (by decide +kernel) rfl

/-- A fetch waits, and a store to the fetched address begins. -/
theorem waiting_fetch_withdrawn :
    ¬∀ p, observed.Reaches (fun p io => p.2.Holds io) p → ∀ io io', p.2.Holds io →
      (p.2.observe p.1 io).Holds io' → arValid p.1 io = true → io.arReady = false →
      ARStable p.1 io io' := by
  intro h
  have hstable := h (Arbiter.reset, Owed.nothing) (.reset ⟨rfl, rfl⟩)
    { Inputs.idle with ibusReq := fetchAt 0x80000000, dbusReq := storeAt 0x80000000,
                       arReady := false }
    { Inputs.idle with ibusReq := fetchAt 0x80000000 }
    (by decide +kernel) (by decide +kernel) (by decide +kernel) rfl
  revert hstable
  decide +kernel

end ReadChannel

section WriteChannels

open AXI4

def awOf (r : SRAMLikeReq) : AW := ⟨r.addr, 0, r.size.setWidth 3, .INCR⟩

def wOf (r : SRAMLikeReq) : W := ⟨r.wdata, r.wstrb, true⟩

/-- The request that the dbus has to hold, the handshakes of the two channels, each with how many
writes were accepted before it, and the accepted writes. -/
structure Writes where
  held : Option SRAMLikeReq
  aw : List (Nat × AW)
  w : List (Nat × W)
  accepted : List SRAMLikeReq

def Writes.none : Writes := ⟨.none, [], [], []⟩

def Writes.observe (s : Regs) (io : Inputs) (g : Writes) : Writes where
  held := if io.dbusReq.valid && !dbusReqReady s io then some io.dbusReq.bits else .none
  aw := if awFire s io then g.aw ++ [(g.accepted.length, (Arbiter.aw s io).bits)] else g.aw
  w := if wFire s io then g.w ++ [(g.accepted.length, (Arbiter.w s io).bits)] else g.w
  accepted := if dbusReqFire s io && io.dbusReq.bits.wr then g.accepted ++ [io.dbusReq.bits]
    else g.accepted

def withWrites : Machine (Regs × Writes) Inputs := machine.monitor .none Writes.observe

def Writes.Holds (g : Writes) (io : Inputs) : Prop := ∀ r ∈ g.held, io.dbusReq = ⟨true, r⟩

instance (g : Writes) (io : Inputs) : Decidable (g.Holds io) :=
  inferInstanceAs (Decidable (∀ _ ∈ _, _))

def inTurn {α : Type*} (f : SRAMLikeReq → α) (rs : List SRAMLikeReq) : List (Nat × α) :=
  rs.mapIdx fun k r => (k, f r)

/-- The handshakes of both channels are those of the accepted writes, one for each in its turn,
and in between that of the write whose other channel is still to come. -/
structure WritesMatched (s : Regs) (g : Writes) : Prop where
  aw : g.aw = inTurn awOf (g.accepted ++ if s.writeState = .WaitWChannel then g.held.toList else [])
  w : g.w = inTurn wOf (g.accepted ++ if s.writeState = .WaitAWChannel then g.held.toList else [])
  begun : s.writeState ≠ .WriteIDLE → ∃ r, g.held = some r ∧ r.wr = true

structure WritesStable (s : Regs) (io io' : Inputs) : Prop where
  aw : (aw s io).valid = true → io.awReady = false → aw (next s io) io' = aw s io
  w : (w s io).valid = true → io.wReady = false → w (next s io) io' = w s io

variable {s : Regs} {io io' : Inputs} {g : Writes}

theorem inTurn_concat {α : Type*} (f : SRAMLikeReq → α) (rs : List SRAMLikeReq)
    (r : SRAMLikeReq) : inTurn f (rs ++ [r]) = inTurn f rs ++ [(rs.length, f r)] := by
  simp [inTurn, List.mapIdx_append]

theorem aw_eq : aw s io =
    ⟨dbusWrite io && s.writeState != .WaitWChannel, awOf io.dbusReq.bits⟩ := rfl

theorem w_eq : w s io =
    ⟨dbusWrite io && s.writeState != .WaitAWChannel, wOf io.dbusReq.bits⟩ := rfl

theorem accepts_eq : (dbusReqFire s io && io.dbusReq.bits.wr) =
    (dbusWrite io && dbusWReady s io) := by
  cases hwr : io.dbusReq.bits.wr <;> simp [dbusReqFire, dbusReqReady, dbusWrite, hwr]

theorem held_of_write (h : dbusWrite io = true) (hr : dbusWReady s io = false) :
    (g.observe s io).held = some io.dbusReq.bits := by
  simp only [dbusWrite, Bool.and_eq_true] at h
  simp [Writes.observe, dbusReqReady, h, hr]

theorem WritesMatched.dbusWrite (h : WritesMatched s g) (hk : g.Holds io)
    (hst : s.writeState ≠ .WriteIDLE) :
    Arbiter.dbusWrite io = true ∧ g.held = some io.dbusReq.bits := by
  obtain ⟨r, hr, hwr⟩ := h.begun hst
  simp [Arbiter.dbusWrite, hk r hr, hwr, hr]

def awDone (s : Regs) (io : Inputs) : Bool := s.writeState == .WaitWChannel || awFire s io

def wDone (s : Regs) (io : Inputs) : Bool := s.writeState == .WaitAWChannel || wFire s io

theorem write_cycle (s : Regs) (io : Inputs) :
    dbusWReady s io = (awDone s io && wDone s io) ∧ (Arbiter.next s io).writeState =
      if awDone s io = wDone s io then .WriteIDLE
      else if awDone s io then .WaitWChannel else .WaitAWChannel := by
  cases hst : s.writeState
  case WriteIDLE =>
    cases haf : awFire s io <;> cases hwf : wFire s io <;>
      simp [dbusWReady, Arbiter.next, writeStateNext, awDone, wDone, hst, haf, hwf]
  case WaitWChannel =>
    cases hwf : wFire s io <;>
      simp [dbusWReady, Arbiter.next, writeStateNext, awDone, wDone, hst, hwf]
  case WaitAWChannel =>
    cases haf : awFire s io <;>
      simp [dbusWReady, Arbiter.next, writeStateNext, awDone, wDone, hst, haf]

theorem WritesMatched.aw_cycle (h : WritesMatched s g) (hk : g.Holds io) :
    (g.observe s io).aw =
      inTurn awOf (g.accepted ++ if awDone s io then [io.dbusReq.bits] else []) := by
  have haw := h.aw
  by_cases hst : s.writeState = .WaitWChannel
  · have hheld := (h.dbusWrite hk (by simp [hst])).2
    have haf : awFire s io = false := by simp [awFire, aw_eq, hst]
    simpa [Writes.observe, awDone, hst, haf, hheld] using haw
  · cases haf : awFire s io
    case false => simpa [Writes.observe, awDone, hst, haf] using haw
    case true =>
      rw [if_neg hst, List.append_nil] at haw
      simp [Writes.observe, awDone, haf, haw, inTurn_concat, aw_eq]

theorem WritesMatched.w_cycle (h : WritesMatched s g) (hk : g.Holds io) :
    (g.observe s io).w =
      inTurn wOf (g.accepted ++ if wDone s io then [io.dbusReq.bits] else []) := by
  have hw := h.w
  by_cases hst : s.writeState = .WaitAWChannel
  · have hheld := (h.dbusWrite hk (by simp [hst])).2
    have hwf : wFire s io = false := by simp [wFire, w_eq, hst]
    simpa [Writes.observe, wDone, hst, hwf, hheld] using hw
  · cases hwf : wFire s io
    case false => simpa [Writes.observe, wDone, hst, hwf] using hw
    case true =>
      rw [if_neg hst, List.append_nil] at hw
      simp [Writes.observe, wDone, hwf, hw, inTurn_concat, w_eq]

theorem WritesMatched.next (h : WritesMatched s g) (hk : g.Holds io) :
    WritesMatched (Arbiter.next s io) (g.observe s io) := by
  obtain ⟨hready, hnext⟩ := write_cycle s io
  cases hd : Arbiter.dbusWrite io
  case false =>
    have hst : s.writeState = .WriteIDLE := by
      by_contra hst
      simp [(h.dbusWrite hk hst).1] at hd
    have haf : awFire s io = false := by simp [awFire, aw_eq, hd]
    have hwf : wFire s io = false := by simp [wFire, w_eq, hd]
    have haw := h.aw
    have hw := h.w
    simp only [hst, reduceCtorEq, if_false, List.append_nil] at haw hw
    have hst' : (Arbiter.next s io).writeState = .WriteIDLE := by
      simp [hnext, awDone, wDone, hst, haf, hwf]
    constructor <;> simp [Writes.observe, accepts_eq, hst', haf, hwf, hd, haw, hw]
  case true =>
    have haw := h.aw_cycle hk
    have hw := h.w_cycle hk
    have hwr : io.dbusReq.bits.wr = true := by
      simp only [Arbiter.dbusWrite, Bool.and_eq_true] at hd
      exact hd.2
    have hacc : (g.observe s io).accepted =
        if awDone s io && wDone s io then g.accepted ++ [io.dbusReq.bits] else g.accepted := by
      simp [Writes.observe, accepts_eq, hd, hready]
    cases ha : awDone s io <;> cases hb : wDone s io <;>
      simp only [ha, hb, Bool.and_true, Bool.and_false, reduceCtorEq, if_true, if_false,
        List.append_nil] at haw hw hacc hready hnext
    case false.false =>
      exact ⟨by simp [haw, hacc, hnext], by simp [hw, hacc, hnext], by simp [hnext]⟩
    case true.true =>
      exact ⟨by simp [haw, hacc, hnext], by simp [hw, hacc, hnext], by simp [hnext]⟩
    case true.false =>
      have hheld := held_of_write (g := g) hd hready
      exact ⟨by simp [haw, hacc, hnext, hheld], by simp [hw, hacc, hnext], fun _ => ⟨_, hheld, hwr⟩⟩
    case false.true =>
      have hheld := held_of_write (g := g) hd hready
      exact ⟨by simp [haw, hacc, hnext], by simp [hw, hacc, hnext, hheld], fun _ => ⟨_, hheld, hwr⟩⟩

theorem WritesMatched.reset (hs : s = Arbiter.reset) : WritesMatched s .none := by
  constructor <;> simp [hs, Arbiter.reset, Writes.none, inTurn]

theorem aw_wait (hv : (aw s io).valid = true) (hr : io.awReady = false) :
    dbusWReady s io = false ∧ (Arbiter.next s io).writeState ≠ .WaitWChannel := by
  have hst : s.writeState ≠ .WaitWChannel := by
    simp only [aw_eq, Bool.and_eq_true, bne_iff_ne] at hv
    exact hv.2
  have hdone : awDone s io = false := by simp [awDone, hst, awFire, hr]
  obtain ⟨hready, hnext⟩ := write_cycle s io
  rw [hready, hnext, hdone]
  cases wDone s io <;> simp

theorem w_wait (hv : (w s io).valid = true) (hr : io.wReady = false) :
    dbusWReady s io = false ∧ (Arbiter.next s io).writeState ≠ .WaitAWChannel := by
  have hst : s.writeState ≠ .WaitAWChannel := by
    simp only [w_eq, Bool.and_eq_true, bne_iff_ne] at hv
    exact hv.2
  have hdone : wDone s io = false := by simp [wDone, hst, wFire, hr]
  obtain ⟨hready, hnext⟩ := write_cycle s io
  rw [hready, hnext, hdone]
  cases awDone s io <;> simp

theorem dbusReq_of_wait (hd : dbusWrite io = true) (hr : dbusWReady s io = false)
    (hk' : (g.observe s io).Holds io') :
    io'.dbusReq = ⟨true, io.dbusReq.bits⟩ ∧ dbusWrite io' = true := by
  have hio := hk' _ (held_of_write hd hr)
  simp only [dbusWrite, Bool.and_eq_true] at hd
  exact ⟨hio, by simp [dbusWrite, hio, hd.2]⟩

theorem writes_stable (hk' : (g.observe s io).Holds io') : WritesStable s io io' where
  aw hv hr := by
    obtain ⟨hready, hst'⟩ := aw_wait hv hr
    simp only [aw_eq, Bool.and_eq_true, bne_iff_ne] at hv
    obtain ⟨hio, hd⟩ := dbusReq_of_wait hv.1 hready hk'
    have hopen : (s.writeState != .WaitWChannel) = true := bne_iff_ne.2 hv.2
    simp only [aw_eq, hd, hv.1, hio, hopen, bne_iff_ne.2 hst']
  w hv hr := by
    obtain ⟨hready, hst'⟩ := w_wait hv hr
    simp only [w_eq, Bool.and_eq_true, bne_iff_ne] at hv
    obtain ⟨hio, hd⟩ := dbusReq_of_wait hv.1 hready hk'
    have hopen : (s.writeState != .WaitAWChannel) = true := bne_iff_ne.2 hv.2
    simp only [w_eq, hd, hv.1, hio, hopen, bne_iff_ne.2 hst']

theorem writes_matched {p : Regs × Writes}
    (h : withWrites.Reaches (fun p io => p.2.Holds io) p) : WritesMatched p.1 p.2 ∧
      ∀ io io', p.2.Holds io → (p.2.observe p.1 io).Holds io' → WritesStable p.1 io io' := by
  have hmatched : WritesMatched p.1 p.2 := h.monitor_invariant (P := WritesMatched)
    (fun _ hs => WritesMatched.reset hs) fun _ _ _ ih hk => ih.next hk
  exact ⟨hmatched, fun _ _ _ hk' => writes_stable hk'⟩

/-- The data of a store is taken before its address, both of the next store's together. -/
def twoStores : List Inputs :=
  [{ Inputs.idle with dbusReq := storeAt 0x80000000, awReady := false },
   { Inputs.idle with dbusReq := storeAt 0x80000000 },
   { Inputs.idle with dbusReq := storeAt 0x80000004 }]

theorem writes_matched_stores :
    let p := withWrites.run (Arbiter.reset, Writes.none) twoStores
    p.2.aw.map Prod.fst = [0, 1] ∧ p.2.w.map Prod.fst = [0, 1] ∧ WritesMatched p.1 p.2 := by
  have hr := withWrites.reaches_run (fun p io => p.2.Holds io) (Arbiter.reset, Writes.none)
    twoStores ⟨rfl, rfl⟩ (by decide +kernel)
  exact ⟨by decide +kernel, by decide +kernel, (writes_matched hr).1⟩

end WriteChannels

end FpgaNpc.Arbiter
