import FpgaNpc.Peripheral.Forwarding
import FpgaNpc.Peripheral.XBar

open FpgaNpc.Hardware FpgaNpc.SRAMLike FpgaNpc.AXI4

namespace FpgaNpc.XBar

inductive Port
  | ibus | dbus
  deriving DecidableEq

def Port.id : Port → BitVec 4
  | .ibus => 0
  | .dbus => 1

inductive Target
  | mem | clint | plic
  deriving DecidableEq

structure Read where
  port : Port
  id : BitVec 4
  left : Nat

variable {nrIntr : Nat}

section Wires

variable (s : Regs nrIntr) (io : Inputs nrIntr)

def arFire : Bool := Arbiter.arFire s.arbiter (arbiterInputs s io)

def readPort : Port :=
  if Arbiter.servesDBus s.arbiter (arbiterInputs s io) then .dbus else .ibus

def readTarget : Target :=
  if readSelMem s io then .mem else if readSelClint s io then .clint else .plic

/-- The data of the R beat that a slave answers with in this cycle. Those of the CLINT and the
PLIC are there for one cycle, whoever waits. -/
def answered : Target → Option Word
  | .mem => if io.r.valid && rReady s io then some io.r.bits.data else none
  | .clint => if s.clint.rValid then some s.clint.rdata else none
  | .plic => if s.plic.rValid then some s.plic.rdata else none

def received : Port → List Word
  | .ibus =>
    let resp := Arbiter.ibusResp s.arbiter (arbiterInputs s io)
    if resp.valid && io.ibusRespReady then [resp.bits.rdata] else []
  | .dbus =>
    let rResp := Arbiter.dbusRResp s.arbiter (arbiterInputs s io)
    if rResp.valid && io.dbusRRespReady then [rResp.bits.rdata] else []

def queue : Port → FlowQueue Word
  | .ibus => s.arbiter.rChannelIBusQueue
  | .dbus => s.arbiter.rChannelDBusQueue

end Wires

/-- The reads that wait at each slave, oldest first, and for each port how many beats its reads
asked for, the data of those it was answered and of those it received. -/
structure Routing where
  outstanding : Target → List Read
  asked : Port → Nat
  beats : Port → List Word
  delivered : Port → List Word

namespace Routing

def none : Routing := ⟨fun _ => [], fun _ => 0, fun _ => [], fun _ => []⟩

def reads (g : Routing) : List Read :=
  g.outstanding .mem ++ g.outstanding .clint ++ g.outstanding .plic

def advance : List Read → List Read
  | [] => []
  | x :: rest => if x.left = 1 then rest else { x with left := x.left - 1 } :: rest

def beat (answer : Option Word) (reads : List Read) (p : Port) : List Word :=
  match answer, reads with
  | some data, x :: _ => if x.port = p then [data] else []
  | _, _ => []

def due (reads : List Read) (p : Port) : Nat :=
  ((reads.filter (·.port = p)).map (·.left)).sum

def observe (s : Regs nrIntr) (io : Inputs nrIntr) (g : Routing) : Routing where
  outstanding t :=
    (if (answered s io t).isSome then advance (g.outstanding t) else g.outstanding t) ++
      if arFire s io && readTarget s io = t then
        [⟨readPort s io, (arBits s io).id, (arBits s io).len.toNat + 1⟩] else []
  asked p := g.asked p +
    if arFire s io && readPort s io = p then (arBits s io).len.toNat + 1 else 0
  beats p := g.beats p ++ beat (answered s io .mem) (g.outstanding .mem) p ++
    beat (answered s io .clint) (g.outstanding .clint) p ++
    beat (answered s io .plic) (g.outstanding .plic) p
  delivered p := g.delivered p ++ received s io p

/-- The memory answers the reads that wait there in turn, each with beats that carry its id, the
last of them marked. -/
def Answers (g : Routing) (io : Inputs nrIntr) : Prop :=
  io.r.valid = true → ∃ x ∈ (g.outstanding .mem).head?, io.r.bits.id = x.id ∧
    (io.r.bits.last = true ↔ x.left = 1)

end Routing

def withRouting (nrIntr : Nat) : Machine (Regs nrIntr × Routing) (Inputs nrIntr) :=
  (machine nrIntr).monitor .none Routing.observe

/-- At most one read is outstanding. Each port has received, or will from its queue, the beats of
its own reads in order, which with those still due are as many as it asked for. -/
structure Routed (s : Regs nrIntr) (g : Routing) : Prop where
  single : g.reads.length ≤ 1
  delivered : ∀ p, g.delivered p ++ (queue s p).toList = g.beats p
  asked : ∀ p, (g.beats p).length + Routing.due g.reads p = g.asked p

/-- No fetch goes to the CLINT or the PLIC, and the response queue of the dbus is empty when one
of them answers. -/
structure Served (s : Regs nrIntr) (io : Inputs nrIntr) : Prop where
  fetch : arFire s io = true → readTarget s io ≠ .mem → readPort s io = .dbus
  room : s.clint.rValid = true ∨ s.plic.rValid = true → s.arbiter.rChannelDBusQueue = none

section Slaves

variable {s : Regs nrIntr} {io : Inputs nrIntr} {g : Routing}

theorem selPlic_of_selClint {a : Word} (h : selClint a = true) : selPlic a = false := by
  simp only [selClint, selPlic, Bool.and_eq_true, Bool.and_eq_false_iff, decide_eq_true_eq,
    decide_eq_false_iff_not, BitVec.lt_def, BitVec.le_def] at h ⊢
  simp at h ⊢
  omega

theorem readTarget_eq_mem : readTarget s io = .mem ↔ readSelMem s io = true := by
  unfold readTarget
  split_ifs <;> simp_all

theorem readTarget_eq_clint : readTarget s io = .clint ↔ readSelClint s io = true := by
  unfold readTarget
  split_ifs <;> simp_all [readSelMem, readSelClint, selMem]

theorem readTarget_eq_plic : readTarget s io = .plic ↔ readSelPlic s io = true := by
  have hdisj := selPlic_of_selClint (a := (arBits s io).addr)
  unfold readTarget
  split_ifs <;> simp_all [readSelMem, readSelClint, readSelPlic, selMem]

theorem arFire_of_local (h : readTarget s io ≠ .mem) : arFire s io = (ar s io).valid := by
  have hmem : readSelMem s io = false := by simpa [readTarget_eq_mem] using h
  have hready : (arbiterInputs s io).arReady = true := by
    simp [arbiterInputs, PriorityMux, hmem]
  rw [arFire, Arbiter.arFire, hready, Bool.and_true]
  rfl

def localValid (s : Regs nrIntr) : Target → Bool
  | .mem => false
  | .clint => s.clint.rValid
  | .plic => s.plic.rValid

theorem localValid_next (t : Target) : localValid (next s io) t =
    (arFire s io && decide (readTarget s io = t) && decide (t ≠ .mem)) := by
  cases t
  case mem => simp [localValid]
  case clint =>
    have hvalid : localValid (next s io) .clint = ((ar s io).valid && readSelClint s io) := rfl
    rw [hvalid]
    by_cases ht : readTarget s io = .clint
    · simp [arFire_of_local (by simp [ht] : readTarget s io ≠ .mem), ht, readTarget_eq_clint.1 ht]
    · simp [ht, mt readTarget_eq_clint.2 ht]
  case plic =>
    have hvalid : localValid (next s io) .plic = ((ar s io).valid && readSelPlic s io) := rfl
    rw [hvalid]
    by_cases ht : readTarget s io = .plic
    · simp [arFire_of_local (by simp [ht] : readTarget s io ≠ .mem), ht, readTarget_eq_plic.1 ht]
    · simp [ht, mt readTarget_eq_plic.2 ht]

theorem r_of_mem (io : Inputs nrIntr) (h : ∀ t, localValid s t = false) :
    (arbiterInputs s io).r.valid = io.r.valid ∧
    (io.r.valid = true → (arbiterInputs s io).r.bits = io.r.bits) := by
  have hc : s.clint.rValid = false := h .clint
  have hp : s.plic.rValid = false := h .plic
  refine ⟨by simp [arbiterInputs, CLINT.r, PLIC.r, hc, hp], fun hv => ?_⟩
  simp [arbiterInputs, PriorityMux, hv]

theorem r_of_local (t : Target) (ht : t ≠ .mem)
    (h : ∀ t', localValid s t' = (decide (t' = t) && decide (t ≠ .mem)))
    (hv : io.r.valid = false) (hs : Served s io) :
    ∃ data, (arbiterInputs s io).r = ⟨true, ⟨0, data, true, 1⟩⟩ ∧ rReady s io = true ∧
      ∀ t', answered s io t' = if t' = t then some data else none := by
  have hready (hr : (arbiterInputs s io).r.bits.id = 1)
      (hlocal : s.clint.rValid = true ∨ s.plic.rValid = true) : rReady s io = true := by
    simp [rReady, Arbiter.rReady, hr, hs.room hlocal, FlowQueue.enqReady]
  have hc := h .clint
  have hp := h .plic
  cases t
  case mem => exact absurd rfl ht
  case clint =>
    have hc' : s.clint.rValid = true := by simpa [localValid] using hc
    have hp' : s.plic.rValid = false := by simpa [localValid] using hp
    have hr : (arbiterInputs s io).r = ⟨true, ⟨0, s.clint.rdata, true, 1⟩⟩ := by
      simp [arbiterInputs, CLINT.r, PLIC.r, PriorityMux, hc', hp', hv]
    refine ⟨s.clint.rdata, hr, hready (by rw [hr]) (.inl hc'), fun t' => ?_⟩
    cases t' <;> simp [answered, hv, hc', hp']
  case plic =>
    have hc' : s.clint.rValid = false := by simpa [localValid] using hc
    have hp' : s.plic.rValid = true := by simpa [localValid] using hp
    have hr : (arbiterInputs s io).r = ⟨true, ⟨0, s.plic.rdata, true, 1⟩⟩ := by
      simp [arbiterInputs, CLINT.r, PLIC.r, PriorityMux, hc', hp', hv]
    refine ⟨s.plic.rdata, hr, hready (by rw [hr]) (.inr hp'), fun t' => ?_⟩
    cases t' <;> simp [answered, hv, hc', hp']

end Slaves

section Reads

variable {s : Regs nrIntr} {io : Inputs nrIntr} {g : Routing}

/-- Where the one read stands: nowhere, or at a slave, and then at one other than the memory in
the cycle of its answer. -/
inductive Reading (s : Regs nrIntr) (g : Routing) : Prop
  | idle (busy : s.arbiter.reqBusy = false) (none : ∀ t, g.outstanding t = [])
      (quiet : ∀ t, localValid s t = false)
  | busy (t : Target) (x : Read) (busy : s.arbiter.reqBusy = true) (own : g.outstanding t = [x])
      (others : ∀ t', t' ≠ t → g.outstanding t' = [])
      (answers : ∀ t', localValid s t' = (decide (t' = t) && decide (t ≠ .mem)))
      (pos : 0 < x.left) (id : x.id = x.port.id)
      (served : t ≠ .mem → x.port = .dbus ∧ x.left = 1)

def enqueued (s : Regs nrIntr) (io : Inputs nrIntr) : Port → List Word
  | .ibus => s.arbiter.rChannelIBusQueue.enqueued
      (Arbiter.rChannelIBusValid (arbiterInputs s io)) (arbiterInputs s io).r.bits.data
  | .dbus => s.arbiter.rChannelDBusQueue.enqueued
      (Arbiter.rChannelDBusValid (arbiterInputs s io)) (arbiterInputs s io).r.bits.data

theorem received_append_queue (p : Port) :
    received s io p ++ (queue (next s io) p).toList = (queue s p).toList ++ enqueued s io p := by
  cases p <;> exact FlowQueue.dequeued_append_next ..

theorem enqueued_of_quiet (h : (arbiterInputs s io).r.valid = false) (p : Port) :
    enqueued s io p = [] := by
  cases p <;> simp [enqueued, FlowQueue.enqueued, Arbiter.rChannelIBusValid,
    Arbiter.rChannelDBusValid, h]

theorem enqueued_of_id {q : Port} (hv : (arbiterInputs s io).r.valid = true)
    (hid : (arbiterInputs s io).r.bits.id = q.id) (p : Port) : enqueued s io p =
      if q = p ∧ rReady s io = true then [(arbiterInputs s io).r.bits.data] else [] := by
  cases q <;> cases p <;> simp [enqueued, FlowQueue.enqueued, Arbiter.rChannelIBusValid,
    Arbiter.rChannelDBusValid, hv, hid, Port.id, rReady, Arbiter.rReady]

theorem Reading.quiet_mem (hno : g.outstanding .mem = []) (ha : g.Answers io) :
    io.r.valid = false := by
  by_contra hv
  obtain ⟨x, hx, -⟩ := ha (Bool.not_eq_false _ ▸ hv)
  simp [hno] at hx

theorem Reading.beats (h : Reading s g) (ha : g.Answers io) (hs : Served s io) (p : Port) :
    Routing.beat (answered s io .mem) (g.outstanding .mem) p ++
      Routing.beat (answered s io .clint) (g.outstanding .clint) p ++
      Routing.beat (answered s io .plic) (g.outstanding .plic) p = enqueued s io p := by
  cases h with
  | idle busy none quiet =>
    have hv := Reading.quiet_mem (none .mem) ha
    rw [enqueued_of_quiet (by rw [(r_of_mem io quiet).1, hv])]
    simp [Routing.beat, none]
  | busy t x busy own others answers pos id served =>
    by_cases ht : t = .mem
    · subst ht
      have hq : ∀ t, localValid s t = false := fun t => by simpa using answers t
      obtain ⟨hvalid, hbits⟩ := r_of_mem io hq
      rw [others .clint (by simp), others .plic (by simp), own]
      cases hv : io.r.valid
      case false =>
        rw [enqueued_of_quiet (by rw [hvalid, hv])]
        simp [Routing.beat, answered, hv]
      case true =>
        obtain ⟨y, hy, hid, -⟩ := ha hv
        obtain rfl : x = y := by simpa [own] using hy
        rw [enqueued_of_id (by rw [hvalid, hv]) (by rw [hbits hv, hid, id]), hbits hv]
        cases hr : rReady s io <;> simp [Routing.beat, answered, hv, hr]
    · have hv := Reading.quiet_mem (others .mem (Ne.symm ht)) ha
      obtain ⟨data, hr, hready, hans⟩ := r_of_local t ht answers hv hs
      obtain ⟨hport, -⟩ := served ht
      rw [enqueued_of_id (q := .dbus) (by rw [hr]) (by rw [hr]; rfl), hr, hans, hans, hans]
      cases t
      case mem => exact absurd rfl ht
      case clint => simp [Routing.beat, own, hport, hready]
      case plic => simp [Routing.beat, own, hport, hready]

theorem readPort_id : (arBits s io).id = (readPort s io).id := by
  have hid : (arBits s io).id =
      if Arbiter.servesDBus s.arbiter (arbiterInputs s io) then 1 else 0 := Arbiter.arBits_id
  rw [hid, readPort]
  split_ifs <;> rfl

theorem len_of_dbus (h : readPort s io = .dbus) : (arBits s io).len = 0 := by
  have hlen : (arBits s io).len = if Arbiter.servesDBus s.arbiter (arbiterInputs s io) then 0
      else (arbiterInputs s io).ibusReq.bits.len.setWidth 8 := Arbiter.arBits_len
  rw [hlen, if_pos]
  by_contra hn
  simp [readPort, hn] at h

theorem arFire_of_busy (io : Inputs nrIntr) (h : s.arbiter.reqBusy = true) :
    arFire s io = false := by
  simp [arFire, Arbiter.arFire, Arbiter.arValid, h]

theorem reqBusy_next : (next s io).arbiter.reqBusy =
    if arFire s io then true
    else if (arbiterInputs s io).r.valid && rReady s io && (arbiterInputs s io).r.bits.last then
      false
    else s.arbiter.reqBusy := rfl

theorem Reading.next (h : Reading s g) (ha : g.Answers io) (hs : Served s io) :
    Reading (XBar.next s io) (g.observe s io) := by
  cases h with
  | idle busy none quiet =>
    have hv : (arbiterInputs s io).r.valid = false := by
      rw [(r_of_mem io quiet).1, Reading.quiet_mem (none .mem) ha]
    cases hf : arFire s io
    case false =>
      refine .idle (by simp [reqBusy_next, hf, hv, busy]) (fun t => ?_)
        (fun t => by simp [localValid_next, hf])
      simp [Routing.observe, none, hf, Routing.advance]
    case true =>
      refine .busy (readTarget s io) ⟨readPort s io, (arBits s io).id, (arBits s io).len.toNat + 1⟩
        (by simp [reqBusy_next, hf]) ?_ (fun t' ht' => ?_) (fun t' => ?_) (Nat.succ_pos _)
        readPort_id (fun ht => ?_)
      · simp [Routing.observe, none, hf, Routing.advance]
      · simp [Routing.observe, none, hf, Routing.advance, Ne.symm ht']
      · rw [localValid_next, hf]
        by_cases ht : readTarget s io = t'
        · simp [ht]
        · simp [ht, Ne.symm ht]
      · have hport := hs.fetch hf ht
        exact ⟨hport, by simp [len_of_dbus hport]⟩
  | busy t x busy own others answers pos id served =>
    have hf := arFire_of_busy io busy
    have hquiet (t') : localValid (XBar.next s io) t' = false := by simp [localValid_next, hf]
    have hothers (t') (ht' : t' ≠ t) : (g.observe s io).outstanding t' = [] := by
      simp [Routing.observe, others t' ht', hf, Routing.advance]
    have hown : (g.observe s io).outstanding t =
        if (answered s io t).isSome then Routing.advance [x] else [x] := by
      simp [Routing.observe, own, hf]
    -- the read is over when its last beat is taken, and waits on otherwise
    have hdone (hl : x.left = 1) (hans : (answered s io t).isSome = true)
        (hr : (arbiterInputs s io).r.valid = true ∧ rReady s io = true ∧
          (arbiterInputs s io).r.bits.last = true) : Reading (XBar.next s io) (g.observe s io) := by
      refine .idle (by simp [reqBusy_next, hf, hr]) (fun t' => ?_) hquiet
      by_cases ht' : t' = t
      · rw [ht', hown, hans, if_pos rfl, Routing.advance, if_pos hl]
      · exact hothers t' ht'
    by_cases ht : t = .mem
    · subst ht
      have hq : ∀ t, localValid s t = false := fun t => by simpa using answers t
      obtain ⟨hvalid, hbits⟩ := r_of_mem io hq
      have hwaits (y : Read) (hbusy : (XBar.next s io).arbiter.reqBusy = true)
          (hy : (g.observe s io).outstanding .mem = [y]) (hpos : 0 < y.left)
          (hid : y.id = y.port.id) : Reading (XBar.next s io) (g.observe s io) :=
        .busy .mem y hbusy hy hothers (fun t' => by simp [hquiet]) hpos hid (fun h => absurd rfl h)
      cases hfire : io.r.valid && rReady s io
      case false =>
        have hans : answered s io .mem = none := by simp only [answered, hfire]; rfl
        refine hwaits x ?_ (by rw [hown, hans]; rfl) pos id
        rw [reqBusy_next, hf, hvalid, hfire, busy]
        rfl
      case true =>
        have hans : answered s io .mem = some io.r.bits.data := by simp only [answered, hfire]; rfl
        simp only [Bool.and_eq_true] at hfire
        obtain ⟨y, hy, -, hlast⟩ := ha hfire.1
        obtain rfl : x = y := by simpa [own] using hy
        by_cases hl : x.left = 1
        · refine hdone hl (by rw [hans]; rfl) ⟨by rw [hvalid, hfire.1], hfire.2, ?_⟩
          rw [hbits hfire.1]
          exact hlast.2 hl
        · refine hwaits { x with left := x.left - 1 } ?_ ?_ ?_ id
          · simp [reqBusy_next, hf, hbits hfire.1, mt hlast.1 hl, busy]
          · rw [hown, hans, Option.isSome_some, if_pos rfl, Routing.advance, if_neg hl]
          · simp only
            omega
    · have hv := Reading.quiet_mem (others .mem (Ne.symm ht)) ha
      obtain ⟨data, hr, hready, hans⟩ := r_of_local t ht answers hv hs
      exact hdone (served ht).2 (by simp [hans]) ⟨by rw [hr], hready, by rw [hr]⟩

theorem Reading.length_reads (h : Reading s g) : g.reads.length ≤ 1 := by
  cases h with
  | idle _ none _ => simp [Routing.reads, none]
  | busy t x _ own others _ _ _ _ =>
    cases t
    case mem => simp [Routing.reads, own, others .clint, others .plic]
    case clint => simp [Routing.reads, own, others .mem, others .plic]
    case plic => simp [Routing.reads, own, others .mem, others .clint]

theorem Reading.left_pos (h : Reading s g) (t : Target) : ∀ x ∈ g.outstanding t, 0 < x.left := by
  cases h with
  | idle _ none _ => simp [none]
  | busy t' x _ own others _ pos _ _ =>
    by_cases ht : t = t'
    · simp [ht, own, pos]
    · simp [others t ht]

theorem due_append (xs ys : List Read) (p : Port) :
    Routing.due (xs ++ ys) p = Routing.due xs p + Routing.due ys p := by
  simp [Routing.due]

theorem due_advance (answer : Option Word) (xs : List Read) (p : Port)
    (hpos : ∀ x ∈ xs, 0 < x.left) :
    (Routing.beat answer xs p).length +
      Routing.due (if answer.isSome then Routing.advance xs else xs) p = Routing.due xs p := by
  cases answer with
  | none => simp [Routing.beat]
  | some data =>
    cases xs with
    | nil => rfl
    | cons x xs =>
      have hx := hpos x (by simp)
      by_cases hp : x.port = p <;> by_cases hl : x.left = 1 <;>
        simp [Routing.beat, Routing.advance, Routing.due, hp, hl]
      omega

theorem asked_observe (hpos : ∀ t, ∀ x ∈ g.outstanding t, 0 < x.left) (p : Port)
    (h : (g.beats p).length + Routing.due g.reads p = g.asked p) :
    ((g.observe s io).beats p).length + Routing.due (g.observe s io).reads p =
      (g.observe s io).asked p := by
  have hmem := due_advance (answered s io .mem) _ p (hpos .mem)
  have hclint := due_advance (answered s io .clint) _ p (hpos .clint)
  have hplic := due_advance (answered s io .plic) _ p (hpos .plic)
  have hissued : ∀ t, Routing.due (if arFire s io && decide (readTarget s io = t) then
      [⟨readPort s io, (arBits s io).id, (arBits s io).len.toNat + 1⟩] else []) p =
      if arFire s io = true ∧ readTarget s io = t ∧ readPort s io = p then
        (arBits s io).len.toNat + 1 else 0 := by
    intro t
    by_cases hf : arFire s io = true <;> by_cases ht : readTarget s io = t <;>
      by_cases hp : readPort s io = p <;> simp [Routing.due, hf, ht, hp]
  simp only [Routing.observe, Routing.reads, due_append, hissued, List.length_append] at h ⊢
  cases arFire s io <;> cases readTarget s io <;> by_cases hp : readPort s io = p <;>
    simp [hp] <;> omega

theorem Routed.next (h : Routed s g) (hr : Reading s g) (ha : g.Answers io) (hs : Served s io) :
    Routed (XBar.next s io) (g.observe s io) where
  single := (hr.next ha hs).length_reads
  delivered p := by
    calc (g.observe s io).delivered p ++ (queue (XBar.next s io) p).toList
        = g.delivered p ++ (received s io p ++ (queue (XBar.next s io) p).toList) :=
          List.append_assoc ..
      _ = g.delivered p ++ (queue s p).toList ++ enqueued s io p := by
          rw [received_append_queue, List.append_assoc]
      _ = (g.observe s io).beats p := by
          rw [h.delivered, ← hr.beats ha hs]
          simp [Routing.observe, List.append_assoc]
  asked p := asked_observe hr.left_pos p (h.asked p)

theorem Reading.reset (h : IsReset s) : Reading s .none := by
  refine .idle (by rw [h.arbiter]; rfl) (fun _ => rfl) fun t => ?_
  cases t
  case mem => rfl
  case clint => exact h.clint.rValid
  case plic => exact h.plic.rValid

theorem Routed.reset (h : IsReset s) : Routed s .none where
  single := Nat.zero_le _
  delivered p := by cases p <;> simp [queue, h.arbiter, Arbiter.reset, Routing.none]
  asked p := by cases p <;> rfl

theorem reads_routed {p : Regs nrIntr × Routing} (h : (withRouting nrIntr).Reaches
    (fun p io => p.2.Answers io ∧ Served p.1 io) p) : Routed p.1 p.2 := by
  obtain ⟨-, hrouted⟩ := h.monitor_invariant (P := fun s g => Reading s g ∧ Routed s g)
    (fun s hs => ⟨.reset hs, .reset hs⟩)
    fun s g io ih hok => ⟨ih.1.next hok.1 hok.2, ih.2.next ih.1 hok.1 hok.2⟩
  exact hrouted

instance (g : Routing) (io : Inputs nrIntr) : Decidable (g.Answers io) :=
  inferInstanceAs (Decidable (_ → ∃ _ ∈ _, _))

instance (s : Regs nrIntr) (io : Inputs nrIntr) : Decidable (Served s io) :=
  decidable_of_iff (_ ∧ _) ⟨fun ⟨hf, hr⟩ => ⟨hf, hr⟩, fun ⟨hf, hr⟩ => ⟨hf, hr⟩⟩

def idle : Inputs 5 where
  ibusReq := ⟨false, .zero⟩
  ibusRespReady := true
  dbusReq := ⟨false, .zero⟩
  dbusRRespReady := true
  dbusWRespReady := true
  arReady := true
  r := ⟨false, ⟨0, 0, false, 0⟩⟩
  awReady := true
  wReady := true
  b := ⟨false, ⟨0, 0⟩⟩
  intrVec := 0

/-- A fetch of two words from the memory, of which the ibus takes the first one late, and a load
from the timer that has to wait for it. -/
def fetchAndLoad : List (Inputs 5) :=
  let load := Arbiter.fetchAt 0x2004bff8
  [{ idle with ibusReq := ⟨true, { SRAMLikeReq.zero with addr := 0x80000000, len := 1 }⟩ },
   { idle with dbusReq := load, ibusRespReady := false, r := ⟨true, ⟨0, 7, false, 0⟩⟩ },
   { idle with dbusReq := load },
   { idle with dbusReq := load, r := ⟨true, ⟨0, 9, true, 0⟩⟩ },
   { idle with dbusReq := load },
   idle]

theorem reads_routed_timer :
    let p := (withRouting 5).run (reset 5, Routing.none) fetchAndLoad
    p.2.delivered .ibus = [7, 9] ∧ p.2.delivered .dbus = [4] ∧ Routed p.1 p.2 := by
  have hr := (withRouting 5).reaches_run (fun p io => p.2.Answers io ∧ Served p.1 io)
    (reset 5, Routing.none) fetchAndLoad ⟨isReset_reset, rfl⟩ (by decide +kernel)
  exact ⟨by decide +kernel, by decide +kernel, reads_routed hr⟩

/-- A fetch from the timer is answered to the dbus, which asked for nothing. -/
theorem fetch_misrouted :
    let p := (withRouting 5).run (reset 5, Routing.none)
      [{ idle with ibusReq := Arbiter.fetchAt 0x2004bff8 }, idle]
    p.2.asked .dbus = 0 ∧ p.2.delivered .dbus = [0] ∧ p.2.delivered .ibus = [] ∧
      ¬∀ p, (withRouting 5).Reaches (fun p io => p.2.Answers io) p → Routed p.1 p.2 := by
  refine ⟨by decide +kernel, by decide +kernel, by decide +kernel, fun h => ?_⟩
  have hr := (withRouting 5).reaches_run (fun p io => p.2.Answers io) (reset 5, Routing.none)
    [{ idle with ibusReq := Arbiter.fetchAt 0x2004bff8 }, idle] ⟨isReset_reset, rfl⟩
    (by decide +kernel)
  have hdelivered := (h _ hr).delivered .dbus
  revert hdelivered
  decide +kernel

end Reads

end FpgaNpc.XBar
