import FpgaNpc.Sdram.Access
import FpgaNpc.Sdram.Port

open FpgaNpc.Hardware FpgaNpc.AXI4 FpgaNpc.Simulator.SDRAM

namespace FpgaNpc.Sdram.Axi

open FpgaNpc.Sdram.Core (rdAt)
open Pmem (Address Bus Request standing Stands InBurst FromBurst advance)

inductive Answer
  | read (id : BitVec 4) (data : Word) (last : Bool)
  | write (id : BitVec 4)
  deriving DecidableEq

/-- What the master and the memory owe each other, by the handshakes alone: what the master has to
hold, the write burst whose data is coming in, with the number of its next beat, the words that a
memory without any delay would hold, and the answers that are to come, in their order. -/
structure Owed where
  aw : Option Address
  w : Option W
  ar : Option Address
  writing : Option (Address × Nat)
  mem : BitVec 23 → Word
  answers : List Answer

namespace Owed

variable (g : Owed) (s : Regs) (io : Bus)

def nothing (mem : BitVec 23 → Word) : Owed := ⟨none, none, none, none, mem, []⟩

def beat : Option (Address × Nat) :=
  if wFire s io then if awFire s io then some (io.aw.bits, 0) else g.writing else none

/-- A write takes effect when its data is taken. -/
def stored (a : BitVec 23) : Word :=
  match g.beat s io with
  | some (b, k) =>
    if a = b.beat k then MaskData (g.mem a) io.w.bits.data (MaskExpand io.w.bits.strb) else g.mem a
  | none => g.mem a

/-- A read finds all of its words when its address is taken. -/
def asked : List Answer :=
  if arFire s io then
    (List.range (io.ar.bits.len.toNat + 1)).map fun k =>
      .read io.ar.bits.id (g.mem (io.ar.bits.beat k)) (k = io.ar.bits.len.toNat)
  else
    match g.beat s io with
    | some (b, k) => if k = b.len.toNat then [.write b.id] else []
    | none => []

def observe : Owed where
  aw := standing io.aw (Pmem.awReady s.pmem io (ram s))
  w := standing io.w (Pmem.wReady s.pmem io (ram s))
  ar := standing io.ar (Pmem.arReady s.pmem io (ram s))
  writing :=
    match g.beat s io with
    | some (b, k) => advance b k
    | none => if awFire s io then some (io.aw.bits, 0) else g.writing
  mem := g.stored s io
  answers :=
    (if Pmem.rFire s.pmem io || Pmem.bFire s.pmem io then g.answers.tail else g.answers) ++
      g.asked s io

/-- What AXI asks of a master, and that it strobes bytes, aligned halves or whole words. -/
structure Follows : Prop where
  aw : Stands g.aw io.aw
  w : Stands g.w io.w
  ar : Stands g.ar io.ar
  strb : io.w.valid = true → io.w.bits.strb ∈ strobes
  last : g.writing = none → io.aw.valid = true → io.w.valid = true →
    io.w.bits.last = decide (io.aw.bits.len = 0)
  awLegal : io.aw.valid = true → io.aw.bits.Legal
  arLegal : io.ar.valid = true → io.ar.bits.Legal

instance : Decidable (g.Follows io) :=
  decidable_of_iff (Stands g.aw io.aw ∧ Stands g.w io.w ∧ Stands g.ar io.ar ∧
      (io.w.valid = true → io.w.bits.strb ∈ strobes) ∧
      (g.writing = none → io.aw.valid = true → io.w.valid = true →
        io.w.bits.last = decide (io.aw.bits.len = 0)) ∧
      (io.aw.valid = true → io.aw.bits.Legal) ∧ (io.ar.valid = true → io.ar.bits.Legal))
    ⟨fun ⟨haw, hw, har, hstrb, hlast, hawLegal, harLegal⟩ =>
        ⟨haw, hw, har, hstrb, hlast, hawLegal, harLegal⟩,
      fun ⟨haw, hw, har, hstrb, hlast, hawLegal, harLegal⟩ =>
        ⟨haw, hw, har, hstrb, hlast, hawLegal, harLegal⟩⟩

theorem follows_idle {g : Owed} (haw : g.aw = none) (hw : g.w = none) (har : g.ar = none) :
    g.Follows idle := by
  constructor <;> simp [idle, Stands, haw, hw, har]

end Owed

section Invariant

/-- The answer to an accepted request, of which a read has found its word. -/
def answerOf (q : Request × Option Word) : Option Answer :=
  if q.1.rd then some (.read q.1.id (q.2.getD 0) q.1.last)
  else if q.1.last then some (.write q.1.id)
  else none

def left (mem : BitVec 23 → Word) : Option (Address × Nat) → List Answer
  | none => []
  | some (a, k) => (List.range' k (a.len.toNat + 1 - k)).map fun j =>
      .read a.id (mem (a.beat j)) (j = a.len.toNat)

/-- The requests that are answered and not handed over, with what was expected, and those that wait
for the memory. -/
structure Outstanding (s : Regs) (done waiting : List (Request × Option Word)) : Prop where
  requests : s.pmem.requests.contents = (done ++ waiting).map Prod.fst
  response : List.Forall₂ (fun q d => ∀ u ∈ q.2, d = u) done s.pmem.response.contents
  kind : ∀ q ∈ done ++ waiting, q.1.rd = q.2.isSome

structure InStep (s : Regs) (g : Owed) (h : Option Core.Inport) (reading : Option (Address × Nat))
    (m : Ddr) (done waiting : List (Request × Option Word)) : Prop where
  sched : Core.Sched s.memory.core h
  request : ∀ r ∈ h, r.request = r
  sync : Sync s.memory.core s.memory.chip
  coherent : Coherent s.memory m g.mem (waiting.map Prod.snd)
  offered : Pmem.Offered s.pmem g.aw g.w g.ar h
  read : InBurst s.pmem s.pmem.reqRd reading
  write : InBurst s.pmem s.pmem.reqWr g.writing
  exclusive : s.pmem.reqRd = false ∨ s.pmem.reqWr = false
  outstanding : Outstanding s done waiting
  answers : g.answers = (done ++ waiting).filterMap answerOf ++ left g.mem reading

section Laws

variable {s : Regs} {g : Owed} {io : Bus} {z : Word} {mem : BitVec 23 → Word} {a : Address}
  {k : Nat} {done waiting : List (Request × Option Word)}

theorem left_cons (h : k ≤ a.len.toNat) : left mem (some (a, k)) =
    .read a.id (mem (a.beat k)) (k = a.len.toNat) :: left mem (advance a k) := by
  rw [left, show a.len.toNat + 1 - k = a.len.toNat - k + 1 by omega, List.range'_succ,
    List.map_cons, advance]
  congr 1
  split_ifs with hlast
  · rw [hlast, Nat.sub_self]
    rfl
  · rw [left, show a.len.toNat + 1 - (k + 1) = a.len.toNat - k by omega]

theorem left_zero (mem : BitVec 23 → Word) (a : Address) : left mem (some (a, 0)) =
    (List.range (a.len.toNat + 1)).map fun j =>
      .read a.id (mem (a.beat j)) (j = a.len.toNat) := by
  rw [left, List.range_eq_range', Nat.sub_zero]

theorem Outstanding.response_valid (h : Outstanding s done waiting)
    (hv : s.pmem.response.valid = true) : ∃ q rest, done = q :: rest ∧
      s.pmem.requests.valid = true ∧ s.pmem.requests.dataOut = q.1 ∧
      ∀ u ∈ q.2, s.pmem.response.dataOut = u := by
  have hf := h.response
  rw [Fifo.contents_of_valid hv] at hf
  obtain ⟨q, rest, hq, -, rfl⟩ := List.forall₂_cons_right_iff.1 hf
  have hreq := h.requests
  have hvalid : s.pmem.requests.valid = true := by
    by_contra hn
    rw [Fifo.contents_eq_nil.2 (by simpa using hn)] at hreq
    simp at hreq
  rw [Fifo.contents_of_valid hvalid] at hreq
  simp only [List.cons_append, List.map_cons, List.cons.injEq] at hreq
  exact ⟨q, rest, rfl, hvalid, hreq.1, hq⟩

theorem Outstanding.r_valid (h : Outstanding s done waiting) (hv : (Pmem.r s.pmem).valid = true) :
    ∃ q rest, done = q :: rest ∧ answerOf q = some (.read (Pmem.r s.pmem).bits.id
      (Pmem.r s.pmem).bits.data (Pmem.r s.pmem).bits.last) := by
  simp only [Pmem.r, Pmem.respIsRead, Bool.and_eq_true] at hv
  obtain ⟨q, rest, rfl, -, hq, hdata⟩ := h.response_valid hv.1
  rw [hq] at hv
  have hsome : q.2.isSome = true := by rw [← h.kind q (by simp), hv.2.2]
  obtain ⟨u, hu⟩ := Option.isSome_iff_exists.1 hsome
  refine ⟨q, rest, rfl, ?_⟩
  simp [answerOf, hv.2.2, Pmem.r, Pmem.respIsLast, hq, hu, hdata u hu]

theorem Outstanding.b_valid (h : Outstanding s done waiting) (hv : (Pmem.b s.pmem).valid = true) :
    ∃ q rest, done = q :: rest ∧ answerOf q = some (.write (Pmem.b s.pmem).bits.id) := by
  simp only [Pmem.b, Pmem.respIsWrite, Pmem.respIsLast, Bool.and_eq_true,
    Bool.not_eq_true'] at hv
  obtain ⟨q, rest, rfl, -, hq, -⟩ := h.response_valid hv.1.1
  rw [hq] at hv
  refine ⟨q, rest, rfl, ?_⟩
  simp [answerOf, hv.1.2.2, hv.2, Pmem.b, hq]

theorem Outstanding.respAccept (h : Outstanding s done waiting)
    (ha : Pmem.respAccept s.pmem io = true) : ∃ q rest, done = q :: rest ∧
      s.pmem.requests.valid = true ∧ s.pmem.response.valid = true ∧
      (if Pmem.rFire s.pmem io || Pmem.bFire s.pmem io then (answerOf q).isSome = true
        else answerOf q = none) := by
  have hv : s.pmem.response.valid = true := by
    simp only [Pmem.respAccept, Pmem.rFire, Pmem.bFire, Pmem.r, Pmem.b, Bool.or_eq_true,
      Bool.and_eq_true] at ha
    rcases ha with (⟨⟨hv, -⟩, -⟩ | ⟨⟨⟨hv, -⟩, -⟩, -⟩) | ⟨⟨hv, -⟩, -⟩ <;> exact hv
  obtain ⟨q, rest, hq, hvalid, hout, -⟩ := h.response_valid hv
  refine ⟨q, rest, hq, hvalid, hv, ?_⟩
  split_ifs with hfire
  · rw [Bool.or_eq_true] at hfire
    rcases hfire with hfire | hfire
    · obtain ⟨q', rest', hq', hans⟩ := h.r_valid (by
        simp only [Pmem.rFire, Bool.and_eq_true] at hfire
        exact hfire.1)
      rw [hq, List.cons.injEq] at hq'
      rw [hq'.1, hans]
      rfl
    · obtain ⟨q', rest', hq', hans⟩ := h.b_valid (by
        simp only [Pmem.bFire, Bool.and_eq_true] at hfire
        exact hfire.1)
      rw [hq, List.cons.injEq] at hq'
      rw [hq'.1, hans]
      rfl
  · simp only [Bool.or_eq_true, not_or, Bool.not_eq_true] at hfire
    simp only [Pmem.respAccept, hfire, Bool.false_or, Pmem.respIsWrite, Pmem.respIsLast, hout,
      Bool.and_eq_true, Bool.not_eq_true'] at ha
    simp [answerOf, ha]

theorem Outstanding.answers (h : Outstanding s done waiting) {answers rest : List Answer}
    (ha : answers = (done ++ waiting).filterMap answerOf ++ rest) :
    (if Pmem.rFire s.pmem io || Pmem.bFire s.pmem io then answers.tail else answers) =
      ((if Pmem.respAccept s.pmem io then done.tail else done) ++ waiting).filterMap answerOf ++
        rest := by
  cases hacc : Pmem.respAccept s.pmem io
  case false =>
    have hfire : (Pmem.rFire s.pmem io || Pmem.bFire s.pmem io) = false := by
      rw [Pmem.respAccept, Bool.or_eq_false_iff] at hacc
      exact hacc.1
    rw [hfire, if_neg Bool.false_ne_true, if_neg Bool.false_ne_true, ha]
  case true =>
    obtain ⟨q, tail, rfl, -, -, hq⟩ := h.respAccept hacc
    rw [if_pos rfl, List.tail_cons]
    split_ifs at hq ⊢
    · obtain ⟨x, hx⟩ := Option.isSome_iff_exists.1 hq
      rw [ha, List.cons_append, List.filterMap_cons_some hx, List.cons_append, List.tail_cons]
    · rw [ha, List.cons_append, List.filterMap_cons_none hq]

theorem Outstanding.pops (h : Outstanding s done waiting) :
    s.pmem.requests.pops (Pmem.respAccept s.pmem io) = Pmem.respAccept s.pmem io ∧
      s.pmem.response.pops (Pmem.respAccept s.pmem io) = Pmem.respAccept s.pmem io := by
  cases hacc : Pmem.respAccept s.pmem io
  case false => exact ⟨rfl, rfl⟩
  case true =>
    obtain ⟨-, -, -, hreq, hresp, -⟩ := h.respAccept hacc
    simp [Fifo.pops, hreq, hresp]

theorem Outstanding.response_accept (h : Outstanding s done waiting) (hw : waiting ≠ []) :
    s.pmem.response.accept = true := by
  have hreq := congrArg List.length h.requests
  have hresp := h.response.length_eq
  have hle := s.pmem.requests.count_le
  have hpos := List.length_pos_iff.2 hw
  rw [Fifo.length_contents] at hreq hresp
  rw [List.length_map, List.length_append] at hreq
  simp only [Fifo.accept, bne_iff_ne]
  omega

theorem moved_append {α : Type} (done waiting new : List α) (moves : Bool) :
    (done ++ if moves then waiting.take 1 else []) ++
      ((if moves then waiting.tail else waiting) ++ new) = done ++ waiting ++ new := by
  cases moves
  case false => simp
  case true => cases waiting <;> simp

theorem Outstanding.next (h : Outstanding s done waiting) {new : List (Request × Option Word)}
    (hpush : (if Pmem.reqPush s.pmem io (ram s) then [Pmem.reqIn s.pmem io (ram s)] else []) =
      new.map Prod.fst)
    (hroom : Pmem.reqPush s.pmem io (ram s) = true → s.pmem.requests.accept = true)
    (hkind : ∀ q ∈ new, q.1.rd = q.2.isSome)
    (hack : s.memory.core.ack = true → ∃ q rest, waiting = q :: rest ∧
      ∀ u ∈ q.2, s.memory.core.sampleData = u) :
    Outstanding (Axi.next s io z)
      ((if Pmem.respAccept s.pmem io then done.tail else done) ++
        if s.memory.core.ack then waiting.take 1 else [])
      ((if s.memory.core.ack then waiting.tail else waiting) ++ new) := by
  have hall := moved_append (if Pmem.respAccept s.pmem io then done.tail else done) waiting new
    s.memory.core.ack
  have hpushes : s.pmem.requests.pushes (Pmem.reqPush s.pmem io (ram s)) =
      Pmem.reqPush s.pmem io (ram s) := by
    cases hp : Pmem.reqPush s.pmem io (ram s)
    case false => rfl
    case true => simp [Fifo.pushes, hroom hp]
  have hpushes' : s.pmem.response.pushes s.memory.core.ack = s.memory.core.ack := by
    cases hA : s.memory.core.ack
    case false => rfl
    case true =>
      obtain ⟨q, rest, hw, -⟩ := hack hA
      simp [Fifo.pushes, h.response_accept (by simp [hw])]
  have hreq := s.pmem.requests.contents_next (Pmem.reqIn s.pmem io (ram s))
    (Pmem.reqPush s.pmem io (ram s)) (Pmem.respAccept s.pmem io)
  have hresp := s.pmem.response.contents_next s.memory.core.sampleData s.memory.core.ack
    (Pmem.respAccept s.pmem io)
  rw [h.pops.1, hpushes, hpush, h.requests] at hreq
  rw [h.pops.2, hpushes'] at hresp
  refine ⟨?_, ?_, ?_⟩
  · rw [hall]
    refine Eq.trans ?_ (List.map_append ..).symm
    change (s.pmem.requests.next (Pmem.reqIn s.pmem io (ram s)) (Pmem.reqPush s.pmem io (ram s))
      (Pmem.respAccept s.pmem io)).contents = _
    cases hacc : Pmem.respAccept s.pmem io
    case false =>
      rw [hacc, if_neg Bool.false_ne_true, List.nil_append] at hreq
      simpa using hreq
    case true =>
      obtain ⟨q, rest, rfl, hvalid, -, -⟩ := h.respAccept hacc
      have hcontents := h.requests
      rw [Fifo.contents_of_valid hvalid] at hcontents
      simp only [List.cons_append, List.map_cons, List.cons.injEq] at hcontents
      rw [hacc, if_pos rfl, List.singleton_append, List.cons_append, List.map_cons,
        List.cons_append, List.cons.injEq] at hreq
      simpa using hreq.2
  · change List.Forall₂ _ _ (s.pmem.response.next s.memory.core.sampleData s.memory.core.ack
      (Pmem.respAccept s.pmem io)).contents
    have hnew : List.Forall₂ (fun (q : Request × Option Word) d => ∀ u ∈ q.2, d = u)
        (if s.memory.core.ack then waiting.take 1 else [])
        (if s.memory.core.ack then [s.memory.core.sampleData] else []) := by
      cases hA : s.memory.core.ack
      case false => exact .nil
      case true =>
        obtain ⟨q, rest, rfl, hq⟩ := hack hA
        exact .cons hq .nil
    have hold := h.response
    cases hacc : Pmem.respAccept s.pmem io
    case false =>
      rw [hacc, if_neg Bool.false_ne_true, List.nil_append] at hresp
      rw [hresp]
      exact List.rel_append hold hnew
    case true =>
      obtain ⟨q, rest, rfl, -, hvalid, -⟩ := h.respAccept hacc
      rw [Fifo.contents_of_valid hvalid, List.forall₂_cons] at hold
      rw [hacc, if_pos rfl, Fifo.contents_of_valid hvalid, List.singleton_append, List.cons_append,
        List.cons.injEq] at hresp
      rw [hresp.2]
      exact List.rel_append hold.2 hnew
  · rw [hall]
    intro q hq
    rw [List.mem_append] at hq
    rcases hq with hq | hq
    · refine h.kind q ?_
      split_ifs at hq
      · exact List.mem_append.2 ((List.mem_append.1 hq).imp_left List.mem_of_mem_tail)
      · exact hq
    · exact hkind q hq

variable {h : Option Core.Inport} {reading : Option (Address × Nat)} {m : Ddr}

theorem InStep.holds (hs : InStep s g h reading m done waiting) (hk : g.Follows io) :
    Core.Holds h (inport s io) := hs.offered.holds hs.request hk.aw hk.w hk.ar

theorem InStep.next_of (hs : InStep s g h reading m done waiting) (hk : g.Follows io)
    (new : List (Request × Option Word)) (reading' : Option (Address × Nat))
    (hpush : (if Pmem.reqPush s.pmem io (ram s) then [Pmem.reqIn s.pmem io (ram s)] else []) =
      new.map Prod.fst)
    (hroom : Pmem.reqPush s.pmem io (ram s) = true → s.pmem.requests.accept = true)
    (hkind : ∀ q ∈ new, q.1.rd = q.2.isSome)
    (hword : new.map Prod.snd =
      if Core.accept s.memory.core then [answer g.mem (inport s io)] else [])
    (hmem : g.stored s io =
      if Core.accept s.memory.core then store g.mem (inport s io) else g.mem)
    (hoffered : Pmem.Offered (next s io z).pmem (g.observe s io).aw (g.observe s io).w
      (g.observe s io).ar (Core.held s.memory.core (inport s io)))
    (hread : InBurst (next s io z).pmem (next s io z).pmem.reqRd reading')
    (hwrite : InBurst (next s io z).pmem (next s io z).pmem.reqWr (g.observe s io).writing)
    (hexcl : (next s io z).pmem.reqRd = false ∨ (next s io z).pmem.reqWr = false)
    (hans : left g.mem reading ++ g.asked s io =
      new.filterMap answerOf ++ left (g.stored s io) reading') :
    ∃ m' done' waiting', InStep (next s io z) (g.observe s io)
      (Core.held s.memory.core (inport s io)) reading' m' done' waiting' := by
  have hholds := hs.holds hk
  have hstrb : (inport s io).wr ≠ 0 → (inport s io).wr ∈ strobes := by
    simp only [inport, Pmem.ramWr]
    split_ifs with hactive
    · exact fun _ => hk.strb (by simp_all)
    · exact fun hne => absurd rfl hne
  have hack (ha : s.memory.core.ack = true) : ∃ q rest, waiting = q :: rest ∧
      ∀ u ∈ q.2, s.memory.core.sampleData = u := by
    obtain ⟨p, rest, hp, hu⟩ := hs.coherent.ack ha
    obtain ⟨q, rest', rfl, rfl, -⟩ := List.map_eq_cons_iff.1 hp
    exact ⟨q, rest', rfl, hu⟩
  obtain ⟨m', hm'⟩ := hs.coherent.next (z := z) hs.sync hs.sched hholds hstrb
  refine ⟨m', _, _, hs.sched.next hholds, fun r hr => ?_,
    hs.sync.next hs.sched.pipe _ rfl rfl rfl, ?_, hoffered, hread, hwrite, hexcl,
    hs.outstanding.next hpush hroom hkind hack, ?_⟩
  · simp only [Core.held] at hr
    split_ifs at hr
    · obtain rfl := Option.some.inj hr
      rfl
    · cases hr
  · rw [← hmem, ← hword] at hm'
    change Coherent (Sdram.next s.memory (inport s io) z) m' (g.stored s io) _
    cases hA : s.memory.core.ack
    case false => simpa [hA] using hm'
    case true =>
      rw [hA, if_pos rfl, ← List.map_tail, ← List.map_append] at hm'
      simpa [hA] using hm'
  · rw [moved_append, List.filterMap_append, List.append_assoc]
    change (if Pmem.rFire s.pmem io || Pmem.bFire s.pmem io then g.answers.tail else g.answers) ++
      g.asked s io = _ ++ (new.filterMap answerOf ++ left (g.stored s io) reading')
    rw [hs.outstanding.answers hs.answers, List.append_assoc, hans]

theorem inBurst_none_of {p : Pmem.Regs} {active : Bool} {burst : Option (Address × Nat)}
    (hb : InBurst p active burst) (ha : active = false) : burst = none := by
  cases burst with
  | none => rfl
  | some b =>
    rw [hb.1] at ha
    cases ha

theorem InStep.next_of_wait (hs : InStep s g h reading m done waiting) (hk : g.Follows io)
    (ha : Core.accept s.memory.core = false) : ∃ m' done' waiting', InStep (next s io z)
      (g.observe s io) (Core.held s.memory.core (inport s io)) reading m' done' waiting' := by
  have hpush : Pmem.reqPush s.pmem io (ram s) = false := by simp [Pmem.reqPush, ram, ha]
  have haw : awFire s io = false := by simp [awFire, Pmem.awFire, Pmem.awReady, ram, ha]
  have hw : wFire s io = false := by simp [wFire, Pmem.wFire, Pmem.wReady, ram, ha]
  have har : arFire s io = false := by simp [arFire, Pmem.arFire, Pmem.arReady, ram, ha]
  have hbeat : g.beat s io = none := by simp [Owed.beat, hw]
  have hmem : g.stored s io = g.mem := by
    funext a
    simp [Owed.stored, hbeat]
  have hwriting : (g.observe s io).writing = g.writing := by simp [Owed.observe, hbeat, haw]
  have hreq : Pmem.requestNext s.pmem io (ram s) = s.pmem := Pmem.requestNext_of_wait ha
  have hrd : (next s io z).pmem.reqRd = s.pmem.reqRd := by
    change (Pmem.requestNext s.pmem io (ram s)).reqRd = _
    rw [hreq]
  have hwr : (next s io z).pmem.reqWr = s.pmem.reqWr := by
    change (Pmem.requestNext s.pmem io (ram s)).reqWr = _
    rw [hreq]
  refine hs.next_of hk [] reading (by simp [hpush]) (by simp [hpush]) (by simp) (by simp [ha])
    (by simp [hmem, ha]) ?_ ?_ ?_ ?_ ?_
  · have hoff := hs.offered.next_of_wait hk.aw hk.w hk.ar (show (ram s).accept = false from ha)
    have hheld : Core.held s.memory.core (inport s io) =
        if Core.req (inport s io) then some (inport s io).request else none := by
      simp [Core.held, ha]
    rw [hheld]
    exact hoff
  · rw [hrd]
    exact hs.read.next_of_wait ha
  · rw [hwr, hwriting]
    exact hs.write.next_of_wait ha
  · rw [hrd, hwr]
    exact hs.exclusive
  · simp [Owed.asked, har, hbeat, hmem]

theorem InStep.next_of_read (hs : InStep s g h reading m done waiting) (hk : g.Follows io)
    (ha : Core.accept s.memory.core = true) {r : Core.Inport} (hr : h = some r)
    (hrd : r.rd = true) : ∃ m' reading' done' waiting', InStep (next s io z)
      (g.observe s io) (Core.held s.memory.core (inport s io)) reading' m' done' waiting' := by
  subst hr
  have hport := hs.holds hk r rfl
  have hoff := hs.offered
  rw [Pmem.Offered, if_pos hrd] at hoff
  obtain ⟨a, k, hfrom, hlegal, haddr, hin, hpush, haw, hw, hread', hwr'⟩ :=
    hoff.2.accepted hs.read hk.ar hk.arLegal (show (ram s).accept = true from ha)
  have hbeat : g.beat s io = none := by
    have hw' : wFire s io = false := hw
    simp [Owed.beat, hw']
  have hmem : g.stored s io = g.mem := by
    funext a
    simp [Owed.stored, hbeat]
  have hprd : (inport s io).rd = true := by
    rw [← hrd, ← hport]
    rfl
  have hpaddr : wordIndex (inport s io).addr = a.beat k := by
    rw [← Address.wordIndex_counted hlegal, ← haddr, ← hport]
    rfl
  have hanswer : answer g.mem (inport s io) = some (g.mem (a.beat k)) := by
    simp [answer, hprd, hpaddr]
  have hstore : store g.mem (inport s io) = g.mem := by
    funext a
    simp [store, hprd]
  have hwriting : g.writing = none := inBurst_none_of hs.write hoff.2.noWrite
  have haw' : awFire s io = false := haw
  have hwriting' : (g.observe s io).writing = none := by simp [Owed.observe, hbeat, haw', hwriting]
  have hheld : Core.held s.memory.core (inport s io) = none := by simp [Core.held, ha]
  refine (hs.next_of (z := z) hk
    [(⟨true, decide (k = a.len.toNat), a.id⟩, some (g.mem (a.beat k)))] (advance a k)
    ?_ (fun _ => hoff.2.room) ?_ ?_ ?_ ?_ hread' ?_ (.inr hwr') ?_).elim
    fun m' hall => ⟨m', _, hall⟩
  · simp [hpush, hin]
  · simp
  · simp [ha, hanswer]
  · simp [ha, hmem, hstore]
  · rw [hheld]
    exact Pmem.offered_next_of_accept ha
  · rw [hwriting']
    exact hwr'
  · rw [hmem]
    rcases hfrom with ⟨rfl, har⟩ | ⟨rfl, rfl, har, hchannel⟩
    · have har' : arFire s io = false := har
      rw [left_cons hs.read.2.le]
      simp [Owed.asked, har', hbeat, answerOf]
    · have har' : arFire s io = true := har
      have hbits : io.ar.bits = a := by rw [hchannel]
      have hall := left_zero g.mem a
      rw [left_cons (Nat.zero_le _)] at hall
      simp only [Owed.asked, har', if_true, hbits, left, List.nil_append, ← hall]
      simp [answerOf]

theorem InStep.next_of_write (hs : InStep s g h reading m done waiting) (hk : g.Follows io)
    (ha : Core.accept s.memory.core = true) {r : Core.Inport} (hr : h = some r)
    (hrd : r.rd = false) : ∃ m' reading' done' waiting', InStep (next s io z)
      (g.observe s io) (Core.held s.memory.core (inport s io)) reading' m' done' waiting' := by
  subst hr
  have hport := hs.holds hk r rfl
  have hoff := hs.offered
  rw [Pmem.Offered, if_neg (by simp [hrd])] at hoff
  obtain ⟨a, k, hfrom, hlegal, haddr, hin, hpush, har, hw, hwrite', hrd'⟩ :=
    hoff.accepted hs.write hk.aw hk.w hk.awLegal hk.last
      (show (ram s).accept = true from ha)
  have hw' : wFire s io = true := hw
  have har' : arFire s io = false := har
  have hbeat : g.beat s io = some (a, k) := by
    rcases hfrom with ⟨hburst, haw⟩ | ⟨-, rfl, haw, hchannel⟩
    · have haw' : awFire s io = false := haw
      simp [Owed.beat, hw', haw', hburst]
    · have haw' : awFire s io = true := haw
      simp [Owed.beat, hw', haw', hchannel]
  have hprd : (inport s io).rd = false := by
    rw [← hrd, ← hport]
    rfl
  have hpaddr : wordIndex (inport s io).addr = a.beat k := by
    rw [← Address.wordIndex_counted hlegal, ← haddr, ← hport]
    rfl
  have hstrb : (inport s io).wr = io.w.bits.strb := by
    obtain ⟨hactive, -, hvalid, -, -⟩ := hoff.active hk.aw hk.w
    simp [inport, Pmem.ramWr, hactive, hvalid]
  have hmem : g.stored s io = store g.mem (inport s io) := by
    funext i
    simp only [Owed.stored, hbeat, store, hprd, hpaddr, hstrb, Bool.not_false, Bool.true_and,
      beq_iff_eq]
    rfl
  have hwriting' : (g.observe s io).writing = advance a k := by simp [Owed.observe, hbeat]
  have hheld : Core.held s.memory.core (inport s io) = none := by simp [Core.held, ha]
  have hreading : reading = none := inBurst_none_of hs.read hoff.noRead
  refine (hs.next_of (z := z) hk
    [(⟨false, decide (k = a.len.toNat), a.id⟩, none)] none
    ?_ (fun _ => hoff.room) ?_ ?_ ?_ ?_ hrd' ?_ (.inl hrd') ?_).elim
    fun m' hall => ⟨m', _, hall⟩
  · simp [hpush, hin]
  · simp
  · simp [ha, answer, hprd]
  · simp [ha, hmem]
  · rw [hheld]
    exact Pmem.offered_next_of_accept ha
  · rw [hwriting']
    exact hwrite'
  · rw [hreading]
    by_cases hlast : k = a.len.toNat <;> simp [Owed.asked, har', hbeat, left, answerOf, hlast]

theorem InStep.next (hs : InStep s g h reading m done waiting) (hk : g.Follows io) :
    ∃ h' reading' m' done' waiting',
      InStep (Axi.next s io z) (g.observe s io) h' reading' m' done' waiting' := by
  cases ha : Core.accept s.memory.core
  case false =>
    obtain ⟨m', done', waiting', hnext⟩ := hs.next_of_wait (z := z) hk ha
    exact ⟨_, _, m', done', waiting', hnext⟩
  case true =>
    have hplan := hs.sched.plan
    simp only [Core.accept, Bool.or_eq_true, decide_eq_true_eq] at ha
    rcases ha with hstate | hstate
    · simp only [Core.Plan, Core.heading, hstate, reduceCtorEq, if_false] at hplan
      obtain ⟨r, hr, hrd, -⟩ := hplan
      obtain ⟨m', reading', done', waiting', hnext⟩ :=
        hs.next_of_read (z := z) hk (by simp [Core.accept, hstate]) hr hrd
      exact ⟨_, reading', m', done', waiting', hnext⟩
    · simp only [Core.Plan, Core.heading, hstate, reduceCtorEq, if_false] at hplan
      obtain ⟨r, hr, -, hrd, -⟩ := hplan
      obtain ⟨m', reading', done', waiting', hnext⟩ :=
        hs.next_of_write (z := z) hk (by simp [Core.accept, hstate]) hr hrd
      exact ⟨_, reading', m', done', waiting', hnext⟩

theorem InStep.reset (m : Ddr) (requests : BitVec 2 → Request) (response : BitVec 2 → Word) :
    InStep ⟨Pmem.reset requests response, Sdram.reset m⟩ (.nothing (image m)) none none m [] []
    where
  sched := .reset
  request := by simp
  sync := .reset
  coherent :=
    { settled := rfl
      rows := by simp [Sdram.reset, Core.reset]
      words _ := rfl
      flight := by simp [flight, Sdram.reset, Core.reset, rdAt, Matches] }
  offered := ⟨rfl, rfl⟩
  read := rfl
  write := rfl
  exclusive := .inl rfl
  outstanding :=
    { requests := rfl
      response := .nil
      kind := by simp }
  answers := rfl

end Laws

end Invariant

section Runs

variable {m : Ddr} {p : Regs × Owed}

def observed (m : Ddr) : Machine (Regs × Owed) (Bus × Word) :=
  (machine m).monitor (.nothing (image m)) fun s i g => g.observe s i.1

abbrev Reached (m : Ddr) (p : Regs × Owed) : Prop :=
  (observed m).Reaches (fun p i => p.2.Follows i.1) p

theorem inStep_of_reached (h : Reached m p) :
    ∃ g reading m' done waiting, InStep p.1 p.2 g reading m' done waiting := by
  refine h.monitor_invariant
    (P := fun s g => ∃ h reading m' done waiting, InStep s g h reading m' done waiting) ?_ ?_
  · rintro s ⟨requests, response, rfl⟩
    exact ⟨_, _, _, _, _, .reset m requests response⟩
  · rintro s g i ⟨_, _, _, _, _, hs⟩ hk
    exact hs.next hk

/-- Whatever the traffic, each word of a read and each end of a write comes in its turn, with the
data that a memory without any delay would have found when the address was taken; what the array
holds is what was written, and no assertion of the chip fails. -/
theorem answers_in_order (h : Reached m p) :
    (∃ m', settled p.1.memory = some m' ∧ image m' = p.2.mem) ∧
      ((Pmem.r p.1.pmem).valid = true → ∃ rest, p.2.answers =
        .read (Pmem.r p.1.pmem).bits.id (Pmem.r p.1.pmem).bits.data
          (Pmem.r p.1.pmem).bits.last :: rest) ∧
      ((Pmem.b p.1.pmem).valid = true → ∃ rest, p.2.answers =
        .write (Pmem.b p.1.pmem).bits.id :: rest) := by
  obtain ⟨g, reading, m', done, waiting, hs⟩ := inStep_of_reached h
  refine ⟨⟨m', hs.coherent.settled, funext hs.coherent.words⟩, fun hv => ?_, fun hv => ?_⟩
  · obtain ⟨q, rest, rfl, hq⟩ := hs.outstanding.r_valid hv
    rw [hs.answers, List.cons_append, List.filterMap_cons_some hq]
    exact ⟨_, rfl⟩
  · obtain ⟨q, rest, rfl, hq⟩ := hs.outstanding.b_valid hv
    rw [hs.answers, List.cons_append, List.filterMap_cons_some hq]
    exact ⟨_, rfl⟩

def zeros : Ddr := ⟨fun _ => 0, fun _ => none, ⟨[], 0⟩, []⟩

def powerUp : Regs × Owed :=
  (poweringUp zeros (fun _ => ⟨false, false, 0⟩) (fun _ => 0) 50, .nothing (image zeros))

theorem reached_powerUp : Reached zeros powerUp :=
  reaches_poweringUp (fun _ => Owed.follows_idle rfl rfl rfl) (fun _ => rfl) (Nat.le_refl _)

def without (n : Nat) : List (Bus × Word) := .replicate n (idle, 0)

/-- A burst of two words is written and read back. -/
def twoWords : List (Bus × Word) :=
  let a : Address := ⟨0xa0000104, 2, 1, .INCR⟩
  without 62 ++
    .replicate 5
      ({ idle with aw := ⟨true, a⟩, w := ⟨true, ⟨0x12345678, 0b1111, false⟩⟩ }, 0) ++
    .replicate 2 ({ idle with w := ⟨true, ⟨0x9abcdef0, 0b0011, true⟩⟩ }, 0) ++
    .replicate 2 ({ idle with ar := ⟨true, a⟩ }, 0) ++ without 6

theorem answers_in_order_twoWords :
    let p := (observed zeros).run powerUp twoWords
    (Pmem.r p.1.pmem).valid = true ∧
      ∃ rest, p.2.answers = .read 2 0x0000def0 true :: rest := by
  have hr : Reached zeros ((observed zeros).run powerUp twoWords) :=
    reached_powerUp.run (by decide +kernel)
  have hvalid : (Pmem.r ((observed zeros).run powerUp twoWords).1.pmem).valid = true := by
    decide +kernel
  have hbits : (Pmem.r ((observed zeros).run powerUp twoWords).1.pmem).bits =
      ⟨0, 0x0000def0, true, 2⟩ := by decide +kernel
  have hanswers := (answers_in_order hr).2.1 hvalid
  rw [hbits] at hanswers
  exact ⟨hvalid, hanswers⟩

end Runs

end FpgaNpc.Sdram.Axi
