import FpgaNpc.Sdram.Service

open FpgaNpc.Hardware FpgaNpc.Simulator.SDRAM

namespace FpgaNpc.Sdram.Axi

open FpgaNpc.Sdram.Core (rdAt serveRank)
open Pmem (Address Bus Request)

def answering (q : Request) : Bool := q.rd || q.last

def handsOver (s : Regs) (io : Bus) : Bool := Pmem.rFire s.pmem io || Pmem.bFire s.pmem io

def Takes (io : Bus) : Prop := io.rReady = true ∧ io.bReady = true

def stage (s : Regs) : Nat :=
  if s.pmem.response.valid then 0
  else if s.memory.core.ack then 1
  else if rdAt s.memory.core 2 then 2
  else if rdAt s.memory.core 1 then 3
  else 4

def handRank (s : Regs) : Nat := 5 * s.pmem.requests.contents.findIdx answering + stage s

/-- How far a read burst is from its next word, while nothing else is to be answered. -/
def askRank (s : Regs) : Nat :=
  if s.pmem.requests.accept then serveRank s.memory.core else 72 + stage s

section Laws

variable {s : Regs} {g : Owed} {io : Bus} {z : Word} {done waiting : List (Request × Option Word)}
  {h : Option Core.Inport} {reading : Option (Address × Nat)} {m : Ddr} {q : Request}
  {l l' : List Request}

theorem stage_le : stage s ≤ 4 := by
  rw [stage]
  split_ifs <;> omega

theorem InStep.on_its_way (hs : InStep s g h reading m done waiting)
    (hne : s.pmem.requests.contents ≠ []) (hv : s.pmem.response.valid = false) :
    waiting ≠ [] ∧ (s.memory.core.ack = true ∨ rdAt s.memory.core 2 = true ∨
      rdAt s.memory.core 1 = true ∨ rdAt s.memory.core 0 = true) := by
  have hresponse := hs.outstanding.response
  rw [Fifo.contents_eq_nil.2 hv, List.forall₂_nil_right_iff] at hresponse
  have hwaiting : waiting ≠ [] := by
    rintro rfl
    rw [hs.outstanding.requests, hresponse] at hne
    exact hne rfl
  refine ⟨hwaiting, ?_⟩
  by_contra hnone
  simp only [not_or, Bool.not_eq_true] at hnone
  have hflight := hs.coherent.flight
  rw [flight, hnone.1, hnone.2.1, hnone.2.2.1, hnone.2.2.2] at hflight
  simp only [Bool.false_eq_true, if_false, List.append_nil] at hflight
  exact hwaiting (List.map_eq_nil_iff.1 (List.forall₂_nil_right_iff.1 hflight))

theorem stage_next (io : Bus) (z : Word) (hs : InStep s g h reading m done waiting)
    (hne : s.pmem.requests.contents ≠ []) (hv : s.pmem.response.valid = false) :
    stage (next s io z) < stage s := by
  obtain ⟨hwaiting, hway⟩ := hs.on_its_way hne hv
  have hack : (next s io z).memory.core.ack =
      (decide (s.memory.core.state = .WRITE0) || rdAt s.memory.core 2) := rfl
  have h1 : rdAt (next s io z).memory.core 1 = (decide (0 < 2) && rdAt s.memory.core 0) :=
    Core.rdAt_next 0
  have h2 : rdAt (next s io z).memory.core 2 = (decide (1 < 2) && rdAt s.memory.core 1) :=
    Core.rdAt_next 1
  have hpush : s.memory.core.ack = true → (next s io z).pmem.response.valid = true := by
    intro ha
    have hroom := hs.outstanding.response_accept hwaiting
    have hall := s.pmem.response.contents_next s.memory.core.sampleData s.memory.core.ack
      (Pmem.respAccept s.pmem io)
    rw [Fifo.pops, hv, Bool.and_false, if_neg Bool.false_ne_true, List.nil_append, Fifo.pushes,
      hroom, ha, Bool.and_true, if_pos rfl] at hall
    by_contra hn
    have hnil : (next s io z).pmem.response.contents = [] :=
      Fifo.contents_eq_nil.2 (by simpa using hn)
    change (s.pmem.response.next s.memory.core.sampleData s.memory.core.ack
      (Pmem.respAccept s.pmem io)).contents = [] at hnil
    rw [ha, hall] at hnil
    exact absurd hnil (by simp)
  rw [stage, stage, hv, if_neg Bool.false_ne_true, hack, h1, h2]
  cases ha : s.memory.core.ack
  case true =>
    rw [hpush ha, if_pos rfl, if_pos rfl]
    exact Nat.one_pos
  case false =>
    rw [ha] at hway
    cases hr2 : rdAt s.memory.core 2
    case true => split_ifs <;> simp_all
    case false =>
      rw [hr2] at hway
      cases hr1 : rdAt s.memory.core 1
      case true => split_ifs <;> simp_all
      case false =>
        have hr0 : rdAt s.memory.core 0 = true := by simpa [hr1] using hway
        split_ifs <;> simp_all

theorem requests_next (s : Regs) (io : Bus) (z : Word) :
    (if s.pmem.requests.pops (Pmem.respAccept s.pmem io) then [s.pmem.requests.dataOut]
        else []) ++ (next s io z).pmem.requests.contents =
      s.pmem.requests.contents ++
        if s.pmem.requests.pushes (Pmem.reqPush s.pmem io (ram s)) then
          [Pmem.reqIn s.pmem io (ram s)] else [] :=
  s.pmem.requests.contents_next ..

theorem leaves_of_valid (hs : InStep s g h reading m done waiting) (ht : Takes io)
    (hv : s.pmem.response.valid = true) :
    s.pmem.requests.pops (Pmem.respAccept s.pmem io) = true ∧
      s.pmem.requests.contents = s.pmem.requests.dataOut :: s.pmem.requests.contents.tail ∧
      (answering s.pmem.requests.dataOut = true → handsOver s io = true) := by
  obtain ⟨-, -, -, hvalid, -, -⟩ := hs.outstanding.response_valid hv
  obtain ⟨hr, hb⟩ := ht
  refine ⟨?_, Fifo.contents_of_valid hvalid, fun ha => ?_⟩
  · simp only [Fifo.pops, Pmem.respAccept, Pmem.rFire, Pmem.bFire, Pmem.r, Pmem.b,
      Pmem.respIsRead, Pmem.respIsWrite, Pmem.respIsLast, hv, hvalid, hr, hb]
    cases s.pmem.requests.dataOut.rd <;> cases s.pmem.requests.dataOut.last <;> rfl
  · simp only [answering, Bool.or_eq_true] at ha
    simp only [handsOver, Pmem.rFire, Pmem.bFire, Pmem.r, Pmem.b,
      Pmem.respIsRead, Pmem.respIsWrite, Pmem.respIsLast, hv, hvalid, hr, hb]
    cases hrd : s.pmem.requests.dataOut.rd
    case true => rfl
    case false => simpa [hrd] using ha

theorem handRank_next (hs : InStep s g h reading m done waiting) (ht : Takes io)
    (hq : ∃ q ∈ s.pmem.requests.contents, answering q = true) (hn : handsOver s io = false) :
    (∃ q ∈ (next s io z).pmem.requests.contents, answering q = true) ∧
      handRank (next s io z) < handRank s := by
  have hall := requests_next s io z
  obtain ⟨q, hq, ha⟩ := hq
  cases hv : s.pmem.response.valid
  case false =>
    have hstage := stage_next io z hs (List.ne_nil_of_mem hq) hv
    have hpops : s.pmem.requests.pops (Pmem.respAccept s.pmem io) = false := by
      rw [hs.outstanding.pops.1, ← hs.outstanding.pops.2, Fifo.pops, hv, Bool.and_false]
    rw [hpops, if_neg Bool.false_ne_true, List.nil_append] at hall
    rw [handRank, handRank, hall, List.findIdx_append,
      if_pos (List.findIdx_lt_length.2 ⟨q, hq, ha⟩)]
    exact ⟨⟨q, List.mem_append_left _ hq, ha⟩, by omega⟩
  case true =>
    obtain ⟨hpops, hcons, htold⟩ := leaves_of_valid hs ht hv
    have hhead : answering s.pmem.requests.dataOut = false := by
      by_contra hhead
      rw [htold (by simpa using hhead)] at hn
      cases hn
    have hstage := stage_le (s := next s io z)
    rw [hpops, if_pos rfl, hcons, List.singleton_append, List.cons_append, List.cons.injEq] at hall
    rw [hcons, List.mem_cons] at hq
    have hq' : q ∈ s.pmem.requests.contents.tail := by
      refine hq.resolve_left ?_
      rintro rfl
      rw [ha] at hhead
      cases hhead
    rw [handRank, handRank, hall.2, List.findIdx_append,
      if_pos (List.findIdx_lt_length.2 ⟨q, hq', ha⟩), hcons, List.findIdx_cons, hhead, cond_false,
      List.tail_cons]
    exact ⟨⟨q, List.mem_append_left _ hq', ha⟩, by omega⟩

theorem handRank_le (hq : ∃ q ∈ s.pmem.requests.contents, answering q = true) :
    handRank s ≤ 19 := by
  have hidx := List.findIdx_lt_length.2 hq
  have hle := s.pmem.requests.count_le
  have hstage := stage_le (s := s)
  rw [Fifo.length_contents] at hidx
  rw [handRank]
  omega

theorem readActive_of_burst (io : Bus) (hs : InStep s g h reading m done waiting)
    (hrd : s.pmem.reqRd = true) (hroom : s.pmem.requests.accept = true) :
    Pmem.readActive s.pmem io = true := by
  have hwr : s.pmem.reqWr = false := hs.exclusive.resolve_left (by simp [hrd])
  simp [Pmem.readActive, hrd, hwr, hroom]

theorem askRank_next (hs : InStep s g h reading m done waiting) (hk : g.Follows io) (ht : Takes io)
    (hrd : s.pmem.reqRd = true) (hq : ∀ q ∈ s.pmem.requests.contents, answering q = false)
    (ha : Core.accept s.memory.core = false) (hinit : s.memory.core.state ≠ .INIT) :
    ((next s io z).pmem.reqRd = true ∧
      ∀ q ∈ (next s io z).pmem.requests.contents, answering q = false) ∧
        askRank (next s io z) < askRank s := by
  have hreq : Pmem.requestNext s.pmem io (ram s) = s.pmem := Pmem.requestNext_of_wait ha
  have hrd' : (next s io z).pmem.reqRd = true := by
    change (Pmem.requestNext s.pmem io (ram s)).reqRd = true
    rw [hreq, hrd]
  have hpush : s.pmem.requests.pushes (Pmem.reqPush s.pmem io (ram s)) = false := by
    simp [Fifo.pushes, Pmem.reqPush, ram, ha]
  have hall := requests_next s io z
  rw [hpush, if_neg Bool.false_ne_true, List.append_nil] at hall
  have hsub : ∀ q ∈ (next s io z).pmem.requests.contents, answering q = false := fun q hmem =>
    hq q (hall ▸ List.mem_append_right _ hmem)
  have hinit' : (next s io z).memory.core.state ≠ .INIT :=
    Core.state_next_ne_init hs.sched.plan hinit
  have hserve := Core.serveRank_le hinit'
  refine ⟨⟨hrd', hsub⟩, ?_⟩
  rw [askRank, askRank]
  cases hroom : s.pmem.requests.accept
  case true =>
    have hroom' : (next s io z).pmem.requests.accept = true := Fifo.accept_next hroom hpush
    have hreq : Core.req (inport s io) = true := by
      simp [Core.req, inport, Pmem.ramRd, readActive_of_burst io hs hrd hroom]
    rw [hroom', if_pos rfl, if_pos rfl]
    exact Core.serveRank_next hs.sched (hs.holds hk) hreq ha
  case false =>
    have hcount : s.pmem.requests.count = 2 ^ 2 := by simpa [Fifo.accept] using hroom
    have hne : s.pmem.requests.contents ≠ [] := by
      rw [← List.length_pos_iff, Fifo.length_contents, hcount]
      decide
    rw [if_neg Bool.false_ne_true]
    cases hv : s.pmem.response.valid
    case false =>
      have hstage := stage_next io z hs hne hv
      split_ifs <;> omega
    case true =>
      have hlength := congrArg List.length hall
      rw [(leaves_of_valid hs ht hv).1, if_pos rfl, List.length_append, List.length_singleton,
        Fifo.length_contents, Fifo.length_contents, hcount] at hlength
      have hroom' : (next s io z).pmem.requests.accept = true := by
        rw [Fifo.accept, bne_iff_ne]
        omega
      rw [hroom', if_pos rfl]
      omega

theorem askRank_le (hinit : s.memory.core.state ≠ .INIT) : askRank s ≤ 76 := by
  have hserve := Core.serveRank_le hinit
  have hstage := stage_le (s := s)
  rw [askRank]
  split_ifs <;> omega

theorem answering_next (hs : InStep s g h reading m done waiting) (hrd : s.pmem.reqRd = true)
    (ha : Core.accept s.memory.core = true) :
    ∃ q ∈ (next s io z).pmem.requests.contents, answering q = true := by
  have hroom : s.pmem.requests.accept = true := by
    have hplan := hs.sched.plan
    have hoff := hs.offered
    simp only [Core.accept, Bool.or_eq_true, decide_eq_true_eq] at ha
    rcases ha with hstate | hstate <;>
      simp only [Core.Plan, Core.heading, hstate, reduceCtorEq, if_false] at hplan
    · obtain ⟨r, rfl, hr, -⟩ := hplan
      rw [Pmem.Offered, if_pos hr] at hoff
      exact hoff.2.room
    · obtain ⟨r, rfl, -, hr, -⟩ := hplan
      rw [Pmem.Offered, if_neg (by simp [hr])] at hoff
      exact hoff.room
  have hread := readActive_of_burst io hs hrd hroom
  have hpush : s.pmem.requests.pushes (Pmem.reqPush s.pmem io (ram s)) = true := by
    simp [Fifo.pushes, Pmem.reqPush, Pmem.ramRd, hread, hroom, ram, ha]
  have har : Pmem.arFire s.pmem io (ram s) = false := by simp [Pmem.arFire, Pmem.arReady, hrd]
  have haw : Pmem.awFire s.pmem io (ram s) = false := by
    simp [Pmem.awFire, Pmem.awReady, Pmem.writeActive, hrd]
  have hin : answering (Pmem.reqIn s.pmem io (ram s)) = true := by
    simp [answering, Pmem.reqIn, har, haw, Pmem.ramRd, hread]
  have hall := requests_next s io z
  rw [hpush, if_pos rfl] at hall
  refine ⟨_, ?_, hin⟩
  cases hpops : s.pmem.requests.pops (Pmem.respAccept s.pmem io)
  case false =>
    rw [hpops, if_neg Bool.false_ne_true, List.nil_append] at hall
    rw [hall]
    exact List.mem_append_right _ (List.mem_singleton_self _)
  case true =>
    have hvalid : s.pmem.requests.valid = true := by
      rw [Fifo.pops, Bool.and_eq_true] at hpops
      exact hpops.2
    rw [hpops, if_pos rfl, Fifo.contents_of_valid hvalid, List.singleton_append, List.cons_append,
      List.cons.injEq] at hall
    rw [hall.2]
    exact List.mem_append_right _ (List.mem_singleton_self _)

theorem owed_cases (hs : InStep s g h reading m done waiting) (hne : g.answers ≠ []) :
    (∃ q ∈ s.pmem.requests.contents, answering q = true) ∨ s.pmem.reqRd = true ∧
      ∀ q ∈ s.pmem.requests.contents, answering q = false := by
  by_cases hq : ∃ q ∈ s.pmem.requests.contents, answering q = true
  · exact .inl hq
  · refine .inr ⟨?_, fun q hmem => Bool.eq_false_iff.2 fun ha => hq ⟨q, hmem, ha⟩⟩
    by_contra hrd
    apply hne
    rw [hs.answers, inBurst_none_of hs.read (by simpa using hrd), left, List.append_nil,
      List.filterMap_eq_nil_iff]
    intro q hmem
    have hcontents : q.1 ∈ s.pmem.requests.contents := by
      rw [hs.outstanding.requests]
      exact List.mem_map_of_mem hmem
    have hnone : ¬answering q.1 = true := fun ha => hq ⟨q.1, hcontents, ha⟩
    simp only [answering, Bool.or_eq_true, not_or] at hnone
    rw [answerOf, if_neg hnone.1, if_neg hnone.2]

end Laws

section Runs

variable {m : Ddr} {p : Regs × Owed} {i : Nat → Bus × Word}

variable (hp : Reached m p) (hinit : p.1.memory.core.state ≠ .INIT)
variable (hi : ∀ n, ((observed m).trace p i n).2.Follows (i n).1) (ht : ∀ n, Takes (i n).1)

include hp hi ht

theorem handed_over {n : Nat}
    (hq : ∃ q ∈ ((observed m).trace p i n).1.pmem.requests.contents, answering q = true) :
    ∃ k ≤ 19, handsOver ((observed m).trace p i (n + k)).1 (i (n + k)).1 = true := by
  obtain ⟨k, hk, hgoal, -⟩ := exists_of_rank
    (fun n => ∃ q ∈ ((observed m).trace p i n).1.pmem.requests.contents, answering q = true)
    (fun n => handsOver ((observed m).trace p i n).1 (i n).1 = true)
    (fun n => handRank ((observed m).trace p i n).1) (fun n hq hn => by
      obtain ⟨_, _, _, _, _, hs⟩ := inStep_of_reached (hp.trace hi n)
      exact handRank_next hs (ht n) hq (by simpa using hn)) hq
  exact ⟨k, hk.trans (handRank_le hq), hgoal⟩

include hinit

/-- Whatever the traffic, a master that takes its answers at once is never left waiting for the
next one. -/
theorem answers_in_time (hne : p.2.answers ≠ []) :
    ∃ k ≤ 96, handsOver ((observed m).trace p i k).1 (i k).1 = true := by
  obtain ⟨_, _, _, _, _, hs⟩ := inStep_of_reached hp
  rcases owed_cases hs hne with hq | ⟨hrd, hq⟩
  · obtain ⟨k, hk, hgoal⟩ := handed_over (n := 0) hp hi ht hq
    rw [Nat.zero_add] at hgoal
    exact ⟨k, hk.trans (by decide), hgoal⟩
  · obtain ⟨k, hk, ha, hrd', -⟩ := exists_of_rank
      (fun n => ((observed m).trace p i n).1.pmem.reqRd = true ∧
        ∀ q ∈ ((observed m).trace p i n).1.pmem.requests.contents, answering q = false)
      (fun n => Core.accept (coreAt m p i n) = true)
      (fun n => askRank ((observed m).trace p i n).1) (fun n hn hna => by
        obtain ⟨_, _, _, _, _, hs⟩ := inStep_of_reached (hp.trace hi n)
        have hna' : Core.accept (coreAt m p i n) = false := by simpa using hna
        exact askRank_next hs (hi n) (ht n) hn.1 hn.2 hna'
          (coreAt_ne_init hp hi hinit n)) (n := 0) ⟨hrd, hq⟩
    obtain ⟨_, _, _, _, _, hs'⟩ := inStep_of_reached (hp.trace hi (0 + k))
    obtain ⟨k', hk', hgoal⟩ := handed_over (n := 0 + k + 1) hp hi ht
      (answering_next hs' hrd' ha)
    have hask := askRank_le (s := p.1) hinit
    change k ≤ askRank p.1 at hk
    rw [Nat.zero_add] at hgoal
    exact ⟨k + 1 + k', by omega, hgoal⟩

omit hp hinit hi ht in
/-- The words of the burst that was written are handed over. -/
theorem answers_in_time_twoWords : ∃ k ≤ 96,
    handsOver ((observed zeros).trace ((observed zeros).run powerUp (twoWords.take 71))
      (fun _ => (idle, 0)) k).1 idle = true := by
  have hr : Reached zeros ((observed zeros).run powerUp (twoWords.take 71)) :=
    reached_powerUp.run (by decide +kernel)
  refine answers_in_time hr (by decide +kernel) (fun n => ?_) (fun _ => ⟨rfl, rfl⟩)
    (by decide +kernel)
  cases n with
  | zero => decide +kernel
  | succ n => exact follows_idle_succ rfl

end Runs

end FpgaNpc.Sdram.Axi
