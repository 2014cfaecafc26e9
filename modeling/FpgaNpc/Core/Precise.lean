import FpgaNpc.Core.Flush
import FpgaNpc.Hardware.Machine

open FpgaNpc.Hardware FpgaNpc.InterStage

namespace FpgaNpc.Core

/-- An instruction that IF handed over, by its number and by how many redirects IF had taken
by then. -/
structure Ticket where
  redirects : Nat
  serial : Nat
  deriving DecidableEq

/-- The tickets of what the stage registers hold, of the instructions that came to WB with an
exception, and of those that had an effect. A ticket in `trapped` counts the redirects taken
before that of the trap. -/
structure Effects where
  redirects : Nat
  count : Nat
  id : Option Ticket
  exe : Option Ticket
  mem : Option Ticket
  wb : Option Ticket
  trapped : List Ticket
  acted : List Ticket

def Effects.none : Effects := ⟨0, 0, .none, .none, .none, .none, [], []⟩

variable (B : Build) (s : Regs) (io : Inputs) (g : Effects)

def acts : List Ticket :=
  (if WB.writePortWen s.fromMEM then g.wb.toList else []) ++
    (if (MEM.req s.memStage).valid then g.mem.toList else []) ++
      if (csrInputs B s io).writePort.wen then g.exe.toList else []

def redirects : Nat :=
  if CSRRegFile.redirectFire s.csrRegs (csrInputs B s io) then g.redirects + 1 else g.redirects

def traps : List Ticket :=
  if toWBFire s io && !(toWB s io).nop && orR (toWB s io).excepVec then
    g.mem.toList.map fun z => ⟨redirects B s io g, z.serial⟩
  else []

def Effects.observe : Effects where
  redirects := Core.redirects B s io g
  count := if toIDFire B s io then g.count + 1 else g.count
  id := if toIDFire B s io then some ⟨g.redirects, g.count⟩ else g.id
  exe := if toEXEFire B s io then g.id else g.exe
  mem := if toMEMFire B s io then g.exe else g.mem
  wb := if toWBFire s io then g.mem else g.wb
  trapped := g.trapped ++ traps B s io g
  acted := g.acted ++ acts B s io g

def withEffects : Machine (Regs × Effects) Inputs :=
  (machine B).monitor .none (Effects.observe B)

/-- `a` is the instruction that trapped or a younger one, handed over before the redirect of
the trap was taken. -/
def Ticket.Shadows (z a : Ticket) : Prop := a.redirects ≤ z.redirects ∧ z.serial ≤ a.serial

instance (z a : Ticket) : Decidable (z.Shadows a) := inferInstanceAs (Decidable (_ ∧ _))

/-- Neither an instruction with an exception nor a younger one has had an effect. -/
def Precise : Prop := ∀ z ∈ g.trapped, ∀ a ∈ g.acted, ¬z.Shadows a

instance : Decidable (Precise g) := inferInstanceAs (Decidable (∀ _ ∈ _, _))

section Live

def liveID : Option Ticket :=
  if s.idStage.fromIF.nop || s.idStage.hasFired then none else g.id

def liveEXE : Option Ticket := if s.exeStage.fromID.nop then none else g.exe

def liveMEM : Option Ticket := if s.memStage.fromEXE.nop then none else g.mem

def liveWB : Option Ticket := if s.fromMEM.nop then none else g.wb

end Live

/-- The ticket is older than what is alive in ID and than everything still to come. -/
def BeforeID (t : Ticket) : Prop :=
  t.serial < g.count ∧ ∀ i ∈ liveID s g, t.serial < i.serial

def BeforeEXE (t : Ticket) : Prop :=
  BeforeID s g t ∧ ∀ e ∈ liveEXE s g, t.serial < e.serial

/-- Nothing that the exception of `z` is to stop is alive, but in ID where it is flushed. -/
structure Stopped (z : Ticket) : Prop where
  redirects : z.redirects ≤ g.redirects
  pending : g.redirects = z.redirects → RedirectPending s
  id : ∀ i ∈ liveID s g, z.Shadows i → RedirectPending s
  exe : ∀ e ∈ liveEXE s g, ¬z.Shadows e
  mem : ∀ m ∈ liveMEM s g, ¬z.Shadows m
  wb : ∀ w ∈ liveWB s g, z.Shadows w → WB.writePortWen s.fromMEM = false
  acted : ∀ a ∈ g.acted, ¬z.Shadows a

structure Ordered : Prop extends Settled s where
  id : ∀ i ∈ liveID s g, i.serial < g.count
  exe : ∀ e ∈ liveEXE s g, BeforeID s g e
  mem : ∀ m ∈ liveMEM s g, BeforeEXE s g m
  wb : ∀ w ∈ liveWB s g, BeforeEXE s g w ∧
    (s.memStage.hasFired = false → ∀ m ∈ liveMEM s g, w.serial < m.serial)
  wbWrite : s.fromMEM.regWrite = true → s.fromMEM.nop = false
  acted : ∀ a ∈ g.acted, BeforeEXE s g a

variable {B s io g}

theorem liveID_next : liveID (next B s io) (g.observe B s io) =
    if toIDFire B s io then (if (toID B s io).nop then none else some ⟨g.redirects, g.count⟩)
    else if toEXEFire B s io && !ID.stall (idInputs B s io) then none else liveID s g := by
  rw [liveID, next_idStage, Effects.observe]
  cases toIDFire B s io
  case true => cases hn : (toID B s io).nop <;> simp [hn]
  case false =>
    simp only [Bool.false_eq_true, if_false, liveID]
    cases s.idStage.hasFired <;> cases toEXEFire B s io <;>
      cases ID.stall (idInputs B s io) <;> simp

theorem liveEXE_next : liveEXE (next B s io) (g.observe B s io) =
    if toMEMFire B s io then (if (toEXE B s io).nop then none else liveID s g)
    else liveEXE s g := by
  rw [liveEXE, next_fromID, Effects.observe, toEXEFire_eq]
  cases toMEMFire B s io
  case false => simp [liveEXE]
  case true =>
    cases hn : (toEXE B s io).nop
    case true => simp [hn]
    case false =>
      obtain ⟨h1, -, h2, -⟩ := toEXE_alive hn
      simp [hn, liveID, h1, h2]

theorem liveMEM_next (h : s.exeStage.hasFired = false) :
    liveMEM (next B s io) (g.observe B s io) =
      if toMEMFire B s io then (if (toMEM B s io).nop then none else liveEXE s g)
      else liveMEM s g := by
  rw [liveMEM, next_fromEXE, Effects.observe]
  cases toMEMFire B s io
  case false => simp [liveMEM]
  case true =>
    cases hn : (toMEM B s io).nop
    case true => simp [hn]
    case false =>
      have halive := hn
      rw [toMEM_nop h, Bool.or_eq_false_iff] at halive
      simp [hn, liveEXE, halive.1]

theorem liveWB_next : liveWB (next B s io) (g.observe B s io) =
    if toWBFire s io then (if (toWB s io).nop then none else liveMEM s g) else liveWB s g := by
  cases hfire : toWBFire s io
  case false => simp [liveWB, Core.next, Effects.observe, hfire]
  case true =>
    cases hn : (toWB s io).nop
    case true => simp [liveWB, Core.next, hfire, hn]
    case false =>
      have halive : s.memStage.fromEXE.nop = false := by
        simp only [toWB, MEM.toWB, MEM.nop, Bool.or_eq_false_iff] at hn
        exact hn.1
      simp [liveWB, Core.next, Effects.observe, hfire, hn, liveMEM, halive]

theorem mem_liveID_next {i : Ticket} (hi : i ∈ liveID (next B s io) (g.observe B s io)) :
    toIDFire B s io = true ∧ (toID B s io).nop = false ∧ i = ⟨g.redirects, g.count⟩ ∨
      toIDFire B s io = false ∧ (toEXEFire B s io && !ID.stall (idInputs B s io)) = false ∧
        i ∈ liveID s g := by
  rw [liveID_next] at hi
  split at hi
  case isTrue hfire =>
    split at hi
    case isTrue => simp at hi
    case isFalse hn => exact .inl ⟨hfire, Bool.not_eq_true _ ▸ hn, (Option.mem_some.1 hi).symm⟩
  case isFalse hfire =>
    split at hi
    case isTrue => simp at hi
    case isFalse hkeep => exact .inr ⟨Bool.not_eq_true _ ▸ hfire, Bool.not_eq_true _ ▸ hkeep, hi⟩

theorem mem_liveEXE_next {e : Ticket} (he : e ∈ liveEXE (next B s io) (g.observe B s io)) :
    toMEMFire B s io = true ∧ (toEXE B s io).nop = false ∧ e ∈ liveID s g ∨
      toMEMFire B s io = false ∧ e ∈ liveEXE s g := by
  rw [liveEXE_next] at he
  split at he
  case isTrue hfire =>
    split at he
    case isTrue => simp at he
    case isFalse hn => exact .inl ⟨hfire, Bool.not_eq_true _ ▸ hn, he⟩
  case isFalse hfire => exact .inr ⟨Bool.not_eq_true _ ▸ hfire, he⟩

theorem mem_liveMEM_next (h : s.exeStage.hasFired = false) {m : Ticket}
    (hm : m ∈ liveMEM (next B s io) (g.observe B s io)) :
    toMEMFire B s io = true ∧ (toMEM B s io).nop = false ∧ m ∈ liveEXE s g ∨
      toMEMFire B s io = false ∧ m ∈ liveMEM s g := by
  rw [liveMEM_next h] at hm
  split at hm
  case isTrue hfire =>
    split at hm
    case isTrue => simp at hm
    case isFalse hn => exact .inl ⟨hfire, Bool.not_eq_true _ ▸ hn, hm⟩
  case isFalse hfire => exact .inr ⟨Bool.not_eq_true _ ▸ hfire, hm⟩

theorem mem_liveWB_next {w : Ticket} (hw : w ∈ liveWB (next B s io) (g.observe B s io)) :
    toWBFire s io = true ∧ (toWB s io).nop = false ∧ w ∈ liveMEM s g ∨
      toWBFire s io = false ∧ w ∈ liveWB s g := by
  rw [liveWB_next] at hw
  split at hw
  case isTrue hfire =>
    split at hw
    case isTrue => simp at hw
    case isFalse hn => exact .inl ⟨hfire, Bool.not_eq_true _ ▸ hn, hw⟩
  case isFalse hfire => exact .inr ⟨Bool.not_eq_true _ ▸ hfire, hw⟩

theorem count_next_le : g.count ≤ (g.observe B s io).count := by
  simp only [Effects.observe]
  split <;> omega

theorem redirects_le : g.redirects ≤ redirects B s io g := by
  rw [redirects]
  split <;> omega

theorem BeforeID.next {t : Ticket} (h : BeforeID s g t) :
    BeforeID (next B s io) (g.observe B s io) t := by
  refine ⟨Nat.lt_of_lt_of_le h.1 count_next_le, fun i hi => ?_⟩
  rcases mem_liveID_next hi with ⟨-, -, rfl⟩ | ⟨-, -, hi⟩
  · exact h.1
  · exact h.2 i hi

theorem BeforeEXE.next {t : Ticket} (h : BeforeEXE s g t) :
    BeforeEXE (next B s io) (g.observe B s io) t := by
  refine ⟨h.1.next, fun e he => ?_⟩
  rcases mem_liveEXE_next he with ⟨-, -, he⟩ | ⟨-, he⟩
  · exact h.1.2 e he
  · exact h.2 e he

theorem Ordered.id_next (h : Ordered s g) {i : Ticket} (hi : i ∈ liveID s g)
    (halive : (toEXE B s io).nop = false) (hfire : toMEMFire B s io = true) :
    BeforeID (next B s io) (g.observe B s io) i := by
  refine ⟨Nat.lt_of_lt_of_le (h.id i hi) count_next_le, fun j hj => ?_⟩
  rcases mem_liveID_next hj with ⟨-, -, rfl⟩ | ⟨-, hkeep, -⟩
  · exact h.id i hi
  · rw [toEXEFire_eq, hfire, (toEXE_alive halive).2.1] at hkeep
    exact Bool.noConfusion hkeep

theorem Ordered.exe_next (h : Ordered s g) {e : Ticket} (he : e ∈ liveEXE s g)
    (hfire : toMEMFire B s io = true) : BeforeEXE (next B s io) (g.observe B s io) e := by
  refine ⟨(h.exe e he).next, fun j hj => ?_⟩
  rcases mem_liveEXE_next hj with ⟨-, -, hj⟩ | ⟨hwait, -⟩
  · exact (h.exe e he).2 j hj
  · simp [hfire] at hwait

theorem access_of_req {s : MEM.Regs} (h : MEM.Engaged s) (hr : (MEM.req s).valid = true) :
    MEM.access s = true := by
  cases hst : s.state
  case IDLE =>
    by_contra ha
    simp [MEM.req, hst, ha] at hr
  all_goals exact h (by simp [hst])

theorem Ordered.acts_cases (h : Ordered s g) {a : Ticket} (ha : a ∈ acts B s io g) :
    a ∈ liveWB s g ∧ WB.writePortWen s.fromMEM = true ∨
      a ∈ liveMEM s g ∧ (MEM.req s.memStage).valid = true ∨
      a ∈ liveEXE s g ∧ (csrInputs B s io).writePort.wen = true := by
  simp only [acts, List.mem_append] at ha
  rcases ha with (ha | ha) | ha <;> split at ha <;> simp only [Option.mem_toList,
    List.not_mem_nil] at ha
  case inl.inl.isTrue hw =>
    have hn := h.wbWrite (WB.writePortWen_spec hw).2
    exact .inl ⟨by simpa [liveWB, hn] using ha, hw⟩
  case inl.inr.isTrue hr =>
    have hn := MEM.not_nop_of_access (access_of_req h.engaged hr)
    exact .inr (.inl ⟨by simpa [liveMEM, hn] using ha, hr⟩)
  case inr.isTrue hw =>
    have hn := (csrWen_spec hw).2.1
    rw [toMEM_nop h.exeFired, Bool.or_eq_false_iff] at hn
    exact .inr (.inr ⟨by simpa [liveEXE, hn.1] using ha, hw⟩)

theorem Ordered.next (h : Ordered s g) : Ordered (next B s io) (g.observe B s io) where
  toSettled := h.toSettled.next B io
  id i hi := by
    rcases mem_liveID_next hi with ⟨hfire, -, rfl⟩ | ⟨-, -, hi⟩
    · simp [Effects.observe, hfire]
    · exact Nat.lt_of_lt_of_le (h.id i hi) count_next_le
  exe e he := by
    rcases mem_liveEXE_next he with ⟨hfire, hn, he⟩ | ⟨-, he⟩
    · exact h.id_next he hn hfire
    · exact (h.exe e he).next
  mem m hm := by
    rcases mem_liveMEM_next h.exeFired hm with ⟨hfire, -, hm⟩ | ⟨-, hm⟩
    · exact h.exe_next hm hfire
    · exact (h.mem m hm).next
  wb w hw := by
    rcases mem_liveWB_next hw with ⟨hwb, -, hw⟩ | ⟨hwb, hw⟩
    · refine ⟨(h.mem w hw).next, fun hfired m hm => ?_⟩
      have hfire : toMEMFire B s io = true := by simpa [next_memStage_hasFired, hwb] using hfired
      rcases mem_liveMEM_next h.exeFired hm with ⟨-, -, hm⟩ | ⟨hwait, -⟩
      · exact (h.mem w hw).2 m hm
      · simp [hfire] at hwait
    · have hfire : toMEMFire B s io = false := by
        by_contra hf
        simp [toWBFire_of_toMEMFire (Bool.not_eq_false _ ▸ hf)] at hwb
      refine ⟨(h.wb w hw).1.next, fun hfired m hm => ?_⟩
      rw [next_memStage_hasFired, hwb, hfire] at hfired
      rw [liveMEM_next h.exeFired, hfire, if_neg Bool.false_ne_true] at hm
      exact (h.wb w hw).2 (by simpa using hfired) m hm
  wbWrite hw := by
    cases hwb : toWBFire s io
    case true =>
      have hnext : (Core.next B s io).fromMEM = toWB s io := by simp [Core.next, hwb]
      rw [hnext] at hw ⊢
      simp only [toWB, MEM.toWB, Bool.and_eq_true, Bool.not_eq_true'] at hw ⊢
      exact hw.2
    case false =>
      have hnext : (Core.next B s io).fromMEM = s.fromMEM := by simp [Core.next, hwb]
      rw [hnext] at hw ⊢
      exact h.wbWrite hw
  acted a ha := by
    rcases List.mem_append.1 ha with ha | ha
    · exact (h.acted a ha).next
    · rcases h.acts_cases ha with ⟨ha, -⟩ | ⟨ha, -⟩ | ⟨ha, hw⟩
      · exact (h.wb a ha).1.next
      · exact (h.mem a ha).next
      · exact h.exe_next ha (csrWen_spec hw).1

theorem IsReset.ordered (h : IsReset B s) : Ordered s .none := by
  have hwb := h.fromMEM
  refine ⟨h.settled, ?_, ?_, ?_, ?_, ?_, ?_⟩ <;>
    simp [Effects.none, liveID, liveEXE, liveMEM, liveWB, hwb, MemWbBus.zero]

theorem Ticket.pending_next {z : Ticket} (hr : z.redirects ≤ g.redirects)
    (hp : g.redirects = z.redirects → RedirectPending s)
    (hs : (g.observe B s io).redirects = z.redirects) : RedirectPending (next B s io) := by
  simp only [Effects.observe, Core.redirects] at hs
  split at hs
  case isTrue => omega
  case isFalse hf =>
    have hvalid : redirectValid s io = true := (hp hs).redirectValid
    refine .of_redirect hvalid ?_
    have hfire : (redirectValid s io && (csrInputs B s io).redirectReady) = false :=
      Bool.not_eq_true _ ▸ hf
    simpa [hvalid] using hfire

theorem Ticket.id_next {z : Ticket} (hr : z.redirects ≤ g.redirects)
    (hp : g.redirects = z.redirects → RedirectPending s)
    (hid : ∀ i ∈ liveID s g, z.Shadows i → RedirectPending s) :
    ∀ i ∈ liveID (next B s io) (g.observe B s io), z.Shadows i →
      RedirectPending (next B s io) := by
  intro i hi hsh
  rcases mem_liveID_next hi with ⟨-, hn, rfl⟩ | ⟨hwait, -, hi⟩
  · have hs : g.redirects = z.redirects := Nat.le_antisymm hsh.1 hr
    simp [toID_nop_of_flush (flush_of_redirect (hp hs).redirectValid)] at hn
  · exact .of_redirect (hid i hi hsh).redirectValid (redirectReady_of_stall hwait)

theorem Stopped.next {z : Ticket} (hz : Stopped s g z) (h : Ordered s g) :
    Stopped (next B s io) (g.observe B s io) z where
  redirects := Nat.le_trans hz.redirects redirects_le
  pending := Ticket.pending_next hz.redirects hz.pending
  id := Ticket.id_next hz.redirects hz.pending hz.id
  exe e he hsh := by
    rcases mem_liveEXE_next he with ⟨-, hn, he⟩ | ⟨-, he⟩
    · simp [IDDead.toEXE_nop (.inr (.inr (hz.id e he hsh)))] at hn
    · exact hz.exe e he hsh
  mem m hm hsh := by
    rcases mem_liveMEM_next h.exeFired hm with ⟨-, -, hm⟩ | ⟨-, hm⟩
    · exact hz.exe m hm hsh
    · exact hz.mem m hm hsh
  wb w hw hsh := by
    rcases mem_liveWB_next hw with ⟨-, -, hw⟩ | ⟨hfire, hw⟩
    · exact absurd hsh (hz.mem w hw)
    · have hwb : (Core.next B s io).fromMEM = s.fromMEM := by simp [Core.next, hfire]
      rw [hwb]
      exact hz.wb w hw hsh
  acted a ha hsh := by
    rcases List.mem_append.1 ha with ha | ha
    · exact hz.acted a ha hsh
    · rcases h.acts_cases ha with ⟨ha, hw⟩ | ⟨ha, -⟩ | ⟨ha, -⟩
      · simp [hz.wb a ha hsh] at hw
      · exact hz.mem a ha hsh
      · exact hz.exe a ha hsh

end FpgaNpc.Core
