import FpgaNpc.Core.Precise
import FpgaNpc.Core.Redirect

open FpgaNpc.Hardware FpgaNpc.InterStage

namespace FpgaNpc

theorem MEM.next_congr {s : Regs} {io : Inputs} (h : toWBFire s io = false)
    (fromEXEValid fromEXEValid' : Bool) (toMEM toMEM' : ExeMemBus) :
    next s io fromEXEValid toMEM = next s io fromEXEValid' toMEM' := by
  have hv : toWBValid s io = false := h
  have hfire : fromEXEFire s io fromEXEValid = false := by simp [fromEXEFire, fromEXEReady, hv]
  have hfire' : fromEXEFire s io fromEXEValid' = false := by simp [fromEXEFire, fromEXEReady, hv]
  cases hst : s.state
  case WAIT_RESP =>
    have hresp : io.rResp.valid = false ∧ io.wResp.valid = false := by
      simpa [toWBValid, hst] using hv
    simp [next, nextState, rRespFire, wRespFire, hst, h, hfire, hfire', hresp]
  case AMO_WAIT_WRITE_RESP =>
    have hresp : io.wResp.valid = false := by simpa [toWBValid, hst] using hv
    simp [next, nextState, wRespFire, hst, h, hfire, hfire', hresp]
  all_goals simp [next, nextState, rRespFire, rRespReady, hst, h, hfire, hfire']

namespace Core

open CSRRegFile

/-- What the interrupts are observed with. A ticket in `accepted` is that of the instruction in
EXE in the cycle of the trap, the reset contents being older than everything handed over. -/
structure Interruptions where
  effects : Effects
  redirects : Redirects
  accepted : List Ticket

variable (B : Build) (s t : Regs) (io : Inputs) (g : Interruptions)

def accepts : Bool := raiseIntr s.csrRegs io.interrupt && interCMDValid s

def interrupted : Ticket :=
  ⟨g.effects.redirects, (g.effects.exe.map Ticket.serial).getD 0⟩

def Interruptions.observe : Interruptions where
  effects := g.effects.observe B s io
  redirects := g.redirects.observe B s io
  accepted := if accepts s io then g.accepted ++ [interrupted g] else g.accepted

def withInterrupts : Machine (Regs × Interruptions) Inputs :=
  (machine B).monitor ⟨.none, ⟨[], []⟩, []⟩ (Interruptions.observe B)

structure Alike : Prop where
  mem : s.memStage = t.memStage
  wb : s.fromMEM = t.fromMEM
  regs : s.regFiles = t.regFiles

/-- With the same answers of the data port, whatever else happens, what is in MEM and WB makes
the same requests, comes to WB in the same cycle with the same result and leaves the same in the
registers. -/
structure CompletesAlike : Prop where
  waits : ∀ is js : List Inputs, is.map Inputs.dbus = js.map Inputs.dbus →
    (machine B).Runs (fun s io => toWBFire s io = false) s is →
      Alike ((machine B).run s is) ((machine B).run t js)
  leaves : ∀ (is js : List Inputs) (i j : Inputs),
    is.map Inputs.dbus = js.map Inputs.dbus → i.dbus = j.dbus →
      (machine B).Runs (fun s io => toWBFire s io = false) s is →
        let s' := next B ((machine B).run s is) i
        let t' := next B ((machine B).run t js) j
        s'.fromMEM = t'.fromMEM ∧ s'.regFiles = t'.regFiles ∧
          ∀ i' j', (next B s' i').regFiles = (next B t' j').regFiles

/-- The instruction whose pc is saved and those behind it that were handed over before the
redirect was taken have had no effect. In the cycle of the trap nothing in front of it is to trap
or to return, and it completes as in any state that is alike. One redirect to mtvec is raised,
and those taken and the one that waits are those raised. -/
structure InterruptsPrecise : Prop where
  effects : ∀ z ∈ g.accepted, ∀ a ∈ g.effects.acted, ¬z.Shadows a
  saved : accepts s io = true → (next B s io).csrRegs.mepc = s.exeStage.fromID.pc
  older : accepts s io = true → ¬CommitsInWB s ∧ ¬CommitsInMEM s ∧
    MEM.flush2EXE s.memStage = false ∧ ∀ t, Alike s t → CompletesAlike B s t
  raised : accepts s io = true → s.csrRegs.flushQ = none ∧
    (g.observe B s io).redirects.raised = g.redirects.raised ++ [s.csrRegs.mtvec]
  followed : g.redirects.raised = g.redirects.taken ++ waiting s

variable {B s t io} {g : Effects}

section Older

theorem Alike.next (h : Alike s t) {i j : Inputs} (hd : i.dbus = j.dbus)
    (hw : toWBFire s i = false) : Alike (next B s i) (next B t j) where
  mem := by
    change MEM.next s.memStage i.dbus _ _ = MEM.next t.memStage j.dbus _ _
    rw [← h.mem, ← hd]
    exact MEM.next_congr hw _ _ _ _
  wb := by
    change RegEnable (MEM.toWB s.memStage i.dbus) (MEM.toWBFire s.memStage i.dbus) s.fromMEM =
      RegEnable (MEM.toWB t.memStage j.dbus) (MEM.toWBFire t.memStage j.dbus) t.fromMEM
    rw [← h.mem, ← hd, ← h.wb]
  regs := by
    change s.regFiles.write (WB.writePortWen s.fromMEM) s.fromMEM.rd (WB.regWdata s.fromMEM) =
      t.regFiles.write (WB.writePortWen t.fromMEM) t.fromMEM.rd (WB.regWdata t.fromMEM)
    rw [← h.regs, ← h.wb]

theorem Alike.run (h : Alike s t) {is js : List Inputs}
    (hd : is.map Inputs.dbus = js.map Inputs.dbus)
    (hw : (machine B).Runs (fun s io => toWBFire s io = false) s is) :
    Alike ((machine B).run s is) ((machine B).run t js) := by
  induction is generalizing s t js with
  | nil =>
    have hj : js = [] := by simpa using hd.symm
    rw [hj]
    exact h
  | cons i is ih =>
    obtain ⟨j, js, rfl⟩ : ∃ j js', js = j :: js' := by
      cases js with
      | nil => simp at hd
      | cons j js => exact ⟨j, js, rfl⟩
    simp only [List.map_cons, List.cons.injEq] at hd
    exact ih (h.next hd.1 hw.1) hd.2 hw.2

theorem Alike.completesAlike (h : Alike s t) : CompletesAlike B s t where
  waits is js hd hw := h.run hd hw
  leaves is js i j hd hij hw := by
    have halike := h.run hd hw
    have hwb : (Core.next B ((machine B).run s is) i).fromMEM =
        (Core.next B ((machine B).run t js) j).fromMEM := by
      change RegEnable (MEM.toWB _ i.dbus) (MEM.toWBFire _ i.dbus) _ =
        RegEnable (MEM.toWB _ j.dbus) (MEM.toWBFire _ j.dbus) _
      rw [halike.mem, hij, halike.wb]
    have hregs : (Core.next B ((machine B).run s is) i).regFiles =
        (Core.next B ((machine B).run t js) j).regFiles := by
      change RegFiles.write _ _ _ _ = RegFiles.write _ _ _ _
      rw [halike.regs, halike.wb]
    refine ⟨hwb, hregs, fun i' j' => ?_⟩
    change RegFiles.write _ _ _ _ = RegFiles.write _ _ _ _
    rw [hregs, hwb]

end Older

section Silence

structure Early (g : Effects) : Prop where
  id : g.id = none → g.exe = none
  exe : g.exe = none → g.mem = none ∧ g.acted = []
  mem : g.mem = none → g.wb = none

/-- Nothing that the interrupt of `z` is to stop is alive, but in EXE where it stays killed and
in ID where it is flushed. -/
structure Silenced (s : Regs) (g : Effects) (z : Ticket) : Prop where
  redirects : z.redirects ≤ g.redirects
  pending : g.redirects = z.redirects → RedirectPending s
  id : ∀ i ∈ liveID s g, z.Shadows i → RedirectPending s
  exe : ∀ e ∈ liveEXE s g, z.Shadows e → Killed s
  mem : ∀ m ∈ liveMEM s g, ¬z.Shadows m
  wb : ∀ w ∈ liveWB s g, ¬z.Shadows w
  acted : ∀ a ∈ g.acted, ¬z.Shadows a

theorem Early.acts_eq_nil (h : Early g) (he : g.exe = none) : acts B s io g = [] := by
  have hm := (h.exe he).1
  simp [acts, he, hm, h.mem hm]

theorem Early.next (h : Early g) : Early (g.observe B s io) where
  id hn := by
    have hid : g.id = none := by
      cases hfire : toIDFire B s io <;> simp_all [Effects.observe]
    simp [Effects.observe, hid, h.id hid]
  exe hn := by
    have he : g.exe = none := by
      cases hfire : toEXEFire B s io <;> simp_all [Effects.observe, h.id]
    obtain ⟨hm, ha⟩ := h.exe he
    simp [Effects.observe, he, hm, ha, h.acts_eq_nil he]
  mem hn := by
    have hm : g.mem = none := by
      cases hfire : toMEMFire B s io <;> simp_all [Effects.observe, h.exe]
    simp [Effects.observe, hm, h.mem hm]

theorem BeforeEXE.lt_interrupted {a : Ticket} {i : Interruptions} (h : BeforeEXE s i.effects a)
    (hn : s.exeStage.fromID.nop = false) (he : i.effects.exe ≠ none) :
    ¬(interrupted i).Shadows a := by
  obtain ⟨e, he⟩ := Option.ne_none_iff_exists'.1 he
  have hlt : a.serial < e.serial := h.2 e (by simp [liveEXE, hn, he])
  intro hs
  have hle : e.serial ≤ a.serial := by simpa [interrupted, he] using hs.2
  omega

theorem Ordered.silenced {i : Interruptions} (h : Ordered s i.effects) (he : Early i.effects)
    (ha : accepts s io = true) (hok : NoDivStarts s io) :
    Silenced (Core.next B s io) (i.effects.observe B s io) (interrupted i) := by
  rw [accepts, Bool.and_eq_true] at ha
  have hi := interrupt_of_raise ha.1 ha.2
  have hn := (interCMDValid_spec ha.2).1
  have hv := (interrupt_spec hi).2.1
  have hkill : kill s io = true := by simp [kill, hi]
  have hflush := flush_of_redirect (B := B) hv
  have hmem {m : Ticket} (hm : m ∈ liveMEM s i.effects) : ¬(interrupted i).Shadows m := by
    refine (h.mem m hm).lt_interrupted hn fun hx => ?_
    simp [liveMEM, (he.exe hx).1] at hm
  have hwb {w : Ticket} (hw : w ∈ liveWB s i.effects) : ¬(interrupted i).Shadows w := by
    refine (h.wb w hw).1.lt_interrupted hn fun hx => ?_
    simp [liveWB, he.mem (he.exe hx).1] at hw
  constructor
  case redirects => exact redirects_le
  case pending =>
    intro hs
    refine .of_redirect hv ?_
    by_contra hready
    have hf : CSRRegFile.redirectFire s.csrRegs (csrInputs B s io) = true := by
      change (redirectValid s io && (csrInputs B s io).redirectReady) = true
      simp [hv, Bool.not_eq_false _ ▸ hready]
    simp [Effects.observe, redirects, hf, interrupted] at hs
  case id =>
    intro j hj _
    rcases mem_liveID_next hj with ⟨-, hn, -⟩ | ⟨hwait, -, -⟩
    · simp [toID_nop_of_flush hflush] at hn
    · exact .of_redirect hv (redirectReady_of_stall hwait)
  case exe =>
    intro e he' _
    rcases mem_liveEXE_next he' with ⟨-, hn, -⟩ | ⟨hfire, -⟩
    · simp [toEXE_nop_of_flush hflush] at hn
    · exact killed_next hi hfire hok h.exeFired
  case mem =>
    intro m hm
    rcases mem_liveMEM_next h.exeFired hm with ⟨-, hn, -⟩ | ⟨-, hm⟩
    · simp [toMEM_nop h.exeFired, hkill] at hn
    · exact hmem hm
  case wb =>
    intro w hw
    rcases mem_liveWB_next hw with ⟨-, -, hw⟩ | ⟨-, hw⟩
    · exact hmem hw
    · exact hwb hw
  case acted =>
    intro a ha
    rcases List.mem_append.1 ha with ha | ha
    · refine (h.acted a ha).lt_interrupted hn fun hx => ?_
      simp [(he.exe hx).2] at ha
    · rcases h.acts_cases ha with ⟨ha, -⟩ | ⟨ha, -⟩ | ⟨-, hw⟩
      · exact hwb ha
      · exact hmem ha
      · have hal := (csrWen_spec hw).2.1
        simp [toMEM_nop h.exeFired, hkill] at hal

theorem Silenced.next {z : Ticket} (hz : Silenced s g z) (h : Ordered s g)
    (hok : NoDivStarts s io) : Silenced (next B s io) (g.observe B s io) z where
  redirects := Nat.le_trans hz.redirects redirects_le
  pending := Ticket.pending_next hz.redirects hz.pending
  id := Ticket.id_next hz.redirects hz.pending hz.id
  exe e he hsh := by
    rcases mem_liveEXE_next he with ⟨-, hn, he⟩ | ⟨hfire, he⟩
    · simp [IDDead.toEXE_nop (.inr (.inr (hz.id e he hsh)))] at hn
    · exact killed_next (hz.exe e he hsh).interrupt hfire hok h.exeFired
  mem m hm hsh := by
    rcases mem_liveMEM_next h.exeFired hm with ⟨-, hn, hm⟩ | ⟨-, hm⟩
    · simp [toMEM_nop h.exeFired, kill, (hz.exe m hm hsh).interrupt] at hn
    · exact hz.mem m hm hsh
  wb w hw := by
    rcases mem_liveWB_next hw with ⟨-, -, hw⟩ | ⟨-, hw⟩
    · exact hz.mem w hw
    · exact hz.wb w hw
  acted a ha hsh := by
    rcases List.mem_append.1 ha with ha | ha
    · exact hz.acted a ha hsh
    · rcases h.acts_cases ha with ⟨ha, -⟩ | ⟨ha, -⟩ | ⟨ha, hw⟩
      · exact hz.wb a ha hsh
      · exact hz.mem a ha hsh
      · have hal := (csrWen_spec hw).2.1
        simp [toMEM_nop h.exeFired, kill, (hz.exe a ha hsh).interrupt] at hal

end Silence

structure InterruptInv (B : Build) (s : Regs) (i : Interruptions) : Prop where
  ordered : Ordered s i.effects
  early : Early i.effects
  redirect : RedirectInv B s i.redirects
  silenced : ∀ z ∈ i.accepted, Silenced s i.effects z

variable {i : Interruptions}

theorem InterruptInv.next (h : InterruptInv B s i) (hok : Flushable B s io) :
    InterruptInv B (next B s io) (i.observe B s io) where
  ordered := h.ordered.next
  early := h.early.next
  redirect := h.redirect.next hok
  silenced z hz := by
    have hold : ∀ z ∈ i.accepted, Silenced (Core.next B s io) (i.effects.observe B s io) z :=
      fun z hz => (h.silenced z hz).next h.ordered hok.div
    cases ha : accepts s io
    case false => exact hold z (by simpa [Interruptions.observe, ha] using hz)
    case true =>
      simp only [Interruptions.observe, ha, if_true, List.mem_append, List.mem_singleton] at hz
      rcases hz with hz | rfl
      · exact hold z hz
      · exact h.ordered.silenced h.early ha hok.div

theorem accepts_spec (h : accepts s io = true) : trap s io = true ∧ raises s io = true ∧
    s.exeStage.fromID.nop = false ∧ MEM.flush2EXE s.memStage = false := by
  rw [accepts, Bool.and_eq_true] at h
  obtain ⟨hn, -, hf, -⟩ := interCMDValid_spec h.2
  have ht : trap s io = true := by simp [trap, raiseIntrExcep, h]
  exact ⟨ht, by simp [raises, ht], hn, hf⟩

theorem next_mepc_of_accepts (h : accepts s io = true) :
    (next B s io).csrRegs.mepc = s.exeStage.fromID.pc := by
  have ht := (accepts_spec h).1
  rw [accepts, Bool.and_eq_true] at h
  rw [trap] at ht
  rw [next_csrRegs_mepc, if_neg (writePort_of_intr h.1 h.2 _), ht, h.1]
  rfl

theorem InterruptInv.older (h : InterruptInv B s i) (ha : accepts s io = true) :
    ¬CommitsInWB s ∧ ¬CommitsInMEM s := by
  have hn := (accepts_spec ha).2.2.1
  constructor
  · intro hc
    have hexe := (h.redirect.inWB hc).2
    simp [hn] at hexe
  · intro hc
    simp [(h.redirect.inMEM hc).1] at hn

theorem InterruptInv.raised (h : InterruptInv B s i) (ha : accepts s io = true) :
    s.csrRegs.flushQ = none ∧
      (i.observe B s io).redirects.raised = i.redirects.raised ++ [s.csrRegs.mtvec] := by
  obtain ⟨ht, hr, -, -⟩ := accepts_spec ha
  refine ⟨?_, by simp [Interruptions.observe, Redirects.observe, ht, hr]⟩
  by_contra hq
  simp [(h.redirect.halted (Option.isSome_iff_ne_none.2 hq)).not_raises] at hr

theorem interrupts_precise {p : Regs × Interruptions}
    (h : (withInterrupts B).Reaches (fun p io => Flushable B p.1 io) p) :
    InterruptsPrecise B p.1 io p.2 := by
  have hinv : InterruptInv B p.1 p.2 := h.monitor_invariant (P := InterruptInv B)
    (fun _ hs => ⟨hs.ordered, ⟨fun _ => rfl, fun _ => ⟨rfl, rfl⟩, fun _ => rfl⟩,
      hs.redirectInv, by simp⟩)
    fun _ _ _ ih hok => ih.next hok
  exact ⟨fun z hz => (hinv.silenced z hz).acted, next_mepc_of_accepts,
    fun ha => ⟨(hinv.older ha).1, (hinv.older ha).2, (accepts_spec ha).2.2.2,
      fun _ => Alike.completesAlike⟩,
    hinv.raised, hinv.redirect.followed⟩

/-- lw x2, 0(x0); add x3, x1, x1, with the interrupts enabled: the timer interrupt is accepted
when the addition is in EXE, which MEM then keeps from leaving for three cycles. -/
def interruptAdd : List Inputs :=
  enableInterrupts ++ [.fetch 0x00002103, .fetch 0x001081b3, .fetch 0x13,
    { Inputs.fetch 0x13 with interrupt := ⟨false, true, false⟩ }, .dbusRequest, .idle,
    { Inputs.fetch 0x13 with dbus := Inputs.dbusRead.dbus }, .idle, .idle]

theorem interrupts_precise_add :
    let p := (withInterrupts .zeros).run (.reset .zeros 0x888, ⟨.none, ⟨[], []⟩, []⟩)
      interruptAdd
    p.2.accepted = [⟨0, 8⟩] ∧ InterruptsPrecise .zeros p.1 .idle p.2 := by
  have hr := (withInterrupts .zeros).reaches_run (fun p io => Flushable .zeros p.1 io)
    (.reset .zeros 0x888, ⟨.none, ⟨[], []⟩, []⟩) interruptAdd ⟨isReset_reset _ _, rfl⟩
    (by decide +kernel)
  exact ⟨by decide +kernel, interrupts_precise hr⟩

theorem interrupted_div_writes : ¬∀ p, (withInterrupts .zeros).Reaches (fun _ _ => True) p →
    ∀ io, InterruptsPrecise .zeros p.1 io p.2 := by
  intro h
  have hr := (withInterrupts .zeros).reaches_run (fun _ _ => True)
    (.reset .zeros 0x888, ⟨.none, ⟨[], []⟩, []⟩) (interruptDiv ++ [.idle])
    ⟨isReset_reset _ _, rfl⟩ (by decide +kernel)
  exact absurd (h _ hr .idle).effects (by decide +kernel)

end Core

end FpgaNpc
