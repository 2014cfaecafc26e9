import FpgaNpc.Core.Commit
import FpgaNpc.Core.Mtval
import FpgaNpc.Core.Return

open FpgaNpc.Hardware FpgaNpc.InterStage

namespace FpgaNpc.Core

open CSRRegFile

/-- Where the traps and returns so far have to lead, and where the redirects that IF took went. -/
structure Redirects where
  raised : List Word
  taken : List Word

variable (B : Build) (s : Regs) (io : Inputs) (g : Redirects)

def raises : Bool := trap s io || (csrCmd s).mret

def redirectFire : Bool := CSRRegFile.redirectFire s.csrRegs (csrInputs B s io)

def Redirects.observe : Redirects where
  raised := if raises s io then
      g.raised ++ [if trap s io then s.csrRegs.mtvec else s.csrRegs.mepc]
    else g.raised
  taken := if redirectFire B s io then g.taken ++ [(next B s io).ifStage.PC] else g.taken

def withRedirects : Machine (Regs × Redirects) Inputs :=
  (machine B).monitor ⟨[], []⟩ (Redirects.observe B)

def waiting : List Word :=
  s.csrRegs.flushQ.toList.map fun b => if b then s.csrRegs.mtvec else s.csrRegs.mepc

/-- The queue takes every redirect, IF goes where they lead one after another, and until it has
gone there nothing alive is handed over, enters EXE or leaves it. -/
structure RedirectsKept : Prop where
  accepted : raises s io = true → s.csrRegs.flushQ = none
  followed : g.raised = g.taken ++ waiting s
  still : redirectValid s io = true →
    (toID B s io).nop = true ∧ (toEXE B s io).nop = true ∧ (toMEM B s io).nop = true

/-- No instruction with an exception leaves EXE while the next one waits for its result, and no
interrupt is accepted in the place of a division that starts and cannot leave. -/
structure Flushable : Prop where
  fault : ¬FaultAwaited B s io
  div : NoDivStarts s io

instance : Decidable (Flushable B s io) :=
  decidable_of_iff (¬FaultAwaited B s io ∧ NoDivStarts s io)
    ⟨fun ⟨hf, hd⟩ => ⟨hf, hd⟩, fun ⟨hf, hd⟩ => ⟨hf, hd⟩⟩

/-- While a redirect waits nothing else is there to trap or to return, and what is in EXE is
killed with the interrupts off. -/
structure Halted : Prop where
  wb : ¬CommitsInWB s
  mem : ¬CommitsInMEM s
  aligned : MEM.flush2EXE s.memStage = false
  exe : s.exeStage.fromID.nop = true ∨ Killed s
  masked : s.exeStage.fromID.nop = false → s.csrRegs.mstatus.getLsbD 3 = false

structure RedirectInv : Prop extends Guarded B (fun _ => False) s where
  halted : s.csrRegs.flushQ.isSome = true → Halted s
  followed : g.raised = g.taken ++ waiting s

variable {B s io g}

theorem trap_cases_wb (ht : trap s io = true) : CommitsInWB s ∨
    raiseIntr s.csrRegs io.interrupt = true ∧ interCMDValid s = true := by
  rw [trap, raiseIntrExcep, Bool.or_eq_true, Bool.and_eq_true] at ht
  exact ht.imp_left fun he => .inl (raiseExcep_spec he)

theorem raises_cases (h : raises s io = true) : CommitsInWB s ∨
    raiseIntr s.csrRegs io.interrupt = true ∧ interCMDValid s = true := by
  rw [raises, Bool.or_eq_true] at h
  rcases h with ht | hm
  · exact trap_cases_wb ht
  · exact .inl (.inr hm)

theorem redirectValid_eq : redirectValid s io =
    (s.csrRegs.flushQ.isSome || raises s io) := rfl

theorem Halted.not_raises (h : Halted s) : raises s io = false := by
  by_contra hr
  rcases raises_cases (Bool.not_eq_false _ ▸ hr) with hw | ⟨hi, hv⟩
  · exact h.wb hw
  · have hm := h.masked (interCMDValid_spec hv).1
    rw [raiseIntr, hm, Bool.and_false] at hi
    exact Bool.false_ne_true hi

theorem RedirectInv.still (h : RedirectInv B s g) (hv : redirectValid s io = true) :
    (s.exeStage.fromID.nop = true ∨ interrupt s io = true) ∧ ¬CommitsInMEM s ∧
      MEM.flush2EXE s.memStage = false := by
  rw [redirectValid_eq, Bool.or_eq_true] at hv
  rcases hv with hq | hr
  · have hp := h.halted hq
    exact ⟨hp.exe.imp_right Killed.interrupt, hp.mem, hp.aligned⟩
  · rcases raises_cases hr with hw | ⟨hi, hval⟩
    · obtain ⟨hmem, hexe⟩ := h.inWB hw
      exact ⟨.inl (hexe.resolve_right id), fun hm => by simp [hm.1] at hmem,
        by simp [MEM.flush2EXE, MEM.ren, MEM.wen, hmem]⟩
    · obtain ⟨hn, -, hf, -⟩ := interCMDValid_spec hval
      exact ⟨.inr (interrupt_of_raise hi hval), fun hm => by simp [(h.inMEM hm).1] at hn, hf⟩

theorem RedirectInv.toMEM_nop (h : RedirectInv B s g) (hv : redirectValid s io = true) :
    (toMEM B s io).nop = true := by
  rw [Core.toMEM_nop h.exeFired]
  rcases (h.still hv).1 with hn | hi
  · simp [hn]
  · simp [kill, hi]

theorem RedirectInv.no_write (h : RedirectInv B s g) (hv : redirectValid s io = true) :
    (csrInputs B s io).writePort.wen = false := by
  have hn := h.toMEM_nop (B := B) hv
  change EXE.nop s.exeStage (exeInputs B s io) = true at hn
  simp [csrInputs, EXE.csrWen, hn]

theorem next_mstatus_masked (hw : (csrInputs B s io).writePort.wen = false)
    (h : trap s io = true ∨
      s.csrRegs.mstatus.getLsbD 3 = false ∧ (csrCmd s).mret = false) :
    (next B s io).csrRegs.mstatus.getLsbD 3 = false := by
  have hnext : (next B s io).csrRegs.mstatus = if trap s io then entered s.csrRegs
      else if (csrCmd s).mret then left s.csrRegs else s.csrRegs.mstatus := by
    refine next_mstatus.trans ?_
    rw [portWrite, hw, Bool.false_and]
    rfl
  rw [hnext]
  split
  case isTrue => rw [getLsbD_entered]; rfl
  case isFalse ht =>
    obtain ⟨hm, hret⟩ := h.resolve_left ht
    simpa [hret] using hm

theorem RedirectInv.halted_next (h : RedirectInv B s g) (hv : redirectValid s io = true)
    (hok : NoDivStarts s io) : Halted (next B s io) := by
  obtain ⟨hexe, hmem, hf⟩ := h.still hv
  have htoMEM := h.toMEM_nop (B := B) hv
  have htoEXE := toEXE_nop_of_flush (flush_of_redirect (B := B) hv)
  have hfrom := next_fromEXE B s io
  have hid := next_fromID B s io
  constructor
  case wb =>
    intro hw
    rcases (h.commits_next hw).2 with hc | hc
    · exact hmem hc
    · simp [hc] at hf
  case mem =>
    rw [CommitsInMEM, hfrom]
    cases toMEMFire B s io
    case true => simp [htoMEM]
    case false => simpa [CommitsInMEM] using hmem
  case aligned =>
    cases hfire : toMEMFire B s io
    case true => simp [MEM.flush2EXE, MEM.ren, MEM.wen, hfrom, hfire, htoMEM]
    case false => rwa [MEM.flush2EXE_congr (by simpa [hfire] using hfrom)]
  case exe =>
    cases hfire : toMEMFire B s io
    case true => exact .inl (by simp [hid, hfire, htoEXE])
    case false =>
      refine hexe.imp (fun hn => ?_) fun hi => killed_next hi hfire hok h.exeFired
      simpa [hid, hfire] using hn
  case masked =>
    intro hn
    have hfire : toMEMFire B s io = false := by
      cases hfire : toMEMFire B s io
      case true => simp [hid, hfire, htoEXE] at hn
      case false => rfl
    have halive : s.exeStage.fromID.nop = false := by simpa [hid, hfire] using hn
    refine next_mstatus_masked (h.no_write hv) (or_iff_not_imp_left.2 fun ht => ?_)
    have hret : (csrCmd s).mret = false := by
      by_contra hret
      have hexe := (h.inWB (.inr (Bool.not_eq_false _ ▸ hret))).2
      simp [halive] at hexe
    have hq : s.csrRegs.flushQ.isSome = true := by
      simpa [redirectValid_eq, raises, ht, hret] using hv
    exact ⟨(h.halted hq).masked halive, hret⟩

theorem next_flushQ : (next B s io).csrRegs.flushQ =
    s.csrRegs.flushQ.next (raises s io) (trap s io) (csrInputs B s io).redirectReady := rfl

theorem next_csrRegs_mtvec (hw : (csrInputs B s io).writePort.wen = false) :
    (next B s io).csrRegs.mtvec = s.csrRegs.mtvec := by
  refine (next_mtvec _ _).trans ?_
  rw [portWrite, hw, Bool.false_and]
  rfl

def target (s : Regs) (io : Inputs) : Word :=
  redirectTarget s.csrRegs io.interrupt (csrCmd s) (interCMDValid s)

theorem RedirectInv.offered (h : RedirectInv B s g) (hv : redirectValid s io = true) :
    (waiting s ++ if raises s io then
      [if trap s io then s.csrRegs.mtvec else s.csrRegs.mepc] else []) = [target s io] := by
  change _ = [if s.csrRegs.flushQ.deqBits (trap s io) then s.csrRegs.mtvec else s.csrRegs.mepc]
  cases hq : s.csrRegs.flushQ with
  | some b =>
    have hno : raises s io = false := (h.halted (by simp [hq])).not_raises
    cases b <;> simp [waiting, hq, hno, FlowQueue.deqBits]
  | none =>
    have hr : raises s io = true := by simpa [redirectValid_eq, hq] using hv
    cases ht : trap s io <;> simp [waiting, hq, hr, FlowQueue.deqBits]

theorem RedirectInv.waiting_next (h : RedirectInv B s g) (hv : redirectValid s io = true)
    (hready : (csrInputs B s io).redirectReady = false) :
    waiting (next B s io) = [target s io] := by
  have hw := h.no_write (B := B) hv
  have hmtvec := next_csrRegs_mtvec hw
  have hmepc : trap s io = false → (next B s io).csrRegs.mepc = s.csrRegs.mepc := by
    intro ht
    have ht' : raiseIntrExcep s.csrRegs io.interrupt (csrCmd s) (interCMDValid s) = false := ht
    have hno : ¬writesCsr B s io CsrConsts.Mepc := fun hwr => by simp [hwr.1] at hw
    rw [next_csrRegs_mepc, if_neg hno, ht']
    rfl
  rw [waiting, next_flushQ, hready, hmtvec]
  change _ = [if s.csrRegs.flushQ.deqBits (trap s io) then s.csrRegs.mtvec else s.csrRegs.mepc]
  cases hq : s.csrRegs.flushQ with
  | some b =>
    have hno : raises s io = false := (h.halted (by simp [hq])).not_raises
    have ht : trap s io = false := by
      simp only [raises, Bool.or_eq_false_iff] at hno
      exact hno.1
    cases b <;> simp [FlowQueue.deqBits, hmepc ht]
  | none =>
    have hr : raises s io = true := by simpa [redirectValid_eq, hq] using hv
    cases ht : trap s io
    case true => simp [FlowQueue.deqBits, FlowQueue.next, hr]
    case false => simp [FlowQueue.deqBits, FlowQueue.next, hr, hmepc ht]

theorem next_PC_of_redirectFire (h : redirectFire B s io = true) :
    (next B s io).ifStage.PC = target s io := by
  have hv : redirectValid s io = true := by
    simp only [redirectFire, CSRRegFile.redirectFire, Bool.and_eq_true] at h
    exact h.1
  have hfire : toIDFire B s io = true := by
    simp only [redirectFire, CSRRegFile.redirectFire, csrInputs, IF.excepCMDReady, toIDFire_eq,
      Bool.and_eq_true] at h
    exact h.2.1
  have hnext : (next B s io).ifStage.PC = RegEnable (IF.npc s.ifStage (ifInputs B s io))
      (IF.toIDFire B.config s.ifStage (ifInputs B s io)) s.ifStage.PC := rfl
  rw [hnext, toIDFire_eq, hfire, RegEnable_true]
  simp [IF.npc, PriorityMux, ifInputs, hv, target]

theorem RedirectInv.followed_next (h : RedirectInv B s g) :
    (g.observe B s io).raised = (g.observe B s io).taken ++ waiting (next B s io) := by
  have hfire : redirectFire B s io =
      (redirectValid s io && (csrInputs B s io).redirectReady) := rfl
  have hraised : (g.observe B s io).raised = g.raised ++ if raises s io then
      [if trap s io then s.csrRegs.mtvec else s.csrRegs.mepc] else [] := by
    cases hr : raises s io <;> simp [Redirects.observe, hr]
  rw [hraised, h.followed, List.append_assoc]
  cases hv : redirectValid s io
  case false =>
    have hq : s.csrRegs.flushQ = none ∧ raises s io = false := by
      simpa [redirectValid_eq] using hv
    have hwait : waiting (Core.next B s io) = [] := by
      simp [waiting, next_flushQ, hq, FlowQueue.next]
    rw [hwait, waiting, hq.1, hq.2]
    simp [Redirects.observe, hfire, hv]
  case true =>
    rw [h.offered hv]
    cases hready : (csrInputs B s io).redirectReady
    case false =>
      rw [h.waiting_next hv hready]
      simp [Redirects.observe, hfire, hready]
    case true =>
      have hf : redirectFire B s io = true := by simp [hfire, hv, hready]
      have hwait : waiting (Core.next B s io) = [] := by
        rw [waiting, next_flushQ, hready, FlowQueue.next_ready]
        rfl
      simp [Redirects.observe, hf, hwait, next_PC_of_redirectFire hf]

theorem RedirectInv.next (h : RedirectInv B s g) (hok : Flushable B s io) :
    RedirectInv B (next B s io) (g.observe B s io) where
  toGuarded := h.toGuarded.next hok.fault
  halted hq := by
    refine h.halted_next ?_ hok.div
    rw [next_flushQ] at hq
    by_contra hv
    rw [redirectValid_eq, Bool.not_eq_true, Bool.or_eq_false_iff, Option.isSome_eq_false_iff,
      Option.isNone_iff_eq_none] at hv
    simp [hv.1, hv.2, FlowQueue.next] at hq
  followed := h.followed_next

theorem IsReset.redirectInv (h : IsReset B s) : RedirectInv B s ⟨[], []⟩ := by
  have hq : s.csrRegs.flushQ = none := by
    rw [h.csrRegs]
    rfl
  exact ⟨h.guarded, fun hs => by simp [hq] at hs, by simp [waiting, hq]⟩

theorem redirects_inv {p : Regs × Redirects}
    (h : (withRedirects B).Reaches (fun p io => Flushable B p.1 io) p) :
    RedirectInv B p.1 p.2 :=
  h.monitor_invariant (P := RedirectInv B) (fun _ hs => hs.redirectInv)
    fun _ _ _ ih hok => ih.next hok

theorem redirects_kept {p : Regs × Redirects}
    (h : (withRedirects B).Reaches (fun p io => Flushable B p.1 io) p) :
    RedirectsKept B p.1 io p.2 := by
  have hinv := redirects_inv h
  refine ⟨fun hr => ?_, hinv.followed, fun hv => ?_⟩
  · by_contra hq
    have hp := hinv.halted (Option.isSome_iff_ne_none.2 hq)
    simp [hp.not_raises] at hr
  · have hflush := flush_of_redirect (B := B) hv
    exact ⟨toID_nop_of_flush hflush, toEXE_nop_of_flush hflush, hinv.toMEM_nop hv⟩

theorem redirects_kept_misalignedLoad :
    let p := (withRedirects .zeros).run (.reset .zeros 0, ⟨[], []⟩)
      (misalignedLoad 0x13 ++ [.fetch 0x13])
    p.2.taken = [0] ∧ RedirectsKept .zeros p.1 .idle p.2 := by
  have hr := (withRedirects .zeros).reaches_run (fun p io => Flushable .zeros p.1 io)
    (.reset .zeros 0, ⟨[], []⟩) (misalignedLoad 0x13 ++ [.fetch 0x13]) ⟨isReset_reset _ _, rfl⟩
    (by decide +kernel)
  exact ⟨by decide +kernel, redirects_kept hr⟩

def Inputs.dbusRequest : Inputs :=
  { Inputs.idle with dbus := ⟨true, ⟨false, ⟨0⟩⟩, ⟨false, ⟨false⟩⟩⟩ }

def Inputs.dbusRead : Inputs := { Inputs.idle with dbus := ⟨true, ⟨true, ⟨0⟩⟩, ⟨false, ⟨false⟩⟩⟩ }

/-- jalr x0, 0(x1) to a misaligned pc, lw x2, 2(x1) there and the given instruction behind it,
until the load has its answer. -/
def awaitedFault (inst : Word) : List Inputs :=
  [.request, .fetch 0x00008067, .request, .fetch 0x13, .fetch 0x13, .fetch 0x0020a103,
    .fetch inst, .fetch 0x13, .dbusRequest, .dbusRead]

/-- addi x2, x2, 1 waits for the load and follows it alive: the second exception comes while the
redirect of the first one waits. -/
theorem redirect_lost : ¬∀ p, (withRedirects .zeros).Reaches (fun _ _ => True) p →
    ∀ io, RedirectsKept .zeros p.1 io p.2 := by
  intro h
  have hr := (withRedirects .zeros).reaches_run (fun _ _ => True) (.reset .zeros 0x102, ⟨[], []⟩)
    (awaitedFault 0x00110113 ++ [.idle, .idle]) ⟨isReset_reset _ _, rfl⟩ (by decide +kernel)
  have haccepted := (h _ hr .idle).accepted (by decide +kernel)
  revert haccepted
  decide +kernel

end FpgaNpc.Core
