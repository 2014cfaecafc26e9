import FpgaNpc.Core.Flush
import FpgaNpc.Hardware.Ledger
import FpgaNpc.Hardware.Machine

open FpgaNpc.Hardware FpgaNpc.InterStage

namespace FpgaNpc.Core

/-- A non-nop instruction that IF handed to ID, with its number among those. -/
structure Handed where
  serial : Nat
  pc : Word
  inst : Word
  deriving DecidableEq

/-- The instructions on their way from IF to WB, and which of them each stage register holds:
none for the reset contents and for the nops of IF. `killed` tells of the one in EXE. -/
structure History where
  ledger : Ledger Handed
  id : Option Handed
  exe : Option Handed
  mem : Option Handed
  killed : Bool

def History.empty : History := ⟨.empty, none, none, none, false⟩

variable (B : Build) (s : Regs) (io : Inputs) (g : History)

section InFlight

def idHolds : List Handed :=
  if s.idStage.fromIF.nop || s.idStage.hasFired then [] else g.id.toList

def exeHolds : List Handed :=
  if s.exeStage.fromID.nop || g.killed then [] else g.exe.toList

def memHolds : List Handed :=
  if s.memStage.fromEXE.nop || s.memStage.hasFired then [] else g.mem.toList

def inFlight : List Handed := memHolds s g ++ exeHolds s g ++ idHolds s g

end InFlight

def handed : List Handed :=
  if toIDFire B s io && !(toID B s io).nop then
    [⟨g.ledger.entered.length, (toID B s io).pc, (toID B s io).inst⟩]
  else []

def latched : List Handed :=
  if toWBFire s io && !(toWB s io).nop then
    g.mem.toList.map fun h => ⟨h.serial, (toWB s io).pc, (toWB s io).inst⟩
  else []

def flushedInID : List Handed :=
  if toEXEFire B s io && !ID.stall (idInputs B s io) && flush B s io then idHolds s g else []

def killedInEXE : List Handed := if kill s io then exeHolds s g else []

def History.observe : History where
  ledger := g.ledger.step (handed B s io g) (latched s io g)
    (flushedInID B s io g ++ killedInEXE s io g)
  id := if toIDFire B s io then (handed B s io g).head? else g.id
  exe := if toEXEFire B s io then g.id else g.exe
  mem := if toMEMFire B s io then g.exe else g.mem
  killed := !toEXEFire B s io && (g.killed || (kill s io && !s.exeStage.fromID.nop))

def observed : Machine (Regs × History) Inputs :=
  (machine B).monitor .empty (History.observe B)

/-- WB has latched what IF handed over in the same order, but for what was flushed in ID or
killed in EXE and what is still in flight. What it latches besides are the reset contents. -/
def InOrder : Prop :=
  g.ledger.left ++ inFlight s g = g.ledger.remaining ∧
    (g.mem = none → s.memStage.fromEXE.nop = true ∨ s.memStage.fromEXE.pc = 0)

/-- No interrupt is accepted in the place of a division that starts in that cycle and cannot
leave. -/
def NoDivStarts : Prop :=
  interrupt s io = true → EXE.dividerReqValid s.exeStage = true →
    MEM.fromEXEReady s.memStage io.dbus = true

structure OrderInv : Prop extends Settled s where
  balanced : g.ledger.Balanced (inFlight s g)
  serials : ∀ h ∈ g.ledger.entered, h.serial < g.ledger.entered.length
  id : ∀ h ∈ g.id, h.pc = s.idStage.fromIF.pc ∧ h.inst = s.idStage.fromIF.inst
  exe : ∀ h ∈ g.exe, h.pc = s.exeStage.fromID.pc ∧ h.inst = s.exeStage.fromID.inst
  mem : ∀ h ∈ g.mem, h.pc = s.memStage.fromEXE.pc ∧ h.inst = s.memStage.fromEXE.inst
  idReset : g.id = none → s.idStage.fromIF.nop = true ∨ s.idStage.fromIF.pc = 0
  exeReset : g.exe = none → s.exeStage.fromID.nop = true ∨ s.exeStage.fromID.pc = 0
  memReset : g.mem = none → s.memStage.fromEXE.nop = true ∨ s.memStage.fromEXE.pc = 0
  killed : g.killed = true → s.csrRegs.hadInterrupt = true ∧
    s.csrRegs.flushQ.isSome = true ∧ interCMDValid s = true

instance : Decidable (InOrder s g) :=
  inferInstanceAs (Decidable (_ = _ ∧ (_ = _ → _ = _ ∨ _ = _)))

instance : Decidable (NoDivStarts s io) :=
  inferInstanceAs (Decidable (_ = _ → _ = _ → _ = _))

variable {B s io g}

theorem OrderInv.interrupt_of_killed (h : OrderInv s g) (hk : g.killed = true) :
    interrupt s io = true := by
  obtain ⟨hi, hq, hv⟩ := h.killed hk
  simp [interrupt, CSRRegFile.intrCmdReady, CSRRegFile.redirectValid, FlowQueue.deqValid, hi, hq,
    hv]

theorem OrderInv.latched_eq (h : OrderInv s g) :
    latched s io g = if toWBFire s io then memHolds s g else [] := by
  have hnop : (toWB s io).nop = (s.memStage.fromEXE.nop || s.memStage.hasFired) := rfl
  have hmap : g.mem.toList.map (fun h => (⟨h.serial, (toWB s io).pc, (toWB s io).inst⟩ : Handed)) =
      g.mem.toList := by
    cases hm : g.mem with
    | none => rfl
    | some a =>
      obtain ⟨hpc, hinst⟩ := h.mem a hm
      simp [toWB, MEM.toWB, ← hpc, ← hinst]
  rw [latched, hnop, hmap, memHolds]
  cases toWBFire s io <;> cases s.memStage.fromEXE.nop <;> cases s.memStage.hasFired <;> simp

theorem OrderInv.memHolds_next (h : OrderInv s g) :
    memHolds (next B s io) (g.observe B s io) =
      if toMEMFire B s io then (if kill s io then [] else exeHolds s g)
      else if toWBFire s io then [] else memHolds s g := by
  rw [memHolds, next_memStage_hasFired, next_fromEXE, History.observe]
  cases hfire : toMEMFire B s io
  case false => cases toWBFire s io <;> simp [memHolds]
  case true =>
    have hk : kill s io = false → g.killed = false := fun hk => by
      by_contra hkilled
      simp [kill, h.interrupt_of_killed (Bool.not_eq_false _ ▸ hkilled)] at hk
    simp only [if_true, toMEM_nop h.exeFired, exeHolds]
    cases hkill : kill s io <;> simp_all

theorem exeHolds_next :
    exeHolds (next B s io) (g.observe B s io) =
      if toEXEFire B s io then
        (if ID.stall (idInputs B s io) || flush B s io then [] else idHolds s g)
      else if kill s io then [] else exeHolds s g := by
  have hnop : (toEXE B s io).nop = (s.idStage.fromIF.nop || ID.stall (idInputs B s io) ||
    s.idStage.hasFired || flush B s io) := rfl
  rw [exeHolds, next_fromID, ← toEXEFire_eq, History.observe]
  cases toEXEFire B s io
  case true =>
    simp only [if_true, hnop, idHolds]
    cases ID.stall (idInputs B s io) <;> cases flush B s io <;> simp
  case false =>
    simp only [Bool.false_eq_true, if_false, exeHolds]
    cases s.exeStage.fromID.nop <;> cases kill s io <;> simp

theorem idHolds_next :
    idHolds (next B s io) (g.observe B s io) =
      if toIDFire B s io then handed B s io g
      else if toEXEFire B s io && !ID.stall (idInputs B s io) then [] else idHolds s g := by
  rw [idHolds, next_idStage, History.observe]
  cases hfire : toIDFire B s io
  case true =>
    simp only [if_true, handed, hfire]
    cases hn : (toID B s io).nop <;> simp
  case false =>
    simp only [Bool.false_eq_true, if_false, idHolds]
    cases s.idStage.hasFired <;> cases toEXEFire B s io <;>
      cases ID.stall (idInputs B s io) <;> simp

theorem OrderInv.filter_inFlight (h : OrderInv s g) :
    (inFlight s g).filter (· ∉ flushedInID B s io g ++ killedInEXE s io g) =
      memHolds s g ++ (if kill s io then [] else exeHolds s g) ++
        if toEXEFire B s io && !ID.stall (idInputs B s io) && flush B s io then []
        else idHolds s g := by
  have hnodup := (List.nodup_append.1 h.balanced.nodup_inside).2.1
  rw [inFlight, List.append_assoc, List.nodup_append] at hnodup
  obtain ⟨-, hei, hm⟩ := hnodup
  obtain ⟨-, -, hei⟩ := List.nodup_append.1 hei
  have hmem : (memHolds s g).filter (· ∉ flushedInID B s io g ++ killedInEXE s io g) =
      memHolds s g := by
    refine List.filter_eq_self.2 fun a ha => ?_
    have hid : a ∉ idHolds s g := fun hi => hm a ha a (List.mem_append_right _ hi) rfl
    have hexe : a ∉ exeHolds s g := fun he => hm a ha a (List.mem_append_left _ he) rfl
    simp only [List.mem_append, flushedInID, killedInEXE, decide_eq_true_eq, not_or]
    constructor <;> split <;> simp [hid, hexe]
  have hexe : (exeHolds s g).filter (· ∉ flushedInID B s io g ++ killedInEXE s io g) =
      if kill s io then [] else exeHolds s g := by
    split
    case isTrue hk => exact List.filter_eq_nil_iff.2 fun a ha => by simp [killedInEXE, hk, ha]
    case isFalse hk =>
      refine List.filter_eq_self.2 fun a ha => ?_
      simp only [List.mem_append, flushedInID, killedInEXE, hk, decide_eq_true_eq, not_or]
      constructor
      · split
        · exact fun hi => hei a ha a hi rfl
        · simp
      · simp
  have hid : (idHolds s g).filter (· ∉ flushedInID B s io g ++ killedInEXE s io g) =
      if toEXEFire B s io && !ID.stall (idInputs B s io) && flush B s io then []
      else idHolds s g := by
    split
    case isTrue hf => exact List.filter_eq_nil_iff.2 fun a ha => by simp [flushedInID, hf, ha]
    case isFalse hf =>
      refine List.filter_eq_self.2 fun a ha => ?_
      simp only [List.mem_append, flushedInID, killedInEXE, hf, decide_eq_true_eq, not_or]
      constructor
      · simp
      · split
        · exact fun he => hei a he a ha rfl
        · simp
  rw [inFlight, List.filter_append, List.filter_append, hmem, hexe, hid]

theorem OrderInv.conserved (h : OrderInv s g) :
    latched s io g ++ inFlight (next B s io) (g.observe B s io) =
      (inFlight s g).filter (· ∉ flushedInID B s io g ++ killedInEXE s io g) ++
        handed B s io g := by
  rw [h.filter_inFlight, h.latched_eq, inFlight, h.memHolds_next, exeHolds_next, idHolds_next]
  cases h3 : toMEMFire B s io
  case false =>
    have h1 := toIDFire_of_stall h3
    cases toWBFire s io <;> simp [toEXEFire_eq, h3, h1, handed]
  case true =>
    have h4 := toWBFire_of_toMEMFire h3
    cases h1 : toIDFire B s io
    case true =>
      have hstall := (toIDFire_spec h1).2
      cases flush B s io <;> simp [toEXEFire_eq, h3, h4, hstall]
    case false =>
      cases ID.stall (idInputs B s io) <;> cases flush B s io <;>
        simp [toEXEFire_eq, h3, h4, h1, handed]

theorem interrupt_lasts (hi : interrupt s io = true) (hfire : toMEMFire B s io = false)
    (hok : NoDivStarts s io) (hf : s.exeStage.hasFired = false) :
    (next B s io).csrRegs.hadInterrupt = true ∧
      (next B s io).csrRegs.flushQ.isSome = true ∧ interCMDValid (next B s io) = true := by
  obtain ⟨hraise, hredirect, hvalid⟩ := interrupt_spec hi
  obtain ⟨hnop, -, hflush, hmul, hdiv⟩ := interCMDValid_spec hvalid
  have hready := redirectReady_of_stall (toIDFire_of_stall hfire)
  have hkilled : EXE.nop s.exeStage (exeInputs B s io) = true := by
    simp [EXE.nop, exeInputs, hi]
  have hreq : EXE.dividerReqValid s.exeStage = false := by
    by_contra hreq
    have := hok hi (Bool.not_eq_false _ ▸ hreq)
    rw [toMEMFire, EXE.toMEMFire_of_nop hkilled] at hfire
    exact absurd this (by rw [← Bool.not_eq_true] at hfire; exact hfire)
  refine ⟨?_, ?_, ?_⟩
  · change (if CSRRegFile.raiseIntr s.csrRegs io.interrupt then true
      else if CSRRegFile.redirectFire s.csrRegs (csrInputs B s io) then false
      else s.csrRegs.hadInterrupt) = true
    rcases hraise with hr | hh
    · simp [hr]
    · simp [CSRRegFile.redirectFire, hready, hh]
  · change (FlowQueue.next s.csrRegs.flushQ _ _ (csrInputs B s io).redirectReady).isSome = true
    rw [hready, FlowQueue.isSome_next_stalled]
    exact hredirect
  · have hexe : (next B s io).exeStage.fromID = s.exeStage.fromID := by
      simp [next_fromID, hfire]
    have hmem : (next B s io).memStage.fromEXE = s.memStage.fromEXE := by
      simp [next_fromEXE, hfire]
    have hmul' : (next B s io).exeStage.multiplier.busy = false :=
      MultiCycle.next_idle hmul (by simp [EXE.multiplierReqValid, hkilled])
    have hdiv' : (next B s io).exeStage.divider.busy = false :=
      MultiCycle.next_idle hdiv hreq
    have hflush' : MEM.flush2EXE (next B s io).memStage = false := by
      rw [← hflush]
      simp [MEM.flush2EXE, MEM.ren, MEM.wen, MEM.align, MEM.vaddr, MEM.byteWise,
        MEM.controlSignals, hmem]
    simp [interCMDValid, EXE.interCMDValid, hexe, hnop, next_exeStage_hasFired hf, hflush', hmul',
      hdiv']

theorem OrderInv.next (h : OrderInv s g) (hok : NoDivStarts s io) :
    OrderInv (next B s io) (g.observe B s io) where
  toSettled := h.toSettled.next B io
  balanced := by
    refine h.balanced.step ?_ ?_ ?_ h.conserved
    · rw [handed]
      split <;> simp
    · intro a ha he
      rw [handed] at ha
      split at ha
      · simp only [List.mem_singleton] at ha
        have := h.serials a he
        simp [ha] at this
      · simp at ha
    · intro a ha
      simp only [List.mem_append, flushedInID, killedInEXE] at ha
      rcases ha with ha | ha <;> split at ha <;> simp_all [inFlight]
  serials a ha := by
    have hlen : (g.observe B s io).ledger.entered = g.ledger.entered ++ handed B s io g := rfl
    rw [hlen] at ha ⊢
    rcases List.mem_append.1 ha with ha | ha
    · have := h.serials a ha
      simp only [List.length_append]
      omega
    · rw [handed] at ha ⊢
      split at ha
      case isTrue hc => simp_all
      case isFalse => simp at ha
  id a ha := by
    simp only [next_idStage, History.observe] at ha ⊢
    cases hfire : toIDFire B s io
    case true =>
      simp only [hfire, if_true, handed] at ha ⊢
      cases hn : (toID B s io).nop <;> simp_all
      simp [← ha]
    case false => simpa [hfire] using h.id a (by simpa [hfire] using ha)
  exe a ha := by
    simp only [next_fromID, History.observe, ← toEXEFire_eq] at ha ⊢
    cases hfire : toEXEFire B s io
    case true => exact h.id a (by simpa [hfire] using ha)
    case false => exact h.exe a (by simpa [hfire] using ha)
  mem a ha := by
    simp only [next_fromEXE, History.observe] at ha ⊢
    cases hfire : toMEMFire B s io
    case true => exact h.exe a (by simpa [hfire] using ha)
    case false => exact h.mem a (by simpa [hfire] using ha)
  idReset hn := by
    simp only [next_idStage, History.observe] at hn ⊢
    cases hfire : toIDFire B s io
    case true =>
      simp only [hfire, if_true, handed] at hn ⊢
      cases hnop : (toID B s io).nop <;> simp_all
    case false => simpa [hfire] using h.idReset (by simpa [hfire] using hn)
  exeReset hn := by
    simp only [next_fromID, History.observe, ← toEXEFire_eq] at hn ⊢
    cases hfire : toEXEFire B s io
    case true =>
      rcases h.idReset (by simpa [hfire] using hn) with hnop | hpc
      · exact .inl (by simp [toEXE, ID.toEXE, ID.nop, hnop])
      · exact .inr hpc
    case false => simpa [hfire] using h.exeReset (by simpa [hfire] using hn)
  memReset hn := by
    simp only [next_fromEXE, History.observe] at hn ⊢
    cases hfire : toMEMFire B s io
    case true =>
      rcases h.exeReset (by simpa [hfire] using hn) with hnop | hpc
      · exact .inl (by simp [toMEM, EXE.toMEM, EXE.nop, hnop])
      · exact .inr hpc
    case false => simpa [hfire] using h.memReset (by simpa [hfire] using hn)
  killed hk := by
    simp only [History.observe, toEXEFire_eq, Bool.and_eq_true, Bool.not_eq_true',
      Bool.or_eq_true] at hk
    obtain ⟨hfire, hk⟩ := hk
    have hi : interrupt s io = true := by
      rcases hk with hk | ⟨hk, -⟩
      · exact h.interrupt_of_killed hk
      · rw [kill, Bool.or_eq_true] at hk
        refine hk.resolve_left fun hf => ?_
        simp [h.toSettled.toMEMFire_of_flush2EXE hf] at hfire
    exact interrupt_lasts hi hfire hok h.exeFired

theorem IsReset.orderInv (hs : IsReset B s) : OrderInv s .empty := by
  have hid := hs.idStage
  have hmem := hs.memStage
  obtain ⟨_, _, hexe⟩ := hs.exeStage
  refine ⟨hs.settled, ⟨List.nodup_nil, by simp [History.empty, Ledger.empty], ?_⟩, ?_, ?_, ?_,
    ?_, fun _ => .inr ?_, fun _ => .inr ?_, fun _ => .inr ?_, ?_⟩ <;>
    simp [History.empty, Ledger.empty, inFlight, memHolds, exeHolds, idHolds,
      Ledger.remaining, hid, hexe, hmem, ID.reset, MEM.reset, IfIdBus.zero, IdExeBus.zero,
      ExeMemBus.zero]

theorem latched_in_order {p : Regs × History}
    (h : (observed B).Reaches (fun p io => NoDivStarts p.1 io) p) : InOrder p.1 p.2 := by
  have hinv : OrderInv p.1 p.2 := h.monitor_invariant (P := OrderInv) (fun _ hs => hs.orderInv)
    fun _ _ _ ih hok => ih.next hok
  exact ⟨hinv.balanced.conserved, hinv.memReset⟩

/-- lw x2, 0(x0); div x3, x1, x1, with the interrupts enabled. -/
def enableLoadDiv : List Inputs :=
  enableInterrupts ++ [.fetch 0x00002103, .fetch 0x0210c1b3, .fetch 0x13]

theorem latched_in_order_enableLoadDiv :
    let p := (observed .zeros).run (.reset .zeros 0x888, .empty) enableLoadDiv
    InOrder p.1 p.2 := by
  have hr := (observed .zeros).reaches_run (fun p io => NoDivStarts p.1 io)
    (.reset .zeros 0x888, .empty) enableLoadDiv ⟨isReset_reset _ _, rfl⟩ (by decide +kernel)
  exact latched_in_order hr

/-- The timer interrupt is accepted when the division has come to EXE and the load to MEM. -/
def interruptDiv : List Inputs :=
  enableLoadDiv ++
    [{ Inputs.fetch 0x13 with interrupt := ⟨false, true, false⟩ },
      { Inputs.idle with dbus := ⟨true, ⟨false, ⟨0⟩⟩, ⟨false, ⟨false⟩⟩⟩ }] ++
    List.replicate 34 { Inputs.idle with dbus := ⟨true, ⟨true, ⟨0⟩⟩, ⟨false, ⟨false⟩⟩⟩ }

theorem interrupted_div_latched :
    ¬∀ p, (observed .zeros).Reaches (fun _ _ => True) p → InOrder p.1 p.2 := by
  intro h
  have hr := (observed .zeros).reaches_run (fun _ _ => True) (.reset .zeros 0x888, .empty)
    interruptDiv ⟨isReset_reset _ _, rfl⟩ (by decide +kernel)
  exact absurd (h _ hr) (by decide +kernel)

end FpgaNpc.Core
