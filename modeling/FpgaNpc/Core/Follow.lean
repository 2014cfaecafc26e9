import FpgaNpc.Core.Branch
import FpgaNpc.Hardware.Machine

open FpgaNpc.Hardware FpgaNpc.InterStage FpgaNpc.ControlSignals

namespace FpgaNpc.Core

open Riscv

variable (B : Build) (s : Regs) (io : Inputs) (g : Option Word) (pc : Word)

/-- A trap or a return takes the stream elsewhere, or a misaligned access is about to. -/
def diverts : Bool := redirectValid s io || MEM.flush2EXE s.memStage

structure TransferLeaves : Prop where
  leaves : toMEMFire B s io = true
  alive : (toMEM B s io).nop = false
  legal : s.exeStage.fromID.excepVec = 0#16
  transfers : (transfer s.exeStage.fromID.inst).isSome

instance : Decidable (TransferLeaves B s io) :=
  decidable_of_iff (toMEMFire B s io = true ∧ (toMEM B s io).nop = false ∧
      s.exeStage.fromID.excepVec = 0#16 ∧ (transfer s.exeStage.fromID.inst).isSome)
    ⟨fun ⟨hl, ha, he, ht⟩ => ⟨hl, ha, he, ht⟩, fun ⟨hl, ha, he, ht⟩ => ⟨hl, ha, he, ht⟩⟩

/-- The pc that the next instruction alive has to have, when a jump or a branch is the last one
that left EXE alive and nothing has diverted the stream since. -/
def following : Option Word :=
  if diverts s io then none
  else if TransferLeaves B s io then some (EXE.isaNextPc s.exeStage.fromID)
  else if toMEMFire B s io && !(toMEM B s io).nop then none
  else g

def withFollowing : Machine (Regs × Option Word) Inputs :=
  (machine B).monitor none (following B)

def Links (inst : Word) : Prop := Instructions.JAL.Matches inst ∨ Instructions.JALR.Matches inst

instance (inst : Word) : Decidable (Links inst) := inferInstanceAs (Decidable (_ ∨ _))

/-- What leaves EXE alive behind a jump or a branch is at the next pc of the ISA, and a jump that
comes to WB writes the pc behind it to its rd. -/
structure FollowsIsa : Prop where
  next : toMEMFire B s io = true → (toMEM B s io).nop = false → ∀ pc ∈ g,
    s.exeStage.fromID.pc = pc
  link : s.fromMEM.nop = false → Links s.fromMEM.inst →
    s.fromMEM.rd = s.fromMEM.inst.extractLsb 11 7 ∧ (s.fromMEM.rd ≠ 0 →
      (Core.next B s io).regFiles.read s.fromMEM.rd = s.fromMEM.pc + 4)

/-- A jump or a branch that leaves EXE has a sum with bit 0 clear when it is a JALR, does not lead
to the pc in front of the first one, and when it redirects it leaves in a cycle in which IF has an
instruction to hand over. -/
structure TransfersTaken : Prop where
  even : TransferLeaves B s io → ∀ t ∈ transfer s.exeStage.fromID.inst,
    t.target s.exeStage.fromID.inst s.exeStage.fromID.pc s.exeStage.fromID.rs1Data =
      t.sum s.exeStage.fromID.inst s.exeStage.fromID.pc s.exeStage.fromID.rs1Data
  boot : TransferLeaves B s io → EXE.isaNextPc s.exeStage.fromID ≠ B.config.PC_INIT - 4
  ready : TransferLeaves B s io → EXE.redirect s.exeStage.fromID = true →
    IF.toIDValid B.config s.ifStage io.port = true

instance : Decidable (TransfersTaken B s io) :=
  decidable_of_iff
    ((TransferLeaves B s io → ∀ t ∈ transfer s.exeStage.fromID.inst,
        t.target s.exeStage.fromID.inst s.exeStage.fromID.pc s.exeStage.fromID.rs1Data =
          t.sum s.exeStage.fromID.inst s.exeStage.fromID.pc s.exeStage.fromID.rs1Data) ∧
      (TransferLeaves B s io → EXE.isaNextPc s.exeStage.fromID ≠ B.config.PC_INIT - 4) ∧
      (TransferLeaves B s io → EXE.redirect s.exeStage.fromID = true →
        IF.toIDValid B.config s.ifStage io.port = true))
    ⟨fun ⟨he, hb, hr⟩ => ⟨he, hb, hr⟩, fun ⟨he, hb, hr⟩ => ⟨he, hb, hr⟩⟩

def IDAlive : Prop := s.idStage.fromIF.nop = false ∧ s.idStage.hasFired = false

def idPredicted : Word :=
  if s.idStage.fromIF.branchPred then s.idStage.fromIF.predTarget else s.idStage.fromIF.pc + 4

structure FrontAt : Prop where
  id : IDAlive s → s.idStage.fromIF.pc = pc
  fetch : ¬IDAlive s → s.ifStage.PC = pc

structure StreamAt : Prop where
  exe : s.exeStage.fromID.nop = false → s.exeStage.fromID.pc = pc
  front : s.exeStage.fromID.nop = true → FrontAt s pc

structure FollowInv : Prop extends Settled s, Steered s where
  id : IDAlive s → (transfer s.idStage.fromIF.inst).isSome → s.ifStage.PC = idPredicted s
  exe : s.exeStage.fromID.nop = false → (transfer s.exeStage.fromID.inst).isSome →
    EXE.predicted s.exeStage.fromID ≠ B.config.PC_INIT - 4 →
    FrontAt s (EXE.predicted s.exeStage.fromID)
  stream : ∀ pc ∈ g, pc ≠ B.config.PC_INIT - 4 ∧ StreamAt s pc

variable {B s io g pc}

section Front

theorem next_ifStage_PC : (next B s io).ifStage.PC =
    if toIDFire B s io then IF.npc s.ifStage (ifInputs B s io) else s.ifStage.PC := rfl

theorem jumpBusValid_of_no_flush (h : flush B s io = false) :
    EXE.jumpBusValid s.exeStage (exeInputs B s io) = false := by
  rw [flush, Bool.or_eq_false_iff, EXE.flush, Bool.or_eq_false_iff] at h
  cases hn : EXE.nop s.exeStage (exeInputs B s io)
  case true => simp [EXE.jumpBusValid, hn]
  case false =>
    have hall := h.1.1
    simp only [hn, Bool.not_false, Bool.and_true, Bool.or_eq_false_iff] at hall
    exact hall.1.1.1

theorem redirectValid_of_no_flush (h : flush B s io = false) : redirectValid s io = false := by
  rw [flush, Bool.or_eq_false_iff] at h
  exact h.2

theorem npc_of_no_flush (h : flush B s io = false) : IF.npc s.ifStage (ifInputs B s io) =
    if io.branchPredResp.branchPred then io.branchPredResp.branchPredTarget
    else s.ifStage.PC + 4 := by
  simp [IF.npc, PriorityMux, ifInputs, redirectValid_of_no_flush h, EXE.jumpBus,
    jumpBusValid_of_no_flush h]

theorem idStage_of_stay (h : toMEMFire B s io = false) : (next B s io).idStage = s.idStage := by
  simp [next_idStage, toIDFire_of_stall h, toEXEFire_eq, h]

theorem ifStage_PC_of_stay (h : toMEMFire B s io = false) :
    (next B s io).ifStage.PC = s.ifStage.PC := by
  simp [next_ifStage_PC, toIDFire_of_stall h]

theorem FrontAt.stay (h : FrontAt s pc) (hfire : toMEMFire B s io = false) :
    FrontAt (next B s io) pc := by
  constructor
  · rw [IDAlive, idStage_of_stay hfire]
    exact h.id
  · rw [IDAlive, idStage_of_stay hfire, ifStage_PC_of_stay hfire]
    exact h.fetch

theorem FrontAt.of_fire (hfire : toIDFire B s io = true) (hflush : flush B s io = false)
    (hpc : s.ifStage.PC = pc) (hne : pc ≠ B.config.PC_INIT - 4) : FrontAt (next B s io) pc := by
  have hid : (next B s io).idStage = ⟨toID B s io, false⟩ := by simp [next_idStage, hfire]
  have hnop : (toID B s io).nop = false := by
    simpa [toID, IF.toID, ifInputs, hflush, hpc] using hne
  refine ⟨fun _ => ?_, fun hn => absurd ?_ hn⟩
  · rw [hid]
    exact hpc
  · rw [IDAlive, hid]
    exact ⟨hnop, rfl⟩

theorem FrontAt.advance (h : FrontAt s pc) (hne : pc ≠ B.config.PC_INIT - 4)
    (hflush : flush B s io = false) (hfire : toMEMFire B s io = true) :
    StreamAt (next B s io) pc := by
  have hexe : (next B s io).exeStage.fromID = toEXE B s io := by simp [next_fromID, hfire]
  have hnop : (toEXE B s io).nop = (s.idStage.fromIF.nop || ID.stall (idInputs B s io) ||
      s.idStage.hasFired || false) := by
    rw [← hflush]
    rfl
  by_cases ha : IDAlive s
  case pos =>
    constructor <;> intro hn <;> rw [hexe] at hn
    case exe =>
      rw [hexe]
      exact h.id ha
    case front =>
      have hst : ID.stall (idInputs B s io) = true := by
        rw [hnop, ha.1, ha.2] at hn
        simpa using hn
      have hwait : toIDFire B s io = false := by
        by_contra hf
        rw [Bool.not_eq_false] at hf
        rw [(toIDFire_spec hf).2] at hst
        exact Bool.false_ne_true hst
      have hid : (next B s io).idStage = s.idStage := by simp [next_idStage, hwait, hst]
      refine ⟨fun _ => ?_, fun hd => absurd ?_ hd⟩
      · rw [hid]
        exact h.id ha
      · rw [IDAlive, hid]
        exact ha
  case neg =>
    have hbubble : (toEXE B s io).nop = true := by
      rw [IDAlive, not_and, Bool.not_eq_false] at ha
      rw [hnop]
      cases hn : s.idStage.fromIF.nop
      case true => rfl
      case false => simp [ha hn]
    refine ⟨fun hn => by simp [hexe, hbubble] at hn, fun _ => ?_⟩
    cases hid : toIDFire B s io
    case true => exact .of_fire hid hflush (h.fetch ha) hne
    case false =>
      have hdead : ¬IDAlive (next B s io) := by
        rw [IDAlive, next_idStage, hid]
        rw [IDAlive] at ha
        rintro ⟨hn, hf⟩
        refine ha ⟨hn, ?_⟩
        simp only [Bool.not_false, Bool.true_and, Bool.or_eq_false_iff] at hf
        exact hf.1
      refine ⟨fun hd => absurd hd hdead, fun _ => ?_⟩
      rw [next_ifStage_PC, hid]
      exact h.fetch ha

end Front

section Stream

theorem FollowInv.id_next (h : FollowInv B s g) (ha : IDAlive (next B s io))
    (ht : (transfer (next B s io).idStage.fromIF.inst).isSome) :
    (next B s io).ifStage.PC = idPredicted (next B s io) := by
  rw [idPredicted, next_ifStage_PC]
  rw [IDAlive] at ha
  rw [next_idStage] at ha ht ⊢
  cases hfire : toIDFire B s io
  case true =>
    simp only [hfire, if_true] at ha ⊢
    have hflush : flush B s io = false := by
      have hn := ha.1
      simp only [toID, IF.toID, ifInputs, Bool.or_eq_false_iff] at hn
      exact hn.2
    exact npc_of_no_flush hflush
  case false =>
    simp only [hfire, Bool.false_eq_true, if_false, Bool.not_false, Bool.true_and,
      Bool.or_eq_false_iff] at ha ht ⊢
    exact h.id ⟨ha.1, ha.2.1⟩ ht

theorem FollowInv.exe_next (h : FollowInv B s g)
    (ha : (next B s io).exeStage.fromID.nop = false)
    (ht : (transfer (next B s io).exeStage.fromID.inst).isSome)
    (hne : EXE.predicted (next B s io).exeStage.fromID ≠ B.config.PC_INIT - 4) :
    FrontAt (next B s io) (EXE.predicted (next B s io).exeStage.fromID) := by
  rw [next_fromID] at ha ht hne ⊢
  cases hfire : toMEMFire B s io
  case false =>
    simp only [hfire, Bool.false_eq_true, if_false] at ha ht hne ⊢
    exact (h.exe ha ht hne).stay hfire
  case true =>
    simp only [hfire, if_true] at ha ht hne ⊢
    obtain ⟨hnop, hst, hfired, hflush⟩ := toEXE_alive ha
    have hpc : s.ifStage.PC = EXE.predicted (toEXE B s io) := h.id ⟨hnop, hfired⟩ ht
    cases hid : toIDFire B s io
    case true => exact .of_fire hid hflush hpc hne
    case false =>
      have hdead : ¬IDAlive (Core.next B s io) := by
        rw [IDAlive, next_idStage, hid]
        simp [toEXEFire_eq, hfire, hst]
      refine ⟨fun hd => absurd hd hdead, fun _ => ?_⟩
      rw [next_ifStage_PC, hid]
      exact hpc

theorem not_diverts (h : diverts s io = false) :
    redirectValid s io = false ∧ MEM.flush2EXE s.memStage = false := by
  rwa [diverts, Bool.or_eq_false_iff] at h

theorem alive_of_toMEM (h : FollowInv B s g) (ha : (toMEM B s io).nop = false) :
    s.exeStage.fromID.nop = false ∧ interrupt s io = false := by
  rw [toMEM_nop h.exeFired, Bool.or_eq_false_iff, kill, Bool.or_eq_false_iff] at ha
  exact ⟨ha.1, ha.2.2⟩

theorem FollowInv.leaving (h : FollowInv B s g) (hl : TransferLeaves B s io) :
    s.exeStage.fromID.nop = false ∧ interrupt s io = false ∧
      s.exeStage.fromID.decodeBundle.fuType = FuType.BRU ∧
        s.exeStage.fromID.decodeBundle.fencei = false := by
  obtain ⟨t, ht⟩ := Option.isSome_iff_exists.1 hl.transfers
  obtain ⟨hn, hint⟩ := alive_of_toMEM h hl.alive
  have hsteers := h.steers hn (h.inTable hn hl.legal)
  exact ⟨hn, hint, beq_iff_eq.1 (hsteers.isBRU t ht), hsteers.fencei t ht⟩

theorem FollowInv.stream_of_redirect (h : FollowInv B s g) (hd : diverts s io = false)
    (hl : TransferLeaves B s io) (hok : TransfersTaken B s io)
    (hr : EXE.redirect s.exeStage.fromID = true) :
    StreamAt (next B s io) (EXE.jumpTarget s.exeStage.fromID) := by
  obtain ⟨-, -, hbru, -⟩ := h.leaving hl
  have hvalid : EXE.jumpBusValid s.exeStage (exeInputs B s io) = true := by
    have hn : EXE.nop s.exeStage (exeInputs B s io) = false := hl.alive
    simp [EXE.jumpBusValid, hr, hn]
  have hflush : flush B s io = true := by
    cases hf : flush B s io
    case true => rfl
    case false => simp [jumpBusValid_of_no_flush hf] at hvalid
  have hst : ID.stall (idInputs B s io) = false := by
    by_contra hst
    have hval := (stall_spec (toWBFire_of_toMEMFire hl.leaves) (Bool.not_eq_false _ ▸ hst)).1
    simp [EXE.bypass, hbru] at hval
  have hfire : toIDFire B s io = true := by
    have hready := hok.ready hl hr
    have hexe : toEXEFire B s io = true := (toEXEFire_eq B s io).trans hl.leaves
    simp only [toEXEFire, ID.toEXEFire] at hexe
    simp only [toIDFire, ID.fromIFFire, ID.fromIFReady, hst, hexe, Bool.not_false, Bool.and_true]
    exact hready
  have hnpc : IF.npc s.ifStage (ifInputs B s io) = EXE.jumpTarget s.exeStage.fromID := by
    simp [IF.npc, PriorityMux, ifInputs, (not_diverts hd).1, EXE.jumpBus, hvalid]
  refine ⟨fun hn => ?_, fun _ => ⟨fun ha => ?_, fun _ => ?_⟩⟩
  · rw [next_fromID, hl.leaves, if_pos rfl, toEXE_nop_of_flush hflush] at hn
    exact Bool.noConfusion hn
  · rw [IDAlive, next_idStage, hfire, if_pos rfl, toID_nop_of_flush hflush] at ha
    exact Bool.noConfusion ha.1
  · rw [next_ifStage_PC, hfire, if_pos rfl, hnpc]

theorem FollowInv.stream_of_no_redirect (h : FollowInv B s g) (hd : diverts s io = false)
    (hl : TransferLeaves B s io) (hne : EXE.jumpTarget s.exeStage.fromID ≠ B.config.PC_INIT - 4)
    (hr : EXE.redirect s.exeStage.fromID = false) :
    StreamAt (next B s io) (EXE.jumpTarget s.exeStage.fromID) := by
  obtain ⟨hn, hint, hbru, hfence⟩ := h.leaving hl
  have hcsr : EXE.isCSR s.exeStage.fromID = false := by
    rw [EXE.isCSR, hbru]
    rfl
  have hflush : flush B s io = false := by
    simp [flush, not_diverts hd, EXE.flush, EXE.jumpBusValid, hr, hcsr, hfence, hl.legal, orR,
      exeInputs, hint]
  rw [← EXE.predicted_of_no_redirect hr] at hne ⊢
  exact (h.exe hn hl.transfers hne).advance hne hflush hl.leaves

theorem StreamAt.keep (h : StreamAt s pc) (hf : s.exeStage.hasFired = false)
    (hne : pc ≠ B.config.PC_INIT - 4) (hd : diverts s io = false)
    (hn : (toMEMFire B s io && !(toMEM B s io).nop) = false) : StreamAt (next B s io) pc := by
  obtain ⟨hvalid, hmem⟩ := not_diverts hd
  have hint : interrupt s io = false := by
    by_contra hi
    simp [(interrupt_spec (Bool.not_eq_false _ ▸ hi)).2.1] at hvalid
  have htoMEM : (toMEM B s io).nop = s.exeStage.fromID.nop := by
    rw [toMEM_nop hf, kill, hmem, hint, Bool.or_false, Bool.or_false]
  rw [htoMEM] at hn
  cases hnop : s.exeStage.fromID.nop
  case false =>
    have hfire : toMEMFire B s io = false := by simpa [hnop] using hn
    have hid : (next B s io).exeStage.fromID = s.exeStage.fromID := by simp [next_fromID, hfire]
    refine ⟨fun _ => ?_, fun hb => ?_⟩
    · rw [hid]
      exact h.exe hnop
    · rw [hid, hnop] at hb
      exact Bool.noConfusion hb
  case true =>
    have hflush : flush B s io = false := by
      simp [flush, EXE.flush, EXE.nop, hnop, exeInputs, hmem, hvalid]
    cases hfire : toMEMFire B s io
    case true => exact (h.front hnop).advance hne hflush hfire
    case false =>
      refine ⟨fun ha => ?_, fun _ => (h.front hnop).stay hfire⟩
      rw [next_fromID, hfire, if_neg Bool.false_ne_true, hnop] at ha
      exact Bool.noConfusion ha

theorem FollowInv.stream_next (h : FollowInv B s g) (hok : TransfersTaken B s io) :
    ∀ pc ∈ following B s io g,
      pc ≠ B.config.PC_INIT - 4 ∧ StreamAt (next B s io) pc := by
  intro pc hpc
  rw [following] at hpc
  split at hpc
  case isTrue => exact absurd hpc (by simp)
  case isFalse hd =>
    rw [Bool.not_eq_true] at hd
    split at hpc
    case isTrue hl =>
      obtain rfl := Option.mem_some.1 hpc
      have halive := (alive_of_toMEM h hl.alive).1
      have htarget := (h.steers halive (h.inTable halive hl.legal)).jumpTarget_eq (hok.even hl)
      refine ⟨hok.boot hl, ?_⟩
      rw [← htarget]
      cases hr : EXE.redirect s.exeStage.fromID
      case true => exact h.stream_of_redirect hd hl hok hr
      case false => exact h.stream_of_no_redirect hd hl (by rw [htarget]; exact hok.boot hl) hr
    case isFalse =>
      split at hpc
      case isTrue => exact absurd hpc (by simp)
      case isFalse hn =>
        obtain ⟨hne, hs⟩ := h.stream pc hpc
        exact ⟨hne, hs.keep h.exeFired hne hd (Bool.not_eq_true _ ▸ hn)⟩

theorem FollowInv.next (h : FollowInv B s g) (hok : TransfersTaken B s io) :
    FollowInv B (next B s io) (following B s io g) where
  toSettled := h.toSettled.next B io
  toSteered := h.toSteered.next B io
  id := h.id_next
  exe := h.exe_next
  stream := h.stream_next hok

theorem IsReset.followInv (h : IsReset B s) : FollowInv B s none := by
  obtain ⟨_, _, hexe⟩ := h.exeStage
  have hid : transfer s.idStage.fromIF.inst = none := by
    rw [h.idStage]
    decide
  have hinst : transfer s.exeStage.fromID.inst = none := by
    rw [hexe]
    change transfer 0 = none
    decide
  exact ⟨h.settled, h.steered, by simp [hid], by simp [hinst], by simp⟩

end Stream

section Link

open Instructions ControlLogic

theorem Decoder.links_row (d : Decoder) {inst : Word} (h : Links inst) :
    (d.ctrlWord inst).decodeBundle.regWrite = true ∧
      (d.ctrlWord inst).decodeBundle.memRead = 0#4 ∧
      (d.ctrlWord inst).decodeBundle.fuType = FuType.BRU := by
  have hrows : ∀ q ∈ [JAL, JALR], ∃ p ∈ table, p.1.mask = q.mask ∧ p.1.value = q.value ∧
      p.2.regWrite = some true ∧ p.2.memRead = some 0#4 ∧ p.2.fuType = some FuType.BRU := by
    decide +kernel
  obtain ⟨q, hq, hm⟩ : ∃ q ∈ [JAL, JALR], q.Matches inst := by simpa [Links] using h
  obtain ⟨p, hp, hmask, hvalue, hw, hr, hf⟩ := hrows q hq
  have ha := d.row inst p hp (by rwa [BitPat.Matches, hmask, hvalue])
  exact ⟨ha.regWrite _ hw, ha.memRead _ hr, ha.fuType _ hf⟩

structure LinkInv (s : Regs) : Prop where
  exe : s.exeStage.fromID.nop = false → Links s.exeStage.fromID.inst →
    s.exeStage.fromID.rd = s.exeStage.fromID.inst.extractLsb 11 7 ∧
      s.exeStage.fromID.decodeBundle.regWrite = true ∧
      s.exeStage.fromID.decodeBundle.memRead = 0#4 ∧
      s.exeStage.fromID.decodeBundle.fuType = FuType.BRU
  mem : s.memStage.fromEXE.nop = false → Links s.memStage.fromEXE.inst →
    s.memStage.fromEXE.rd = s.memStage.fromEXE.inst.extractLsb 11 7 ∧
      s.memStage.fromEXE.controlSignals.regWrite = true ∧
      s.memStage.fromEXE.controlSignals.memRead = false ∧
      s.memStage.fromEXE.controlSignals.fuTypeAMO = false ∧
      s.memStage.fromEXE.controlSignals.regWriteData = s.memStage.fromEXE.pc + 4
  wb : s.fromMEM.nop = false → Links s.fromMEM.inst →
    s.fromMEM.rd = s.fromMEM.inst.extractLsb 11 7 ∧ s.fromMEM.regWrite = true ∧
      s.fromMEM.regWriteData = s.fromMEM.pc + 4

theorem LinkInv.next (h : LinkInv s) : LinkInv (next B s io) where
  exe := by
    rw [next_fromID]
    cases toMEMFire B s io
    case false => exact h.exe
    case true =>
      intro hn hl
      refine ⟨rfl, ?_⟩
      have hbundle : (toEXE B s io).decodeBundle =
          (B.decoder.ctrlWord (toEXE B s io).inst).decodeBundle := ID.decodeBundle_of_alive hn
      simp only [if_true, hbundle]
      exact Decoder.links_row _ hl
  mem := by
    rw [next_fromEXE]
    cases toMEMFire B s io
    case false => exact h.mem
    case true =>
      intro hn hl
      simp only [if_true] at hn hl ⊢
      have halive : s.exeStage.fromID.nop = false := by
        simp only [toMEM, EXE.toMEM, EXE.nop, Bool.or_eq_false_iff] at hn
        exact hn.1.1.1
      obtain ⟨hrd, hw, hr, hf⟩ := h.exe halive hl
      refine ⟨hrd, hw, ?_, ?_, ?_⟩ <;>
        simp [toMEM, EXE.toMEM, EXE.controlSignals, EXE.regWdata, Mux1H, orR, hr, hf]
  wb := by
    rw [next_fromMEM]
    cases toWBFire s io
    case false => exact h.wb
    case true =>
      intro hn hl
      simp only [if_true] at hn hl ⊢
      have hnop : s.memStage.fromEXE.nop = false := by
        have hboth := hn
        simp only [toWB, MEM.toWB, MEM.nop, Bool.or_eq_false_iff] at hboth
        exact hboth.1
      obtain ⟨hrd, hw, hr, hf, hdata⟩ := h.mem hnop hl
      have hmem : MEM.nop s.memStage = false := hn
      refine ⟨hrd, ?_, ?_⟩
      · simp [toWB, MEM.toWB, MEM.regWrite, MEM.ren, MEM.controlSignals, hw, hr, hmem]
      · simpa [toWB, MEM.toWB, MEM.regWdata, PriorityMux, MEM.ren, MEM.controlSignals, hr, hf]
          using hdata

theorem IsReset.linkInv (h : IsReset B s) : LinkInv s := by
  obtain ⟨_, _, hexe⟩ := h.exeStage
  have hno : ¬Links 0 := by decide
  constructor
  · rw [hexe]
    exact fun _ hl => absurd hl hno
  · rw [h.memStage]
    exact fun _ hl => absurd hl hno
  · rw [h.fromMEM]
    exact fun _ hl => absurd hl hno

theorem LinkInv.written (h : LinkInv s) (hn : s.fromMEM.nop = false)
    (hl : Links s.fromMEM.inst) (hrd : s.fromMEM.rd ≠ 0) :
    (Core.next B s io).regFiles.read s.fromMEM.rd = s.fromMEM.pc + 4 := by
  obtain ⟨-, hw, hdata⟩ := h.wb hn hl
  have hwen : WB.writePortWen s.fromMEM = true := (WB.writePortWen_of_ne hrd).trans hw
  refine (RegFiles.read_write _ _ _ fun _ => hrd).trans ?_
  rw [if_pos ⟨hwen, rfl⟩]
  exact hdata

end Link

theorem transfers_followed {p : Regs × Option Word}
    (h : (withFollowing B).Reaches (fun p io => TransfersTaken B p.1 io) p) :
    FollowsIsa B p.1 io p.2 := by
  have hinv : FollowInv B p.1 p.2 ∧ LinkInv p.1 := by
    refine h.monitor_invariant (P := fun s g => FollowInv B s g ∧ LinkInv s)
      (fun s hs => ⟨IsReset.followInv hs, IsReset.linkInv hs⟩)
      fun s g io ih hok => ⟨ih.1.next hok, ih.2.next⟩
  constructor
  case next =>
    intro _ ha pc hpc
    exact (hinv.1.stream pc hpc).2.exe (alive_of_toMEM hinv.1 ha).1
  case link =>
    intro hn hl
    exact ⟨(hinv.2.wb hn hl).1, hinv.2.written hn hl⟩

def jumpThen (inst : Word) : List Inputs :=
  [.request, .fetch 0x13, .fetch inst, .fetch 0x13, .fetch 0x13, .fetch 0x13, .fetch 0x13]

/-- jal x1, 16 -/
theorem transfers_followed_jal :
    let p := (withFollowing .zeros).run (.reset .zeros 0, none) (jumpThen 0x010000ef)
    p.2 = some 0x10000010 ∧ toMEMFire .zeros p.1 .idle = true ∧
      (toMEM .zeros p.1 .idle).nop = false ∧ FollowsIsa .zeros p.1 .idle p.2 := by
  have hr := (withFollowing .zeros).reaches_run (fun p io => TransfersTaken .zeros p.1 io)
    (.reset .zeros 0, none) (jumpThen 0x010000ef) ⟨isReset_reset _ _, rfl⟩ (by decide +kernel)
  exact ⟨by decide +kernel, by decide +kernel, by decide +kernel, transfers_followed hr⟩

/-- jalr x0, 0(x1) with an odd address in x1: what follows is at that address. -/
theorem jalr_to_odd_pc : ¬∀ p, (withFollowing .zeros).Reaches (fun _ _ => True) p → ∀ io,
    FollowsIsa .zeros p.1 io p.2 := by
  intro h
  have hr := (withFollowing .zeros).reaches_run (fun _ _ => True) (.reset .zeros 0x101, none)
    (jumpThen 0x00008067) ⟨isReset_reset _ _, rfl⟩ (by decide +kernel)
  have hpc := (h _ hr .idle).next (by decide +kernel) (by decide +kernel) 0x100 (by decide +kernel)
  revert hpc
  decide +kernel

end FpgaNpc.Core
