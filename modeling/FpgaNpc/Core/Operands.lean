import FpgaNpc.Core.DataPort
import FpgaNpc.Core.Flush

open FpgaNpc.Hardware FpgaNpc.ControlSignals FpgaNpc.InterStage

namespace FpgaNpc

theorem InterStage.DecodeBundle.FromTable.tableOp {s : EXE.Regs} {io : EXE.Inputs} {m : MEM.Regs}
    (h : s.fromID.decodeBundle.FromTable) (hfrom : m.fromEXE = EXE.toMEM s io)
    (ha : s.fromID.nop = false) : MEM.TableOp m := by
  constructor
  · intro hr hw
    simp only [MEM.ren, MEM.wen, MEM.controlSignals, hfrom, EXE.toMEM, EXE.controlSignals, orR,
      Bool.and_eq_true, bne_iff_ne, beq_iff_eq] at hr hw ⊢
    rcases (h.memRead hr.1.1).2 with ⟨-, h0⟩ | hamo
    · exact absurd h0 hw.1.1
    · exact hamo
  · intro hlr hn
    simp only [MEM.isLR, MEM.controlSignals, hfrom, EXE.toMEM, EXE.controlSignals,
      Bool.and_eq_true, beq_iff_eq] at hlr hn
    simpa [MEM.ren, MEM.controlSignals, hfrom, EXE.toMEM, EXE.controlSignals, hn, ha, orR] using
      h.lr hlr.1 hlr.2

namespace Core

variable (B : Build) (s : Regs) (io : Inputs) (g : MEM.Port)

def written : RegFiles :=
  s.regFiles.write (WB.writePortWen s.fromMEM) s.fromMEM.rd (WB.regWdata s.fromMEM)

def writtenBack : RegFiles :=
  (written s).write (WB.writePortWen (toWB s io)) (toWB s io).rd (WB.regWdata (toWB s io))

structure HasOperands (R : RegFiles) (b : IdExeBus) : Prop where
  rs1Data : b.rs1Data = R.read (b.inst.extractLsb 19 15)
  rs2Data : b.rs2Data = R.read (b.inst.extractLsb 24 20)

/-- The operands that ID handed to EXE are what the registers hold once the instructions that
were then in EXE, MEM and WB have written back: the last of them is in MEM and passes on. -/
def Forwarded : Prop :=
  s.exeStage.fromID.nop = false → toWBFire s io = true →
    HasOperands (writtenBack s io) s.exeStage.fromID

def withDataPort : Machine (Regs × MEM.Port) Inputs :=
  (machine B).monitor .idle fun s io g =>
    g.observe s.memStage io.dbus (EXE.toMEMValid s.exeStage (exeInputs B s io))

/-- No SC to address 0 that fails is held up in MEM by EXE. -/
def SCPasses : Prop :=
  MEM.SCPasses s.memStage io.dbus (EXE.toMEMValid s.exeStage (exeInputs B s io))

instance : Decidable (SCPasses B s io) := inferInstanceAs (Decidable (MEM.SCPasses _ _ _))

structure Pending (m : MEM.Regs) (rs : BitVec 5) : Prop where
  nop : m.fromEXE.nop = false
  hasFired : m.hasFired = false
  regWrite : MEM.regWrite m = true
  rd : m.fromEXE.rd = rs
  rs : rs ≠ 0#5

/-- The datum is the result that MEM holds for the register, else what the register holds. -/
structure Captured (rs : BitVec 5) (data : Word) : Prop where
  pending : Pending s.memStage rs → (MEM.controlSignals s.memStage).fuTypeAMO = false ∧
    MEM.ren s.memStage = false ∧ data = (MEM.controlSignals s.memStage).regWriteData
  written : ¬Pending s.memStage rs → data = (written s).read rs

structure OperandsInv : Prop extends Settled s where
  served : MEM.Served s.memStage g
  memTable : s.memStage.fromEXE.nop = false → s.memStage.fromEXE.excepVec = 0#16 →
    MEM.TableOp s.memStage
  /-- A result that was passed on and is still shown is the one in its register. -/
  again : s.memStage.hasFired = true → s.memStage.fromEXE.nop = false → ∀ i, g.Kept i →
    MEM.toWBValid s.memStage i = true ∧ (MEM.regWrite s.memStage = true →
      s.memStage.fromEXE.rd ≠ 0#5 →
        MEM.regWdata s.memStage i = (written s).read s.memStage.fromEXE.rd)
  rs1 : s.exeStage.fromID.nop = false →
    Captured s (s.exeStage.fromID.inst.extractLsb 19 15) s.exeStage.fromID.rs1Data
  rs2 : s.exeStage.fromID.nop = false →
    Captured s (s.exeStage.fromID.inst.extractLsb 24 20) s.exeStage.fromID.rs2Data

variable {B s io g}

theorem writtenBack_read (s : Regs) (io : Inputs) (rs : BitVec 5) : (writtenBack s io).read rs =
    if (toWB s io).regWrite = true ∧ s.memStage.fromEXE.rd = rs ∧ rs ≠ 0#5 then
      MEM.regWdata s.memStage io.dbus else (written s).read rs := by
  rw [writtenBack, RegFiles.read_write _ _ _ fun h => (WB.writePortWen_spec h).1]
  change (if WB.writePortWen (toWB s io) = true ∧ s.memStage.fromEXE.rd = rs then
    MEM.regWdata s.memStage io.dbus else _) = _
  refine if_congr ⟨fun ⟨hw, hrd⟩ => ?_, fun ⟨hw, hrd, h0⟩ => ⟨?_, hrd⟩⟩ rfl rfl
  · obtain ⟨h0, hw⟩ := WB.writePortWen_spec hw
    exact ⟨hw, hrd, hrd ▸ h0⟩
  · rw [WB.writePortWen_of_ne (by rw [← hrd] at h0; exact h0), hw]

theorem written_next (h : toWBFire s io = true) : written (next B s io) = writtenBack s io := by
  simp [written, writtenBack, next, h]

theorem written_next_read (rs : BitVec 5) (h : toWBFire s io = false) :
    (written (next B s io)).read rs = (written s).read rs := by
  have hspec : WB.writePortWen s.fromMEM = true → s.fromMEM.rd ≠ 0#5 := fun hw =>
    (WB.writePortWen_spec hw).1
  have hnext : written (next B s io) = (written s).write (WB.writePortWen s.fromMEM)
      s.fromMEM.rd (WB.regWdata s.fromMEM) := by
    simp [written, next, h]
  rw [hnext, RegFiles.read_write _ _ _ hspec, written, RegFiles.read_write _ _ _ hspec]
  split <;> rfl

theorem Captured.writtenBack {rs : BitVec 5} {data : Word} (h : Captured s rs data) :
    data = (writtenBack s io).read rs := by
  rw [writtenBack_read]
  split
  case isTrue hc =>
    obtain ⟨hw, hrd, h0⟩ := hc
    have hp : Pending s.memStage rs := by
      simp only [toWB, MEM.toWB, MEM.nop, Bool.and_eq_true, Bool.not_eq_true',
        Bool.or_eq_false_iff] at hw
      exact ⟨hw.2.1, hw.2.2, hw.1, hrd, h0⟩
    obtain ⟨hamo, hren, hdata⟩ := h.pending hp
    simp [MEM.regWdata, PriorityMux, hamo, hren, hdata]
  case isFalse hc =>
    refine h.written fun hp => hc ⟨?_, hp.rd, hp.rs⟩
    simp [toWB, MEM.toWB, MEM.nop, hp.nop, hp.hasFired, hp.regWrite]

theorem Captured.stay {rs : BitVec 5} {data : Word} (h : Captured s rs data)
    (hfire : toMEMFire B s io = false) : Captured (next B s io) rs data := by
  have hfrom : (next B s io).memStage.fromEXE = s.memStage.fromEXE := by
    simp [next_fromEXE, hfire]
  have hfired : (next B s io).memStage.hasFired = (s.memStage.hasFired || toWBFire s io) := by
    simp [next_memStage_hasFired, hfire]
  cases hvalid : toWBFire s io
  case true =>
    refine ⟨fun hp => ?_, fun _ => ?_⟩
    · simpa [hfired, hvalid] using hp.hasFired
    · rw [written_next hvalid]
      exact h.writtenBack
  case false =>
    have hcontrol : MEM.controlSignals (next B s io).memStage =
        MEM.controlSignals s.memStage := congrArg ExeMemBus.controlSignals hfrom
    have hren : MEM.ren (next B s io).memStage = MEM.ren s.memStage := by
      simp [MEM.ren, hcontrol, hfrom]
    have hwrite : MEM.regWrite (next B s io).memStage = MEM.regWrite s.memStage := by
      simp [MEM.regWrite, hren, MEM.align, MEM.vaddr, MEM.byteWise, hcontrol]
    have hpending : Pending (next B s io).memStage rs ↔ Pending s.memStage rs := by
      constructor
      · rintro ⟨h1, h2, h3, h4, h5⟩
        exact ⟨hfrom ▸ h1, by simpa [hfired, hvalid] using h2, hwrite ▸ h3, hfrom ▸ h4, h5⟩
      · rintro ⟨h1, h2, h3, h4, h5⟩
        exact ⟨hfrom ▸ h1, by simpa [hfired, hvalid] using h2, hwrite ▸ h3, hfrom ▸ h4, h5⟩
    constructor
    · rw [hpending, hcontrol, hren]
      exact h.pending
    · rw [hpending, written_next_read rs hvalid]
      exact h.written

theorem OperandsInv.exe_of_no_flush (h : OperandsInv s g) (hf : flush B s io = false) :
    EXE.nop s.exeStage (exeInputs B s io) = s.exeStage.fromID.nop ∧
      (s.exeStage.fromID.nop = false → s.exeStage.fromID.decodeBundle.FromTable) := by
  have hkill : kill s io = false := by
    by_contra hk
    simp [flush_of_kill (B := B) (Bool.not_eq_false _ ▸ hk)] at hf
  have hnop : EXE.nop s.exeStage (exeInputs B s io) = s.exeStage.fromID.nop := by
    have hnop : (toMEM B s io).nop = _ := toMEM_nop h.exeFired
    rwa [hkill, Bool.or_false] at hnop
  refine ⟨hnop, fun ha => h.table ha ?_⟩
  by_contra he
  simp [flush_of_excep (hnop.trans ha) he] at hf

theorem OperandsInv.pending_next (h : OperandsInv s g) (hf : flush B s io = false)
    (hfire : toMEMFire B s io = true) {rs : BitVec 5} (hp : Pending (next B s io).memStage rs) :
    BypassNetwork.matched (EXE.bypass s.exeStage (exeInputs B s io)) rs = true := by
  obtain ⟨hnop, htable⟩ := h.exe_of_no_flush hf
  have hfrom : (next B s io).memStage.fromEXE = toMEM B s io := by simp [next_fromEXE, hfire]
  obtain ⟨hp1, -, hp2, hp3, h0⟩ := hp
  rw [hfrom] at hp1 hp3
  have halive : s.exeStage.fromID.nop = false := hnop.symm.trans hp1
  have hwrite : s.exeStage.fromID.decodeBundle.regWrite = true := by
    cases hren : MEM.ren (next B s io).memStage
    case true =>
      refine ((htable halive).memRead fun h0 => ?_).1
      simp [MEM.ren, MEM.controlSignals, hfrom, toMEM, EXE.toMEM, EXE.controlSignals, h0,
        orR] at hren
    case false =>
      simpa [MEM.regWrite, hren, MEM.controlSignals, hfrom, toMEM, EXE.toMEM,
        EXE.controlSignals] using hp2
  have hrd : s.exeStage.fromID.rd = rs := hp3
  simp [BypassNetwork.matched, EXE.bypass, hnop, halive, hwrite, hrd, h0]

theorem OperandsInv.captured_fromEXE (h : OperandsInv s g) (hf : flush B s io = false)
    (hfire : toMEMFire B s io = true) {rs : BitVec 5}
    (hexe : BypassNetwork.matched (EXE.bypass s.exeStage (exeInputs B s io)) rs = true)
    (hunit : (EXE.bypass s.exeStage (exeInputs B s io)).valid = true) :
    Captured (next B s io) rs (EXE.regWdata s.exeStage) := by
  obtain ⟨hnop, htable⟩ := h.exe_of_no_flush hf
  have hfrom : (next B s io).memStage.fromEXE = toMEM B s io := by simp [next_fromEXE, hfire]
  simp only [BypassNetwork.matched, EXE.bypass, Bool.and_eq_true, Bool.not_eq_true', bne_iff_ne,
    beq_iff_eq] at hexe hunit
  obtain ⟨⟨h0, hrd⟩, hwrite, hdead⟩ := hexe
  have hread : s.exeStage.fromID.decodeBundle.memRead = 0#4 := by
    by_contra hr
    rcases ((htable (hnop.symm.trans hdead)).memRead hr).2 with ⟨hl, -⟩ | ha
    · exact hunit.1 hl
    · exact hunit.2 ha
  have hren : MEM.ren (next B s io).memStage = false := by
    simp [MEM.ren, MEM.controlSignals, hfrom, toMEM, EXE.toMEM, EXE.controlSignals, hread, orR]
  refine ⟨fun _ => ⟨?_, hren, ?_⟩, fun hp => absurd ⟨?_, ?_, ?_, ?_, h0⟩ hp⟩
  · simpa [MEM.controlSignals, hfrom, toMEM, EXE.toMEM, EXE.controlSignals] using hunit.2
  · rw [MEM.controlSignals, hfrom]
    rfl
  · rw [hfrom]
    exact hdead
  · simp [next_memStage_hasFired, hfire]
  · simp [MEM.regWrite, hren, MEM.controlSignals, hfrom, toMEM, EXE.toMEM, EXE.controlSignals,
      hwrite]
  · rw [hfrom]
    exact hrd

theorem OperandsInv.read_fromMEM (h : OperandsInv s g) (hk : g.Kept io.dbus)
    (halive : (toEXE B s io).nop = false) {rs : BitVec 5}
    (hmem : BypassNetwork.matched (MEM.bypass s.memStage io.dbus) rs = true) :
    MEM.regWdata s.memStage io.dbus = (writtenBack s io).read rs := by
  simp only [BypassNetwork.matched, MEM.bypass, Bool.and_eq_true, bne_iff_ne,
    beq_iff_eq] at hmem
  obtain ⟨⟨h0, hrd⟩, hwrite⟩ := hmem
  have h0 : rs ≠ 0#5 := h0
  have hnop : s.memStage.fromEXE.nop = false := by
    by_contra hn
    rw [Bool.not_eq_false] at hn
    have hw : s.memStage.fromEXE.controlSignals.regWrite = true := by
      simpa [MEM.regWrite, MEM.ren, MEM.controlSignals, hn] using hwrite
    simp [(h.behind hn hw).2.toEXE_nop (B := B)] at halive
  rw [writtenBack_read]
  cases hfired : s.memStage.hasFired
  case false => simp [toWB, MEM.toWB, MEM.nop, hnop, hfired, hwrite, hrd, h0]
  case true =>
    rw [if_neg (by simp [toWB, MEM.toWB, MEM.nop, hfired]), ← hrd]
    exact (h.again hfired hnop io.dbus hk).2 hwrite (hrd ▸ h0)

theorem read_of_no_match {rs : BitVec 5}
    (hmem : BypassNetwork.matched (MEM.bypass s.memStage io.dbus) rs = false) :
    (writtenBack s io).read rs = (written s).read rs := by
  rw [writtenBack_read, if_neg]
  rintro ⟨hw, hrd, h0⟩
  simp only [toWB, MEM.toWB, Bool.and_eq_true] at hw
  simp [BypassNetwork.matched, MEM.bypass, h0, hrd, hw.1] at hmem

theorem written_read (s : Regs) (rs : BitVec 5) : (written s).read rs =
    if BypassNetwork.matched (WB.bypass s.fromMEM) rs then WB.regWdata s.fromMEM
    else s.regFiles.read rs := by
  rw [written, RegFiles.read_write _ _ _ fun h => (WB.writePortWen_spec h).1]
  refine if_congr ⟨fun ⟨hw, hrd⟩ => ?_, fun h => ?_⟩ rfl rfl
  · obtain ⟨h0, hw⟩ := WB.writePortWen_spec hw
    simp [BypassNetwork.matched, WB.bypass, hrd, hrd ▸ h0, hw]
  · simp only [BypassNetwork.matched, WB.bypass, Bool.and_eq_true, bne_iff_ne, beq_iff_eq] at h
    obtain ⟨⟨h0, hrd⟩, hwrite⟩ := h
    exact ⟨by rw [WB.writePortWen_of_ne (hrd ▸ h0), hwrite], hrd⟩

theorem OperandsInv.captured_handed (h : OperandsInv s g) (hk : g.Kept io.dbus)
    (hfire : toMEMFire B s io = true) (halive : (toEXE B s io).nop = false) (rs : BitVec 5)
    (hget : bypassType B s io rs = .FromEXE →
      (EXE.bypass s.exeStage (exeInputs B s io)).valid = true) :
    Captured (next B s io) rs (ID.bypassData (idInputs B s io) (bypassType B s io rs)
      (s.regFiles.read rs)) := by
  obtain ⟨-, -, -, hf⟩ := toEXE_alive halive
  have htype : bypassType B s io rs = BypassNetwork.bypassType _ _ _ rs := rfl
  rw [BypassNetwork.bypassType] at htype
  cases hexe : BypassNetwork.matched (EXE.bypass s.exeStage (exeInputs B s io)) rs
  case true =>
    simp only [hexe, if_true] at htype
    rw [htype]
    exact h.captured_fromEXE hf hfire hexe (hget htype)
  case false =>
    have hpend : ¬Pending (next B s io).memStage rs := fun hp => by
      simp [h.pending_next hf hfire hp] at hexe
    refine ⟨fun hp => absurd hp hpend, fun _ => ?_⟩
    rw [written_next (toWBFire_of_toMEMFire hfire)]
    cases hmem : BypassNetwork.matched (MEM.bypass s.memStage io.dbus) rs
    case true =>
      simp only [hexe, hmem, if_true] at htype
      rw [htype]
      exact h.read_fromMEM hk halive hmem
    case false =>
      rw [read_of_no_match hmem, written_read]
      simp only [hexe, hmem, Bool.false_eq_true, if_false] at htype
      rw [htype]
      cases BypassNetwork.matched (WB.bypass s.fromMEM) rs <;> rfl

theorem getable_of_no_stall (h : ID.stall (idInputs B s io) = false) :
    (bypassType B s io (ID.rs1Addr s.idStage.fromIF) = .FromEXE →
      (EXE.bypass s.exeStage (exeInputs B s io)).valid = true) ∧
    (bypassType B s io (ID.rs2Addr s.idStage.fromIF) = .FromEXE →
      (EXE.bypass s.exeStage (exeInputs B s io)).valid = true) := by
  simp only [ID.stall, idInputs, BypassNetwork.newestDataGetable, Bool.not_not,
    Bool.or_eq_false_iff, Bool.and_eq_false_iff, beq_eq_false_iff_ne, Bool.not_eq_false'] at h
  exact ⟨fun ht => h.1.1.1.resolve_left (absurd ht ·), fun ht => h.1.1.2.resolve_left (absurd ht ·)⟩

theorem OperandsInv.next (h : OperandsInv s g) (hk : g.Kept io.dbus) (hsc : SCPasses B s io) :
    OperandsInv (next B s io)
      (g.observe s.memStage io.dbus (EXE.toMEMValid s.exeStage (exeInputs B s io))) where
  toSettled := h.toSettled.next B io
  served := h.served.next
  memTable ha he := by
    have hfrom := next_fromEXE B s io
    cases hfire : toMEMFire B s io
    case false =>
      simp only [hfire, Bool.false_eq_true, if_false] at hfrom
      rw [hfrom] at ha he
      exact (h.memTable ha he).congr hfrom
    case true =>
      simp only [hfire, if_true] at hfrom
      rw [hfrom] at ha he
      rw [toMEM_nop h.exeFired, Bool.or_eq_false_iff] at ha
      exact (h.table ha.1 he).tableOp hfrom ha.1
  again hs ha i hi := by
    rw [next_memStage_hasFired, Bool.and_eq_true, Bool.not_eq_true'] at hs
    obtain ⟨hfire, hs⟩ := hs
    have hfrom := next_fromEXE B s io
    simp only [hfire, Bool.false_eq_true, if_false] at hfrom
    rw [hfrom] at ha ⊢
    have hvalid : toWBFire s io = true := by
      cases hf : s.memStage.hasFired
      · simpa [hf] using hs
      · exact (h.again hf ha io.dbus hk).1
    have he : s.memStage.fromEXE.excepVec = 0#16 := by
      by_contra he
      simp [toMEMFire_of_bubble (h.faulted ha he), hvalid] at hfire
    have htable := h.memTable ha he
    obtain ⟨hvalid', hdata⟩ := h.served.again (toMEM B s io) htable ha hk hvalid hfire
      hsc hi
    have hcontrol : MEM.controlSignals (Core.next B s io).memStage =
        MEM.controlSignals s.memStage := congrArg ExeMemBus.controlSignals hfrom
    have hwrite : MEM.regWrite (Core.next B s io).memStage = MEM.regWrite s.memStage := by
      simp [MEM.regWrite, MEM.ren, MEM.align, MEM.vaddr, MEM.byteWise, hcontrol, hfrom]
    refine ⟨hvalid', fun hw h0 => ?_⟩
    rw [hwrite] at hw
    rw [written_next hvalid, writtenBack_read]
    refine (hdata hw).trans ?_
    cases hf : s.memStage.hasFired
    case false => simp [toWB, MEM.toWB, MEM.nop, ha, hf, hw, h0]
    case true =>
      rw [if_neg (by simp [toWB, MEM.toWB, MEM.nop, hf])]
      exact (h.again hf ha io.dbus hk).2 hw h0
  rs1 ha := by
    rw [next_fromID] at ha ⊢
    cases hfire : toMEMFire B s io
    case false =>
      simp only [hfire, Bool.false_eq_true, if_false] at ha ⊢
      exact (h.rs1 ha).stay hfire
    case true =>
      simp only [hfire, if_true] at ha ⊢
      exact h.captured_handed hk hfire ha _ (getable_of_no_stall (toEXE_alive ha).2.1).1
  rs2 ha := by
    rw [next_fromID] at ha ⊢
    cases hfire : toMEMFire B s io
    case false =>
      simp only [hfire, Bool.false_eq_true, if_false] at ha ⊢
      exact (h.rs2 ha).stay hfire
    case true =>
      simp only [hfire, if_true] at ha ⊢
      exact h.captured_handed hk hfire ha _ (getable_of_no_stall (toEXE_alive ha).2.1).2

theorem IsReset.operandsInv (h : IsReset B s) : OperandsInv s .idle := by
  obtain ⟨_, _, hexe⟩ := h.exeStage
  have hmem := h.memStage
  have hzero : Captured s 0#5 0 :=
    ⟨fun hp => absurd rfl hp.rs, fun _ => by simp [RegFiles.read]⟩
  refine ⟨h.settled, ⟨fun hs => ?_, fun hs => ?_⟩, fun _ _ => ⟨?_, ?_⟩,
    fun hs => ?_, fun _ => ?_, fun _ => ?_⟩ <;>
    simp_all [MEM.reset, IdExeBus.zero, ExeMemBus.zero, ExeMemSignalsBundle.zero,
      DecodeBundle.zero, MEM.ren, MEM.isLR, MEM.controlSignals]

theorem operands_forwarded {p : Regs × MEM.Port}
    (h : (withDataPort B).Reaches (fun p io => p.2.Kept io.dbus ∧ SCPasses B p.1 io) p)
    (io : Inputs) : Forwarded p.1 io := by
  have hinv : OperandsInv p.1 p.2 := h.monitor_invariant (P := OperandsInv)
    (fun _ hs => hs.operandsInv) fun _ _ _ ih hok => ih.next hok.1 hok.2
  exact fun ha _ => ⟨(hinv.rs1 ha).writtenBack, (hinv.rs2 ha).writtenBack⟩

/-- lr.w x5, (x1); sc.w x6, x1, (x0); div x3, x1, x1; add x7, x6, x0, until SC is in MEM. -/
def reserveElsewhere : List Inputs :=
  [.request, .fetch 0x1000a2af, .request, .fetch 0x1810232f, .fetch 0x0210c1b3,
    { Inputs.fetch 0x000303b3 with dbus := ⟨true, ⟨false, ⟨0⟩⟩, ⟨false, ⟨false⟩⟩⟩ },
    { Inputs.idle with dbus := ⟨false, ⟨true, ⟨7⟩⟩, ⟨false, ⟨false⟩⟩⟩ }]

theorem operands_forwarded_div :
    Forwarded ((withDataPort .zeros).run (.reset .zeros 0x888, .idle) reserveElsewhere).1
      .idle := by
  have hr := (withDataPort .zeros).reaches_run
    (fun p io => p.2.Kept io.dbus ∧ SCPasses .zeros p.1 io) (.reset .zeros 0x888, .idle)
    reserveElsewhere ⟨isReset_reset _ _, rfl⟩ (by decide +kernel)
  exact operands_forwarded hr .idle

/-- SC fails, which WB gets as 1. It stays behind the division, with no reservation any more, so
that it stores after all and shows a 0. -/
def heldUpSC : List Inputs :=
  reserveElsewhere ++
    [.idle, { Inputs.idle with dbus := ⟨true, ⟨false, ⟨0⟩⟩, ⟨false, ⟨false⟩⟩⟩ }] ++
    List.replicate 33 { Inputs.idle with dbus := ⟨false, ⟨false, ⟨0⟩⟩, ⟨true, ⟨false⟩⟩⟩ }

theorem held_up_sc_misleads :
    ¬∀ p, (withDataPort .zeros).Reaches (fun p io => p.2.Kept io.dbus) p →
      ∀ io, Forwarded p.1 io := by
  intro h
  have hr := (withDataPort .zeros).reaches_run (fun p io => p.2.Kept io.dbus)
    (.reset .zeros 0x888, .idle) heldUpSC ⟨isReset_reset _ _, rfl⟩ (by decide +kernel)
  have hops := h _ hr .idle (by decide +kernel) (by decide +kernel)
  exact absurd hops.rs1Data (by decide +kernel)

end Core

end FpgaNpc
