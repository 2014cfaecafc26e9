import FpgaNpc.Core.Alike

open FpgaNpc.Hardware FpgaNpc.InterStage

namespace FpgaNpc

namespace CSRRegFile

variable {s : Regs} {io : Inputs}

theorem next_congr {wdata value : Word}
    (hw : io.writePort.wen = true → wdata = io.writePort.wdata)
    (hv : io.setMtval = true → value = io.setMtval_val) :
    next s { io with
      writePort := { io.writePort with wdata := wdata }
      setMtval_val := value } = next s io := by
  have hport (addr : BitVec 12) (wmask old chosen : Word) :
      portWrite { io with
        writePort := { io.writePort with wdata := wdata }
        setMtval_val := value } addr wmask old chosen = portWrite io addr wmask old chosen := by
    cases hwen : io.writePort.wen
    case false => simp [portWrite, hwen]
    case true => simp [portWrite, hwen, hw hwen]
  have hset : setMtvalStep { io with
      writePort := { io.writePort with wdata := wdata }
      setMtval_val := value } s = setMtvalStep io s := by
    cases hmtval : io.setMtval
    case false => simp [setMtvalStep, hmtval]
    case true => simp [setMtvalStep, hmtval, hv hmtval]
  simp only [next, writeStep, hport, hset]
  rfl

end CSRRegFile

theorem BypassNetwork.regWrite_of_bypassType (exe mem wb : BypassFrom) (rs : BitVec 5) :
    match bypassType exe mem wb rs with
    | .FromEXE => exe.regWrite = true
    | .FromMEM => mem.regWrite = true
    | .FromWB => wb.regWrite = true
    | .FromREG => True := by
  rw [bypassType]
  split_ifs with he hm hw <;> simp_all [matched]

namespace ID

variable (io : Inputs) (x y z : Word)

theorem fromIFReady_of_data :
    fromIFReady { io with fromEXE := x, fromMEM := y, fromWB := z } = fromIFReady io := rfl

theorem next_of_data (s : Regs) (toID : IfIdBus) :
    next s { io with fromEXE := x, fromMEM := y, fromWB := z } toID = next s io toID := rfl

end ID

namespace Core

def Regs.withBuses (s : Regs) (b : IdExeBus) (m : ExeMemBus) (w : Word) : Regs :=
  { s with
    exeStage := { s.exeStage with fromID := b }
    memStage := s.memStage.withBus m
    fromMEM := { s.fromMEM with regWriteData := w } }

/-- Two states that differ only where the stages do not look. -/
structure Lockstep (s : Regs) (b : IdExeBus) (m : ExeMemBus) (w : Word) : Prop where
  exe : EXE.Alike s.exeStage.fromID b
  mem : MEM.Alike s.memStage m
  wb : s.fromMEM.regWrite = true → s.fromMEM.regWriteData = w

theorem Lockstep.refl (s : Regs) :
    Lockstep s s.exeStage.fromID s.memStage.fromEXE s.fromMEM.regWriteData :=
  ⟨.refl _, .refl _, fun _ => rfl⟩

section Step

variable {B : Build} {d : Decoder} {s : Regs} {b : IdExeBus} {m : ExeMemBus} {w : Word}
  (h : Lockstep s b m w) (io : Inputs)

namespace Lockstep

include h

theorem interCMDValid_eq : interCMDValid (s.withBuses b m w) = interCMDValid s := by
  have hflush := h.mem.flush2EXE_eq
  exact (h.exe.interCMDValid_eq _).trans (congrArg (EXE.interCMDValid s.exeStage) hflush)

theorem redirectValid_eq : redirectValid (s.withBuses b m w) io = redirectValid s io := by
  rw [redirectValid, redirectValid, h.interCMDValid_eq]
  rfl

theorem interrupt_eq : interrupt (s.withBuses b m w) io = interrupt s io := by
  rw [interrupt, interrupt, h.interCMDValid_eq]
  rfl

theorem exeInputs_eq :
    exeInputs { B with decoder := d } (s.withBuses b m w) io = exeInputs B s io := by
  have hflush := h.mem.flush2EXE_eq
  have hready := h.mem.toWBValid_eq io.dbus
  rw [exeInputs, exeInputs, h.interrupt_eq]
  exact (EXE.Inputs.mk.injEq ..).mpr ⟨hflush, rfl, hready, rfl, rfl⟩

theorem flush_eq : flush { B with decoder := d } (s.withBuses b m w) io = flush B s io := by
  rw [flush, flush, h.exeInputs_eq, h.redirectValid_eq]
  exact congrArg (· || redirectValid s io) (h.exe.flush_eq _)

theorem exeBypass_eq : EXE.bypass (s.withBuses b m w).exeStage
    (exeInputs { B with decoder := d } (s.withBuses b m w) io) =
      EXE.bypass s.exeStage (exeInputs B s io) := by
  rw [h.exeInputs_eq]
  exact h.exe.bypass_eq _

theorem bypassType_eq (rs : BitVec 5) :
    bypassType { B with decoder := d } (s.withBuses b m w) io rs = bypassType B s io rs := by
  rw [bypassType, bypassType, h.exeBypass_eq]
  exact congrArg (fun mem => BypassNetwork.bypassType _ mem _ rs) (h.mem.bypass_eq io.dbus)

theorem idInputs_eq : idInputs { B with decoder := d } (s.withBuses b m w) io =
    { idInputs B s io with
      fromEXE := EXE.regWdata { s.exeStage with fromID := b }
      fromMEM := MEM.regWdata (s.memStage.withBus m) io.dbus
      fromWB := w } := by
  have hready : EXE.fromIDReady (s.withBuses b m w).exeStage (exeInputs B s io) =
      EXE.fromIDReady s.exeStage (exeInputs B s io) :=
    h.exe.fromIDReady_eq _
  have hmem : MEM.bypass (s.withBuses b m w).memStage io.dbus = MEM.bypass s.memStage io.dbus :=
    h.mem.bypass_eq io.dbus
  rw [idInputs, h.bypassType_eq, h.bypassType_eq, h.flush_eq, h.exeBypass_eq, h.exeInputs_eq,
    hready, hmem]
  rfl

theorem bypassData_eq (rs : BitVec 5) (dataFromReg : Word) :
    ID.bypassData (idInputs { B with decoder := d } (s.withBuses b m w) io) (bypassType B s io rs)
      dataFromReg = ID.bypassData (idInputs B s io) (bypassType B s io rs) dataFromReg := by
  have hw := BypassNetwork.regWrite_of_bypassType (EXE.bypass s.exeStage (exeInputs B s io))
    (MEM.bypass s.memStage io.dbus) (WB.bypass s.fromMEM) rs
  have htype : bypassType B s io rs = BypassNetwork.bypassType _ _ _ rs := rfl
  rw [← htype] at hw
  rw [h.idInputs_eq]
  cases ht : bypassType B s io rs <;> rw [ht] at hw <;> simp only [ID.bypassData, idInputs]
  case FromEXE =>
    simp only [EXE.bypass, Bool.and_eq_true] at hw
    exact h.exe.regWdata_eq (.inl hw.1)
  case FromMEM => exact h.mem.regWdata_eq io.dbus hw
  case FromWB => exact (h.wb hw).symm
theorem fromIFReady_eq :
    ID.fromIFReady (idInputs { B with decoder := d } (s.withBuses b m w) io) =
      ID.fromIFReady (idInputs B s io) := by
  rw [h.idInputs_eq, ID.fromIFReady_of_data]

theorem ifInputs_eq :
    ifInputs { B with decoder := d } (s.withBuses b m w) io = ifInputs B s io := by
  have hjump : EXE.jumpBus (s.withBuses b m w).exeStage (exeInputs B s io) =
      EXE.jumpBus s.exeStage (exeInputs B s io) :=
    h.exe.jumpBus_eq _
  rw [ifInputs, h.redirectValid_eq, h.interCMDValid_eq, h.flush_eq, h.exeInputs_eq, hjump,
    h.fromIFReady_eq]
  rfl

theorem setMtval_val_eq (hm : MEM.setMtval s.memStage = true) :
    MEM.vaddr (s.memStage.withBus m) = MEM.vaddr s.memStage := by
  refine h.mem.vaddr_eq (.inl fun hz => ?_)
  simp [MEM.setMtval, MEM.align_of_no_mask hz] at hm

theorem csrInputs_eq : csrInputs { B with decoder := d } (s.withBuses b m w) io =
    { csrInputs B s io with
      writePort := { (csrInputs B s io).writePort with wdata := EXE.csrRes b }
      setMtval_val := MEM.vaddr (s.memStage.withBus m) } := by
  have hwen : EXE.csrWen (s.withBuses b m w).exeStage (exeInputs B s io) =
      EXE.csrWen s.exeStage (exeInputs B s io) :=
    h.exe.csrWen_eq _
  have hmtval : MEM.setMtval (s.withBuses b m w).memStage = MEM.setMtval s.memStage :=
    congrArg (! ·) h.mem.align_eq
  have hfunct : (s.withBuses b m w).exeStage.fromID.funct12 = s.exeStage.fromID.funct12 :=
    (congrArg IdExeBus.funct12 h.exe.rest).symm
  have hpc : (s.withBuses b m w).exeStage.fromID.pc = s.exeStage.fromID.pc :=
    (congrArg IdExeBus.pc h.exe.rest).symm
  rw [csrInputs, h.exeInputs_eq, h.ifInputs_eq, h.interCMDValid_eq, hwen, hmtval, hfunct, hpc]
  rfl

theorem csrRes_eq (hw : (csrInputs B s io).writePort.wen = true) :
    EXE.csrRes b = (csrInputs B s io).writePort.wdata := by
  simp only [csrInputs, EXE.csrWen, Bool.and_eq_true] at hw
  exact (h.exe.csrRes_eq hw.1.1).symm

theorem csrRegs_eq :
    CSRRegFile.next s.csrRegs (csrInputs { B with decoder := d } (s.withBuses b m w) io) =
      CSRRegFile.next s.csrRegs (csrInputs B s io) := by
  rw [h.csrInputs_eq]
  exact CSRRegFile.next_congr (h.csrRes_eq io) h.setMtval_val_eq

theorem regFiles_eq :
    s.regFiles.write (WB.writePortWen s.fromMEM) s.fromMEM.rd w =
      s.regFiles.write (WB.writePortWen s.fromMEM) s.fromMEM.rd (WB.regWdata s.fromMEM) := by
  cases hw : WB.writePortWen s.fromMEM
  case false => rfl
  case true => rw [← h.wb (WB.writePortWen_spec hw).2, WB.regWdata]

theorem idNext_eq (toID : IfIdBus) :
    ID.next s.idStage (idInputs { B with decoder := d } (s.withBuses b m w) io) toID =
      ID.next s.idStage (idInputs B s io) toID := by
  rw [h.idInputs_eq, ID.next_of_data]

theorem toEXE (hd : (B.decoder.ctrlWord s.idStage.fromIF.inst).Agree
    (d.ctrlWord s.idStage.fromIF.inst)) : EXE.Alike (Core.toEXE B s io)
      (Core.toEXE { B with decoder := d } (s.withBuses b m w) io) := by
  have hdata := h.bypassData_eq (B := B) (d := d) io
  rw [h.idInputs_eq] at hdata
  rw [Core.toEXE, Core.toEXE, h.idInputs_eq]
  exact ID.toEXE_alike hd (hdata _ _) (hdata _ _)

theorem toWB_eq : Core.toWB (s.withBuses b m w) io =
    { Core.toWB s io with regWriteData := MEM.regWdata (s.memStage.withBus m) io.dbus } :=
  h.mem.toWB_eq io.dbus

theorem fromMEM_eq : RegEnable (Core.toWB (s.withBuses b m w) io)
      (toWBFire (s.withBuses b m w) io) { s.fromMEM with regWriteData := w } =
    { RegEnable (Core.toWB s io) (toWBFire s io) s.fromMEM with
      regWriteData :=
        RegEnable (MEM.regWdata (s.memStage.withBus m) io.dbus) (toWBFire s io) w } := by
  have hfire : toWBFire (s.withBuses b m w) io = toWBFire s io := h.mem.toWBValid_eq io.dbus
  rw [hfire, h.toWB_eq]
  cases toWBFire s io <;> rfl

theorem toMEMValid_eq : EXE.toMEMValid (s.withBuses b m w).exeStage (exeInputs B s io) =
    EXE.toMEMValid s.exeStage (exeInputs B s io) :=
  h.exe.toMEMValid_eq _

theorem exe_next (hd : (B.decoder.ctrlWord s.idStage.fromIF.inst).Agree
    (d.ctrlWord s.idStage.fromIF.inst)) : EXE.Alike (next B s io).exeStage.fromID
      (RegEnable (Core.toEXE { B with decoder := d } (s.withBuses b m w) io)
        (EXE.fromIDFire s.exeStage (exeInputs B s io)) b) := by
  have hfrom : (next B s io).exeStage.fromID = RegEnable (Core.toEXE B s io)
      (EXE.fromIDFire s.exeStage (exeInputs B s io)) s.exeStage.fromID := rfl
  rw [hfrom]
  cases EXE.fromIDFire s.exeStage (exeInputs B s io)
  case false => exact h.exe
  case true => exact h.toEXE io hd

theorem wb_next (hw : (next B s io).fromMEM.regWrite = true) :
    (next B s io).fromMEM.regWriteData =
      RegEnable (MEM.regWdata (s.memStage.withBus m) io.dbus) (toWBFire s io) w := by
  have hfrom : (next B s io).fromMEM =
      RegEnable (Core.toWB s io) (toWBFire s io) s.fromMEM := rfl
  rw [hfrom] at hw ⊢
  cases hfire : toWBFire s io <;> rw [hfire] at hw
  case false => exact h.wb hw
  case true =>
    simp only [RegEnable_true, Core.toWB, MEM.toWB, Bool.and_eq_true] at hw
    exact (h.mem.regWdata_eq io.dbus hw.1).symm

theorem next (hd : (B.decoder.ctrlWord s.idStage.fromIF.inst).Agree
    (d.ctrlWord s.idStage.fromIF.inst)) : ∃ b' m' w',
      Core.next { B with decoder := d } (s.withBuses b m w) io =
        (Core.next B s io).withBuses b' m' w' ∧ Lockstep (Core.next B s io) b' m' w' := by
  refine ⟨RegEnable (Core.toEXE { B with decoder := d } (s.withBuses b m w) io)
      (EXE.fromIDFire s.exeStage (exeInputs B s io)) b,
    RegEnable (EXE.toMEM { s.exeStage with fromID := b } (exeInputs B s io))
      (MEM.fromEXEFire s.memStage io.dbus (EXE.toMEMValid s.exeStage (exeInputs B s io))) m,
    RegEnable (MEM.regWdata (s.memStage.withBus m) io.dbus) (toWBFire s io) w,
    (Regs.mk.injEq ..).mpr ⟨?ifStage, ?idStage, ?exeStage, ?memStage, h.fromMEM_eq io,
      h.regFiles_eq, h.csrRegs_eq io⟩,
    h.exe_next io hd, (h.exe.toMEM _).next io.dbus _ h.mem, h.wb_next io⟩
  case ifStage =>
    rw [h.ifInputs_eq]
    rfl
  case idStage =>
    rw [toID, h.ifInputs_eq]
    exact h.idNext_eq io _
  case exeStage =>
    rw [h.exeInputs_eq]
    exact h.exe.next_eq _ _ _ _ _
  case memStage =>
    rw [toMEM, h.exeInputs_eq, h.toMEMValid_eq]
    exact h.mem.next_eq _ _ _ _

end Lockstep

end Step

end Core

end FpgaNpc
