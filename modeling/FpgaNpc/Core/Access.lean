import FpgaNpc.Core.DataPort
import FpgaNpc.Riscv.AExtension

open FpgaNpc.Hardware FpgaNpc.ControlSignals FpgaNpc.InterStage FpgaNpc.SRAMLike FpgaNpc.Riscv

namespace FpgaNpc

def Riscv.AMOInst.amoOp : AMOInst → BitVec 4
  | .AMOSWAP => AMOOp.SWAP
  | .AMOADD => AMOOp.ADD
  | .AMOXOR => AMOOp.XOR
  | .AMOAND => AMOOp.AND
  | .AMOOR => AMOOp.OR
  | .AMOMIN => AMOOp.MIN
  | .AMOMAX => AMOOp.MAX
  | .AMOMINU => AMOOp.MINU
  | .AMOMAXU => AMOOp.MAXU

theorem AMOALU.res_amoOp (k : AMOInst) (mRead src2 : Word) :
    AMOALU.res k.amoOp mRead src2 = k.result mRead src2 := by
  cases k <;> simp [AMOALU.res, Mux1H, AMOInst.amoOp, AMOInst.result, ofInt_min, ofInt_max,
    ofNat_min, ofNat_max, BitVec.xor_comm, BitVec.and_comm, BitVec.or_comm]

namespace MEM

inductive Access
  | nothing | load | store | sc | amo (k : AMOInst)

/-- An access done: the requests it issues, the data read for it, and the value it returns. A load
returns what its width makes of the data, and the value of a store is of no account. -/
inductive Access.Done (addr rs2 : Word) : Access → List SRAMLikeReq → List Word → Word → Prop
  | nothing (v : Word) : Done addr rs2 .nothing [] [] v
  | load (r : SRAMLikeReq) (d v : Word) (wr : r.wr = false) (at' : r.addr = addr) :
      Done addr rs2 .load [r] [d] v
  | store (w : SRAMLikeReq) (v : Word) (wr : w.wr = true) (at' : w.addr = addr) :
      Done addr rs2 .store [w] [] v
  | scFails (v : Word) (code : v ≠ 0) : Done addr rs2 .sc [] [] v
  | scSucceeds (w : SRAMLikeReq) (wr : w.wr = true) (at' : w.addr = addr) :
      Done addr rs2 .sc [w] [] 0
  | amo (k : AMOInst) (r w : SRAMLikeReq) (d : Word) (rwr : r.wr = false) (rat : r.addr = addr)
      (wwr : w.wr = true) (wat : w.addr = addr) (data : w.wdata = k.result d rs2) :
      Done addr rs2 (.amo k) [r, w] [d] d

def rs2 (s : Regs) : Word := (controlSignals s).memWriteData

/-- The access of the instruction in the stage. A misaligned one has none. -/
def Asks (s : Regs) : Access → Prop
  | .nothing => access s = false
  | .load => access s = true ∧ wen s = false ∧ isSC s = false
  | .store => access s = true ∧ ren s = false ∧ isSC s = false
  | .sc => access s = true ∧ ren s = false ∧ isSC s = true
  | .amo k => access s = true ∧ ren s = true ∧ wen s = true ∧
      (controlSignals s).fuTypeAMO = true ∧ (controlSignals s).amoOp = k.amoOp

structure StageInputs where
  port : Inputs
  fromEXEValid : Bool
  toMEM : ExeMemBus

def machine : Machine Regs StageInputs where
  IsReset s := s = reset
  next s i := next s i.port i.fromEXEValid i.toMEM

/-- What the instruction in the stage has done since it was latched: the requests accepted, the
read data taken, and the values passed on to WB with it, not as a nop. -/
structure Trail where
  issued : List SRAMLikeReq
  reads : List Word
  passes : List Word

namespace Trail

def empty : Trail := ⟨[], [], []⟩

section Cycle

variable (s : Regs) (io : Inputs) (fromEXEValid : Bool)

def cycle (g : Trail) : Trail where
  issued := g.issued ++ if reqFire s io then [(req s).bits] else []
  reads := g.reads ++ if rRespFire s io fromEXEValid then [io.rResp.bits.rdata] else []
  passes := g.passes ++ if toWBFire s io && !(toWB s io).nop then [(toWB s io).regWriteData] else []

def observe (g : Trail) : Trail :=
  if fromEXEFire s io fromEXEValid then empty else g.cycle s io fromEXEValid

end Cycle

/-- The access is done, and what is no nop has been passed on once, with the value returned. -/
def Finished (s : Regs) (a : Access) (g : Trail) : Prop :=
  ∃ v, a.Done (vaddr s) (rs2 s) g.issued g.reads v ∧
    g.passes = if s.fromEXE.nop then [] else [v]

def Begun (s : Regs) (a : Access) (g : Trail) : Prop :=
  ∃ issued reads v, a.Done (vaddr s) (rs2 s) issued reads v ∧
    g.issued <+: issued ∧ g.reads <+: reads ∧ g.passes <+: [v]

end Trail

def observed : Machine (Regs × Port × Trail) StageInputs :=
  machine.monitor (.idle, .empty) fun s i g =>
    (g.1.observe s i.port i.fromEXEValid, g.2.observe s i.port i.fromEXEValid)

/-- The port keeps to its protocol, and no SC to address 0 that fails is held up. -/
def Kept (p : Regs × Port × Trail) (i : StageInputs) : Prop :=
  p.2.1.Kept i.port ∧ SCPasses p.1 i.port i.fromEXEValid

instance (p : Regs × Port × Trail) (i : StageInputs) : Decidable (Kept p i) :=
  inferInstanceAs (Decidable (_ ∧ _))

def rank : MEMState → Nat
  | .IDLE => 5
  | .AMO_WAIT_READ_RESP => 4
  | .AMO_CALC => 3
  | .AMO_LAUNCH_WRITE_REQ => 2
  | .WAIT_RESP | .AMO_WAIT_WRITE_RESP => 1

/-- Nobody makes the stage wait: a request is accepted, an outstanding one answered, and EXE has
the next instruction. -/
structure Unblocked (s : Regs) (g : Port) (i : StageInputs) : Prop where
  accepted : (req s).valid = true → i.port.reqReady = true
  answered : g.outstanding ≠ none → i.port.rResp.valid = true ∨ i.port.wResp.valid = true
  next : i.fromEXEValid = true

structure Orderly (s : Regs) (port : Port) (g : Trail) (i : StageInputs) : Prop where
  begun : ∀ a, Asks s a → g.Begun s a
  finished : fromEXEFire s i.port i.fromEXEValid = true → ∀ a, Asks s a →
    (g.cycle s i.port i.fromEXEValid).Finished s a
  passed : toWBFire s i.port = true → (toWB s i.port).nop = false → g.passes = [] ∧ ∀ a, Asks s a →
    (∃ reads, a.Done (vaddr s) (rs2 s) g.issued reads (toWB s i.port).regWriteData) ∧
      ∀ r ∈ g.issued.getLast?, if r.wr then i.port.wResp.valid = true else i.port.rResp.valid = true
  idle : fromEXEFire s i.port i.fromEXEValid = true →
    nextState s i.port i.fromEXEValid = .IDLE
  busy : s.state ≠ .IDLE → nextState s i.port i.fromEXEValid = .IDLE →
    fromEXEFire s i.port i.fromEXEValid = true
  progress : Unblocked s port i → fromEXEFire s i.port i.fromEXEValid = true ∨
    rank (nextState s i.port i.fromEXEValid) < rank s.state

section Instruction

variable {s : Regs}

theorem isSC_amo (h : isSC s = true) :
    (controlSignals s).fuTypeAMO = true ∧ (controlSignals s).amoOp = AMOOp.SC := by
  simpa [isSC] using h

theorem not_isSC_of_amo {k : AMOInst} (h : Asks s (.amo k)) : isSC s = false := by
  by_contra hs
  have := (isSC_amo (Bool.not_eq_false _ ▸ hs)).2
  rw [h.2.2.2.2] at this
  cases k <;> simp [AMOInst.amoOp] at this

theorem wen_of_access (h : access s = true) (hr : ren s = false) : wen s = true := by
  simp only [access, hr, Bool.false_or, Bool.and_eq_true] at h
  exact h.1

theorem exists_amo_of_both {a : Access} (ha : Asks s a) (acc : access s = true)
    (both : ren s = true ∧ wen s = true) : ∃ k, a = .amo k := by
  cases a with
  | amo k => exact ⟨k, rfl⟩
  | nothing => simp [Asks, acc] at ha
  | load => simp [Asks, both] at ha
  | store => simp [Asks, both] at ha
  | sc => simp [Asks, both] at ha

end Instruction

section Table

def amoInsts : List AMOInst :=
  [.AMOSWAP, .AMOADD, .AMOXOR, .AMOAND, .AMOOR, .AMOMIN, .AMOMAX, .AMOMINU, .AMOMAXU]

theorem table_sc : ∀ p ∈ ControlLogic.table, (p.2.fuType.any fun f => f != FuType.AMO) ∨
    (p.2.amoOp.any fun op => op != AMOOp.SC) ∨ p.2.memRead = ControlSignals.MemRead.N := by
  decide +kernel

theorem table_amo : ∀ p ∈ ControlLogic.table, p.2.memRead = ControlSignals.MemRead.N ∨
    p.2.memWrite = ControlSignals.MemWrite.N ∨
      p.2.fuType = FuType.AMO ∧ ∃ k ∈ amoInsts, p.2.amoOp = some k.amoOp := by
  decide +kernel

theorem exists_asks_of_legal {d : Decoder} {inst : Word} {e : EXE.Regs} {io : EXE.Inputs} {m : Regs}
    (h : (d.ctrlWord inst).legal = true)
    (hb : e.fromID.decodeBundle = (d.ctrlWord inst).decodeBundle)
    (hfrom : m.fromEXE = EXE.toMEM e io) : ∃ a, Asks m a := by
  obtain ⟨p, hp, -, ha⟩ := d.row_of_legal h
  have hc : controlSignals m = EXE.controlSignals e := by rw [controlSignals, hfrom]; rfl
  have hread (hn : p.2.memRead = ControlSignals.MemRead.N) : ren m = false := by
    simp [ren, hc, EXE.controlSignals, hb, ha.memRead _ hn, orR]
  have hwrite (hn : p.2.memWrite = ControlSignals.MemWrite.N) : wen m = false := by
    simp [wen, hc, EXE.controlSignals, hb, ha.memWrite _ hn, orR]
  have hsc (hr : ren m = true) : isSC m = false := by
    by_contra hs
    obtain ⟨hfu, hop⟩ := isSC_amo (Bool.not_eq_false _ ▸ hs)
    simp only [hc, EXE.controlSignals, hb, beq_iff_eq] at hfu hop
    rcases table_sc p hp with hf | ho | hn
    · obtain ⟨f, hf, hne⟩ := Option.any_eq_true .. |>.1 hf
      simp [← ha.fuType f hf, hfu] at hne
    · obtain ⟨op, ho, hne⟩ := Option.any_eq_true .. |>.1 ho
      simp [← ha.amoOp op ho, hop] at hne
    · simp [hread hn] at hr
  cases hacc : access m
  case false => exact ⟨.nothing, hacc⟩
  case true =>
    cases hr : ren m
    case false =>
      cases hs : isSC m
      case false => exact ⟨.store, hacc, hr, hs⟩
      case true => exact ⟨.sc, hacc, hr, hs⟩
    case true =>
      cases hw : wen m
      case false => exact ⟨.load, hacc, hw, hsc hr⟩
      case true =>
        rcases table_amo p hp with hn | hn | ⟨hfu, k, -, hk⟩
        · simp [hread hn] at hr
        · simp [hwrite hn] at hw
        · refine ⟨.amo k, hacc, hr, hw, ?_, ?_⟩
          · simp [hc, EXE.controlSignals, hb, ha.fuType _ hfu]
          · simp [hc, EXE.controlSignals, hb, ha.amoOp _ hk]

end Table

end MEM

end FpgaNpc
