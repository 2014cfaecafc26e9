import FpgaNpc.Utils.Csr

open FpgaNpc.Hardware FpgaNpc.InterStage

namespace FpgaNpc.WB

variable (fromMEM : MemWbBus)

def bypass : BypassFrom := ⟨true, fromMEM.regWrite, fromMEM.rd⟩

def regWdata : Word := fromMEM.regWriteData

def writePortWen : Bool := if fromMEM.rd = 0 then false else fromMEM.regWrite

def csrCmd : CSRRegFile.ExcepCMD where
  excepVec := if fromMEM.nop then 0 else fromMEM.excepVec
  mret := fromMEM.mret && !fromMEM.nop
  pc := fromMEM.pc

structure Debug where
  done : Bool
  pc_done : Word
  flushForIntr : Bool
  deriving DecidableEq

def Debug.reset : Debug := ⟨false, 0, false⟩

/-- What the debug registers become, `fromMEMValid` being the valid of the link, which comes with
the word that replaces `fromMEM`. -/
def nextDebug (diff_enable fromMEMValid : Bool) (d : Debug) : Debug where
  done := if fromMEMValid then
      (!fromMEM.nop || (diff_enable && fromMEM.flushForIntr)) && orR fromMEM.pc
    else false
  pc_done := if fromMEMValid then fromMEM.pc else d.pc_done
  flushForIntr := RegEnable fromMEM.flushForIntr (diff_enable && fromMEMValid) d.flushForIntr

variable {fromMEM}

theorem writePortWen_spec (h : writePortWen fromMEM = true) :
    fromMEM.rd ≠ 0#5 ∧ fromMEM.regWrite = true := by
  by_cases h0 : fromMEM.rd = 0#5 <;> simp_all [writePortWen]

theorem writePortWen_of_ne (h : fromMEM.rd ≠ 0#5) :
    writePortWen fromMEM = fromMEM.regWrite := by
  simp [writePortWen, h]

end FpgaNpc.WB
