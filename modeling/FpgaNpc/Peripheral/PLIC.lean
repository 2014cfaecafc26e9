import FpgaNpc.Peripheral.Arbiter
import FpgaNpc.Utils.RegMap

open FpgaNpc.Hardware FpgaNpc.AXI4

namespace FpgaNpc.PLIC

def nrIntrWord (nrIntr : Nat) : Nat := (nrIntr + 31) / 32

/-- The numbers of sources for which there is a circuit: the module requires fewer than 1024,
and its loop over the sources takes the word `id / 32` of `pending` at each id. -/
structure Elaborates (nrIntr : Nat) : Prop where
  pos : 0 < nrIntr
  required : nrIntr < 1024
  words : nrIntr / 32 < nrIntrWord nrIntr

/-- The registers, without the two that no wire reads. A `Vec` of 32 `Bool`s is the word that
`Cat` of its reverse is. -/
structure Regs (nrIntr : Nat) where
  arReg : AR
  priority : Fin nrIntr → Word
  pending : Fin (nrIntrWord nrIntr) → Word
  enable : Fin (nrIntrWord nrIntr) → Word
  threshold : Word
  inHandle : Fin (nrIntr + 1) → Bool
  claimCompletion : Word
  rdata : Word
  rValid : Bool
  bValid : Bool

structure Inputs (nrIntr : Nat) where
  bus : Master
  intrVec : BitVec nrIntr

variable {nrIntr : Nat}

def getOffset (addr : Word) : Nat := (addr.setWidth 26).toNat

section Wires

variable (s : Regs nrIntr) (io : Inputs nrIntr)

def r : Irrevocable R := ⟨s.rValid, ⟨0, s.rdata, true, 1⟩⟩

def b : Irrevocable B := ⟨s.bValid, ⟨0, 1⟩⟩

def meip : Bool := s.claimCompletion != 0

def arFire : Bool := io.bus.ar.valid

def awFire : Bool := io.bus.aw.valid

def wFire : Bool := io.bus.w.valid

def rFire : Bool := s.rValid && io.bus.rReady

def mapping : List (Nat × Word) :=
  List.ofFn (fun intr : Fin nrIntr => ((intr.val + 1) * 4, s.priority intr)) ++
    List.ofFn (fun w : Fin (nrIntrWord nrIntr) => (0x1000 + w.val * 4, s.pending w)) ++
    List.ofFn (fun w : Fin (nrIntrWord nrIntr) => (0x2000 + w.val * 4, s.enable w)) ++
    [(0x200000, s.threshold)] ++ [(0x200004, s.claimCompletion)]

def rdataWire : Word := RegMap.rdata (mapping s) (getOffset s.arReg.addr)

def writes (a : Nat) : Bool := RegMap.writes a (getOffset io.bus.aw.bits.addr) (wFire io)

def written (old : Word) : Word := MaskData old io.bus.w.bits.data (MaskExpand io.bus.w.bits.strb)

def takenVec : BitVec (32 * nrIntrWord nrIntr) := Cat s.pending &&& Cat s.enable

def setPending (pending : Fin (nrIntrWord nrIntr) → Word) (id : Nat) (v : Bool) :
    Fin (nrIntrWord nrIntr) → Word :=
  fun w => if w.val = id / 32 then setBit (pending w) (id % 32) v else pending w

/-- The two assignments at a source, of which the last one counts. -/
def updatePending (pending : Fin (nrIntrWord nrIntr) → Word) (i : Fin nrIntr) :
    Fin (nrIntrWord nrIntr) → Word :=
  let raised := if io.intrVec.getLsbD i then setPending pending (i + 1) true else pending
  if s.inHandle i.succ then setPending raised (i + 1) false else raised

def pendingNext : Fin (nrIntrWord nrIntr) → Word :=
  (List.finRange nrIntr).foldl (updatePending s io) s.pending

/-- An element of `inHandle` selected by a word, of which only the bits count that the size of
the vector needs. -/
def handleIndex (nrIntr : Nat) (index : Word) : Nat := index.toNat % 2 ^ (nrIntr.log2 + 1)

def clearHandle (inHandle : Fin (nrIntr + 1) → Bool) (index : Word) : Fin (nrIntr + 1) → Bool :=
  fun id => if id.val = handleIndex nrIntr index then false else inHandle id

def inHandleNext : Fin (nrIntr + 1) → Bool :=
  let claimed := if rFire s io && s.arReg.addr == 0x200004 then
    clearHandle s.inHandle s.claimCompletion else s.inHandle
  if writes io 0x200004 then clearHandle claimed (written io s.claimCompletion) else claimed

/-- `completionFn` leaves 0 in the register it completes. -/
def claimCompletionNext : Word :=
  if writes io 0x200004 then 0
  else if takenVec s = 0 then 0 else BitVec.ofNat 32 (PriorityEncoder (takenVec s))

end Wires

/-- The bus is idle while the reset is applied; `arReg` and `rdata` have no reset value. -/
structure IsReset (s : Regs nrIntr) : Prop where
  priority : s.priority = fun _ => 0
  pending : s.pending = fun _ => 0
  enable : s.enable = fun _ => 0
  threshold : s.threshold = 0
  inHandle : s.inHandle = fun _ => false
  claimCompletion : s.claimCompletion = 0
  rValid : s.rValid = false
  bValid : s.bValid = false

def reset (nrIntr : Nat) : Regs nrIntr :=
  ⟨⟨0, 0, 0, 0, .FIXED⟩, fun _ => 0, fun _ => 0, fun _ => 0, 0, fun _ => false, 0, 0, false, false⟩

theorem isReset_reset : IsReset (reset nrIntr) := by constructor <;> rfl

def next (s : Regs nrIntr) (io : Inputs nrIntr) : Regs nrIntr where
  arReg := io.bus.ar.bits
  priority intr :=
    if writes io ((intr + 1) * 4) then written io (s.priority intr) else s.priority intr
  pending := pendingNext s io
  enable w := if writes io (0x2000 + w * 4) then written io (s.enable w) else s.enable w
  threshold := if writes io 0x200000 then written io s.threshold else s.threshold
  inHandle := inHandleNext s io
  claimCompletion := claimCompletionNext s io
  rdata := rdataWire s
  rValid := arFire io
  bValid := awFire io && wFire io

def machine (nrIntr : Nat) : Machine (Regs nrIntr) (Inputs nrIntr) where
  IsReset := IsReset
  next := next

end FpgaNpc.PLIC
