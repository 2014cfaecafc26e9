import Mathlib.Logic.Function.Basic
import FpgaNpc.Hardware.Machine
import FpgaNpc.Utils.Bus

universe u v

open FpgaNpc.Hardware FpgaNpc.SRAMLike

namespace FpgaNpc

structure SDPRAM (α : Type u) (β : Type v) where
  mem : α → β
  rdata : β

/-- A clock edge. What a read of the word being written shows is up to the RAM primitive:
`readNew` says whether it is the word written or the one before. -/
def SDPRAM.next {α : Type u} {β : Type v} [DecidableEq α] (s : SDPRAM α β) (raddr : α)
    (wen : Bool) (waddr : α) (wdata : β) (readNew : Bool) : SDPRAM α β where
  mem := if wen then Function.update s.mem waddr wdata else s.mem
  rdata := if wen && readNew && waddr == raddr then wdata else s.mem raddr

namespace ICache

abbrev Way := Fin 2

abbrev Tag := BitVec 24

abbrev Index := BitVec 4

abbrev WordOffset := BitVec 2

def index (addr : Word) : Index := addr.extractLsb 7 4

def wordOffset (addr : Word) : WordOffset := addr.extractLsb 3 2

def tag (addr : Word) : Tag := addr.extractLsb 31 8

structure ICacheInfo where
  tags : Way → Tag
  lru : Way

inductive ICacheState
  | IDLE | READ | COMMIT | FINISH
  deriving DecidableEq

/-- The registers and RAMs. The address of a data RAM is the concatenation of its parts. -/
structure Regs where
  valids : Index → Way → Bool
  dataRams : Way → SDPRAM (Index × WordOffset) Word
  infoRams : SDPRAM Index ICacheInfo
  reqValid : Bool
  req : SRAMLikeReq
  blockValids : Way → Bool
  state : ICacheState
  reqCounter : WordOffset
  respCounter : WordOffset
  replaceWay : Way
  inst2Fire : Word

structure Inputs where
  arFromIF : Irrevocable SRAMLikeReq
  rToIFReady : Bool
  arToMemReady : Bool
  rFromMem : Irrevocable SRAMLikeRResp
  fencei : Bool
  infoReadNew : Bool
  dataReadNew : Way → Bool

variable (s : Regs) (io : Inputs)

def hits (w : Way) : Bool := s.blockValids w && s.infoRams.rdata.tags w == tag s.req.addr

def hit : Bool := s.state == .IDLE && (hits s 0 || hits s 1)

def hitData : Word :=
  Mux1H [(hits s 0, (s.dataRams 0).rdata), (hits s 1, (s.dataRams 1).rdata)]

def arFromIFReady : Bool :=
  (s.state == .IDLE || s.state == .FINISH) && ((s.reqValid && hit s) || !s.reqValid)

def arFromIFFire : Bool := io.arFromIF.valid && arFromIFReady s

def indexPreIF : Index :=
  if arFromIFFire s io then index io.arFromIF.bits.addr else index s.req.addr

def wordOffsetPreIF : WordOffset :=
  if arFromIFFire s io then wordOffset io.arFromIF.bits.addr else wordOffset s.req.addr

def burstable : Bool := 0x10000000#32 ≤ s.req.addr && s.req.addr < 0x1fffffff#32

def blockAddr : Word := s.req.addr.extractLsb 31 4 ++ 0#4

def arToMem : Irrevocable SRAMLikeReq :=
  match s.state with
  | .IDLE =>
    if s.reqValid && !hit s then
      ⟨true, { SRAMLikeReq.zero with
        addr := blockAddr s, len := if burstable s then 3 else s.req.len, size := s.req.size }⟩
    else ⟨false, .zero⟩
  | .READ =>
    ⟨true, { SRAMLikeReq.zero with
      addr := blockAddr s + (s.reqCounter ++ 0#2).setWidth 32, len := s.req.len,
      size := s.req.size }⟩
  | .COMMIT | .FINISH => ⟨false, .zero⟩

def arToMemFire : Bool := (arToMem s).valid && io.arToMemReady

def rToIF : Irrevocable SRAMLikeRResp :=
  ⟨(hit s && s.state == .IDLE && s.reqValid) || s.state == .FINISH,
    ⟨if s.state = .FINISH then s.inst2Fire else hitData s⟩⟩

def rToIFFire : Bool := (rToIF s).valid && io.rToIFReady

def rFromMemReady : Bool := io.rFromMem.valid

def rFromMemFire : Bool := io.rFromMem.valid && rFromMemReady io

def refill : Bool := (s.state == .READ || s.state == .COMMIT) && rFromMemFire io

def commit : Bool := s.state == .COMMIT && rFromMemFire io && s.respCounter == 3

def newInfo : ICacheInfo :=
  if s.state = .IDLE then ⟨s.infoRams.rdata.tags, if hits s 0 then 1 else 0⟩
  else ⟨Function.update s.infoRams.rdata.tags s.replaceWay (tag s.req.addr),
    s.infoRams.rdata.lru.rev⟩

def nextState : ICacheState :=
  match s.state with
  | .IDLE => if arToMemFire s io then if burstable s then .COMMIT else .READ else .IDLE
  | .READ => if arToMemFire s io && s.reqCounter == 3 then .COMMIT else .READ
  | .COMMIT => if commit s io then .FINISH else .COMMIT
  | .FINISH => if rToIFFire s io then .IDLE else .FINISH

def next : Regs where
  valids i w := if commit s io && i == index s.req.addr && w == s.replaceWay then true
    else if io.fencei then false else s.valids i w
  dataRams w := (s.dataRams w).next (indexPreIF s io, wordOffsetPreIF s io)
    (refill s io && w == s.replaceWay) (index s.req.addr, s.respCounter) io.rFromMem.bits.rdata
    (io.dataReadNew w)
  infoRams := s.infoRams.next (indexPreIF s io) (hit s || commit s io) (index s.req.addr)
    (newInfo s) io.infoReadNew
  reqValid := if rToIFFire s io && !arFromIFFire s io then false
    else RegEnable true (arFromIFFire s io) s.reqValid
  req := RegEnable io.arFromIF.bits (arFromIFFire s io) s.req
  blockValids := s.valids (indexPreIF s io)
  state := nextState s io
  reqCounter := if s.state = .FINISH then 0
    else if arToMemFire s io then s.reqCounter + 1 else s.reqCounter
  respCounter := if s.state = .FINISH then 0
    else if refill s io then s.respCounter + 1 else s.respCounter
  replaceWay := if s.state = .IDLE ∧ s.reqValid = true ∧ hit s = false then s.infoRams.rdata.lru
    else s.replaceWay
  inst2Fire := if s.respCounter == wordOffset s.req.addr && rFromMemFire io
    then io.rFromMem.bits.rdata else s.inst2Fire

/-- The state after reset. The RAMs, what they show, and `blockValids` have no reset value. -/
structure IsReset : Prop where
  valids : ∀ i w, s.valids i w = false
  reqValid : s.reqValid = false
  req : s.req = .zero
  state : s.state = .IDLE
  reqCounter : s.reqCounter = 0
  respCounter : s.respCounter = 0
  replaceWay : s.replaceWay = 0
  inst2Fire : s.inst2Fire = 0

def Regs.reset : Regs where
  valids _ _ := false
  dataRams _ := ⟨fun _ => 0, 0⟩
  infoRams := ⟨fun _ => ⟨fun _ => 0, 0⟩, ⟨fun _ => 0, 0⟩⟩
  reqValid := false
  req := .zero
  blockValids _ := false
  state := .IDLE
  reqCounter := 0
  respCounter := 0
  replaceWay := 0
  inst2Fire := 0

def machine : Machine Regs Inputs where
  IsReset := IsReset
  next := next

/-- No block is in both ways. -/
def Apart (s : Regs) : Prop :=
  ∀ i, s.valids i 0 = true → s.valids i 1 = true →
    (s.infoRams.mem i).tags 0 ≠ (s.infoRams.mem i).tags 1

end ICache

end FpgaNpc
