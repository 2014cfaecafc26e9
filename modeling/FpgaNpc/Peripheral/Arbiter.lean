import FpgaNpc.Hardware.Machine
import FpgaNpc.Utils.Bus

open FpgaNpc.Hardware FpgaNpc.SRAMLike

namespace FpgaNpc

namespace AXI4

inductive AXIBURST
  | FIXED | INCR | WRAP | RESERVED
  deriving DecidableEq

/-- The write address, without the fields that no master here drives. -/
structure AW where
  addr : Word
  len : BitVec 8
  size : BitVec 3
  burst : AXIBURST
  deriving DecidableEq

structure W where
  data : Word
  strb : BitVec 4
  last : Bool
  deriving DecidableEq

structure B where
  resp : BitVec 2
  id : BitVec 4
  deriving DecidableEq, Inhabited

structure AR where
  addr : Word
  id : BitVec 4
  len : BitVec 8
  size : BitVec 3
  burst : AXIBURST
  deriving DecidableEq

structure R where
  resp : BitVec 2
  data : Word
  last : Bool
  id : BitVec 4
  deriving DecidableEq, Inhabited

def AW.zero : AW := ⟨0, 0, 0, .FIXED⟩

structure Master where
  ar : Irrevocable AR
  rReady : Bool
  aw : Irrevocable AW
  w : Irrevocable W
  bReady : Bool

end AXI4

inductive WriteState
  | WriteIDLE | WaitWChannel | WaitAWChannel
  deriving DecidableEq

namespace Arbiter

open AXI4

structure Regs where
  awReqBusy : AW
  reqBusy : Bool
  rChannelIBusQueue : FlowQueue Word
  rChannelDBusQueue : FlowQueue Word
  bChannelQueue : FlowQueue B
  reqLock : Bool
  selDBus : Bool
  writeState : WriteState
  deriving DecidableEq

structure Inputs where
  ibusReq : Irrevocable SRAMLikeReq
  ibusRespReady : Bool
  dbusReq : Irrevocable SRAMLikeReq
  dbusRRespReady : Bool
  dbusWRespReady : Bool
  arReady : Bool
  r : Irrevocable R
  awReady : Bool
  wReady : Bool
  b : Irrevocable B

variable (s : Regs) (io : Inputs)

def dbusRead : Bool := io.dbusReq.valid && !io.dbusReq.bits.wr

def dbusWrite : Bool := io.dbusReq.valid && io.dbusReq.bits.wr

section Responses

def rChannelIBusValid : Bool := io.r.bits.id == 0 && io.r.valid

def rChannelDBusValid : Bool := io.r.bits.id == 1 && io.r.valid

def ibusResp : Irrevocable SRAMLikeRResp :=
  ⟨s.rChannelIBusQueue.deqValid (rChannelIBusValid io),
    ⟨s.rChannelIBusQueue.deqBits io.r.bits.data⟩⟩

def dbusRResp : Irrevocable SRAMLikeRResp :=
  ⟨s.rChannelDBusQueue.deqValid (rChannelDBusValid io),
    ⟨s.rChannelDBusQueue.deqBits io.r.bits.data⟩⟩

def dbusWResp : Irrevocable SRAMLikeWResp :=
  ⟨s.bChannelQueue.deqValid io.b.valid, ⟨(s.bChannelQueue.deqBits io.b.bits).resp.getLsbD 0⟩⟩

def rReady : Bool :=
  if io.r.bits.id == 0 then s.rChannelIBusQueue.enqReady else s.rChannelDBusQueue.enqReady

def rFire : Bool := io.r.valid && rReady s io

def bReady : Bool := s.bChannelQueue.enqReady

def bFire : Bool := io.b.valid && bReady s

def dbusRRespFire : Bool := (dbusRResp s io).valid && io.dbusRRespReady

def dbusWRespFire : Bool := (dbusWResp s io).valid && io.dbusWRespReady

end Responses

section Writes

def w : Irrevocable W :=
  ⟨io.dbusReq.valid && io.dbusReq.bits.wr && s.writeState != .WaitAWChannel,
    ⟨io.dbusReq.bits.wdata, io.dbusReq.bits.wstrb, true⟩⟩

def aw : Irrevocable AW :=
  ⟨io.dbusReq.valid && io.dbusReq.bits.wr && s.writeState != .WaitWChannel,
    ⟨io.dbusReq.bits.addr, 0, io.dbusReq.bits.size.setWidth 3, .INCR⟩⟩

def wFire : Bool := (w s io).valid && io.wReady

def awFire : Bool := (aw s io).valid && io.awReady

def dbusWReady : Bool :=
  match s.writeState with
  | .WriteIDLE => awFire s io && wFire s io
  | .WaitWChannel => wFire s io
  | .WaitAWChannel => awFire s io

def writeStateNext : WriteState :=
  match s.writeState with
  | .WriteIDLE =>
    if awFire s io && wFire s io then .WriteIDLE
    else if awFire s io && !wFire s io then .WaitWChannel
    else if !awFire s io && wFire s io then .WaitAWChannel
    else .WriteIDLE
  | .WaitWChannel => if wFire s io then .WriteIDLE else .WaitWChannel
  | .WaitAWChannel => if awFire s io then .WriteIDLE else .WaitAWChannel

end Writes

section Reads

def servesDBus : Bool := if s.reqLock then s.selDBus else dbusRead io

def arBits : AR where
  addr := if s.reqLock then if s.selDBus then io.dbusReq.bits.addr else io.ibusReq.bits.addr
    else if dbusRead io then io.dbusReq.bits.addr else io.ibusReq.bits.addr
  id := if s.reqLock then if s.selDBus then 1 else 0 else if dbusRead io then 1 else 0
  len := if s.reqLock then if s.selDBus then 0 else io.ibusReq.bits.len.setWidth 8
    else if dbusRead io then 0 else io.ibusReq.bits.len.setWidth 8
  size := if s.reqLock then if s.selDBus then io.dbusReq.bits.size.setWidth 3 else 2
    else if dbusRead io then io.dbusReq.bits.size.setWidth 3 else 2
  burst := .INCR

def arValid : Bool :=
  !s.reqBusy && (dbusRead io || io.ibusReq.valid) && (arBits s io).addr != s.awReqBusy.addr

def arFire : Bool := arValid s io && io.arReady

def ibusReqReady : Bool :=
  io.arReady && !s.reqBusy && ((s.reqLock && !s.selDBus) || (!s.reqLock && !dbusRead io))

def dbusReqReady : Bool :=
  if io.dbusReq.bits.wr then dbusWReady s io
  else io.arReady && !s.reqBusy && ((s.reqLock && s.selDBus) ||
    (!s.reqLock && (arBits s io).addr != s.awReqBusy.addr))

def ibusReqFire : Bool := io.ibusReq.valid && ibusReqReady s io

def dbusReqFire : Bool := io.dbusReq.valid && dbusReqReady s io

end Reads

def reset : Regs := ⟨.zero, false, none, none, none, false, false, .WriteIDLE⟩

def next : Regs where
  awReqBusy := if awFire s io then (aw s io).bits else if io.b.valid then .zero else s.awReqBusy
  reqBusy := if arFire s io then true
    else if rFire s io && io.r.bits.last then false else s.reqBusy
  rChannelIBusQueue :=
    s.rChannelIBusQueue.next (rChannelIBusValid io) io.r.bits.data io.ibusRespReady
  rChannelDBusQueue :=
    s.rChannelDBusQueue.next (rChannelDBusValid io) io.r.bits.data io.dbusRRespReady
  bChannelQueue := s.bChannelQueue.next io.b.valid io.b.bits io.dbusWRespReady
  reqLock := if arValid s io && !io.arReady then true
    else RegEnable false io.arReady s.reqLock
  selDBus := if arValid s io && !io.arReady then
    if s.reqLock then s.selDBus else dbusRead io else s.selDBus
  writeState := writeStateNext s io

def machine : Machine Regs Inputs where
  IsReset s := s = reset
  next := next

end Arbiter

end FpgaNpc
