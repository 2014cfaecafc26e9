import FpgaNpc.Hardware.Fifo
import FpgaNpc.Peripheral.Arbiter

open FpgaNpc.Hardware FpgaNpc.AXI4

namespace FpgaNpc.Sdram.Pmem

structure Address where
  addr : Word
  id : BitVec 4
  len : BitVec 8
  burst : AXIBURST
  deriving DecidableEq

def calculateAddrNext (addr : Word) (axtype : AXIBURST) (axlen : BitVec 8) : Word :=
  match axtype with
  | .FIXED => addr
  | .WRAP =>
    let mask : Word :=
      match axlen.toNat with
      | 0 => 0x03
      | 1 => 0x07
      | 3 => 0x0f
      | 7 => 0x1f
      | 15 => 0x3f
      | _ => 0x3f
    (addr &&& ~~~mask) ||| ((addr + 4) &&& mask)
  | _ => addr + 4

/-- A request that the memory has accepted: its direction, whether it is the last of its burst, and
the identifier of the burst. -/
structure Request where
  rd : Bool
  last : Bool
  id : BitVec 4
  deriving DecidableEq, Inhabited

structure Regs where
  reqLen : BitVec 8
  reqAddr : Word
  reqRd : Bool
  reqWr : Bool
  reqId : BitVec 4
  reqAxburst : AXIBURST
  reqAxlen : BitVec 8
  reqPrio : Bool
  reqHoldRd : Bool
  reqHoldWr : Bool
  requests : Fifo Request 2
  response : Fifo Word 2

def reset (requests : BitVec 2 → Request) (response : BitVec 2 → Word) : Regs where
  reqLen := 0
  reqAddr := 0
  reqRd := false
  reqWr := false
  reqId := 0
  reqAxburst := .FIXED
  reqAxlen := 0
  reqPrio := false
  reqHoldRd := false
  reqHoldWr := false
  requests := .reset requests
  response := .reset response

structure Bus where
  aw : Irrevocable Address
  w : Irrevocable W
  bReady : Bool
  ar : Irrevocable Address
  rReady : Bool
  deriving DecidableEq

structure Ram where
  accept : Bool
  ack : Bool
  readData : Word

variable (s : Regs) (io : Bus) (ram : Ram)

section RamRequest

def writePrio : Bool := (s.reqPrio && !s.reqHoldRd) || s.reqHoldWr

def readPrio : Bool := (!s.reqPrio && !s.reqHoldWr) || s.reqHoldRd

def writeActive : Bool :=
  (io.aw.valid || s.reqWr) && !s.reqRd && s.requests.accept &&
    (writePrio s || s.reqWr || !io.ar.valid)

def readActive : Bool :=
  (io.ar.valid || s.reqRd) && !s.reqWr && s.requests.accept &&
    (readPrio s || s.reqRd || !io.aw.valid)

def awReady : Bool := writeActive s io && !s.reqWr && ram.accept && s.requests.accept

def wReady : Bool := writeActive s io && ram.accept && s.requests.accept

def arReady : Bool := readActive s io && !s.reqRd && ram.accept && s.requests.accept

def awFire : Bool := io.aw.valid && awReady s io ram

def wFire : Bool := io.w.valid && wReady s io ram

def arFire : Bool := io.ar.valid && arReady s io ram

def ramAddr : Word :=
  if s.reqWr || s.reqRd then s.reqAddr
  else if writeActive s io then io.aw.bits.addr
  else io.ar.bits.addr

def ramRd : Bool := readActive s io

def ramWr : BitVec 4 := if writeActive s io && io.w.valid then io.w.bits.strb else 0

def reqPush : Bool := (ramRd s io || ramWr s io != 0) && ram.accept

end RamRequest

section Response

def reqIn : Request :=
  if arFire s io ram then ⟨true, io.ar.bits.len = 0, io.ar.bits.id⟩
  else if awFire s io ram then ⟨false, io.aw.bits.len = 0, io.aw.bits.id⟩
  else ⟨ramRd s io, s.reqLen = 0, s.reqId⟩

def respIsWrite : Bool := s.requests.valid && !s.requests.dataOut.rd

def respIsRead : Bool := s.requests.valid && s.requests.dataOut.rd

def respIsLast : Bool := s.requests.dataOut.last

def b : Irrevocable B :=
  ⟨s.response.valid && respIsWrite s && respIsLast s, ⟨0, s.requests.dataOut.id⟩⟩

def r : Irrevocable R :=
  ⟨s.response.valid && respIsRead s,
    ⟨0, s.response.dataOut, respIsLast s, s.requests.dataOut.id⟩⟩

def bFire : Bool := (b s).valid && io.bReady

def rFire : Bool := (r s).valid && io.rReady

/-- The answers to the writes within a burst are dropped. -/
def respAccept : Bool :=
  rFire s io || bFire s io || (s.response.valid && respIsWrite s && !respIsLast s)

end Response

/-- The request registers after the clock edge: the burst goes on, unless the first request of
another one is accepted. -/
def requestNext : Regs :=
  let s' : Regs :=
    if reqPush s io ram then
      if s.reqLen = 0 then { s with reqRd := false, reqWr := false }
      else
        { s with
          reqAddr := calculateAddrNext s.reqAddr s.reqAxburst s.reqAxlen
          reqLen := s.reqLen - 1 }
    else s
  if awFire s io ram then
    if wFire s io ram then
      { s' with
        reqWr := !io.w.bits.last
        reqLen := io.aw.bits.len - 1
        reqId := io.aw.bits.id
        reqAxburst := io.aw.bits.burst
        reqAxlen := io.aw.bits.len
        reqAddr := calculateAddrNext io.aw.bits.addr io.aw.bits.burst io.aw.bits.len
        reqPrio := !s.reqPrio }
    else
      { s' with
        reqWr := true
        reqLen := io.aw.bits.len
        reqId := io.aw.bits.id
        reqAxburst := io.aw.bits.burst
        reqAxlen := io.aw.bits.len
        reqAddr := io.aw.bits.addr
        reqPrio := !s.reqPrio }
  else if arFire s io ram then
    { s' with
      reqRd := io.ar.bits.len != 0
      reqLen := io.ar.bits.len - 1
      reqAddr := calculateAddrNext io.ar.bits.addr io.ar.bits.burst io.ar.bits.len
      reqId := io.ar.bits.id
      reqAxburst := io.ar.bits.burst
      reqAxlen := io.ar.bits.len
      reqPrio := !s.reqPrio }
  else s'

def next : Regs :=
  { requestNext s io ram with
    reqHoldRd := if ramRd s io && !ram.accept then true else if ram.accept then false
      else s.reqHoldRd
    reqHoldWr := if ramWr s io != 0 && !ram.accept then true else if ram.accept then false
      else s.reqHoldWr
    requests := s.requests.next (reqIn s io ram) (reqPush s io ram) (respAccept s io)
    response := s.response.next ram.readData ram.ack (respAccept s io) }

end FpgaNpc.Sdram.Pmem
