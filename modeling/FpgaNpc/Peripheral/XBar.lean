import FpgaNpc.Peripheral.CLINT
import FpgaNpc.Peripheral.PLIC

open FpgaNpc.Hardware FpgaNpc.SRAMLike FpgaNpc.AXI4

namespace FpgaNpc

namespace XBarConfig

abbrev RTC_L : Word := 0x20040000
abbrev RTC_H : Word := 0x2004ffff
abbrev PLIC_L : Word := 0x40000000
abbrev PLIC_H : Word := 0x43ffffff

end XBarConfig

namespace XBar

structure Regs (nrIntr : Nat) where
  arbiter : Arbiter.Regs
  clint : CLINT.Regs
  plic : PLIC.Regs nrIntr

structure Inputs (nrIntr : Nat) where
  ibusReq : Irrevocable SRAMLikeReq
  ibusRespReady : Bool
  dbusReq : Irrevocable SRAMLikeReq
  dbusRRespReady : Bool
  dbusWRespReady : Bool
  arReady : Bool
  r : Irrevocable R
  awReady : Bool
  wReady : Bool
  b : Irrevocable B
  intrVec : BitVec nrIntr

variable {nrIntr : Nat} (s : Regs nrIntr) (io : Inputs nrIntr)

def selClint (addr : Word) : Bool := addr < XBarConfig.RTC_H && XBarConfig.RTC_L ≤ addr

def selPlic (addr : Word) : Bool := addr < XBarConfig.PLIC_H && XBarConfig.PLIC_L ≤ addr

def selMem (addr : Word) : Bool := !selClint addr && !selPlic addr

/-- The address channels of the arbiter look at the requests alone, so the slave side is left
as the memory drives it. -/
def requests : Arbiter.Inputs where
  ibusReq := io.ibusReq
  ibusRespReady := io.ibusRespReady
  dbusReq := io.dbusReq
  dbusRRespReady := io.dbusRRespReady
  dbusWRespReady := io.dbusWRespReady
  arReady := io.arReady
  r := io.r
  awReady := io.awReady
  wReady := io.wReady
  b := io.b

def arBits : AR := Arbiter.arBits s.arbiter (requests io)

def ar : Irrevocable AR := ⟨Arbiter.arValid s.arbiter (requests io), arBits s io⟩

def aw : Irrevocable AW := Arbiter.aw s.arbiter (requests io)

def w : Irrevocable W := Arbiter.w s.arbiter (requests io)

def readSelClint : Bool := selClint (arBits s io).addr

def readSelPlic : Bool := selPlic (arBits s io).addr

def readSelMem : Bool := selMem (arBits s io).addr

def writeSelClint : Bool := selClint (aw s io).bits.addr

def writeSelPlic : Bool := selPlic (aw s io).bits.addr

def writeSelMem : Bool := selMem (aw s io).bits.addr

def arbiterInputs : Arbiter.Inputs where
  ibusReq := io.ibusReq
  ibusRespReady := io.ibusRespReady
  dbusReq := io.dbusReq
  dbusRRespReady := io.dbusRRespReady
  dbusWRespReady := io.dbusWRespReady
  arReady := PriorityMux
    [(readSelMem s io, io.arReady), (readSelClint s io, true), (readSelPlic s io, true)]
  r := ⟨io.r.valid || (CLINT.r s.clint).valid || (PLIC.r s.plic).valid,
    PriorityMux [(io.r.valid, io.r.bits), ((CLINT.r s.clint).valid, (CLINT.r s.clint).bits),
      ((PLIC.r s.plic).valid, (PLIC.r s.plic).bits)]⟩
  awReady := PriorityMux
    [(writeSelMem s io, io.awReady), (writeSelClint s io, true), (writeSelPlic s io, true)]
  wReady := PriorityMux
    [(writeSelMem s io, io.wReady), (writeSelClint s io, true), (writeSelPlic s io, true)]
  b := ⟨io.b.valid || (CLINT.b s.clint).valid || (PLIC.b s.plic).valid,
    PriorityMux [(io.b.valid, io.b.bits), ((CLINT.b s.clint).valid, (CLINT.b s.clint).bits),
      ((PLIC.b s.plic).valid, (PLIC.b s.plic).bits)]⟩

def rReady : Bool := Arbiter.rReady s.arbiter (arbiterInputs s io)

def bReady : Bool := Arbiter.bReady s.arbiter

def slaveBus (readSel writeSel : Bool) : Master where
  ar := ⟨(ar s io).valid && readSel, arBits s io⟩
  rReady := rReady s io
  aw := ⟨(aw s io).valid && writeSel, (aw s io).bits⟩
  w := ⟨(w s io).valid && writeSel, (w s io).bits⟩
  bReady := bReady s

def clintBus : Master := slaveBus s io (readSelClint s io) (writeSelClint s io)

def plicBus : Master := slaveBus s io (readSelPlic s io) (writeSelPlic s io)

def toMem : Master := slaveBus s io (readSelMem s io) (writeSelMem s io)

structure IsReset (s : Regs nrIntr) : Prop where
  arbiter : s.arbiter = Arbiter.reset
  clint : CLINT.IsReset s.clint
  plic : PLIC.IsReset s.plic

def reset (nrIntr : Nat) : Regs nrIntr := ⟨Arbiter.reset, CLINT.reset, PLIC.reset nrIntr⟩

theorem isReset_reset : IsReset (reset nrIntr) := ⟨rfl, CLINT.isReset_reset, PLIC.isReset_reset⟩

def next : Regs nrIntr where
  arbiter := Arbiter.next s.arbiter (arbiterInputs s io)
  clint := CLINT.next s.clint (clintBus s io)
  plic := PLIC.next s.plic ⟨plicBus s io, io.intrVec⟩

def machine (nrIntr : Nat) : Machine (Regs nrIntr) (Inputs nrIntr) where
  IsReset := IsReset
  next := next

end XBar

end FpgaNpc
