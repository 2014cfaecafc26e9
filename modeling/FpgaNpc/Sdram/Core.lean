import FpgaNpc.Hardware.Machine
import FpgaNpc.Simulator.SDRAM

open FpgaNpc.Hardware FpgaNpc.Simulator.SDRAM

namespace FpgaNpc.Sdram

/-- The commands, each with the levels of `cs`, `ras`, `cas` and `we` that stand for it. -/
inductive Cmd
  /-- 0111 -/
  | NOP
  /-- 0011 -/
  | ACTIVE
  /-- 0101 -/
  | READ
  /-- 0100 -/
  | WRITE
  /-- 0010 -/
  | PRECHARGE
  /-- 0001 -/
  | REFRESH
  /-- 0000 -/
  | LOAD_MODE
  deriving DecidableEq

inductive State
  | INIT | DELAY | IDLE | ACTIVATE | READ | READ_WAIT | WRITE0 | PRECHARGE | REFRESH
  deriving DecidableEq

namespace Core

section Parameters

abbrev SDRAM_MHZ : Nat := 100
abbrev SDRAM_ADDR_W : Nat := 24
abbrev SDRAM_COL_W : Nat := 9
abbrev SDRAM_BANK_W : Nat := 2
abbrev SDRAM_ROW_W : Nat := SDRAM_ADDR_W - SDRAM_COL_W - SDRAM_BANK_W
abbrev SDRAM_REFRESH_CNT : Nat := 2 ^ SDRAM_ROW_W
abbrev SDRAM_START_DELAY : Nat := 100000 / (1000 / SDRAM_MHZ)
abbrev SDRAM_REFRESH_CYCLES : Nat := 64000 * SDRAM_MHZ / SDRAM_REFRESH_CNT - 1
abbrev CYCLE_TIME_NS : Nat := 1000 / SDRAM_MHZ
abbrev SDRAM_READ_LATENCY : Nat := 1
abbrev SDRAM_TRCD_CYCLES : Nat := (20 + (CYCLE_TIME_NS - 1)) / CYCLE_TIME_NS
abbrev SDRAM_TRP_CYCLES : Nat := (20 + (CYCLE_TIME_NS - 1)) / CYCLE_TIME_NS
abbrev SDRAM_TRFC_CYCLES : Nat := (60 + (CYCLE_TIME_NS - 1)) / CYCLE_TIME_NS

/-- CAS latency 2, bursts of one word. -/
def MODE_REG : BitVec 13 := 0b0000000100000

abbrev AUTO_PRECHARGE : Nat := 10
abbrev ALL_BANKS : Nat := 10

end Parameters

structure Inport where
  wr : BitVec 4
  rd : Bool
  addr : Word
  writeData : Word
  deriving DecidableEq

structure Regs where
  command : Cmd
  addr : BitVec 13
  data : Word
  dataRdEn : Bool
  dqm : BitVec 4
  cke : Bool
  bank : BitVec 2
  refresh : Bool
  rowOpen : BitVec 4
  activeRow : BitVec 2 → BitVec 13
  state : State
  targetState : State
  delayState : State
  delay : BitVec 4
  refreshTimer : BitVec 17
  sampleData0 : Word
  sampleData : Word
  rd : BitVec 3
  ack : Bool

def reset : Regs where
  command := .NOP
  addr := 0
  data := 0
  dataRdEn := true
  dqm := 0
  cke := false
  bank := 0
  refresh := false
  rowOpen := 0
  activeRow _ := 0
  state := .INIT
  targetState := .IDLE
  delayState := .IDLE
  delay := 0
  refreshTimer := .ofNat 17 (SDRAM_START_DELAY + 100)
  sampleData0 := 0
  sampleData := 0
  rd := 0
  ack := false

variable (s : Regs) (io : Inport) (dataInput : Word)

def req : Bool := io.wr != 0 || io.rd

def opened : Bool := s.rowOpen.getLsbD (addr_bank io.addr).toNat

def rowHit : Bool := opened s io && addr_row io.addr == s.activeRow (addr_bank io.addr)

def access : State := if !io.rd then .WRITE0 else .READ

def readAgain : Bool := !s.refresh && req io && io.rd && rowHit s io

def targetStateR : State :=
  match s.state with
  | .IDLE =>
    if s.refresh then .REFRESH
    else if req io && !rowHit s io then access io
    else s.targetState
  | _ => s.targetState

def nextStateR : State :=
  match s.state with
  | .INIT => if s.refresh then .IDLE else .INIT
  | .IDLE =>
    if s.refresh then if orR s.rowOpen then .PRECHARGE else .REFRESH
    else if req io then
      if rowHit s io then access io
      else if opened s io then .PRECHARGE
      else .ACTIVATE
    else .IDLE
  | .ACTIVATE => targetStateR s io
  | .READ => .READ_WAIT
  | .READ_WAIT => if readAgain s io then .READ else .IDLE
  | .WRITE0 => .IDLE
  | .PRECHARGE => if targetStateR s io = .REFRESH then .REFRESH else .ACTIVATE
  | .REFRESH => .IDLE
  | .DELAY => s.delayState

def delayR : BitVec 4 :=
  match s.state with
  | .ACTIVATE => .ofNat 4 SDRAM_TRCD_CYCLES
  | .READ_WAIT => if readAgain s io then 0 else .ofNat 4 SDRAM_READ_LATENCY
  | .PRECHARGE => .ofNat 4 SDRAM_TRP_CYCLES
  | .REFRESH => .ofNat 4 SDRAM_TRFC_CYCLES
  | .DELAY => s.delay - 1
  | _ => 0

def commandOutput : Regs :=
  match s.state with
  | .INIT =>
    if s.refreshTimer = 50 then { s with cke := true }
    else if s.refreshTimer = 40 then
      { s with command := .PRECHARGE, addr := setBit s.addr ALL_BANKS true }
    else if s.refreshTimer = 20 ∨ s.refreshTimer = 30 then { s with command := .REFRESH }
    else if s.refreshTimer = 10 then { s with command := .LOAD_MODE, addr := MODE_REG }
    else { s with command := .NOP, addr := 0, bank := 0 }
  | .ACTIVATE =>
    { s with
      command := .ACTIVE
      addr := addr_row io.addr
      bank := addr_bank io.addr
      activeRow b := if b = addr_bank io.addr then addr_row io.addr else s.activeRow b
      rowOpen := setBit s.rowOpen (addr_bank io.addr).toNat true }
  | .PRECHARGE =>
    if targetStateR s io = .REFRESH then
      { s with command := .PRECHARGE, addr := setBit s.addr ALL_BANKS true, rowOpen := 0 }
    else
      { s with
        command := .PRECHARGE
        addr := setBit s.addr ALL_BANKS false
        bank := addr_bank io.addr
        rowOpen := setBit s.rowOpen (addr_bank io.addr).toNat false }
  | .REFRESH => { s with command := .REFRESH, addr := 0, bank := 0 }
  | .READ =>
    { s with
      command := .READ
      addr := setBit (addr_col io.addr) AUTO_PRECHARGE false
      bank := addr_bank io.addr
      dqm := 0 }
  | .WRITE0 =>
    { s with
      command := .WRITE
      addr := setBit (addr_col io.addr) AUTO_PRECHARGE false
      bank := addr_bank io.addr
      data := io.writeData
      dqm := ~~~io.wr
      dataRdEn := false }
  | _ => { s with command := .NOP, addr := 0, bank := 0, dataRdEn := true }

def accept : Bool := s.state = .READ || s.state = .WRITE0

def next : Regs :=
  { commandOutput s io with
    targetState := targetStateR s io
    delayState :=
      if s.state ≠ .DELAY ∧ delayR s io ≠ 0 then nextStateR s io else s.delayState
    state := if delayR s io ≠ 0 then .DELAY else nextStateR s io
    delay := delayR s io
    refreshTimer :=
      if s.refreshTimer = 0 then .ofNat 17 SDRAM_REFRESH_CYCLES else s.refreshTimer - 1
    refresh :=
      if s.refreshTimer = 0 then true else if s.state = .REFRESH then false else s.refresh
    sampleData0 := dataInput
    sampleData := s.sampleData0
    rd := s.rd.setWidth 2 ++ bit (s.state = .READ)
    ack := s.state = .WRITE0 || s.rd.getLsbD (SDRAM_READ_LATENCY + 1) }

end Core

end FpgaNpc.Sdram
