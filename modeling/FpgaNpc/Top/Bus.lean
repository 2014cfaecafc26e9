import FpgaNpc.Core.Request
import FpgaNpc.Peripheral.Forwarding
import FpgaNpc.Top.System

open FpgaNpc.Hardware FpgaNpc.SRAMLike

namespace FpgaNpc.Top

open Memory (Store)

/-- How far the memory is with the write that the arbiter hands to it, and what it has been asked
to store. -/
inductive Writing (req : SRAMLikeReq) (state : WriteState) (bPending : Bool) (m : Memory.Regs)
    (issued : List Store) : Prop
  | free : state = .WriteIDLE → bPending = false → m.aw = none → m.w = none →
    m.unanswered = false → issued = m.settled → Writing req state bPending m issued
  | address (aw : AXI4.AW) : state = .WaitWChannel → bPending = false → m.aw = some aw →
    aw.addr = req.addr → m.w = none → m.unanswered = false → issued = m.settled →
    Writing req state bPending m issued
  | data (w : AXI4.W) : state = .WaitAWChannel → bPending = false → m.aw = none → m.w = some w →
    w.data = req.wdata → w.strb = req.wstrb → m.unanswered = false → issued = m.settled →
    Writing req state bPending m issued
  | taken (aw : AXI4.AW) (w : AXI4.W) : state = .WriteIDLE → bPending = true → m.aw = some aw →
    m.w = some w → m.unanswered = false → issued = m.settled ++ [⟨aw.addr, w.data, w.strb⟩] →
    Writing req state bPending m issued
  | settled : state = .WriteIDLE → bPending = true → m.aw = none → m.w = none →
    m.unanswered = true → issued = m.settled → Writing req state bPending m issued

/-- The words of a read for the data port that are with the memory. -/
def dbusLeft (s : Regs) : Nat := if s.memory.id = 0 then 0 else (Memory.owed s.memory).length

/-- Those that MEM has still to get. -/
def dbusOwed (s : Regs) : Nat := dbusLeft s + s.arbiter.rChannelDBusQueue.toList.length

def icacheOwed (s : Regs) : List (BitVec 30) := if s.memory.id = 0 then Memory.owed s.memory else []

structure BusInv (s : Regs) (issued : List Store) (g : Arbiter.Owed) : Prop where
  arbiter : Arbiter.Inv s.arbiter g
  ibusHeld : ∀ r ∈ g.ibusHeld, ICache.arToMem s.icache = ⟨true, r⟩
  dbusHeld : ∀ r ∈ g.dbusHeld, MEM.req s.core.memStage = ⟨true, r⟩
  pending : g.dbusPending = MEM.awaits s.core.memStage
  writing : Writing (MEM.req s.core.memStage).bits s.arbiter.writeState g.bPending s.memory issued
  idle : s.arbiter.reqBusy = false → Memory.owed s.memory = []
  ids : s.memory.id = 0 ∨ s.memory.id = 1
  ibusQueue : s.arbiter.rChannelIBusQueue = none
  dbusOwed : dbusOwed s ≤ if MEM.awaits s.core.memStage = some false then 1 else 0

variable {image : BitVec 30 → Word} {s : Regs} {io : Inputs} {issued : List Store}
  {g : Arbiter.Owed}

def issues (image : BitVec 30 → Word) (s : Regs) (io : Inputs) : List Store :=
  let req := MEM.req s.core.memStage
  if MEM.reqFire s.core.memStage (dbus image s io) && req.bits.wr then
    [⟨req.bits.addr, req.bits.wdata, req.bits.wstrb⟩]
  else []

theorem Writing.unanswered {req : SRAMLikeReq} {state : WriteState} {bPending : Bool}
    {m : Memory.Regs} (h : Writing req state bPending m issued) (hu : m.unanswered = true) :
    bPending = true := by
  cases h <;> simp_all

theorem Writing.settled_prefix {issued : List Store} {req : SRAMLikeReq} {state : WriteState}
    {bPending : Bool} {m : Memory.Regs} (h : Writing req state bPending m issued) :
    m.settled <+: issued := by
  cases h with
  | free _ _ _ _ _ hi => exact hi ▸ List.prefix_rfl
  | address _ _ _ _ _ _ _ hi => exact hi ▸ List.prefix_rfl
  | data _ _ _ _ _ _ _ _ hi => exact hi ▸ List.prefix_rfl
  | taken _ _ _ _ _ _ _ hi => exact hi ▸ List.prefix_append _ _
  | settled _ _ _ _ _ hi => exact hi ▸ List.prefix_rfl

namespace BusInv

theorem kept (h : BusInv s issued g) (B : Core.Build) (image : BitVec 30 → Word) (io : Inputs) :
    g.Kept (arbiterInputs B image s io) where
  ibus := h.ibusHeld
  dbus := h.dbusHeld
  single hp := by
    rw [h.pending] at hp
    obtain ⟨wr, hwr⟩ := Option.isSome_iff_exists.1 hp
    exact MEM.req_of_awaits hwr
  b hv := by
    have hb : (Memory.b s.memory io.memory).valid = true := hv
    simp only [Memory.b, Bool.and_eq_true] at hb
    exact h.writing.unanswered hb.2

theorem awaits_of_rResp (h : BusInv s issued g) (hv : (dbus image s io).rResp.valid = true) :
    MEM.awaits s.core.memStage = some false := by
  by_contra hne
  have howed := h.dbusOwed
  rw [if_neg hne, Nat.le_zero, Top.dbusOwed, Nat.add_eq_zero_iff, List.length_eq_zero_iff,
    Option.toList_eq_nil_iff] at howed
  have hr : ((Memory.r image s.memory io.memory).bits.id == 1 &&
      (Memory.r image s.memory io.memory).valid) = true := by
    have : (s.arbiter.rChannelDBusQueue.deqValid _) = true := hv
    rwa [howed.2, FlowQueue.deqValid, Option.isSome_none, Bool.false_or] at this
  rw [Bool.and_eq_true, beq_iff_eq] at hr
  obtain ⟨a, rest, hw, hid, -⟩ := Memory.r_spec hr.2
  rw [hid] at hr
  have hnil := howed.1
  rw [dbusLeft, hr.1, if_neg (by decide), List.length_eq_zero_iff] at hnil
  simp [Memory.r_valid_of_owed hnil] at hr

theorem awaits_of_wResp (h : BusInv s issued g) (hv : (dbus image s io).wResp.valid = true) :
    MEM.awaits s.core.memStage = some true := by
  rw [← h.pending]
  have hv' : (s.arbiter.bChannelQueue.isSome || (Memory.b s.memory io.memory).valid) = true := hv
  rw [Bool.or_eq_true] at hv'
  rcases hv' with hq | hb
  · exact (h.arbiter.bQueued (Option.isSome_iff_ne_none.1 hq)).1
  · exact (h.arbiter.bPending ((h.kept .zeros image io).b hb)).1

theorem issued_of_fire (h : BusInv s issued g)
    (hv : MEM.toWBValid s.core.memStage (dbus image s io) = true) :
    issued = s.memory.settled := by
  cases h.writing with
  | free _ _ _ _ _ hi => exact hi
  | address _ _ _ _ _ _ _ hi => exact hi
  | data _ _ _ _ _ _ _ _ hi => exact hi
  | settled _ _ _ _ _ hi => exact hi
  | taken aw w _ hb _ _ hu =>
    obtain ⟨hp, hq⟩ := h.arbiter.bPending hb
    have ha := h.pending.symm.trans hp
    rcases MEM.resp_of_awaits ha hv with hr | hw
    · simp [h.awaits_of_rResp hr] at ha
    · have hw' : (s.arbiter.bChannelQueue.isSome ||
          (Memory.b s.memory io.memory).valid) = true := hw
      simp [hq, Memory.b, hu] at hw'

end BusInv

end FpgaNpc.Top
