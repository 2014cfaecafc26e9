import FpgaNpc.Hardware.LaneMemory
import FpgaNpc.Riscv.MemoryAccess

open FpgaNpc.Hardware

namespace FpgaNpc.Riscv

abbrev ByteMemory := Word → BitVec 8

def ByteMemory.store (m : ByteMemory) (w : Width) (a data : Word) : ByteMemory := fun x =>
  if (x - a).toNat < w.bytes then lane (x - a).toNat data else m x

inductive LoadInst
  | LB | LH | LW | LBU | LHU
  deriving DecidableEq

namespace LoadInst

def width : LoadInst → Width
  | .LB | .LBU => .byte
  | .LH | .LHU => .half
  | .LW => .word

def signed : LoadInst → Bool
  | .LB | .LH | .LW => true
  | .LBU | .LHU => false

def value (i : LoadInst) (m : ByteMemory) (a : Word) : Word :=
  match i with
  | .LB => (m a).signExtend 32
  | .LH => (m (a + 1) ++ m a).signExtend 32
  | .LW => m (a + 3) ++ m (a + 2) ++ m (a + 1) ++ m a
  | .LBU => (m a).setWidth 32
  | .LHU => (m (a + 1) ++ m a).setWidth 32

def extend (i : LoadInst) (data : Word) : Word :=
  match i with
  | .LB => (data.setWidth 8).signExtend 32
  | .LH => (data.setWidth 16).signExtend 32
  | .LW => data
  | .LBU => (data.setWidth 8).setWidth 32
  | .LHU => (data.setWidth 16).setWidth 32

end LoadInst

theorem ByteMemory.store_add (m : ByteMemory) (w : Width) (a data : Word) {k : Nat}
    (h : k < w.bytes) : m.store w a data (a + BitVec.ofNat 32 k) = lane k data := by
  have hk : (a + BitVec.ofNat 32 k - a).toNat = k := by
    rw [BitVec.add_comm, BitVec.add_sub_cancel, BitVec.toNat_ofNat]
    cases w <;> simp only [Width.bytes] at h <;> omega
  rw [store, hk, if_pos h]

theorem LoadInst.value_of_lanes {i : LoadInst} {m : ByteMemory} {a data : Word}
    (h : ∀ k < i.width.bytes, m (a + BitVec.ofNat 32 k) = lane k data) :
    i.value m a = i.extend data := by
  have h0 : m a = lane 0 data := by simpa using h 0 (by cases i <;> decide)
  have hbyte : lane 0 data = data.setWidth 8 := by
    rw [lane, BitVec.setWidth_eq_extractLsb' (by decide)]
  cases i
  case LB | LBU => simp only [value, extend, h0, hbyte]
  case LH | LHU =>
    have h1 : m (a + 1) = lane 1 data := h 1 (by decide)
    simp only [value, extend, h0, h1, lane_append_two]
  case LW =>
    have h1 : m (a + 1) = lane 1 data := h 1 (by decide)
    have h2 : m (a + 2) = lane 2 data := h 2 (by decide)
    have h3 : m (a + 3) = lane 3 data := h 3 (by decide)
    simp only [value, extend, h0, h1, h2, h3, lane_append_four]

end FpgaNpc.Riscv
