import FpgaNpc.Hardware.Machine
import FpgaNpc.Peripheral.CLINT

open FpgaNpc.Hardware FpgaNpc.AXI4

namespace FpgaNpc.CLINT

structure Clock where
  base : BitVec 64
  cycles : Nat

namespace Clock

def value (g : Clock) : BitVec 64 := g.base + BitVec.ofNat 64 g.cycles

def observe (_ : Regs) (io : Master) (g : Clock) : Clock :=
  let counted := g.value + 1
  if writes io 0xbff8 then ⟨counted.extractLsb' 32 32 ++ io.w.bits.data, 0⟩
  else if writes io 0xbffc then ⟨io.w.bits.data ++ counted.extractLsb' 0 32, 0⟩
  else ⟨g.base, g.cycles + 1⟩

end Clock

def withClock : Machine (Regs × Clock) Master := machine.monitor ⟨0, 0⟩ Clock.observe

def halves (s : Regs) (g : Clock) : List (BitVec 16 × Word) :=
  [(0x4000, s.mtimecmp.extractLsb' 0 32), (0x4004, s.mtimecmp.extractLsb' 32 32),
    (0xbff8, g.value.extractLsb' 0 32), (0xbffc, g.value.extractLsb' 32 32)]

/-- After the cycle `mtime` is right, a read of a half returns what it was in the cycle, and
`mtip` tells whether `mtime` had come up to `mtimecmp`. -/
structure TimeRight (s : Regs) (io : Master) (g : Clock) : Prop where
  mtime : (next s io).mtime = (g.observe s io).value
  read : arFire io = true → ∀ p ∈ halves s g, raddr io = p.1 →
    (r (next s io)).valid = true ∧ (r (next s io)).bits.data = p.2
  mtip : mtip (next s io) = true ↔ s.mtimecmp.toNat ≤ s.mtime.toNat

/-- The upper half of `mtime` is not written, the lower half only when it does not wrap around,
and `mtime` is not at `mtimecmp`. -/
structure Undisturbed (s : Regs) (io : Master) : Prop where
  upper : writes io 0xbffc = false
  lower : writes io 0xbff8 = true → s.mtime.extractLsb' 0 32 ≠ BitVec.allOnes 32
  apart : s.mtime ≠ s.mtimecmp

instance (s : Regs) (io : Master) : Decidable (Undisturbed s io) :=
  decidable_of_iff (_ ∧ _ ∧ _) ⟨fun ⟨hu, hl, ha⟩ => ⟨hu, hl, ha⟩, fun ⟨hu, hl, ha⟩ => ⟨hu, hl, ha⟩⟩

section Halves

variable (x : BitVec 64)

theorem low_add_one : (x + 1).extractLsb' 0 32 = x.extractLsb' 0 32 + 1 := by
  apply BitVec.eq_of_toNat_eq
  simp only [BitVec.extractLsb'_toNat, BitVec.toNat_add, BitVec.toNat_ofNat, BitVec.ofNat_eq_ofNat]
  omega

theorem high_add_one_iff : (x + 1).extractLsb' 32 32 = x.extractLsb' 32 32 ↔
    x.extractLsb' 0 32 ≠ BitVec.allOnes 32 := by
  have hlt := x.isLt
  rw [Ne, ← BitVec.toNat_inj, ← BitVec.toNat_inj]
  simp only [BitVec.extractLsb'_toNat, BitVec.toNat_add, BitVec.toNat_ofNat, BitVec.ofNat_eq_ofNat,
    BitVec.toNat_allOnes, Nat.shiftRight_eq_div_pow]
  omega

end Halves

variable {s : Regs} {io : Master} {g : Clock}

theorem writes_ne (h : writes io 0xbffc = true) : writes io 0xbff8 = false := by
  simp only [writes, Bool.and_eq_true, beq_iff_eq] at h
  simp [writes, h.2]

theorem mtime_next_iff (h : s.mtime = g.value) :
    (next s io).mtime = (g.observe s io).value ↔ writes io 0xbffc = false ∧
      (writes io 0xbff8 = true → s.mtime.extractLsb' 0 32 ≠ BitVec.allOnes 32) := by
  have hsum : g.value + 1 = s.mtime + 1 := by rw [h]
  rw [next, Clock.observe, hsum]
  cases hhigh : writes io 0xbffc
  case true =>
    simp only [writes_ne hhigh, Bool.false_eq_true, if_false, if_true, Clock.value, low_add_one]
    rw [BitVec.add_zero, BitVec.append_right_inj]
    simp
  case false =>
    cases hlow : writes io 0xbff8
    case true =>
      simp only [if_true, Clock.value]
      rw [BitVec.add_zero, BitVec.append_left_inj, eq_comm, high_add_one_iff]
      simp
    case false =>
      have hvalue : Clock.value ⟨g.base, g.cycles + 1⟩ = s.mtime + 1 := by
        rw [h, Clock.value, Clock.value, BitVec.ofNat_add, BitVec.add_assoc]
        rfl
      simp [hvalue]

theorem read_next (h : s.mtime = g.value) (har : arFire io = true) :
    ∀ p ∈ halves s g, raddr io = p.1 →
      (r (next s io)).valid = true ∧ (r (next s io)).bits.data = p.2 := by
  intro p hp ha
  refine ⟨har, ?_⟩
  change rdataNext s io = p.2
  rw [rdataNext, ha, h]
  simp only [halves, List.mem_cons, List.not_mem_nil, or_false] at hp
  rcases hp with rfl | rfl | rfl | rfl <;> simp [Mux1H]

theorem mtip_next_iff (s : Regs) (io : Master) :
    (mtip (next s io) = true ↔ s.mtimecmp.toNat ≤ s.mtime.toNat) ↔ s.mtime ≠ s.mtimecmp := by
  change (decide (s.mtimecmp < s.mtime) = true ↔ _) ↔ _
  rw [decide_eq_true_eq, BitVec.lt_def, Ne, ← BitVec.toNat_inj]
  omega

theorem timeRight_iff (h : s.mtime = g.value) : TimeRight s io g ↔ Undisturbed s io := by
  constructor
  · intro ht
    obtain ⟨hu, hl⟩ := (mtime_next_iff h).1 ht.mtime
    exact ⟨hu, hl, (mtip_next_iff s io).1 ht.mtip⟩
  · intro hu
    exact ⟨(mtime_next_iff h).2 ⟨hu.upper, hu.lower⟩, read_next h, (mtip_next_iff s io).2 hu.apart⟩

theorem timer_right {p : Regs × Clock} (h : withClock.Reaches (fun p io => Undisturbed p.1 io) p) :
    p.1.mtime = p.2.value ∧ ∀ io, TimeRight p.1 io p.2 ↔ Undisturbed p.1 io := by
  have hmtime : p.1.mtime = p.2.value := by
    refine h.monitor_invariant (P := fun s g => s.mtime = g.value) (fun s hs => ?_)
      fun s g io ih hu => (mtime_next_iff ih).2 ⟨hu.upper, hu.lower⟩
    simp [hs.mtime, Clock.value]
  exact ⟨hmtime, fun io => timeRight_iff hmtime⟩

def idle : Master :=
  ⟨⟨false, ⟨0, 0, 0, 0, .FIXED⟩⟩, true, ⟨false, .zero⟩, ⟨false, ⟨0, 0, true⟩⟩, true⟩

def writing (addr data : Word) : Master :=
  { idle with aw := ⟨true, { AW.zero with addr := addr }⟩, w := ⟨true, ⟨data, 0xf, true⟩⟩ }

theorem timer_right_read :
    (r (next (machine.run reset [writing 0x0200bff8 100, idle])
      { idle with ar := ⟨true, ⟨0x0200bff8, 1, 0, 2, .INCR⟩⟩ })).bits.data = 101 := by
  have hr := withClock.reaches_run (fun p io => Undisturbed p.1 io) (reset, ⟨0, 0⟩)
    [writing 0x0200bff8 100, idle] ⟨isReset_reset, rfl⟩ (by decide +kernel)
  have hright := ((timer_right hr).2 { idle with ar := ⟨true, ⟨0x0200bff8, 1, 0, 2, .INCR⟩⟩ }).2
    (by decide +kernel)
  exact (hright.read rfl (0xbff8, 101) (by decide +kernel) (by decide +kernel)).2

/-- `mtimecmp` is 3, and `mtime` comes up to it; then the upper half is written. -/
theorem timer_wrong :
    (¬∀ s, machine.Reaches (fun _ _ => True) s → ∀ io,
      (mtip (next s io) = true ↔ s.mtimecmp.toNat ≤ s.mtime.toNat)) ∧
    ¬∀ p, withClock.Reaches (fun _ _ => True) p → p.1.mtime = p.2.value := by
  constructor
  · intro h
    have hr := machine.reaches_run (fun _ _ => True) reset
      [writing 0x02004000 3, writing 0x02004004 0, idle] isReset_reset (by decide +kernel)
    have hmtip := h _ hr idle
    revert hmtip
    decide +kernel
  · intro h
    have hr := withClock.reaches_run (fun _ _ => True) (reset, ⟨0, 0⟩)
      [writing 0x0200bffc 1] ⟨isReset_reset, rfl⟩ (by decide +kernel)
    have hmtime := h _ hr
    revert hmtime
    decide +kernel

end FpgaNpc.CLINT
