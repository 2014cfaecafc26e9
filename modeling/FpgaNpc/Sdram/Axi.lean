import FpgaNpc.Sdram.Chip
import FpgaNpc.Sdram.Pmem

open FpgaNpc.Hardware FpgaNpc.AXI4 FpgaNpc.Simulator.SDRAM

namespace FpgaNpc.Sdram.Axi

/-- `sdram_axi` with the chip on its pins. -/
structure Regs where
  pmem : Pmem.Regs
  memory : Sdram.Regs

variable (s : Regs) (io : Pmem.Bus) (z : Word)

def inport : Core.Inport :=
  ⟨Pmem.ramWr s.pmem io, Pmem.ramRd s.pmem io, Pmem.ramAddr s.pmem io, io.w.bits.data⟩

def ram : Pmem.Ram :=
  ⟨Core.accept s.memory.core, s.memory.core.ack, s.memory.core.sampleData⟩

def next : Regs where
  pmem := Pmem.next s.pmem io (ram s)
  memory := Sdram.next s.memory (inport s io) z

def awFire : Bool := Pmem.awFire s.pmem io (ram s)

def wFire : Bool := Pmem.wFire s.pmem io (ram s)

def arFire : Bool := Pmem.arFire s.pmem io (ram s)

/-- The circuit with the array `m` in its chip; nothing is known of the slots of its buffers. -/
def machine (m : Ddr) : Machine Regs (Pmem.Bus × Word) where
  IsReset s := ∃ requests response, s = ⟨Pmem.reset requests response, Sdram.reset m⟩
  next s i := next s i.1 i.2

section PowerUp

def idle : Pmem.Bus :=
  ⟨⟨false, ⟨0, 0, 0, .FIXED⟩⟩, ⟨false, ⟨0, 0, false⟩⟩, true, ⟨false, ⟨0, 0, 0, .FIXED⟩⟩, true⟩

def poweringUp (m : Ddr) (requests : BitVec 2 → Pmem.Request) (response : BitVec 2 → Word)
    (t : BitVec 17) : Regs :=
  ⟨Pmem.reset requests response,
    { Sdram.reset m with core := { Core.reset with refreshTimer := t } }⟩

variable {m : Ddr} {requests : BitVec 2 → Pmem.Request} {response : BitVec 2 → Word}

theorem next_poweringUp {t : BitVec 17} (h : 50 < t.toNat) :
    next (poweringUp m requests response t) idle 0 = poweringUp m requests response (t - 1) := by
  have hne (k : BitVec 17) (hk : k.toNat ≤ 50) : t ≠ k := by
    rintro rfl
    omega
  have hcore : Core.next { Core.reset with refreshTimer := t } ⟨0, false, 0, 0⟩ 0 =
      { Core.reset with refreshTimer := t - 1 } := by
    simp only [Core.next, Core.commandOutput, Core.reset, hne 50 (by decide), hne 40 (by decide),
      hne 30 (by decide), hne 20 (by decide), hne 10 (by decide), hne 0 (by decide), or_self,
      if_false, Core.delayR, Core.nextStateR, Core.targetStateR]
    congr
    simp [bit]
  have hmemory : Sdram.next (poweringUp m requests response t).memory ⟨0, false, 0, 0⟩ 0 =
      (poweringUp m requests response (t - 1)).memory := by
    rw [Sdram.next]
    exact congrArg (fun c => Sdram.Regs.mk c Chip.reset (some m)) hcore
  exact congrArg (Regs.mk (Pmem.reset requests response)) hmemory

variable {γ : Type} {start : γ} {observe : Regs → Pmem.Bus × Word → γ → γ}
  {ok : Regs × γ → Pmem.Bus × Word → Prop}

theorem reaches_poweringUp (hok : ∀ t, ok (poweringUp m requests response t, start) (idle, 0))
    (hstart : ∀ t, observe (poweringUp m requests response t) (idle, 0) start = start) {n : Nat}
    (h : n ≤ 10050) : ((machine m).monitor start observe).Reaches ok
      (poweringUp m requests response (.ofNat 17 (10100 - n)), start) := by
  induction n with
  | zero => exact .reset ⟨⟨requests, response, rfl⟩, rfl⟩
  | succ n ih =>
    have hnext := (ih (by omega)).next (hok _)
    have ht : 50 < (BitVec.ofNat 17 (10100 - n)).toNat := by
      rw [BitVec.toNat_ofNat]
      omega
    have hsub : BitVec.ofNat 17 (10100 - n) - 1 = BitVec.ofNat 17 (10100 - (n + 1)) := by bv_omega
    simp only [Machine.monitor, machine, hstart, next_poweringUp ht, hsub] at hnext
    exact hnext

end PowerUp

end FpgaNpc.Sdram.Axi
