import FpgaNpc.Sdram.Linear

open FpgaNpc.Hardware FpgaNpc.Simulator.SDRAM

namespace FpgaNpc.Sdram.Axi

/-- What has been told to the chip, beside what is owed on the bus, and the request that was
accepted in the last cycle. -/
structure Watch where
  owed : Owed
  device : Core.Device
  accepted : Option Core.Inport

namespace Watch

def start (mem : BitVec 23 → Word) : Watch :=
  ⟨.nothing mem, ⟨.powerUp, fun _ => none, fun _ => 0⟩, none⟩

def observe (g : Watch) (s : Regs) (io : Pmem.Bus) : Watch where
  owed := g.owed.observe s io
  device := g.device.after Core.timing (Core.told s.memory.core)
  accepted := if Core.accept s.memory.core then some (inport s io) else none

end Watch

/-- The command at the pins serves the request that was accepted, and the open row is that of the
request. -/
def Serves (s : Core.Regs) (d : Core.Device) : Option Core.Inport → Prop
  | none => s.command ≠ .READ ∧ s.command ≠ .WRITE
  | some r => s.command = (if r.rd then .READ else .WRITE) ∧ s.bank = addr_bank r.addr ∧
      s.addr = addr_col r.addr ∧ d.row s.bank = some (addr_row r.addr)

section Laws

variable {s : Core.Regs} {c : Chip.Regs} {g : Option Core.Inport} {q : Core.Inport} {w : Word}
  {d : Core.Device}

theorem row_of_hit (h : Core.Follows s d) (hit : Core.rowHit s q = true) :
    d.row (addr_bank q.addr) = some (addr_row q.addr) := by
  simp only [Core.rowHit, Core.opened, Bool.and_eq_true, beq_iff_eq] at hit
  rw [h.row, if_pos hit.1, hit.2]

theorem serves_next (h : Core.Follows s d) (hp : Core.Sched s g) (hk : Core.Holds g q)
    (hs : Sync s c) : Serves (Core.next s q w) d (if Core.accept s then some q else none) := by
  have hread := hs.next_read (q := q) (w := w) hp.pipe
  have hwrite := hs.next_write (q := q) (w := w) hp.pipe
  have hplan := hp.plan
  cases ha : Core.accept s
  case false =>
    simp only [Core.accept, Bool.or_eq_false_iff, decide_eq_false_iff_not] at ha
    exact ⟨fun h => ha.1 (hread.1 h), fun h => ha.2 (hwrite.1 h)⟩
  case true =>
    simp only [Core.accept, Bool.or_eq_true, decide_eq_true_eq] at ha
    rcases ha with hstate | hstate
    · simp only [Core.Plan, Core.heading, hstate, reduceCtorEq, if_false] at hplan
      obtain ⟨r, rfl, hrd, hit⟩ := hplan
      obtain rfl := hk r rfl
      have hrd' : q.rd = true := hrd
      have hrow := row_of_hit (q := q) h hit
      simp [Serves, Core.next, Core.commandOutput, hstate, hrd', hrow, setBit_addr_col]
    · simp only [Core.Plan, Core.heading, hstate, reduceCtorEq, if_false] at hplan
      obtain ⟨r, rfl, -, hrd, hit⟩ := hplan
      obtain rfl := hk r rfl
      have hrd' : q.rd = false := hrd
      have hrow := row_of_hit (q := q) h hit
      simp [Serves, Core.next, Core.commandOutput, hstate, hrd', hrow, setBit_addr_col]

theorem follows_reset : Core.Follows Core.reset
    ((Watch.start fun _ => 0).device.after Core.timing (Core.told Core.reset)) := by
  refine ⟨fun b => ?_, fun b => Nat.zero_le _, rfl, fun _ ht => ?_, fun _ hr => ?_⟩
  · simp [Core.reset, Core.told, Watch.start, Dram.Device.after, Dram.Device.tick]
  · exact absurd ht (by decide)
  · simp [Core.reset] at hr

end Laws

/-- Whatever the traffic, the chip is set up before its first access, no command comes before the
bank is ready for it, each access goes to the open row of its request, and the controller and the
chip never drive the data pins together. -/
theorem commands_legal {m : Ddr} {p : Regs × Watch}
    (h : ((machine m).monitor (.start (image m)) fun s i g => g.observe s i.1).Reaches
      (fun p i => p.2.owed.Follows i.1) p) :
    p.2.device.Legal (Core.told p.1.memory.core) ∧
      Serves p.1.memory.core p.2.device p.2.accepted ∧
      ¬(p.1.memory.core.dataRdEn = false ∧ Chip.readEnable p.1.memory.chip = true) := by
  have hall := h.monitor_invariant
    (P := fun s g => (∃ h reading m' done waiting, InStep s g.owed h reading m' done waiting) ∧
      g.device.Legal (Core.told s.memory.core) ∧
      Core.Follows s.memory.core (g.device.after Core.timing (Core.told s.memory.core)) ∧
      Serves s.memory.core g.device g.accepted) ?_ ?_
  · obtain ⟨⟨_, _, _, _, _, hs⟩, hlegal, -, hserves⟩ := hall
    refine ⟨hlegal, hserves, fun ⟨hdrive, hread⟩ => ?_⟩
    have hwrite := hs.sync.drive.1 hdrive
    have hreading := hs.sync.state
    rw [Chip.readEnable, decide_eq_true_eq] at hread
    rw [hread] at hreading
    split_ifs at hreading with hr
    have := hs.sync.quiet hr
    simp [hwrite] at this
  · rintro s ⟨requests, response, rfl⟩
    exact ⟨⟨_, _, _, _, _, .reset m requests response⟩, trivial, follows_reset, by
      simp [Serves, Watch.start, Sdram.reset, Core.reset]⟩
  · rintro s g i ⟨⟨_, _, _, _, _, hs⟩, -, hfollows, -⟩ hk
    obtain ⟨hlegal, hnext⟩ := hfollows.next (w := dq s.memory i.2) hs.sched (hs.holds hk)
    exact ⟨hs.next hk, hlegal, hnext, serves_next hfollows hs.sched (hs.holds hk) hs.sync⟩

def watched (m : Ddr) : Machine (Regs × Watch) (Pmem.Bus × Word) :=
  (machine m).monitor (.start (image m)) fun s i g => g.observe s i.1

@[irreducible] def firstWrite : Regs × Watch :=
  (watched zeros).run (powerUp.1, .start (image zeros)) (twoWords.take 67)

theorem reached_firstWrite :
    (watched zeros).Reaches (fun p i => p.2.owed.Follows i.1) firstWrite := by
  have hstart : (watched zeros).Reaches (fun p i => p.2.owed.Follows i.1)
      (powerUp.1, .start (image zeros)) :=
    reaches_poweringUp (fun _ => Owed.follows_idle rfl rfl rfl) (fun _ => rfl) (Nat.le_refl _)
  unfold firstWrite
  exact hstart.run (by decide +kernel)

theorem commands_legal_firstWrite : firstWrite.1.memory.core.command = .WRITE ∧
    firstWrite.2.device.Legal (Core.told firstWrite.1.memory.core) ∧
      Serves firstWrite.1.memory.core firstWrite.2.device firstWrite.2.accepted :=
  ⟨by decide +kernel, (commands_legal reached_firstWrite).1,
    (commands_legal reached_firstWrite).2.1⟩

end FpgaNpc.Sdram.Axi
