import FpgaNpc.Hardware.Dram
import FpgaNpc.Sdram.Schedule

open FpgaNpc.Hardware FpgaNpc.Simulator.SDRAM

namespace FpgaNpc.Sdram.Core

abbrev Device := Dram.Device (BitVec 2) (BitVec 13)

def told (s : Regs) : Dram.Command (BitVec 2) (BitVec 13) :=
  match s.command with
  | .NOP => .nop
  | .ACTIVE => .active s.bank s.addr
  | .READ => .read s.bank
  | .WRITE => .write s.bank
  | .PRECHARGE => if s.addr.getLsbD ALL_BANKS then .prechargeAll else .precharge s.bank
  | .REFRESH => .refresh
  | .LOAD_MODE => .loadMode

def timing : Dram.Timing := ⟨SDRAM_TRCD_CYCLES, SDRAM_TRP_CYCLES, SDRAM_TRFC_CYCLES⟩

/-- How many cycles are left at least before the controller can issue another command. -/
def slack (s : Regs) : Nat :=
  match s.state with
  | .DELAY => s.delay.toNat
  | .INIT => s.refreshTimer.toNat % 10
  | _ => 0

def phaseAt (t : Nat) : Dram.Phase :=
  if 40 ≤ t then .powerUp
  else if 30 ≤ t then .precharged 0
  else if 20 ≤ t then .precharged 1
  else if 10 ≤ t then .precharged 2
  else .ready

def phase (s : Regs) : Dram.Phase :=
  if s.state = .INIT ∧ s.refresh = false then phaseAt s.refreshTimer.toNat else .ready

/-- The chip is as the controller takes it to be. -/
structure Follows (s : Regs) (d : Device) : Prop where
  row : ∀ b, d.row b = if s.rowOpen.getLsbD b.toNat then some (s.activeRow b) else none
  busy : ∀ b, d.busy b ≤ slack s
  phase : d.phase = phase s
  quiet : s.state = .INIT → s.refreshTimer.toNat = 50 → s.command = .NOP
  started : s.state = .INIT → s.refresh = true → s.refreshTimer.toNat = SDRAM_REFRESH_CYCLES

section Laws

variable {s : Regs} {g : Option Inport} {q : Inport} {w : Word} {d : Device}

theorem toNat_refreshTimer_next : (next s q w).refreshTimer.toNat =
    if s.refreshTimer.toNat = 0 then SDRAM_REFRESH_CYCLES else s.refreshTimer.toNat - 1 := by
  simp only [next]
  by_cases h : s.refreshTimer = 0
  · rw [if_pos h, h]
    rfl
  · have h' : s.refreshTimer.toNat ≠ 0 := fun he => h (BitVec.eq_of_toNat_eq he)
    rw [if_neg h, if_neg h']
    bv_omega

theorem commandOutput_of_init (hs : s.state = .INIT) : commandOutput s q =
    if s.refreshTimer.toNat = 50 then { s with cke := true }
    else if s.refreshTimer.toNat = 40 then
      { s with command := .PRECHARGE, addr := setBit s.addr ALL_BANKS true }
    else if s.refreshTimer.toNat = 20 ∨ s.refreshTimer.toNat = 30 then
      { s with command := .REFRESH }
    else if s.refreshTimer.toNat = 10 then { s with command := .LOAD_MODE, addr := MODE_REG }
    else { s with command := .NOP, addr := 0, bank := 0 } := by
  have heq (k : Nat) (hk : k < 2 ^ 17) :
      s.refreshTimer = BitVec.ofNat 17 k ↔ s.refreshTimer.toNat = k := by
    rw [← BitVec.toNat_inj, BitVec.toNat_ofNat, Nat.mod_eq_of_lt hk]
  have h50 := heq 50 (by decide)
  have h40 := heq 40 (by decide)
  have h30 := heq 30 (by decide)
  have h20 := heq 20 (by decide)
  have h10 := heq 10 (by decide)
  simp only [commandOutput, hs]
  simp only [BitVec.ofNat_eq_ofNat, h50, h40, h30, h20, h10]

theorem Follows.tick (h : Follows s d) {s' : Regs} (hopen : s'.rowOpen = s.rowOpen)
    (hactive : s'.activeRow = s.activeRow) (hslack : slack s ≤ slack s' + 1)
    (hphase : Core.phase s' = Core.phase s)
    (hquiet : s'.state = .INIT → s'.refreshTimer.toNat = 50 → s'.command = .NOP)
    (hstarted : s'.state = .INIT → s'.refresh = true →
      s'.refreshTimer.toNat = SDRAM_REFRESH_CYCLES) :
    Follows s' d.tick where
  row b := by rw [hopen, hactive]; exact h.row b
  busy b := by
    have hb := h.busy b
    simp only [Dram.Device.tick]
    omega
  phase := by rw [hphase]; exact h.phase
  quiet := hquiet
  started := hstarted

theorem phase_of_state (h : s.state ≠ .INIT) : phase s = .ready := by simp [phase, h]

theorem state_next_ne_init (h : Plan s g) (hs : s.state ≠ .INIT) :
    (next s q w).state ≠ .INIT := by
  rw [Plan, heading] at h
  have hacc := access_cases (q := q)
  rw [state_next, nextStateR, targetStateR]
  cases hstate : s.state <;> simp only [hstate] at h hs ⊢
  case DELAY =>
    rw [if_pos trivial] at h
    split_ifs
    · simp
    · intro he
      simp [he] at h
  case ACTIVATE =>
    obtain ⟨r, -, -, ht, -⟩ := h
    rw [ht]
    obtain ⟨hr, -⟩ | ⟨hr, -⟩ := access_cases (q := r) <;> simp only [hr] <;>
      split_ifs <;> simp
  all_goals grind

theorem told_next_of_init (hs : s.state = .INIT) : told (next s q w) =
    if s.refreshTimer.toNat = 50 then told s
    else if s.refreshTimer.toNat = 40 then .prechargeAll
    else if s.refreshTimer.toNat = 20 ∨ s.refreshTimer.toNat = 30 then .refresh
    else if s.refreshTimer.toNat = 10 then .loadMode
    else .nop := by
  have hall : (setBit s.addr ALL_BANKS true).getLsbD ALL_BANKS = true := by
    rw [getLsbD_setBit _ _ _ _ (by decide), if_pos rfl]
  simp only [told, next, commandOutput_of_init hs]
  split_ifs <;> simp_all

theorem slack_of_init (hs : s.state = .INIT) : slack s = s.refreshTimer.toNat % 10 := by
  simp [slack, hs]

theorem phaseAt_sub_one {t : Nat} (h40 : t ≠ 40) (h30 : t ≠ 30) (h20 : t ≠ 20) (h10 : t ≠ 10) :
    phaseAt (t - 1) = phaseAt t := by
  simp only [phaseAt]
  split_ifs <;> first | rfl | omega

theorem Follows.of_unstarted (hclosed : s.rowOpen = 0) (hs : s.state = .INIT)
    (hr : s.refresh = false) (hrow : ∀ b, d.row b = none)
    (hbusy : ∀ b, d.busy b ≤ (if s.refreshTimer.toNat = 0 then SDRAM_REFRESH_CYCLES
      else s.refreshTimer.toNat - 1) % 10)
    (hphase : d.phase = phaseAt (s.refreshTimer.toNat - 1)) : Follows (next s q w) d := by
  have hto : (next s q w).state = .INIT := by
    simp [state_next, delayR, nextStateR, hs, hr]
  have hrefresh : (next s q w).refresh = decide (s.refreshTimer.toNat = 0) := by
    simp [next, hs, hr, ← BitVec.toNat_inj]
  have htimer := toNat_refreshTimer_next (s := s) (q := q) (w := w)
  refine ⟨fun b => ?_, fun b => ?_, ?_, fun _ h50 => ?_, fun _ h0 => ?_⟩
  · simp [hrow, rowOpen_next_of_init hs, hclosed]
  · rw [slack_of_init hto, htimer]
    exact hbusy b
  · rw [hphase]
    simp only [Core.phase, hto, hrefresh, htimer, true_and, decide_eq_false_iff_not]
    split_ifs <;> simp_all [phaseAt]
  · have ht : s.refreshTimer.toNat = 51 := by
      rw [htimer] at h50
      by_cases h0 : s.refreshTimer.toNat = 0
      · rw [if_pos h0] at h50
        exact absurd h50 (by decide)
      · rw [if_neg h0] at h50
        omega
    simp [next, commandOutput_of_init hs, ht]
  · rw [hrefresh] at h0
    rw [htimer, if_pos (by simpa using h0)]

/-- The timer counts out the set-up sequence, ten cycles for each command. -/
theorem Follows.next_of_unstarted (h : Follows s d) (hclosed : s.rowOpen = 0)
    (hs : s.state = .INIT) (hr : s.refresh = false) :
    d.Legal (told (next s q w)) ∧ Follows (next s q w) (d.after timing (told (next s q w))) := by
  have hrow (b : BitVec 2) : d.row b = none := by simp [h.row, hclosed]
  have htold := told_next_of_init (q := q) (w := w) hs
  have hbusy := h.busy
  rw [slack_of_init hs] at hbusy
  have hphase : d.phase = phaseAt s.refreshTimer.toNat := by simp [h.phase, Core.phase, hs, hr]
  have hmake {d' : Device} := Follows.of_unstarted (q := q) (w := w) (d := d') hclosed hs hr
  have hstay : s.refreshTimer.toNat = 50 → told s = .nop := fun ht => by
    simp [told, h.quiet hs ht]
  have hwrap : SDRAM_REFRESH_CYCLES % 10 = 0 := by decide
  generalize s.refreshTimer.toNat = t at *
  have hrest (b : BitVec 2) (ht : t % 10 = 0) : d.busy b = 0 := by
    have := hbusy b
    omega
  have hnop (htold' : told (next s q w) = .nop)
      (hkeep : t ≠ 40 ∧ t ≠ 30 ∧ t ≠ 20 ∧ t ≠ 10) : d.Legal (told (next s q w)) ∧
        Follows (next s q w) (d.after timing (told (next s q w))) := by
    obtain ⟨h40, h30, h20, h10⟩ := hkeep
    rw [htold']
    refine ⟨trivial, hmake hrow (fun b => ?_) (hphase.trans (phaseAt_sub_one h40 h30 h20 h10).symm)⟩
    have hb := hbusy b
    have hr := hrest b
    simp only [Dram.Device.after, Dram.Device.tick]
    split_ifs <;> omega
  by_cases h50 : t = 50
  · rw [if_pos h50, hstay h50] at htold
    exact hnop htold (by omega)
  by_cases h40 : t = 40
  · subst h40
    rw [show told (next s q w) = .prechargeAll from htold]
    refine ⟨fun b => hrest b rfl, hmake (fun _ => rfl) (fun b => ?_) ?_⟩
    · exact (by decide : timing.tRP - 1 ≤ 39 % 10)
    · rw [Dram.Device.after, hphase]
      rfl
  by_cases h23 : t = 20 ∨ t = 30
  · rw [if_neg h50, if_neg h40, if_pos h23] at htold
    rw [htold]
    refine ⟨⟨?_, fun b => ⟨hrow b, hrest b (by omega)⟩⟩, hmake hrow (fun b => ?_) ?_⟩
    · rw [hphase]
      obtain rfl | rfl := h23 <;> simp [phaseAt]
    · have hlong : timing.tRFC - 1 ≤ 9 := by decide
      obtain rfl | rfl := h23 <;> exact hlong
    · rw [Dram.Device.after, hphase]
      obtain rfl | rfl := h23 <;> rfl
  by_cases h10 : t = 10
  · subst h10
    rw [show told (next s q w) = .loadMode from htold]
    refine ⟨⟨⟨2, le_refl 2, hphase⟩, fun b => ⟨hrow b, hrest b rfl⟩⟩, hmake hrow (fun b => ?_) rfl⟩
    simp [Dram.Device.after, Dram.Device.tick, hrest b rfl]
  rw [if_neg h50, if_neg h40, if_neg h23, if_neg h10] at htold
  exact hnop htold (by omega)

theorem Follows.next_of_init (h : Follows s d) (hp : Plan s g) (hs : s.state = .INIT) :
    d.Legal (told (next s q w)) ∧ Follows (next s q w) (d.after timing (told (next s q w))) := by
  have hclosed : s.rowOpen = 0 := by
    rw [Plan, heading, if_neg (by simp [hs]), hs] at hp
    exact hp.2
  cases hrefresh : s.refresh
  case false => exact h.next_of_unstarted hclosed hs hrefresh
  case true =>
    have ht := h.started hs hrefresh
    have hto : (next s q w).state = .IDLE := by
      simp [state_next, delayR, nextStateR, hs, hrefresh]
    have hactive : (next s q w).activeRow = s.activeRow := by
      simp only [next, commandOutput_of_init hs]
      split_ifs <;> rfl
    have htold := told_next_of_init (q := q) (w := w) hs
    rw [ht] at htold
    rw [show told (next s q w) = .nop from htold]
    refine ⟨trivial, h.tick (rowOpen_next_of_init hs) hactive ?_ ?_ (by simp [hto]) (by simp [hto])⟩
    · rw [slack_of_init hs, ht]
      exact Nat.zero_le _
    · simp [Core.phase, hto, hrefresh]

theorem Follows.of_started (hs : s.state ≠ .INIT)
    (hrow : ∀ b, d.row b = if s.rowOpen.getLsbD b.toNat then some (s.activeRow b) else none)
    (hbusy : ∀ b, d.busy b ≤ slack s) (hphase : d.phase = .ready) : Follows s d :=
  ⟨hrow, hbusy, hphase.trans (phase_of_state hs).symm, fun h => absurd h hs, fun h => absurd h hs⟩

theorem slack_next (hd : delayR s q ≠ 0) : slack (next s q w) = (delayR s q).toNat := by
  have hto : (next s q w).state = .DELAY := by rw [state_next, if_pos hd]
  rw [slack, hto]
  rfl

theorem Follows.next_of_quiet (h : Follows s d) (hp : Plan s g) (hs : s.state ≠ .INIT)
    (hopen : (next s q w).rowOpen = s.rowOpen) (hactive : (next s q w).activeRow = s.activeRow)
    (hd : s.state = .DELAY → s.delay ≠ 0) : Follows (next s q w) d.tick := by
  have hs' := state_next_ne_init (q := q) (w := w) hp hs
  refine h.tick hopen hactive ?_ ?_ (fun h => absurd h hs') (fun h => absurd h hs')
  · by_cases hdelay : s.state = .DELAY
    · have hnow : slack s = s.delay.toNat := by simp [slack, hdelay]
      have hR : delayR s q = s.delay - 1 := by simp [delayR, hdelay]
      have hne := hd hdelay
      by_cases hR0 : delayR s q = 0
      · rw [hR] at hR0
        have : s.delay.toNat = 1 := by bv_omega
        omega
      · rw [slack_next hR0, hR, hnow]
        bv_omega
    · have hnow : slack s = 0 := by
        cases hstate : s.state <;> simp_all [slack]
      omega
  · rw [phase_of_state hs, phase_of_state hs']

theorem Follows.ready (h : Follows s d) (hs : s.state ≠ .INIT) : d.phase = .ready :=
  h.phase.trans (phase_of_state hs)

theorem Follows.rest (h : Follows s d) (hs : s.state ≠ .INIT) (hd : s.state ≠ .DELAY)
    (b : BitVec 2) : d.busy b = 0 := by
  have hb := h.busy b
  have hnow : slack s = 0 := by cases hstate : s.state <;> simp_all [slack]
  omega

theorem Follows.next_of_nop (h : Follows s d) (hp : Sched s g) (hs : s.state ≠ .INIT)
    (hcommand : commandOutput s q =
      { s with command := .NOP, addr := 0, bank := 0, dataRdEn := true }) :
    d.Legal (told (next s q w)) ∧ Follows (next s q w) (d.after timing (told (next s q w))) := by
  have htold : told (Core.next s q w) = .nop := by simp [told, Core.next, hcommand]
  rw [htold]
  exact ⟨trivial, h.next_of_quiet hp.plan hs (by simp [Core.next, hcommand])
    (by simp [Core.next, hcommand]) hp.delay⟩

theorem Follows.next_of_column (h : Follows s d) (hp : Sched s g)
    (hs : s.state = .READ ∨ s.state = .WRITE0) (hit : rowHit s q = true) :
    d.Legal (told (next s q w)) ∧ Follows (next s q w) (d.after timing (told (next s q w))) := by
  have hinit : s.state ≠ .INIT := by rcases hs with hs | hs <;> simp [hs]
  have hdelay : s.state ≠ .DELAY := by rcases hs with hs | hs <;> simp [hs]
  have hopened : s.rowOpen.getLsbD (addr_bank q.addr).toNat = true := by
    simp only [rowHit, Bool.and_eq_true] at hit
    exact hit.1
  have hrow : (d.row (addr_bank q.addr)).isSome := by
    rw [h.row, if_pos hopened]
    rfl
  have hquiet : Follows (next s q w) d.tick := by
    refine h.next_of_quiet hp.plan hinit ?_ ?_ hp.delay <;>
      rcases hs with hs | hs <;> simp [next, commandOutput, hs]
  rcases hs with hs | hs
  · have htold : told (next s q w) = .read (addr_bank q.addr) := by
      simp [told, next, commandOutput, hs]
    rw [htold]
    exact ⟨⟨h.ready hinit, hrow, h.rest hinit hdelay _⟩, hquiet⟩
  · have htold : told (next s q w) = .write (addr_bank q.addr) := by
      simp [told, next, commandOutput, hs]
    rw [htold]
    exact ⟨⟨h.ready hinit, hrow, h.rest hinit hdelay _⟩, hquiet⟩

theorem Follows.next_of_activate (h : Follows s d) (hp : Plan s g) (hs : s.state = .ACTIVATE)
    (hclosed : opened s q = false) :
    d.Legal (told (next s q w)) ∧ Follows (next s q w) (d.after timing (told (next s q w))) := by
  have hinit : s.state ≠ .INIT := by simp [hs]
  have hrest := h.rest hinit (by simp [hs])
  have htold : told (next s q w) = .active (addr_bank q.addr) (addr_row q.addr) := by
    simp [told, next, commandOutput, hs]
  have hR : delayR s q = 2 := by
    simp only [delayR, hs]
    rfl
  have hslack : slack (next s q w) = 2 := by
    rw [slack_next (by simp [hR]), hR]
    rfl
  have htrcd : timing.tRCD - 1 ≤ 2 := by decide
  rw [htold]
  refine ⟨⟨h.ready hinit, ?_, hrest _⟩, .of_started (state_next_ne_init hp hinit) (fun b => ?_)
    (fun b => ?_) (h.ready hinit)⟩
  · rw [h.row, if_neg]
    exact Bool.eq_false_iff.1 hclosed
  · simp only [Dram.Device.after, Dram.Device.tick, next, commandOutput, hs,
      getLsbD_setBit_bank, Function.update_apply, h.row]
    split_ifs <;> simp_all
  · rw [hslack]
    simp only [Dram.Device.after, Dram.Device.tick, Function.update_apply]
    have hb := hrest b
    split_ifs <;> omega

theorem Follows.next_of_precharge (h : Follows s d) (hp : Plan s g) (hs : s.state = .PRECHARGE) :
    d.Legal (told (next s q w)) ∧ Follows (next s q w) (d.after timing (told (next s q w))) := by
  have hinit : s.state ≠ .INIT := by simp [hs]
  have hs' := state_next_ne_init (q := q) (w := w) hp hinit
  have hready := h.ready hinit
  have hrest := h.rest hinit (by simp [hs])
  have hR : delayR s q = 2 := by
    simp only [delayR, hs]
    rfl
  have hslack : slack (next s q w) = 2 := by
    rw [slack_next (by simp [hR]), hR]
    rfl
  have htrp : timing.tRP - 1 ≤ 2 := by decide
  have hgoal : targetStateR s q = s.targetState := by simp [targetStateR, hs]
  by_cases ht : s.targetState = .REFRESH
  · have hall : (setBit s.addr ALL_BANKS true).getLsbD ALL_BANKS = true := by
      rw [getLsbD_setBit _ _ _ _ (by decide), if_pos rfl]
    have htold : told (next s q w) = .prechargeAll := by
      simp only [told, next, commandOutput, hs, hgoal, ht, if_true, hall]
    rw [htold]
    refine ⟨hrest, .of_started hs' (fun b => ?_) (fun b => ?_) ?_⟩
    · simp [Dram.Device.after, next, commandOutput, hs, hgoal, ht]
    · rw [hslack]
      exact htrp
    · simp [Dram.Device.after, hready]
  · have hone : (setBit s.addr ALL_BANKS false).getLsbD ALL_BANKS = false := by
      rw [getLsbD_setBit _ _ _ _ (by decide), if_pos rfl]
    have htold : told (next s q w) = .precharge (addr_bank q.addr) := by
      simp only [told, next, commandOutput, hs, hgoal, ht, if_false, hone, Bool.false_eq_true]
    rw [htold]
    refine ⟨⟨hready, hrest _⟩, .of_started hs' (fun b => ?_) (fun b => ?_) hready⟩
    · simp only [Dram.Device.after, Dram.Device.tick, next, commandOutput, hs, hgoal, ht,
        if_false, getLsbD_setBit_bank, Function.update_apply, h.row]
      split_ifs <;> simp_all
    · rw [hslack]
      simp only [Dram.Device.after, Dram.Device.tick, Function.update_apply]
      have hb := hrest b
      split_ifs <;> omega

theorem Follows.next_of_refresh (h : Follows s d) (hp : Plan s g) (hs : s.state = .REFRESH)
    (hclosed : s.rowOpen = 0) :
    d.Legal (told (next s q w)) ∧ Follows (next s q w) (d.after timing (told (next s q w))) := by
  have hinit : s.state ≠ .INIT := by simp [hs]
  have htold : told (next s q w) = .refresh := by simp [told, next, commandOutput, hs]
  have hR : delayR s q = 6 := by
    simp only [delayR, hs]
    rfl
  have hslack : slack (next s q w) = 6 := by
    rw [slack_next (by simp [hR]), hR]
    rfl
  have htrfc : timing.tRFC - 1 ≤ 6 := by decide
  have hrow (b : BitVec 2) : d.row b = none := by simp [h.row, hclosed]
  rw [htold]
  refine ⟨⟨by simp [h.ready hinit], fun b => ⟨hrow b, h.rest hinit (by simp [hs]) b⟩⟩,
    .of_started (state_next_ne_init hp hinit) (fun b => ?_) (fun b => ?_) ?_⟩
  · simp [Dram.Device.after, hrow, next, commandOutput, hs, hclosed]
  · rw [hslack]
    exact htrfc
  · simp [Dram.Device.after, h.ready hinit]

theorem Follows.next (h : Follows s d) (hp : Sched s g) (hk : Holds g q) :
    d.Legal (told (Core.next s q w)) ∧
      Follows (Core.next s q w) (d.after timing (told (Core.next s q w))) := by
  have hplan := hp.plan
  rw [Plan, heading] at hplan
  cases hs : s.state <;> simp only [hs, reduceCtorEq, if_false] at hplan
  case INIT => exact h.next_of_init hp.plan hs
  case DELAY => exact h.next_of_nop hp (by simp [hs]) (by simp [commandOutput, hs])
  case IDLE => exact h.next_of_nop hp (by simp [hs]) (by simp [commandOutput, hs])
  case READ_WAIT => exact h.next_of_nop hp (by simp [hs]) (by simp [commandOutput, hs])
  case READ =>
    obtain ⟨r, rfl, -, hit⟩ := hplan
    obtain rfl := hk r rfl
    exact h.next_of_column hp (.inl hs) hit
  case WRITE0 =>
    obtain ⟨r, rfl, -, -, hit⟩ := hplan
    obtain rfl := hk r rfl
    exact h.next_of_column hp (.inr hs) hit
  case ACTIVATE =>
    obtain ⟨r, rfl, -, -, hclosed⟩ := hplan
    obtain rfl := hk r rfl
    exact h.next_of_activate hp.plan hs hclosed
  case PRECHARGE => exact h.next_of_precharge hp.plan hs
  case REFRESH => exact h.next_of_refresh hp.plan hs hplan

end Laws

end FpgaNpc.Sdram.Core
