import FpgaNpc.Sdram.Legality
import FpgaNpc.Sdram.Words

open FpgaNpc.Hardware FpgaNpc.Simulator.SDRAM

namespace FpgaNpc.Sdram

open FpgaNpc.Sdram.Core (Inport held Holds Plan Pipe Sched rdAt req accept)

section Pins

/-- The chip is where the controller takes it to be, and the two never drive the data pins at the
same time. -/
structure Sync (s : Core.Regs) (c : Chip.Regs) : Prop where
  state : c.state = if rdAt s 1 then .read else .idle
  burst : c.burstCounter = 0
  mode : c.modeReg.setWidth 3 = 0#3
  read : s.command = .READ ↔ rdAt s 0 = true
  quiet : rdAt s 1 = true → s.command = .NOP
  active : s.command = .ACTIVE → s.state ≠ .INIT
  load : s.command = .LOAD_MODE → s.addr = Core.MODE_REG
  drive : s.dataRdEn = false ↔ s.command = .WRITE
  write : s.command = .WRITE → s.state = .IDLE
  cke : s.cke = false → s.state = .INIT ∧ s.refresh = false ∧ 50 ≤ s.refreshTimer.toNat

variable {s : Core.Regs} {c : Chip.Regs} {g : Option Inport} {q : Inport} {w : Word}

theorem rdAt_zero_state (h : Pipe s) (hr : rdAt s 0 = true) : s.state = .READ_WAIT := by
  rw [Pipe] at h
  cases hstate : s.state <;> simp_all

theorem rdAt_one_state (h : Pipe s) (hr : rdAt s 1 = true) :
    s.state = .READ ∨ s.state = .DELAY := by
  rw [Pipe] at h
  cases hstate : s.state <;> simp_all

theorem burstLast_of_sync (h : Sync s c) : Chip.burstLast c = true := by
  simp [Chip.burstLast, Chip.burstLength, h.burst, h.mode]

theorem burstA_of_sync (h : Sync s c) : Chip.burstA c = c.aR := by
  simp [Chip.burstA, h.burst]

theorem Sync.cke_of_state (h : Sync s c) (hs : s.state ≠ .INIT) : s.cke = true := by
  by_contra hc
  exact hs (h.cke (by simpa using hc)).1

theorem Sync.outputs_of_init (h : Sync s c) (hp : Pipe s) (hs : s.state = .INIT) :
    (Core.next s q w).dataRdEn = true ∧ (Core.next s q w).command ≠ .READ ∧
      (Core.next s q w).command ≠ .WRITE ∧ (Core.next s q w).command ≠ .ACTIVE ∧
      ((Core.next s q w).command = .LOAD_MODE → (Core.next s q w).addr = Core.MODE_REG) := by
  have hwrite : s.command ≠ .WRITE := fun hw => by
    have := h.write hw
    simp [hs] at this
  have hread : s.command ≠ .READ := fun hr => by
    have := rdAt_zero_state hp (h.read.1 hr)
    simp [hs] at this
  have hactive : s.command ≠ .ACTIVE := fun ha => h.active ha hs
  have hdrive : s.dataRdEn = true := by
    by_contra hd
    exact hwrite (h.drive.1 (by simpa using hd))
  have hload := h.load
  simp only [Core.next, Core.commandOutput, hs]
  split_ifs <;> simp_all

theorem Sync.dataRdEn_of_state (h : Sync s c) (hs : s.state ≠ .IDLE) : s.dataRdEn = true := by
  by_contra hd
  exact hs (h.write (h.drive.1 (by simpa using hd)))

theorem Sync.next_read (h : Sync s c) (hp : Pipe s) :
    (Core.next s q w).command = .READ ↔ s.state = .READ := by
  by_cases hs : s.state = .INIT
  · simp [(h.outputs_of_init (q := q) (w := w) hp hs).2.1, hs]
  · simp only [Core.next, Core.commandOutput]
    cases hstate : s.state <;> simp_all
    split_ifs <;> simp

theorem Sync.next_write (h : Sync s c) (hp : Pipe s) :
    (Core.next s q w).command = .WRITE ↔ s.state = .WRITE0 := by
  by_cases hs : s.state = .INIT
  · simp [(h.outputs_of_init (q := q) (w := w) hp hs).2.2.1, hs]
  · simp only [Core.next, Core.commandOutput]
    cases hstate : s.state <;> simp_all
    split_ifs <;> simp

theorem Sync.next_drive (h : Sync s c) (hp : Pipe s) :
    (Core.next s q w).dataRdEn = false ↔ s.state = .WRITE0 := by
  by_cases hs : s.state = .INIT
  · simp [(h.outputs_of_init (q := q) (w := w) hp hs).1, hs]
  · have hd := h.dataRdEn_of_state
    simp only [Core.next, Core.commandOutput]
    cases hstate : s.state <;> simp_all
    split_ifs <;> simp

theorem Sync.next_active (h : Sync s c) (hp : Pipe s) :
    (Core.next s q w).command = .ACTIVE ↔ s.state = .ACTIVATE := by
  by_cases hs : s.state = .INIT
  · simp [(h.outputs_of_init (q := q) (w := w) hp hs).2.2.2.1, hs]
  · simp only [Core.next, Core.commandOutput]
    cases hstate : s.state <;> simp_all
    split_ifs <;> simp

theorem Sync.next_load (h : Sync s c) (hp : Pipe s)
    (hl : (Core.next s q w).command = .LOAD_MODE) :
    (Core.next s q w).addr = Core.MODE_REG := by
  by_cases hs : s.state = .INIT
  · exact (h.outputs_of_init (q := q) (w := w) hp hs).2.2.2.2 hl
  · simp only [Core.next, Core.commandOutput] at hl
    cases hstate : s.state <;> simp_all
    split_ifs at hl

theorem Sync.next_cke (h : Sync s c) (hc : (Core.next s q w).cke = false) :
    (Core.next s q w).state = .INIT ∧ (Core.next s q w).refresh = false ∧
      50 ≤ (Core.next s q w).refreshTimer.toNat := by
  have hold : s.cke = false := by
    simp only [Core.next, Core.commandOutput] at hc
    cases hstate : s.state <;> simp_all
    all_goals split_ifs at hc <;> simp_all
  obtain ⟨hs, hr, ht⟩ := h.cke hold
  have htimer := Core.toNat_refreshTimer_next (s := s) (q := q) (w := w)
  have h50 : s.refreshTimer.toNat ≠ 50 := by
    intro h50
    simp [Core.next, Core.commandOutput_of_init hs, h50] at hc
  rw [if_neg (by omega)] at htimer
  refine ⟨by simp [Core.next, Core.delayR, Core.nextStateR, hs, hr], ?_, by omega⟩
  simp only [Core.next, hs, hr]
  rw [if_neg (fun h0 => by simp [h0] at ht)]
  rfl

theorem Sync.chip_next (h : Sync s c) (hp : Pipe s) (pins : Chip.Pins)
    (hcke : pins.cke = s.cke) (hcmd : pins.cmd = s.command) (ha : pins.a = s.addr) :
    (Chip.next c pins).state = (if rdAt s 0 then .read else .idle) ∧
      (Chip.next c pins).burstCounter = 0 ∧ (Chip.next c pins).modeReg.setWidth 3 = 0#3 := by
  have hlast := burstLast_of_sync h
  cases hc : s.cke
  case false =>
    have hinit := (h.cke hc).1
    have hr : rdAt s 0 = false := by
      by_contra hr
      have := rdAt_zero_state hp (by simpa using hr)
      simp [hinit] at this
    rw [Chip.next, hcke, hc, hr, if_neg (by simp)]
    decide
  case true =>
    have hstate := h.state
    rw [Chip.next, hcke, hc, if_pos rfl]
    cases hr : rdAt s 1
    case true =>
      rw [hr, if_pos rfl] at hstate
      have h0 : rdAt s 0 = false := by
        by_contra h0
        have hwait := rdAt_zero_state hp (by simpa using h0)
        rcases rdAt_one_state hp hr with hs | hs <;> simp [hwait] at hs
      simp [hstate, hlast, h0, Chip.burstNext, h.mode]
    case false =>
      rw [hr, if_neg (by simp)] at hstate
      have hread := h.read
      have hload := h.load
      simp only [hstate, hcmd, ha]
      cases hcommand : s.command <;>
        simp_all [Chip.burstNext, h.burst, h.mode]
      decide

theorem Sync.next (h : Sync s c) (hp : Pipe s) (pins : Chip.Pins)
    (hcke : pins.cke = s.cke) (hcmd : pins.cmd = s.command) (ha : pins.a = s.addr) :
    Sync (Core.next s q w) (Chip.next c pins) := by
  obtain ⟨hstate, hburst, hmode⟩ := h.chip_next hp pins hcke hcmd ha
  have h0 := Core.rdAt_next_zero (s := s) (q := q) (d := w)
  have h1 := Core.rdAt_next (s := s) (q := q) (d := w) 0
  refine ⟨?_, hburst, hmode, ?_, fun hr => ?_, fun ha => ?_, h.next_load hp, ?_, fun hw => ?_,
    h.next_cke⟩
  · rw [hstate, h1]
    simp
  · rw [h.next_read hp, h0]
    simp
  · have hwait := rdAt_zero_state hp (by simpa [h1] using hr)
    simp [Core.next, Core.commandOutput, hwait]
  · have hs := (h.next_active hp).1 ha
    have hR : Core.delayR s q ≠ 0 := by
      simp only [Core.delayR, hs]
      decide
    rw [Core.state_next, if_pos hR]
    simp
  · rw [h.next_drive hp, h.next_write hp]
  · have hs := (h.next_write hp).1 hw
    simp [Core.next, Core.delayR, Core.nextStateR, hs]

theorem Sync.reset : Sync Core.reset Chip.reset := by
  constructor <;> decide

end Pins

section Array

def settled (s : Regs) : Option Ddr := Chip.ddrNext s.chip (pins s) s.core.data s.ddr

/-- What the reads on their way bring back, and what stands for the write that is acknowledged, the
oldest first. -/
def flight (s : Regs) (m : Ddr) : List (Option Word) :=
  (if s.core.ack then [some s.core.sampleData] else []) ++
    ((if rdAt s.core 2 then [some s.core.sampleData0] else []) ++
      (if rdAt s.core 1 then [sdramRead m s.chip.baR.toNat s.chip.aR.toNat] else []) ++
      (if rdAt s.core 0 then [sdramRead m s.core.bank.toNat s.core.addr.toNat] else []))

def Matches : List (Option Word) → List (Option Word) → Prop :=
  List.Forall₂ fun p x => ∃ v, x = some v ∧ ∀ u ∈ p, v = u

theorem Matches.exists_eq {p x : List (Option Word)} (h : Matches p x) {a : Option Word}
    (ha : a ∈ x) : ∃ v, a = some v := by
  induction h with
  | nil => cases ha
  | cons hr _ ih =>
    rcases List.mem_cons.1 ha with rfl | hm
    · exact ⟨hr.choose, hr.choose_spec.1⟩
    · exact ih hm

/-- The array holds the words of `mem`, and the answers on their way are those expected. -/
structure Coherent (s : Regs) (m : Ddr) (mem : BitVec 23 → Word) (expected : List (Option Word)) :
    Prop where
  settled : settled s = some m
  rows : ∀ b, s.core.rowOpen.getLsbD b.toNat = true →
    m.activedRows b.toNat = some (s.core.activeRow b).toNat
  words : ∀ w, image m w = mem w
  flight : Matches expected (flight s m)

variable {s : Regs} {m : Ddr} {g : Option Inport} {q : Inport} {z : Word}

theorem ddr_next (h : Sync s.core s.chip) : (next s q z).ddr = settled s := by
  have hstate := h.state
  simp only [next, settled, Chip.ddrNext]
  split_ifs with h1 h2 h3 <;> try rfl
  have hcmd : s.core.command = .WRITE := by
    rw [Chip.writeEnable] at h3
    split_ifs at h3 with h4
    · exact of_decide_eq_true h3
    · simp only [Chip.readEnable, decide_eq_true_eq] at h2 h3
      rw [h3] at hstate
      split_ifs at hstate
  rw [dq, h.drive.2 hcmd]
  rfl

theorem setBit_addr_col (x : Word) : setBit (addr_col x) 10 false = addr_col x := by
  have hclear : (addr_col x).getLsbD 10 = false := by
    rw [addr_col, BitVec.getLsbD_append]
    simp
  refine BitVec.eq_of_getLsbD_eq fun j hj => ?_
  rw [getLsbD_setBit _ _ _ _ (by decide)]
  split_ifs with h
  · rw [h, hclear]
  · rfl

theorem chip_latch (h : Sync s.core s.chip) (hp : Pipe s.core)
    (hr : rdAt s.core 0 = true) : (next s q z).chip.aR = s.core.addr ∧
      (next s q z).chip.baR = s.core.bank := by
  have hwait := rdAt_zero_state hp hr
  have hcke : s.core.cke = true := h.cke_of_state (by simp [hwait])
  have hidle : s.chip.state = .idle := by
    rw [Pipe, hwait] at hp
    rw [h.state, if_neg (by simp [hp.2])]
  simp [next, Chip.next, pins, hcke, hidle, h.read.2 hr]

theorem settled_next (h : Sync s.core s.chip) (hp : Pipe s.core) (hm : settled s = some m) :
    settled (next s q z) =
      match s.core.state with
      | .ACTIVATE => some (sdramActive m (addr_bank q.addr).toNat (addr_row q.addr).toNat)
      | .WRITE0 => sdramWrite m (addr_bank q.addr).toNat (addr_col q.addr).toNat q.writeData
          (~~~q.wr)
      | .READ_WAIT => (sdramRead m s.core.bank.toNat s.core.addr.toNat).map fun _ => m
      | _ => some m := by
  have hddr : (next s q z).ddr = some m := (ddr_next h).trans hm
  have hchip : (next s q z).chip.state = if rdAt s.core 0 then .read else .idle :=
    (h.chip_next hp (pins s) rfl rfl rfl).1
  have hburst : (next s q z).chip.burstCounter = 0 :=
    (h.chip_next hp (pins s) rfl rfl rfl).2.1
  rw [settled, hddr]
  cases hr : rdAt s.core 0
  case true =>
    have hwait := rdAt_zero_state hp hr
    obtain ⟨ha, hba⟩ := chip_latch (q := q) (z := z) h hp hr
    simp [Chip.ddrNext, Chip.activeEnable, Chip.readEnable, Chip.rdata, Chip.burstA, hchip, hr,
      hburst, ha, hba, hwait, Option.map_eq_bind]
  case false =>
    have hidle : (next s q z).chip.state = .idle := by simp [hchip, hr]
    have hread : Chip.readEnable (next s q z).chip = false := by simp [Chip.readEnable, hidle]
    have hactive := h.next_active (q := q) (w := dq s z) hp
    have hwrite := h.next_write (q := q) (w := dq s z) hp
    cases hstate : s.core.state
    case ACTIVATE =>
      have hcmd : (next s q z).core.command = .ACTIVE := hactive.2 hstate
      have haddr : (next s q z).core.addr = addr_row q.addr := by
        simp [next, Core.next, Core.commandOutput, hstate]
      have hbank : (next s q z).core.bank = addr_bank q.addr := by
        simp [next, Core.next, Core.commandOutput, hstate]
      simp [Chip.ddrNext, Chip.activeEnable, pins, hidle, hcmd, haddr, hbank]
    case WRITE0 =>
      have hcmd : (next s q z).core.command = .WRITE := hwrite.2 hstate
      have haddr : (next s q z).core.addr = addr_col q.addr := by
        simp [next, Core.next, Core.commandOutput, hstate, setBit_addr_col]
      have hbank : (next s q z).core.bank = addr_bank q.addr := by
        simp [next, Core.next, Core.commandOutput, hstate]
      have hdata : (next s q z).core.data = q.writeData := by
        simp [next, Core.next, Core.commandOutput, hstate]
      have hdqm : (next s q z).core.dqm = ~~~q.wr := by
        simp [next, Core.next, Core.commandOutput, hstate]
      simp [Chip.ddrNext, hread, Chip.activeEnable, Chip.writeEnable, Chip.writeA, pins, hidle,
        hcmd, haddr, hbank, hdata, hdqm]
    case READ_WAIT =>
      rw [Pipe, hstate] at hp
      simp [hr] at hp
    all_goals
      have ha : (next s q z).core.command ≠ .ACTIVE := fun ha => by simp [hactive.1 ha] at hstate
      have hw : (next s q z).core.command ≠ .WRITE := fun hw => by simp [hwrite.1 hw] at hstate
      simp [Chip.ddrNext, hread, Chip.activeEnable, Chip.writeEnable, pins, hidle, ha, hw]

/-- What is expected of an accepted request: the word that a read finds, and of a write nothing but
the acknowledgement. -/
def answer (mem : BitVec 23 → Word) (q : Inport) : Option Word :=
  if q.rd then some (mem (wordIndex q.addr)) else none

def store (mem : BitVec 23 → Word) (q : Inport) (a : BitVec 23) : Word :=
  if !q.rd && a == wordIndex q.addr then MaskData (mem a) q.writeData (MaskExpand q.wr)
  else mem a

variable {mem : BitVec 23 → Word} {expected : List (Option Word)}

theorem Coherent.ack (h : Coherent s m mem expected) (ha : s.core.ack = true) :
    ∃ p rest, expected = p :: rest ∧ ∀ u ∈ p, s.core.sampleData = u := by
  have hf := h.flight
  rw [Sdram.flight, ha, if_pos rfl, List.singleton_append] at hf
  obtain ⟨p, rest, hp, -, rfl⟩ := List.forall₂_cons_right_iff.1 hf
  obtain ⟨v, hv, hu⟩ := hp
  cases hv
  exact ⟨p, rest, rfl, hu⟩

theorem Coherent.tail (h : Coherent s m mem expected) :
    Matches (if s.core.ack then expected.tail else expected)
      ((if rdAt s.core 2 then [some s.core.sampleData0] else []) ++
        (if rdAt s.core 1 then [sdramRead m s.chip.baR.toNat s.chip.aR.toNat] else []) ++
        (if rdAt s.core 0 then [sdramRead m s.core.bank.toNat s.core.addr.toNat] else [])) := by
  have hf := h.flight
  rw [Sdram.flight] at hf
  cases ha : s.core.ack
  case false => simpa [ha] using hf
  case true =>
    rw [ha, if_pos rfl, List.singleton_append] at hf
    obtain ⟨p, rest, -, hrest, rfl⟩ := List.forall₂_cons_right_iff.1 hf
    exact hrest

theorem Coherent.dq_eq (h : Coherent s m mem expected) (hsync : Sync s.core s.chip)
    (hr : rdAt s.core 1 = true) :
    sdramRead m s.chip.baR.toNat s.chip.aR.toNat = some (dq s z) := by
  have hreading : s.chip.state = .read := by rw [hsync.state, if_pos hr]
  have hfree : s.core.dataRdEn = true := by
    by_contra hd
    have := hsync.drive.1 (by simpa using hd)
    simp [hsync.quiet hr] at this
  have hset := h.settled
  simp only [Sdram.settled, Chip.ddrNext, Chip.activeEnable, Chip.readEnable, hreading, Chip.rdata,
    burstA_of_sync hsync] at hset
  cases hddr : s.ddr with
  | none => simp [hddr] at hset
  | some m₀ =>
    cases hread : sdramRead m₀ s.chip.baR.toNat s.chip.aR.toNat with
    | none => simp [hddr, hread] at hset
    | some v =>
      obtain rfl : m₀ = m := by simpa [hddr, hread] using hset
      simp [Sdram.dq, hfree, Chip.readEnable, hreading, Chip.rdata, burstA_of_sync hsync, hddr,
        hread]

theorem core_next : (next s q z).core = Core.next s.core q (dq s z) := rfl

theorem flight_next (h : Coherent s m mem expected) (hsync : Sync s.core s.chip)
    (hp : Pipe s.core) (m' : Ddr) : flight (next s q z) m' =
      (if s.core.state = .WRITE0 ∨ rdAt s.core 2 = true then [some s.core.sampleData0] else []) ++
        ((if rdAt s.core 1 then [sdramRead m s.chip.baR.toNat s.chip.aR.toNat] else []) ++
        (if rdAt s.core 0 then [sdramRead m' s.core.bank.toNat s.core.addr.toNat] else []) ++
        (if s.core.state = .READ then
          [sdramRead m' (addr_bank q.addr).toNat (addr_col q.addr).toNat] else [])) := by
  have h0 := Core.rdAt_next_zero (s := s.core) (q := q) (d := dq s z)
  have h1 := Core.rdAt_next (s := s.core) (q := q) (d := dq s z)
  have hack : (next s q z).core.ack = (decide (s.core.state = .WRITE0) || rdAt s.core 2) := rfl
  have hsample : (next s q z).core.sampleData = s.core.sampleData0 := rfl
  have hsample0 : (next s q z).core.sampleData0 = dq s z := rfl
  rw [flight, hack, hsample, hsample0, core_next, h1 1, h1 0, h0]
  congr 1
  · simp
  · congr 1
    · congr 1
      · cases hr : rdAt s.core 1
        case false => simp
        case true =>
          rw [h.dq_eq (z := z) hsync hr]
          simp
      · cases hr : rdAt s.core 0
        case false => simp
        case true =>
          obtain ⟨ha, hba⟩ := chip_latch (q := q) (z := z) hsync hp hr
          simp [ha, hba]
    · by_cases hs : s.core.state = .READ
      · simp [hs, Core.next, Core.commandOutput, setBit_addr_col]
      · simp [hs]

theorem Coherent.row_of_hit (h : Coherent s m mem expected) (hit : Core.rowHit s.core q = true) :
    m.activedRows (addr_bank q.addr).toNat = some (addr_row q.addr).toNat := by
  simp only [Core.rowHit, Core.opened, Bool.and_eq_true, beq_iff_eq] at hit
  rw [h.rows _ hit.1, hit.2]

theorem Coherent.next_of_same (h : Coherent s m mem expected) (hsync : Sync s.core s.chip)
    (hp : Pipe s.core) {m' : Ddr} (hset : Sdram.settled (Sdram.next s q z) = some m')
    (hrows : ∀ b, (Core.next s.core q (dq s z)).rowOpen.getLsbD b.toNat = true →
      m'.activedRows b.toNat = some ((Core.next s.core q (dq s z)).activeRow b).toNat)
    (hwords : ∀ w, image m' w = image m w)
    (hreads : rdAt s.core 0 = true → m' = m) (hs : accept s.core = false) :
    Coherent (Sdram.next s q z) m' mem (if s.core.ack then expected.tail else expected) := by
  simp only [accept, Bool.or_eq_false_iff, decide_eq_false_iff_not] at hs
  refine ⟨hset, hrows, fun w => (hwords w).trans (h.words w), ?_⟩
  rw [flight_next h hsync hp, if_neg hs.1, List.append_nil]
  have htail := h.tail
  cases hr : rdAt s.core 0
  case false => simpa [hs.2, hr] using htail
  case true =>
    obtain rfl := hreads hr
    simpa [hs.2, hr] using htail

theorem Coherent.next_of_read (h : Coherent s m mem expected) (hsync : Sync s.core s.chip)
    (hp : Pipe s.core) (hs : s.core.state = .READ) (hrd : q.rd = true)
    (hit : Core.rowHit s.core q = true) :
    Coherent (Sdram.next s q z) m (store mem q)
      ((if s.core.ack then expected.tail else expected) ++ [answer mem q]) := by
  have hset := settled_next (q := q) (z := z) hsync hp h.settled
  have hword := sdramRead_of_row (h.row_of_hit (q := q) hit)
  have hfree : s.core.rowOpen = (Sdram.next s q z).core.rowOpen ∧
      s.core.activeRow = (Sdram.next s q z).core.activeRow := by
    simp [core_next, Core.next, Core.commandOutput, hs]
  have hstore : store mem q = mem := by
    funext a
    simp [store, hrd]
  rw [hs] at hset
  rw [hstore]
  refine ⟨hset, fun b hb => ?_, h.words, ?_⟩
  · rw [← hfree.1] at hb
    rw [← hfree.2]
    exact h.rows b hb
  · rw [flight_next h hsync hp, ← List.append_assoc]
    rw [Pipe, hs] at hp
    refine List.rel_append ?_ ?_
    · simpa [Matches, hs, hp.1, hp.2] using h.tail
    · simp [hs, hword, answer, hrd, h.words]

theorem Coherent.next_of_write (h : Coherent s m mem expected) (hsync : Sync s.core s.chip)
    (hp : Pipe s.core) (hs : s.core.state = .WRITE0) (hrd : q.rd = false)
    (hstrb : q.wr ∈ strobes) (hit : Core.rowHit s.core q = true) :
    ∃ m', Coherent (Sdram.next s q z) m' (store mem q)
      ((if s.core.ack then expected.tail else expected) ++ [answer mem q]) := by
  have hset := settled_next (q := q) (z := z) hsync hp h.settled
  obtain ⟨m', hwrite, hrows, hwords⟩ :=
    sdramWrite_of_row (h.row_of_hit (q := q) hit) q.writeData hstrb
  rw [hs] at hset
  refine ⟨m', hset.trans hwrite, fun b hb => ?_, fun w => ?_, ?_⟩
  · rw [hrows]
    refine (h.rows b ?_).trans ?_
    · simpa [core_next, Core.next, Core.commandOutput, hs] using hb
    · simp [core_next, Core.next, Core.commandOutput, hs]
  · simp [hwords, h.words, store, hrd]
  · rw [flight_next h hsync hp]
    rw [Pipe, hs] at hp
    have htail := h.tail
    simp only [hp, Bool.false_eq_true, if_false, List.append_nil] at htail
    rw [List.forall₂_nil_right_iff.1 htail]
    simp [hs, hp, answer, hrd, Matches]

theorem Coherent.next_of_activate (h : Coherent s m mem expected) (hsync : Sync s.core s.chip)
    (hp : Pipe s.core) (hs : s.core.state = .ACTIVATE) :
    ∃ m', Coherent (Sdram.next s q z) m' mem (if s.core.ack then expected.tail else expected) := by
  have hset := settled_next (q := q) (z := z) hsync hp h.settled
  rw [hs] at hset
  refine ⟨_, h.next_of_same hsync hp hset (fun b hb => ?_) (fun _ => rfl) (fun h0 => ?_)
    (by simp [accept, hs])⟩
  · simp only [Core.next, Core.commandOutput, hs, Core.getLsbD_setBit_bank,
      sdramActive, BitVec.toNat_inj] at hb ⊢
    split_ifs at hb ⊢ with heq
    · rfl
    · exact h.rows b hb
  · rw [Pipe, hs] at hp
    simp [hp] at h0

theorem Coherent.next_of_still (h : Coherent s m mem expected) (hsync : Sync s.core s.chip)
    (hp : Pipe s.core) (hacc : accept s.core = false) (ha : s.core.state ≠ .ACTIVATE)
    (hrows : ∀ b, (Core.next s.core q (dq s z)).rowOpen.getLsbD b.toNat = true →
      s.core.rowOpen.getLsbD b.toNat = true ∧
        (Core.next s.core q (dq s z)).activeRow b = s.core.activeRow b) :
    ∃ m', Coherent (Sdram.next s q z) m' mem (if s.core.ack then expected.tail else expected) := by
  have hset := settled_next (q := q) (z := z) hsync hp h.settled
  have hset' : Sdram.settled (Sdram.next s q z) = some m := by
    simp only [accept, Bool.or_eq_false_iff, decide_eq_false_iff_not] at hacc
    cases hs : s.core.state <;> simp only [hs] at hset hacc ha
    case READ_WAIT =>
      rw [Pipe, hs] at hp
      obtain ⟨v, hv⟩ := h.tail.exists_eq (a := sdramRead m s.core.bank.toNat s.core.addr.toNat)
        (by simp [hp.1])
      rw [hset, hv]
      rfl
    case ACTIVATE => exact absurd rfl ha
    case READ => simp at hacc
    case WRITE0 => simp at hacc
    all_goals exact hset
  refine ⟨m, h.next_of_same hsync hp hset' (fun b hb => ?_) (fun _ => rfl) (fun _ => rfl) hacc⟩
  obtain ⟨hopen, hactive⟩ := hrows b hb
  rw [hactive]
  exact h.rows b hopen

theorem open_of_still (hplan : Plan s.core g) (ha : s.core.state ≠ .ACTIVATE) (b : BitVec 2)
    (hb : (Core.next s.core q (dq s z)).rowOpen.getLsbD b.toNat = true) :
    s.core.rowOpen.getLsbD b.toNat = true ∧
      (Core.next s.core q (dq s z)).activeRow b = s.core.activeRow b := by
  cases hs : s.core.state
  case ACTIVATE => exact absurd hs ha
  case INIT =>
    rw [Plan, Core.heading, if_neg (by simp [hs]), hs] at hplan
    rw [Core.rowOpen_next_of_init hs, hplan.2] at hb
    simp at hb
  case PRECHARGE =>
    simp only [Core.next, Core.commandOutput, hs] at hb ⊢
    split_ifs at hb ⊢
    · simp at hb
    · rw [Core.getLsbD_setBit_bank] at hb
      split_ifs at hb
      exact ⟨hb, rfl⟩
  all_goals
    refine ⟨?_, by simp [Core.next, Core.commandOutput, hs]⟩
    simpa [Core.next, Core.commandOutput, hs] using hb

theorem Coherent.next (h : Coherent s m mem expected) (hsync : Sync s.core s.chip)
    (hsched : Sched s.core g) (hk : Holds g q) (hstrb : q.wr ≠ 0 → q.wr ∈ strobes) :
    ∃ m', Coherent (Sdram.next s q z) m'
      (if accept s.core then store mem q else mem)
      ((if s.core.ack then expected.tail else expected) ++
        if accept s.core then [answer mem q] else []) := by
  have hp := hsched.pipe
  have hplan := hsched.plan
  cases hacc : accept s.core
  case true =>
    rw [if_pos rfl, if_pos rfl]
    simp only [accept, Bool.or_eq_true, decide_eq_true_eq] at hacc
    rw [Plan, Core.heading] at hplan
    cases hs : s.core.state <;> simp only [hs, reduceCtorEq, if_false, or_self] at hplan hacc
    case READ =>
      obtain ⟨r, rfl, hrd, hit⟩ := hplan
      obtain rfl := hk r rfl
      exact ⟨m, h.next_of_read hsync hp hs hrd hit⟩
    case WRITE0 =>
      obtain ⟨r, rfl, hreq, hrd, hit⟩ := hplan
      obtain rfl := hk r rfl
      have hrd' : q.rd = false := hrd
      have hwr : q.wr ≠ 0 := by
        intro hzero
        simp [req, Core.Inport.request, hzero, hrd'] at hreq
      exact h.next_of_write hsync hp hs hrd (hstrb hwr) hit
  case false =>
    rw [if_neg Bool.false_ne_true, if_neg Bool.false_ne_true, List.append_nil]
    by_cases ha : s.core.state = .ACTIVATE
    · exact h.next_of_activate hsync hp ha
    · exact h.next_of_still hsync hp hacc ha fun b hb => open_of_still hplan ha b hb

end Array

end FpgaNpc.Sdram
