import FpgaNpc.Hardware.LaneMemory
import Mathlib.Data.List.GetD
import Mathlib.Data.List.Nodup

open FpgaNpc.Hardware

namespace FpgaNpc.Simulator.SDRAM

abbrev Byte := BitVec 8

abbrev SDRAM_NR_BANKS := 4
abbrev SDRAM_NR_ROWS := 8192
abbrev SDRAM_NR_COLS := 512

structure File where
  content : List Byte
  pos : Nat

/-- The array `sdram` byte by byte, the rows that `activedRows` points to, the image file, and the
bytes of the array that were loaded so far. -/
structure Ddr where
  sdram : Nat → Byte
  activedRows : Nat → Option Nat
  fp : File
  loaded : List Nat

/-- The first byte of `sdram[bank][row][col][half]`. -/
def elem (bank row col half : Nat) : Nat :=
  (((bank * SDRAM_NR_ROWS + row) * SDRAM_NR_COLS + col) * 2 + half) * 2

section Functions

variable (m : Ddr)

def sdramActive (ba a : Nat) : Ddr :=
  { m with activedRows := fun b => if b = ba then some a else m.activedRows b }

def sdramRead (ba a : Nat) : Option Word :=
  if ba < SDRAM_NR_BANKS ∧ a < SDRAM_NR_ROWS then
    (m.activedRows ba).map fun row =>
      let p := elem ba row a 0
      m.sdram (p + 3) ++ m.sdram (p + 2) ++ m.sdram (p + 1) ++ m.sdram p
  else none

def putLanes (p i n : Nat) (wdata : Word) : Ddr :=
  { m with sdram := fun a => if p + i ≤ a ∧ a < p + i + n then lane (a - p) wdata else m.sdram a }

/-- `sdram_write`, whose assertions fail for the masks that its `switch` does not know. -/
def sdramWrite (ba a : Nat) (wdata : Word) (dqm : BitVec 4) : Option Ddr :=
  if ba < SDRAM_NR_BANKS ∧ a < SDRAM_NR_ROWS then
    let put (i n : Nat) :=
      (m.activedRows ba).map fun row => putLanes m (elem ba row a 0) i n wdata
    match dqm.toNat with
    | 0xf => some m
    | 0xe => put 0 1
    | 0xd => put 1 1
    | 0xb => put 2 1
    | 0x7 => put 3 1
    | 0xc => put 0 2
    | 0x3 => put 2 2
    | 0x0 => put 0 4
    | _ => none
  else none

def fseek (offset : Nat) : Ddr := { m with fp := { m.fp with pos := offset } }

/-- `fread(ptr, size, 1, fp)`, with the number of items that it returns. -/
def fread (ptr size : Nat) : Ddr × Nat :=
  let buf := (m.fp.content.drop m.fp.pos).take size
  ({ m with
    sdram := fun a => if ptr ≤ a then buf.getD (a - ptr) (m.sdram a) else m.sdram a
    fp := { m.fp with pos := m.fp.pos + buf.length }
    loaded := m.loaded ++ List.range' ptr buf.length }, buf.length / size)

def size_per_row : Nat := SDRAM_NR_COLS * 2

def loadRows (m : Ddr) (size bank row : Nat) : Nat → Option Ddr
  | 0 => none
  | fuel + 1 =>
    if size > size_per_row then
      let (m, ret) := fread m (elem bank row 0 0) size_per_row
      let size := if ret ≠ 0 then size - size_per_row else size
      let row := if bank = SDRAM_NR_BANKS - 1 then (row + 1) % SDRAM_NR_ROWS else row
      let bank := (bank + 1) % SDRAM_NR_BANKS
      loadRows m size bank row fuel
    else some (fread m (elem bank row 0 0) size).1

def initDdr (size fuel : Nat) : Option Ddr := loadRows (fseek m 0) size 0 0 fuel

end Functions

section Controller

variable (ram_addr : Word)

def addr_col : BitVec 13 := (0 : BitVec 5) ++ ram_addr.extractLsb 9 2

def addr_row : BitVec 13 := ram_addr.extractLsb 24 12

def addr_bank : BitVec 2 := ram_addr.extractLsb 11 10

/-- The word that the controller reads, after it has opened the row. -/
def read (m : Ddr) : Option Word :=
  let m := sdramActive m (addr_bank ram_addr).toNat (addr_row ram_addr).toNat
  sdramRead m (addr_bank ram_addr).toNat (addr_col ram_addr).toNat

def reached : Nat :=
  elem (addr_bank ram_addr).toNat (addr_row ram_addr).toNat (addr_col ram_addr).toNat 0 +
    laneOf ram_addr

theorem toNat_addr_col : (addr_col ram_addr).toNat = ram_addr.toNat / 4 % 256 := by
  rw [addr_col, BitVec.toNat_append]
  simp [BitVec.extractLsb, BitVec.extractLsb'_toNat, Nat.shiftRight_eq_div_pow]

theorem toNat_addr_row : (addr_row ram_addr).toNat = ram_addr.toNat / 4096 % 8192 := by
  simp [addr_row, BitVec.extractLsb, BitVec.extractLsb'_toNat, Nat.shiftRight_eq_div_pow]

theorem toNat_addr_bank : (addr_bank ram_addr).toNat = ram_addr.toNat / 1024 % 4 := by
  simp [addr_bank, BitVec.extractLsb, BitVec.extractLsb'_toNat, Nat.shiftRight_eq_div_pow]

theorem lane_read (m : Ddr) : (read ram_addr m).map (lane (laneOf ram_addr)) =
    some (m.sdram (reached ram_addr)) := by
  have hbank := (addr_bank ram_addr).isLt
  have hcol := (addr_col ram_addr).isLt
  have hlane := laneOf_lt ram_addr
  have hguard : (addr_bank ram_addr).toNat < SDRAM_NR_BANKS ∧
      (addr_col ram_addr).toNat < SDRAM_NR_ROWS := ⟨hbank, hcol⟩
  simp only [read, sdramActive, sdramRead, hguard, and_self, if_true, Option.map_some, reached]
  exact congrArg some (lane_bytes (fun i => m.sdram (_ + i)) hlane)

end Controller

theorem elem_eq (bank row col half : Nat) :
    elem bank row col half = bank * 16777216 + row * 2048 + col * 4 + half * 2 := by
  simp only [elem, SDRAM_NR_ROWS, SDRAM_NR_COLS]
  omega

theorem size_per_row_eq : size_per_row = 1024 := rfl

theorem reached_ofNat {k : Nat} (h : k < 2 ^ 25) : reached (.ofNat 32 k) =
    elem (k / 1024 % 4) (k / 4096) 0 0 + k % 1024 := by
  have hk : (BitVec.ofNat 32 k).toNat = k := by
    rw [BitVec.toNat_ofNat]
    omega
  rw [reached, toNat_addr_bank, toNat_addr_row, toNat_addr_col, laneOf, hk, elem_eq, elem_eq]
  omega

theorem reached_injective {k k' : Nat} (hk : k < 2 ^ 25) (hk' : k' < 2 ^ 25)
    (h : reached (.ofNat 32 k) = reached (.ofNat 32 k')) : k = k' := by
  rw [reached_ofNat hk, reached_ofNat hk', elem_eq, elem_eq] at h
  have hbank : k / 1024 % 4 = k' / 1024 % 4 := by omega
  have hcol : k % 1024 = k' % 1024 := by omega
  have hrow : k / 4096 = k' / 4096 := by omega
  omega

/-- The first `n` bytes of the image are loaded, and nothing else. -/
structure Loaded (m₀ m : Ddr) (n : Nat) : Prop where
  bytes : ∀ k < n, some (m.sdram (reached (.ofNat 32 k))) = m₀.fp.content[k]?
  frame : ∀ a, (∀ k < n, a ≠ reached (.ofNat 32 k)) → m.sdram a = m₀.sdram a
  loaded : m.loaded = m₀.loaded ++ (List.range n).map fun k => reached (.ofNat 32 k)
  fp : m.fp = ⟨m₀.fp.content, n⟩

section Load

variable {m₀ m : Ddr} {n size : Nat}

theorem fread_outside {ptr a : Nat} (h : ∀ i < size, a ≠ ptr + i) :
    (fread m ptr size).1.sdram a = m.sdram a := by
  simp only [fread]
  split
  case isTrue hptr =>
    have hbuf : ((m.fp.content.drop m.fp.pos).take size).length ≤ size := List.length_take_le ..
    rw [List.getD_eq_default]
    have hne := h (a - ptr)
    omega
  case isFalse => rfl

theorem fread_inside {ptr i : Nat} (hfile : m.fp.pos + size ≤ m.fp.content.length)
    (hi : i < size) :
    some ((fread m ptr size).1.sdram (ptr + i)) = m.fp.content[m.fp.pos + i]? := by
  have hbuf : ((m.fp.content.drop m.fp.pos).take size).length = size := by
    rw [List.length_take, List.length_drop]
    omega
  have hbyte : (fread m ptr size).1.sdram (ptr + i) =
      ((m.fp.content.drop m.fp.pos).take size).getD i (m.sdram (ptr + i)) := by
    simp [fread]
  rw [hbyte, List.getD_eq_getElem _ _ (hbuf.symm ▸ hi), ← List.getElem?_eq_getElem,
    List.getElem?_take_of_lt hi, List.getElem?_drop]

theorem Loaded.fread (h : Loaded m₀ m n) (hrow : n % 1024 = 0) (hpos : 0 < size)
    (hsize : size ≤ 1024) (hmax : n + size ≤ 2 ^ 25)
    (hfile : n + size ≤ m₀.fp.content.length) :
    Loaded m₀ (fread m (elem (n / 1024 % 4) (n / 4096) 0 0) size).1 (n + size) ∧
      (fread m (elem (n / 1024 % 4) (n / 4096) 0 0) size).2 = 1 := by
  have hbuf : ((m.fp.content.drop m.fp.pos).take size).length = size := by
    simp only [h.fp, List.length_take, List.length_drop]
    omega
  have hnext {i : Nat} (hi : i < size) :
      reached (.ofNat 32 (n + i)) = elem (n / 1024 % 4) (n / 4096) 0 0 + i := by
    rw [reached_ofNat (by omega), show (n + i) / 1024 = n / 1024 by omega,
      show (n + i) / 4096 = n / 4096 by omega, show (n + i) % 1024 = i by omega]
  have hother {k : Nat} (hk : k < n) {i : Nat} (hi : i < size) :
      reached (.ofNat 32 k) ≠ elem (n / 1024 % 4) (n / 4096) 0 0 + i := by
    rw [← hnext hi]
    intro he
    have := reached_injective (by omega) (by omega) he
    omega
  generalize elem (n / 1024 % 4) (n / 4096) 0 0 = p at hnext hother ⊢
  refine ⟨⟨fun k hk => ?_, fun a ha => ?_, ?_, ?_⟩, ?_⟩
  · by_cases hkn : k < n
    · rw [fread_outside fun i hi => hother hkn hi, h.bytes k hkn]
    · obtain ⟨i, rfl⟩ : ∃ i, k = n + i := ⟨k - n, by omega⟩
      have hi : i < size := by omega
      rw [hnext hi, fread_inside (by rw [h.fp]; exact hfile) hi, h.fp]
  · rw [fread_outside fun i hi => hnext hi ▸ ha (n + i) (by omega)]
    exact h.frame a fun k hk => ha k (by omega)
  · simp only [SDRAM.fread, hbuf, h.loaded, List.append_assoc]
    rw [List.range_add, List.map_append, List.map_map]
    congr 2
    rw [List.range'_eq_map_range]
    refine List.map_congr_left fun i hi => ?_
    exact (hnext (List.mem_range.1 hi)).symm
  · simp only [h.fp] at hbuf
    simp only [SDRAM.fread, h.fp, hbuf]
  · simp only [SDRAM.fread, hbuf]
    exact Nat.div_self hpos

theorem loadRows_loaded (h : Loaded m₀ m n) (hrow : n % 1024 = 0) (hpos : 0 < size)
    (hmax : n + size ≤ 2 ^ 25) (hfile : n + size ≤ m₀.fp.content.length) {fuel : Nat}
    (hfuel : size ≤ 1024 * fuel) :
    ∃ m', loadRows m size (n / 1024 % 4) (n / 4096) fuel = some m' ∧
      Loaded m₀ m' (n + size) := by
  induction fuel generalizing m n size with
  | zero => omega
  | succ fuel ih =>
    rw [loadRows]
    by_cases hmore : size > size_per_row
    · rw [if_pos hmore]
      have hmore' : size > 1024 := hmore
      have hpart : 0 < size_per_row := by decide
      obtain ⟨hloaded, hret⟩ := h.fread hrow hpart (by decide)
        (by rw [size_per_row_eq]; omega) (by rw [size_per_row_eq]; omega)
      generalize hm : SDRAM.fread m _ size_per_row = r at hloaded hret
      obtain ⟨m', ret⟩ := r
      obtain rfl : ret = 1 := hret
      have hbank : (n / 1024 % 4 + 1) % SDRAM_NR_BANKS = (n + size_per_row) / 1024 % 4 := by
        change (n / 1024 % 4 + 1) % 4 = _
        rw [size_per_row_eq]
        omega
      have hrow' : (if n / 1024 % 4 = SDRAM_NR_BANKS - 1 then (n / 4096 + 1) % SDRAM_NR_ROWS
          else n / 4096) = (n + size_per_row) / 4096 := by
        change (if n / 1024 % 4 = 3 then (n / 4096 + 1) % 8192 else _) = _
        rw [size_per_row_eq]
        split <;> omega
      have hsum : n + size_per_row + (size - size_per_row) = n + size := by
        rw [size_per_row_eq]
        omega
      have hleft : 0 < size - size_per_row := by
        rw [size_per_row_eq]
        omega
      obtain ⟨m'', hrun, hall⟩ := ih hloaded (by rw [size_per_row_eq]; omega) hleft (by omega)
        (by omega) (by rw [size_per_row_eq]; omega)
      refine ⟨m'', ?_, hsum ▸ hall⟩
      rw [← hrun, ← hbank, ← hrow']
      rfl
    · rw [if_neg hmore]
      exact ⟨_, rfl, (h.fread hrow hpos (Nat.le_of_not_lt hmore) hmax hfile).1⟩

theorem loadRows_mono {m' : Ddr} {bank row fuel fuel' : Nat} (hle : fuel ≤ fuel')
    (h : loadRows m size bank row fuel = some m') :
    loadRows m size bank row fuel' = some m' := by
  induction fuel generalizing m size bank row fuel' with
  | zero => simp [loadRows] at h
  | succ fuel ih =>
    obtain ⟨fuel', rfl⟩ : ∃ k, fuel' = k + 1 := ⟨fuel' - 1, by omega⟩
    rw [loadRows] at h ⊢
    split at h
    case isTrue hmore =>
      rw [if_pos hmore]
      exact ih (by omega) h
    case isFalse hmore => rwa [if_neg hmore]

end Load

/-- The loop ends, and each byte of the image is then what a read of its address returns, loaded
once, with nothing else changed. -/
theorem image_loaded (m : Ddr) (n : Nat) (hpos : 0 < n) (hmax : n ≤ 2 ^ 25)
    (hfile : n ≤ m.fp.content.length) :
    ∃ m' fuel₀, (∀ fuel ≥ fuel₀, initDdr m n fuel = some m') ∧
      (∀ k < n, (read (.ofNat 32 k) m').map (lane (laneOf (.ofNat 32 k))) = m.fp.content[k]?) ∧
      (∀ a, (∀ k < n, a ≠ reached (.ofNat 32 k)) → m'.sdram a = m.sdram a) ∧
      m'.loaded = m.loaded ++ (List.range n).map (fun k => reached (.ofNat 32 k)) ∧
      ((List.range n).map fun k => reached (.ofNat 32 k)).Nodup := by
  have hstart : Loaded m (fseek m 0) 0 := ⟨by simp, fun _ _ => rfl, by simp [fseek], rfl⟩
  obtain ⟨m', hrun, hall⟩ := loadRows_loaded hstart rfl hpos (by omega) (by omega)
    (by omega : n ≤ 1024 * n)
  rw [Nat.zero_add] at hall
  refine ⟨m', n, fun fuel hle => loadRows_mono hle hrun, fun k hk => ?_, hall.frame, hall.loaded,
    List.Nodup.map_on (fun k hk k' hk' => ?_) List.nodup_range⟩
  · rw [lane_read]
    exact hall.bytes k hk
  · rw [List.mem_range] at hk hk'
    exact reached_injective (by omega) (by omega)

/-- An image that fills the first row and two bytes of the second one. -/
def imageOfTwoRows : Ddr where
  sdram _ := 0
  activedRows _ := none
  fp := ⟨List.replicate 1026 0x13, 0⟩
  loaded := []

theorem image_loaded_two_rows :
    ∃ m' fuel₀, (∀ fuel ≥ fuel₀, initDdr imageOfTwoRows 1026 fuel = some m') ∧
      (∀ k < 1026, (read (.ofNat 32 k) m').map (lane (laneOf (.ofNat 32 k))) =
        imageOfTwoRows.fp.content[k]?) ∧
      (∀ a, (∀ k < 1026, a ≠ reached (.ofNat 32 k)) → m'.sdram a = imageOfTwoRows.sdram a) ∧
      m'.loaded = imageOfTwoRows.loaded ++
        (List.range 1026).map (fun k => reached (.ofNat 32 k)) ∧
      ((List.range 1026).map fun k => reached (.ofNat 32 k)).Nodup :=
  image_loaded imageOfTwoRows 1026 (by decide) (by decide)
    (le_of_eq List.length_replicate.symm)

end FpgaNpc.Simulator.SDRAM
