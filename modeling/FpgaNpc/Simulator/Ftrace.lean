import FpgaNpc.Hardware.Chisel

open FpgaNpc.Hardware

namespace FpgaNpc.Simulator.Ftrace

structure Elf32_Sym where
  st_name : Word
  st_value : Word
  st_size : Word
  st_info : BitVec 8

def ELF32_ST_TYPE (st_info : BitVec 8) : BitVec 8 := st_info &&& 0xf

def STT_FUNC : BitVec 8 := 2

/-- An entry of the function table, which is a linked list behind a head that is no entry. -/
structure SymFunctab where
  name : List Char
  value : Word
  size : Word
  deriving DecidableEq

def main : List Char := ['m', 'a', 'i', 'n']

section Extract

variable (strtab : List Char) (s : Elf32_Sym)

def symName : List Char := (strtab.drop s.st_name.toNat).takeWhile (· ≠ '\x00')

/-- `strncmp(_, "main", 4) == 0` asks for a prefix only. -/
def kept : Bool := ELF32_ST_TYPE s.st_info == STT_FUNC || (symName strtab s).take 4 == main

def extractFunctab (symtab : List Elf32_Sym) : List SymFunctab :=
  match symtab with
  | [] => []
  | s :: symtab =>
    if kept strtab s then
      ⟨symName strtab s, s.st_value, s.st_size⟩ :: extractFunctab symtab
    else extractFunctab symtab

end Extract

inductive Query
  | name (name : List Char)
  | assertFails
  /-- The `next` of the head is read, which nothing has written. -/
  | undefined
  deriving DecidableEq

/-- The test of the range, in which the end is a 32-bit sum. -/
def SymFunctab.inRange (p : SymFunctab) (addr : Word) : Bool :=
  p.value ≤ addr && addr < p.value + p.size

def search (addr : Word) : List SymFunctab → Query
  | [] => .assertFails
  | p :: tab => if p.inRange addr || p.name == main then .name p.name else search addr tab

def queryFuncname (tab : List SymFunctab) (addr : Word) : Query :=
  match tab with
  | [] => .undefined
  | p :: tab => search addr (p :: tab)

section Spec

def SymFunctab.Contains (p : SymFunctab) (addr : Word) : Prop :=
  p.value.toNat ≤ addr.toNat ∧ addr.toNat < p.value.toNat + p.size.toNat

def SymFunctab.Ends (p : SymFunctab) : Prop := p.value.toNat + p.size.toNat < 2 ^ 32

instance (p : SymFunctab) (addr : Word) : Decidable (p.Contains addr) :=
  inferInstanceAs (Decidable (_ ∧ _))

instance (p : SymFunctab) : Decidable p.Ends := inferInstanceAs (Decidable (_ < _))

variable (tab : List SymFunctab) (addr : Word)

/-- A query returns the name of an entry whose range contains the address, if there is one, and
no other name. -/
structure Right : Prop where
  answered : (∃ p ∈ tab, p.Contains addr) → ∃ n, queryFuncname tab addr = .name n
  contained : ∀ n, queryFuncname tab addr = .name n → ∃ p ∈ tab, p.Contains addr ∧ p.name = n
  defined : queryFuncname tab addr ≠ .undefined

def MainAfter : Prop := ∀ p ∈ tab.takeWhile (!·.inRange addr), p.name ≠ main

/-- The entries that the table needs to have, and the order of them, for the query to be right. -/
structure Answerable : Prop where
  some : tab ≠ []
  order : (∃ p ∈ tab, p.name = main ∧ p.Contains addr) ∨ MainAfter tab addr ∧
    ((∃ p ∈ tab, p.Contains addr) → ∃ p ∈ tab, p.Contains addr ∧ p.Ends)

end Spec

variable {p : SymFunctab} {tab : List SymFunctab} {addr : Word}

theorem inRange_iff : p.inRange addr = true ↔ p.Contains addr ∧ p.Ends := by
  have hv := p.value.isLt
  have hs := p.size.isLt
  have ha := addr.isLt
  simp only [SymFunctab.inRange, SymFunctab.Contains, SymFunctab.Ends, Bool.and_eq_true,
    decide_eq_true_eq, BitVec.le_def, BitVec.lt_def, BitVec.toNat_add]
  by_cases hends : p.value.toNat + p.size.toNat < 2 ^ 32
  · rw [Nat.mod_eq_of_lt hends]
    exact (and_iff_left hends).symm
  · rw [Nat.mod_eq_sub_mod (by omega), Nat.mod_eq_of_lt (by omega)]
    omega

theorem search_spec (addr : Word) (tab : List SymFunctab) :
    (∃ before p after, tab = before ++ p :: after ∧
      (∀ q ∈ before, q.inRange addr = false ∧ q.name ≠ main) ∧
      (p.inRange addr = true ∨ p.name = main) ∧ search addr tab = .name p.name) ∨
    (∀ q ∈ tab, q.inRange addr = false ∧ q.name ≠ main) ∧ search addr tab = .assertFails := by
  induction tab with
  | nil => exact .inr ⟨by simp, rfl⟩
  | cons p tab ih =>
    rw [search]
    by_cases hp : p.inRange addr || p.name == main
    · rw [if_pos hp]
      exact .inl ⟨[], p, tab, rfl, by simp, by simpa using hp, rfl⟩
    · rw [if_neg hp]
      have hp' : p.inRange addr = false ∧ p.name ≠ main := by simpa using hp
      rcases ih with ⟨before, q, after, rfl, hbefore, hq, hs⟩ | ⟨hall, hs⟩
      · exact .inl ⟨p :: before, q, after, rfl, List.forall_mem_cons.2 ⟨hp', hbefore⟩, hq, hs⟩
      · exact .inr ⟨List.forall_mem_cons.2 ⟨hp', hall⟩, hs⟩

theorem queryFuncname_of_ne (h : tab ≠ []) : queryFuncname tab addr = search addr tab := by
  cases tab with
  | nil => exact absurd rfl h
  | cons p tab => rfl

theorem Answerable.right (h : Answerable tab addr) : Right tab addr := by
  have hq := @queryFuncname_of_ne tab addr h.some
  rcases search_spec addr tab with ⟨before, p, after, htab, hbefore, hp, hs⟩ | ⟨hall, hs⟩
  · have hmem : p ∈ tab := by simp [htab]
    have hcontained : ∃ q ∈ tab, q.Contains addr ∧ q.name = p.name := by
      by_cases hin : p.inRange addr = true
      · exact ⟨p, hmem, (inRange_iff.1 hin).1, rfl⟩
      · have hmain := hp.resolve_left hin
        rcases h.order with ⟨q, hq, hname, hc⟩ | ⟨hafter, -⟩
        · exact ⟨q, hq, hc, hname.trans hmain.symm⟩
        · refine absurd hmain (hafter p ?_)
          rw [htab, List.takeWhile_append_of_pos fun q hq => by simp [(hbefore q hq).1]]
          simp [hin]
    rw [hs] at hq
    refine ⟨fun _ => ⟨_, hq⟩, fun n hn => ?_, by simp [hq]⟩
    obtain rfl : p.name = n := by simpa [hq] using hn
    exact hcontained
  · rw [hs] at hq
    refine ⟨fun hc => ?_, by simp [hq], by simp [hq]⟩
    rcases h.order with ⟨q, hqt, hname, -⟩ | ⟨-, hends⟩
    · exact absurd hname (hall q hqt).2
    · obtain ⟨q, hqt, hqc⟩ := hends hc
      exact absurd (inRange_iff.2 hqc) (Bool.eq_false_iff.1 (hall q hqt).1)

theorem Right.answerable (h : Right tab addr) : Answerable tab addr := by
  have hsome : tab ≠ [] := fun hnil => h.defined (by rw [hnil]; rfl)
  have hq := @queryFuncname_of_ne tab addr hsome
  refine ⟨hsome, or_iff_not_imp_left.2 fun hno => ?_⟩
  rcases search_spec addr tab with ⟨before, p, after, htab, hbefore, hp, hs⟩ | ⟨hall, hs⟩
  · have hmem : p ∈ tab := by simp [htab]
    -- an entry found by its name alone would have to be right by another one of that name
    have hin : p.inRange addr = true := hp.resolve_right fun hmain => by
      obtain ⟨q, hqt, hqc, hname⟩ := h.contained p.name (hq.trans hs)
      exact hno ⟨q, hqt, hname.trans hmain, hqc⟩
    refine ⟨fun q hqt => ?_, fun _ => ⟨p, hmem, inRange_iff.1 hin⟩⟩
    rw [htab, List.takeWhile_append_of_pos fun q hq => by simp [(hbefore q hq).1]] at hqt
    exact (hbefore q (by simpa [hin] using hqt)).2
  · refine ⟨fun q hqt => (hall q (List.takeWhile_subset _ hqt)).2, fun hc => ?_⟩
    obtain ⟨n, hn⟩ := h.answered hc
    rw [hq, hs] at hn
    cases hn

theorem lookup_right_iff (strtab : List Char) (symtab : List Elf32_Sym) (addr : Word) :
    Right (extractFunctab strtab symtab) addr ↔ Answerable (extractFunctab strtab symtab) addr :=
  ⟨Right.answerable, Answerable.right⟩

/-- `main` from 0x10000000 on and `trm_init` behind it, each 16 bytes long. -/
def mainFirst : List Elf32_Sym := [⟨1, 0x10000000, 16, 0x12⟩, ⟨6, 0x10000010, 16, 0x12⟩]

def mainFirstStrtab : List Char :=
  ['\x00', 'm', 'a', 'i', 'n', '\x00', 't', 'r', 'm', '_', 'i', 'n', 'i', 't', '\x00']

theorem trm_init_named_main :
    let tab := extractFunctab mainFirstStrtab mainFirst
    queryFuncname tab 0x10000014 = .name main ∧
      (∀ p ∈ tab, p.Contains 0x10000014 → p.name ≠ main) ∧
      ¬∀ strtab symtab addr, Right (extractFunctab strtab symtab) addr := by
  have hquery : queryFuncname (extractFunctab mainFirstStrtab mainFirst) 0x10000014 =
      .name main := by decide
  have hname : ∀ p ∈ extractFunctab mainFirstStrtab mainFirst, p.Contains 0x10000014 →
      p.name ≠ main := by decide
  refine ⟨hquery, hname, fun h => ?_⟩
  obtain ⟨p, hp, hc, hmain⟩ := (h mainFirstStrtab mainFirst 0x10000014).contained _ hquery
  exact hname p hp hc hmain

end FpgaNpc.Simulator.Ftrace
