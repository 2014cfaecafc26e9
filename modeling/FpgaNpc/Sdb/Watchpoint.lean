import FpgaNpc.Hardware.Chisel
import FpgaNpc.Hardware.Machine
import FpgaNpc.Software.Chain

open FpgaNpc.Hardware FpgaNpc.Software

namespace FpgaNpc.Sdb

abbrev NR_WP := 32

abbrev WPPtr := Option (Fin NR_WP)

structure WP where
  NO : Nat
  next : WPPtr
  What : List Char
  value : Word
  trigger_flag : Bool
  deriving DecidableEq

def WP.clear (wp : WP) : WP := { wp with What := [], value := 0 }

structure Pool where
  wp_pool : Fin NR_WP → WP
  head : WPPtr
  free_ : WPPtr

/-- The two lists of the pool, by the variable that points to the first node. -/
inductive Root
  | head | free_
  deriving DecidableEq

namespace Pool

section Fields

variable (p : Pool)

def NO (i : Fin NR_WP) : Nat := (p.wp_pool i).NO

def next (i : Fin NR_WP) : WPPtr := (p.wp_pool i).next

def content (i : Fin NR_WP) : WP := { p.wp_pool i with next := none }

def root : Root → WPPtr
  | .head => p.head
  | .free_ => p.free_

def setRoot (r : Root) (node : WPPtr) : Pool :=
  match r with
  | .head => { p with head := node }
  | .free_ => { p with free_ := node }

def setNode (i : Fin NR_WP) (f : WP → WP) : Pool :=
  { p with wp_pool := Function.update p.wp_pool i (f (p.wp_pool i)) }

def setNext (i : Fin NR_WP) (node : WPPtr) : Pool := p.setNode i fun wp => { wp with next := node }

/-- Links to `node` from the node before it, or from the list's own variable. -/
def setLink (r : Root) : WPPtr → WPPtr → Pool
  | none, node => p.setRoot r node
  | some pre, node => p.setNext pre node

end Fields

def initWpPool (p : Pool) : Pool where
  wp_pool i := { p.wp_pool i with
    NO := i
    next := if h : i.val = NR_WP - 1 then none else some ⟨i + 1, by omega⟩
    trigger_flag := false }
  head := none
  free_ := some ⟨0, by decide⟩

/-- The loop that puts `node` into one of the lists, at `iter` with `pre` behind it, in at most
`fuel` turns. -/
def insert (r : Root) (node : Fin NR_WP) : Nat → Pool → WPPtr → WPPtr → Option Pool
  | _, p, _, none => some p
  | 0, _, _, some _ => none
  | fuel + 1, p, pre, some iter =>
    if p.NO node < p.NO iter then
      some ((p.setLink r pre (some node)).setNext node (some iter))
    else
      let p := if p.next iter = none then (p.setNext iter (some node)).setNext node none else p
      insert r node fuel p (some iter) (p.next iter)

def unlink (n : Word) : Nat → Pool → WPPtr → WPPtr → Option (Pool × WPPtr)
  | _, p, _, none => some (p, none)
  | 0, _, _, some _ => none
  | fuel + 1, p, pre, some iter =>
    if p.NO iter = n.toNat then
      some (p.setLink .head pre (p.next iter), some iter)
    else unlink n fuel p (some iter) (p.next iter)

abbrev turns := NR_WP + 1

def newWp (p : Pool) : Option (Pool × WPPtr) :=
  match p.free_ with
  | none => some (p, none)
  | some node =>
    let p := { p with free_ := p.next node }
    match p.head with
    | none => some (({ p with head := some node } : Pool).setNext node none, some node)
    | some _ => (insert .head node turns p none p.head).map (·, some node)

/-- Nothing comes of a call whose assertion fails. -/
def freeWp (n : Word) (p : Pool) : Option Pool :=
  if n > 32 then some p
  else
    (unlink n turns p none p.head).bind fun (p, node) =>
      node.bind fun node =>
        let p := p.setNode node WP.clear
        insert .free_ node turns p none p.free_

section Simp

variable (p : Pool) (r r' : Root) (node : WPPtr) (i : Fin NR_WP)

@[simp] theorem next_setRoot : (p.setRoot r node).next = p.next := by cases r <;> rfl

@[simp] theorem NO_setRoot : (p.setRoot r node).NO = p.NO := by cases r <;> rfl

@[simp] theorem root_setRoot : (p.setRoot r node).root r' = if r' = r then node else p.root r' := by
  cases r <;> cases r' <;> rfl

@[simp] theorem next_setNext : (p.setNext i node).next = Function.update p.next i node := by
  funext j
  by_cases h : j = i
  · subst h
    simp [setNext, setNode, next]
  · simp [setNext, setNode, next, h]

@[simp] theorem NO_setNext : (p.setNext i node).NO = p.NO := by
  funext j
  by_cases h : j = i
  · subst h
    simp [setNext, setNode, NO]
  · simp [setNext, setNode, NO, h]

@[simp] theorem root_setNext : (p.setNext i node).root r = p.root r := by cases r <;> rfl

@[simp] theorem content_setRoot : (p.setRoot r node).content = p.content := by cases r <;> rfl

@[simp] theorem content_setNext : (p.setNext i node).content = p.content := by
  funext j
  by_cases h : j = i
  · subst h
    simp [setNext, setNode, content]
  · simp [setNext, setNode, content, h]

variable {i j : Fin NR_WP} {f : WP → WP}

theorem next_setNode (hf : ∀ wp, (f wp).next = wp.next) : (p.setNode i f).next = p.next := by
  funext j
  by_cases h : j = i
  · subst h
    simp [setNode, next, hf]
  · simp [setNode, next, h]

theorem content_setNode_of_ne (h : j ≠ i) : (p.setNode i f).content j = p.content j := by
  simp [setNode, content, h]

theorem setNext_setNext (node' : WPPtr) :
    (p.setNext i node).setNext i node' = p.setNext i node' := by
  simp [setNext, setNode]

theorem setNext_next : p.setNext i (p.next i) = p := by
  simp [setNext, setNode, next]

end Simp

def Numbered (p : Pool) : Prop := ∀ i, p.NO i = i

/-- `node` is in its place in the list that was `l`, and nothing else has changed. -/
structure Inserted (r : Root) (node : Fin NR_WP) (l : List (Fin NR_WP)) (p p' : Pool) : Prop where
  chain : ∃ before after, l = before ++ after ∧ (∀ i ∈ before, i < node) ∧
    (∀ i ∈ after, node < i) ∧ Chain p'.next (p'.root r) (before ++ node :: after)
  next : ∀ i ∉ node :: l, p'.next i = p.next i
  root : ∀ r' ≠ r, p'.root r' = p.root r'
  content : p'.content = p.content

section Insert

variable {p p' : Pool} {r : Root} {node i : Fin NR_WP} {pre : WPPtr} {l : List (Fin NR_WP)}

@[simp] theorem insert_none (fuel : Nat) : insert r node fuel p pre none = some p := by
  cases fuel <;> rfl

theorem insert_before (h : p.NO node < p.NO i) (fuel : Nat) :
    insert r node (fuel + 1) p pre (some i) =
      some ((p.setLink r pre (some node)).setNext node (some i)) := by
  rw [insert, if_pos h]

theorem insert_pass (h : ¬p.NO node < p.NO i) (hnext : p.next i ≠ none) (fuel : Nat) :
    insert r node (fuel + 1) p pre (some i) = insert r node fuel p (some i) (p.next i) := by
  rw [insert, if_neg h]
  simp only [if_neg hnext]

theorem insert_last (h : ¬p.NO node < p.NO i) (hne : node ≠ i) (hnext : p.next i = none)
    (fuel : Nat) :
    insert r node (fuel + 2) p pre (some i) =
      some ((p.setNext i (some node)).setNext node none) := by
  set p' := (p.setNext i (some node)).setNext node none with hp'
  have hi : p'.next i = some node := by simp [hp', Function.update_of_ne hne.symm]
  have hnode : p'.next node = none := by simp [hp']
  have hsame : (p'.setNext node (some node)).setNext node none = p' := by
    rw [setNext_setNext, ← hnode, setNext_next]
  rw [insert, if_neg h]
  simp only [if_pos hnext, ← hp', hi]
  rw [insert, if_neg (Nat.lt_irrefl _)]
  simp only [hnode, hsame, if_true, insert_none]

end Insert

section Spec

variable {p p' : Pool} {r : Root} {node i : Fin NR_WP} {pre iter v : WPPtr}
  {l done rest : List (Fin NR_WP)}

theorem next_setLink (hpre : pre = done.getLast?) (hi : i ∉ done) :
    (p.setLink r pre v).next i = p.next i := by
  cases pre with
  | none => simp [setLink]
  | some j =>
    have hj : j ∈ done := List.mem_of_getLast? hpre.symm
    have hne : i ≠ j := fun he => hi (he ▸ hj)
    simp [setLink, Function.update_of_ne hne]

theorem root_setLink {r' : Root} (h : r' ≠ r) : (p.setLink r pre v).root r' = p.root r' := by
  cases pre <;> simp [setLink, h]

@[simp] theorem content_setLink : (p.setLink r pre v).content = p.content := by
  cases pre <;> simp [setLink]

@[simp] theorem NO_setLink : (p.setLink r pre v).NO = p.NO := by
  cases pre <;> simp [setLink]

theorem segment_setLink (h : Segment p.next (p.root r) done iter) (hpre : pre = done.getLast?)
    (hnodup : done.Nodup) :
    Segment (p.setLink r pre v).next ((p.setLink r pre v).root r) done v := by
  rcases List.eq_nil_or_concat' done with rfl | ⟨l, i, rfl⟩
  · obtain rfl : pre = none := hpre
    simp [setLink, Segment]
  · obtain rfl : pre = some i := by simpa using hpre
    have hi : i ∉ l := fun hmem => (List.nodup_append.1 hnodup).2.2 i hmem i (by simp) rfl
    obtain ⟨hl, -⟩ := Segment.concat.1 h
    simp only [setLink, next_setNext, root_setNext]
    exact Segment.concat.2 ⟨(Segment.update hi _).2 hl, by simp⟩

theorem inserted_before (hdone : Segment p.next (p.root r) done (some i))
    (hrest : Chain p.next (some i) (i :: rest)) (hpre : pre = done.getLast?)
    (hnode : node ∉ done ++ i :: rest) (hsorted : (done ++ i :: rest).Pairwise (· < ·))
    (hlt : ∀ j ∈ done, j < node) (hi : node < i) :
    Inserted r node (done ++ i :: rest) p
      ((p.setLink r pre (some node)).setNext node (some i)) := by
  obtain ⟨hdone_sorted, hrest_sorted, hcross⟩ := List.pairwise_append.1 hsorted
  have hafter : ∀ j ∈ i :: rest, node < j := by
    intro j hj
    obtain rfl | hj := List.mem_cons.1 hj
    · exact hi
    · exact hi.trans (List.rel_of_pairwise_cons hrest_sorted hj)
  refine ⟨⟨done, i :: rest, rfl, hlt, hafter, ?_⟩, ?_, ?_, ?_⟩
  · refine Chain.append.2 ⟨some node, ?_, ?_⟩
    · simp only [next_setNext, root_setNext]
      refine (Segment.update (fun hmem => hnode (by simp [hmem])) _).2 ?_
      exact segment_setLink hdone hpre (hdone_sorted.imp ne_of_lt)
    · refine Chain.cons.2 ⟨rfl, ?_⟩
      simp only [next_setNext, Function.update_self]
      refine (Segment.congr fun j hj => ?_).2 hrest
      have hjnode : j ≠ node := (hafter j hj).ne'
      rw [Function.update_of_ne hjnode]
      exact next_setLink hpre fun hmem => (hcross j hmem j hj).false
  · intro j hj
    have hjnode : j ≠ node := fun he => hj (by simp [he])
    rw [next_setNext, Function.update_of_ne hjnode]
    exact next_setLink hpre fun hmem => hj (by simp [hmem])
  · intro r' hr'
    rw [root_setNext, root_setLink hr']
  · simp

theorem inserted_last (hdone : Segment p.next (p.root r) done (some i))
    (hnode : node ∉ done ++ [i]) (hsorted : (done ++ [i]).Pairwise (· < ·))
    (hlt : ∀ j ∈ done, j < node) (hi : i < node) :
    Inserted r node (done ++ [i]) p ((p.setNext i (some node)).setNext node none) := by
  have hmem : i ∉ done := fun hmem =>
    ((List.pairwise_append.1 hsorted).2.2 i hmem i (by simp)).false
  refine ⟨⟨done ++ [i], [], by simp, ?_, by simp, ?_⟩, ?_, by simp, by simp⟩
  · intro j hj
    obtain hj | hj := List.mem_append.1 hj
    · exact hlt j hj
    · rwa [List.mem_singleton.1 hj]
  · simp only [next_setNext, root_setNext]
    refine Chain.append.2 ⟨some node, ?_, by simp [Chain, Segment]⟩
    refine Segment.concat.2 ⟨?_, by simp [Function.update_of_ne hi.ne]⟩
    refine (Segment.update (fun h => hnode (by simp [h])) _).2 ?_
    exact (Segment.update hmem _).2 hdone
  · intro j hj
    have hjnode : j ≠ node := fun he => hj (by simp [he])
    have hji : j ≠ i := fun he => hj (by simp [he])
    simp [Function.update_of_ne hjnode, Function.update_of_ne hji]

theorem insert_spec (hno : p.Numbered) {fuel : Nat}
    (hdone : Segment p.next (p.root r) done iter) (hrest : Chain p.next iter rest)
    (hpre : pre = done.getLast?) (hne : rest ≠ []) (hnode : node ∉ done ++ rest)
    (hsorted : (done ++ rest).Pairwise (· < ·)) (hlt : ∀ i ∈ done, i < node)
    (hfuel : rest.length < fuel) :
    ∃ p', insert r node fuel p pre iter = some p' ∧ Inserted r node (done ++ rest) p p' := by
  induction rest generalizing done pre iter fuel with
  | nil => exact absurd rfl hne
  | cons i rest ih =>
    obtain ⟨rfl, hnext⟩ := Chain.cons.1 hrest
    have hi : node ≠ i := fun he => hnode (by simp [he])
    have hlt_iff : p.NO node < p.NO i ↔ node < i := by rw [hno node, hno i, Fin.val_fin_lt]
    by_cases hbefore : node < i
    · obtain ⟨fuel, rfl⟩ : ∃ k, fuel = k + 1 := ⟨fuel - 1, by omega⟩
      exact ⟨_, insert_before (hlt_iff.2 hbefore) fuel,
        inserted_before hdone hrest hpre hnode hsorted hlt hbefore⟩
    · have hafter : i < node := lt_of_le_of_ne (not_lt.1 hbefore) hi.symm
      have hpass : ¬p.NO node < p.NO i := fun h => hbefore (hlt_iff.1 h)
      have hdone' : ∀ j ∈ done ++ [i], j < node := by
        intro j hj
        obtain hj | hj := List.mem_append.1 hj
        · exact hlt j hj
        · rwa [List.mem_singleton.1 hj]
      cases rest with
      | nil =>
        obtain ⟨fuel, rfl⟩ : ∃ k, fuel = k + 2 := ⟨fuel - 2, by simp at hfuel; omega⟩
        exact ⟨_, insert_last hpass hi hnext fuel, inserted_last hdone hnode hsorted hlt hafter⟩
      | cons j rest =>
        obtain ⟨fuel, rfl⟩ : ∃ k, fuel = k + 1 := ⟨fuel - 1, by omega⟩
        have hsome : p.next i ≠ none := by simp [(Chain.cons.1 hnext).1]
        have hsplit : done ++ i :: j :: rest = done ++ [i] ++ j :: rest := by simp
        rw [insert_pass hpass hsome, hsplit]
        rw [hsplit] at hnode hsorted
        exact ih (Segment.concat.2 ⟨hdone, rfl⟩) hnext (by simp) (by simp) hnode hsorted hdone'
          (by simp at hfuel ⊢; omega)

theorem unlink_spec (hno : p.Numbered) {fuel : Nat}
    (hdone : Segment p.next p.head done iter) (hrest : Chain p.next iter rest)
    (hpre : pre = done.getLast?) (hsorted : (done ++ rest).Pairwise (· < ·))
    (hnode : node ∈ rest) (hfuel : rest.length ≤ fuel) {n : Word} (hn : n.toNat = node) :
    ∃ p', unlink n fuel p pre iter = some (p', some node) ∧
      Chain p'.next p'.head ((done ++ rest).erase node) ∧
      (∀ i ∉ (done ++ rest).erase node, p'.next i = p.next i) ∧ p'.free_ = p.free_ ∧
      p'.content = p.content := by
  induction rest generalizing done pre iter fuel with
  | nil => simp at hnode
  | cons i rest ih =>
    obtain ⟨rfl, hnext⟩ := Chain.cons.1 hrest
    obtain ⟨fuel, rfl⟩ : ∃ k, fuel = k + 1 := ⟨fuel - 1, by simp at hfuel; omega⟩
    obtain ⟨hdone_sorted, hrest_sorted, hcross⟩ := List.pairwise_append.1 hsorted
    have hi : i ∉ done := fun hmem => (hcross i hmem i (by simp)).false
    rw [unlink]
    by_cases hfound : node = i
    · subst hfound
      rw [if_pos (by rw [hno, hn])]
      have herase : (done ++ node :: rest).erase node = done ++ rest := by
        rw [List.erase_append_right _ hi, List.erase_cons_head]
      rw [herase]
      refine ⟨_, rfl, ?_, ?_, ?_, by simp⟩
      · refine Chain.append.2 ⟨p.next node, ?_, ?_⟩
        · exact segment_setLink (r := .head) hdone hpre (hdone_sorted.imp ne_of_lt)
        · refine (Segment.congr fun j hj => ?_).2 hnext
          exact next_setLink hpre fun hmem => (hcross j hmem j (by simp [hj])).false
      · intro j hj
        exact next_setLink hpre fun hmem => hj (by simp [hmem])
      · exact root_setLink (show Root.free_ ≠ .head by decide)
    · have hne : p.NO i ≠ n.toNat := by
        rw [hno, hn]
        exact fun he => hfound (Fin.ext he.symm)
      rw [if_neg hne]
      have hsplit : done ++ i :: rest = done ++ [i] ++ rest := by simp
      rw [hsplit]
      rw [hsplit] at hsorted
      exact ih (Segment.concat.2 ⟨hdone, rfl⟩) hnext (by simp) hsorted
        (by simpa [hfound] using hnode) (by simpa using hfuel)

end Spec

end Pool

end FpgaNpc.Sdb
