import FpgaNpc.Sdb.Watchpoint

open FpgaNpc.Hardware FpgaNpc.Software

namespace FpgaNpc.Sdb.Pool

structure Lists (p : Pool) (active free : List (Fin NR_WP)) : Prop where
  numbered : p.Numbered
  head_chain : Chain p.next p.head active
  free_chain : Chain p.next p.free_ free
  head_sorted : active.Pairwise (· < ·)
  free_sorted : free.Pairwise (· < ·)
  disjoint : active.Disjoint free

section Lists

variable {p p' : Pool} {active free l : List (Fin NR_WP)} {node i : Fin NR_WP}

theorem length_lt_turns (h : l.Pairwise (· < ·)) : l.length < turns := by
  have hnodup : l.Nodup := h.imp ne_of_lt
  have hle := hnodup.length_le_card
  rw [Fintype.card_fin] at hle
  exact Nat.lt_succ_of_le hle

theorem Inserted.list {r : Root} (h : Inserted r node l p p') (hl : l.Pairwise (· < ·)) :
    ∃ l', l'.Perm (node :: l) ∧ l'.Pairwise (· < ·) ∧ Chain p'.next (p'.root r) l' := by
  obtain ⟨before, after, rfl, hbefore, hafter, hchain⟩ := h.chain
  refine ⟨before ++ node :: after, List.perm_middle, ?_, hchain⟩
  obtain ⟨hb, ha, hcross⟩ := List.pairwise_append.1 hl
  refine List.pairwise_append.2 ⟨hb, List.pairwise_cons.2 ⟨hafter, ha⟩, fun i hi j hj => ?_⟩
  obtain rfl | hj := List.mem_cons.1 hj
  · exact hbefore i hi
  · exact hcross i hi j hj

theorem Numbered.of_content (h : p.Numbered) (hc : p'.content = p.content) : p'.Numbered := by
  intro i
  have hno := congrArg WP.NO (congrFun hc i)
  exact hno.trans (h i)

theorem lists_init (p : Pool) : (initWpPool p).Lists [] (List.finRange NR_WP) where
  numbered _ := rfl
  head_chain := rfl
  free_chain := by
    change Chain (fun i => if h : i.val = NR_WP - 1 then none else some ⟨i + 1, by omega⟩)
      (some ⟨0, by decide⟩) (List.finRange NR_WP)
    decide
  head_sorted := .nil
  free_sorted := List.pairwise_lt_finRange _
  disjoint := by simp

theorem Lists.head_ne_none (h : p.Lists active free) : p.head ≠ none ↔ active ≠ [] := by
  rw [h.head_chain.start_eq, ne_eq, List.head?_eq_none_iff]

theorem insert_head_spec (h : p.Lists active free) (hnode : node ∉ active) (hfree : node ∉ free)
    (hne : active ≠ []) :
    ∃ p' active', insert .head node turns p none p.head = some p' ∧ p'.Lists active' free ∧
      active'.Perm (node :: active) ∧ p'.content = p.content := by
  have hdone : Segment p.next (p.root .head) [] p.head := rfl
  have hpre : none = ([] : List (Fin NR_WP)).getLast? := rfl
  obtain ⟨p', hinsert, hins⟩ := insert_spec h.numbered hdone h.head_chain hpre hne hnode
    h.head_sorted (by simp) (length_lt_turns h.head_sorted)
  rw [List.nil_append] at hins
  obtain ⟨active', hperm, hsorted, hchain⟩ := hins.list h.head_sorted
  have hdisjoint : (node :: active).Disjoint free := List.disjoint_cons_left.2 ⟨hfree, h.disjoint⟩
  have hroot : p'.free_ = p.free_ := hins.root .free_ (by decide)
  have hfree_chain : Chain p'.next p'.free_ free := by
    rw [hroot]
    exact (Segment.congr fun i hi => hins.next i fun hmem => hdisjoint hmem hi).2 h.free_chain
  exact ⟨p', active', hinsert, ⟨h.numbered.of_content hins.content, hchain, hfree_chain, hsorted,
    h.free_sorted, fun i hi => hdisjoint (hperm.mem_iff.1 hi)⟩, hperm, hins.content⟩

theorem insert_free_spec (h : p.Lists active free) (hnode : node ∉ active) (hfree : node ∉ free)
    (hne : free ≠ []) :
    ∃ p' free', insert .free_ node turns p none p.free_ = some p' ∧ p'.Lists active free' ∧
      free'.Perm (node :: free) ∧ p'.content = p.content := by
  have hdone : Segment p.next (p.root .free_) [] p.free_ := rfl
  have hpre : none = ([] : List (Fin NR_WP)).getLast? := rfl
  obtain ⟨p', hinsert, hins⟩ := insert_spec h.numbered hdone h.free_chain hpre hne hfree
    h.free_sorted (by simp) (length_lt_turns h.free_sorted)
  rw [List.nil_append] at hins
  obtain ⟨free', hperm, hsorted, hchain⟩ := hins.list h.free_sorted
  have hdisjoint : active.Disjoint (node :: free) :=
    List.disjoint_cons_right.2 ⟨hnode, h.disjoint⟩
  have hroot : p'.head = p.head := hins.root .head (by decide)
  have hhead_chain : Chain p'.next p'.head active := by
    rw [hroot]
    exact (Segment.congr fun i hi => hins.next i fun hmem => hdisjoint hi hmem).2 h.head_chain
  exact ⟨p', free', hinsert, ⟨h.numbered.of_content hins.content, hhead_chain, hchain,
    h.head_sorted, hsorted, fun i hi hf => hdisjoint hi (hperm.mem_iff.1 hf)⟩, hperm, hins.content⟩

theorem newWp_spec (h : p.Lists active (node :: free)) :
    ∃ p' active', newWp p = some (p', some node) ∧ p'.Lists active' free ∧
      active'.Perm (node :: active) ∧ p'.content = p.content := by
  obtain ⟨hfree, hnext⟩ := Chain.cons.1 h.free_chain
  have hnode : node ∉ active := fun hmem => h.disjoint hmem (by simp)
  have hnotfree : node ∉ free := fun hmem => (List.rel_of_pairwise_cons h.free_sorted hmem).false
  rw [newWp, hfree]
  dsimp only
  set q : Pool := { p with free_ := p.next node } with hq
  have hqlists : q.Lists active free := ⟨h.numbered, h.head_chain, hnext, h.head_sorted,
    (List.pairwise_cons.1 h.free_sorted).2, fun i hi hf => h.disjoint hi (by simp [hf])⟩
  cases hhead : p.head with
  | none =>
    obtain rfl : active = [] := by
      by_contra hne
      exact h.head_ne_none.2 hne hhead
    have hcontent : (({ q with head := some node } : Pool).setNext node none).content =
      p.content := content_setNext ..
    refine ⟨_, [node], rfl, ⟨h.numbered.of_content hcontent, ?_, ?_, by simp, hqlists.free_sorted,
      ?_⟩, .refl _, hcontent⟩
    · rw [next_setNext]
      exact Chain.cons.2 ⟨rfl, by simp [Chain, Segment]⟩
    · rw [next_setNext]
      exact (Segment.update hnotfree _).2 hnext
    · simpa using hnotfree
  | some i =>
    have hne : active ≠ [] := h.head_ne_none.1 (by simp [hhead])
    obtain ⟨p', active', hinsert, hlists, hperm, hcontent⟩ :=
      insert_head_spec hqlists hnode hnotfree hne
    refine ⟨p', active', ?_, hlists, hperm, hcontent⟩
    change (insert .head node turns q none (some i)).map (·, some node) = _
    rw [← hhead]
    exact congrArg (Option.map (·, some node)) hinsert

theorem newWp_full (h : p.Lists active []) : newWp p = some (p, none) := by
  rw [newWp, Chain.nil.1 h.free_chain]

theorem unlink_clear_spec (h : p.Lists active free) (hnode : node ∈ active) {n : Word}
    (hn : n.toNat = node) :
    ∃ p₁, unlink n turns p none p.head = some (p₁, some node) ∧
      (p₁.setNode node WP.clear).Lists (active.erase node) free ∧
      (∀ i ≠ node, (p₁.setNode node WP.clear).content i = p.content i) ∧
      (p₁.setNode node WP.clear).content node = (p.content node).clear := by
  have hdone : Segment p.next p.head [] p.head := rfl
  have hpre : none = ([] : List (Fin NR_WP)).getLast? := rfl
  obtain ⟨p₁, hunlink, hchain, hnext, hfree, hcontent⟩ := unlink_spec h.numbered hdone
    h.head_chain hpre h.head_sorted hnode (length_lt_turns h.head_sorted).le hn
  rw [List.nil_append] at hchain hnext
  set p₂ := p₁.setNode node WP.clear with hp₂
  have hnext₂ : p₂.next = p₁.next := next_setNode _ fun _ => rfl
  have hothers : ∀ i ≠ node, p₂.content i = p.content i := by
    intro i hi
    rw [hp₂, content_setNode_of_ne _ hi, hcontent]
  have hcleared : p₂.content node = (p.content node).clear := by
    rw [← hcontent]
    simp [hp₂, setNode, content, WP.clear]
  have hnumbered : p₂.Numbered := by
    intro i
    have hno : p₂.NO i = p.NO i := by
      by_cases hi : i = node
      · have hclear := congrArg WP.NO hcleared
        rw [hi]
        exact hclear
      · have hsame := congrArg WP.NO (hothers i hi)
        exact hsame
    exact hno.trans (h.numbered i)
  have hdisjoint : (active.erase node).Disjoint free :=
    fun i hi hf => h.disjoint (List.mem_of_mem_erase hi) hf
  have hfree_chain : Chain p₂.next p₂.free_ free := by
    rw [hnext₂]
    change Chain p₁.next p₁.free_ free
    rw [hfree]
    exact (Segment.congr fun i hi => hnext i fun hmem => hdisjoint hmem hi).2 h.free_chain
  exact ⟨p₁, hunlink, ⟨hnumbered, hnext₂ ▸ hchain, hfree_chain,
    h.head_sorted.sublist List.erase_sublist, h.free_sorted, hdisjoint⟩, hothers, hcleared⟩

theorem freeWp_spec (h : p.Lists active free) (hnode : node ∈ active) {n : Word}
    (hn : n.toNat = node) :
    ∃ p' free', freeWp n p = some p' ∧ p'.Lists (active.erase node) free' ∧
      (free ≠ [] → free'.Perm (node :: free)) ∧ (free = [] → free' = []) ∧
      (∀ i ≠ node, p'.content i = p.content i) ∧
      p'.content node = (p.content node).clear := by
  have hn32 : ¬n > 32 := by
    rw [gt_iff_lt, BitVec.lt_def, hn]
    exact not_lt.2 node.isLt.le
  obtain ⟨p₁, hunlink, hlists, hothers, hcleared⟩ := unlink_clear_spec h hnode hn
  rw [freeWp, if_neg hn32, hunlink]
  simp only [Option.bind_some]
  rcases eq_or_ne free [] with rfl | hne
  · rw [Chain.nil.1 hlists.free_chain, insert_none]
    exact ⟨_, [], rfl, hlists, by simp, by simp, hothers, hcleared⟩
  · have hnodup : active.Nodup := h.head_sorted.imp ne_of_lt
    obtain ⟨p', free', hinsert, hlists', hperm, hcontent⟩ :=
      insert_free_spec hlists hnodup.not_mem_erase (h.disjoint hnode) hne
    refine ⟨p', free', hinsert, hlists', fun _ => hperm, fun h0 => absurd h0 hne, ?_, ?_⟩
    · intro i hi
      rw [hcontent, hothers i hi]
    · rw [hcontent, hcleared]

theorem Lists.walk_eq (h : p.Lists active free) : walk p.next p.head turns = active :=
  Chain.walk_eq h.head_chain (length_lt_turns h.head_sorted).le

end Lists

inductive Call
  | new_wp
  | free_wp (n : Word)

/-- Nothing comes of a call that does not return. -/
def machine : Machine (Option Pool) Call where
  IsReset s := ∃ p, s = some (initWpPool p)
  next s c := s.bind fun p =>
    match c with
    | .new_wp => (newWp p).map Prod.fst
    | .free_wp n => freeWp n p

section Spec

variable (p : Pool)

def actives : List (Fin NR_WP) := walk p.next p.head turns

def IsActive (n : Word) : Prop := ∃ i ∈ p.actives, p.NO i = n.toNat

instance (n : Word) : Decidable (p.IsActive n) := inferInstanceAs (Decidable (∃ i ∈ _, _))

/-- What the calls do not go beyond: only active watchpoints are freed. -/
def Allowed : Option Pool → Call → Prop
  | some p, .free_wp n => p.IsActive n
  | _, _ => True

/-- A watchpoint is freed only while there is a free node. -/
def Spared : Option Pool → Call → Prop
  | some p, .free_wp n => p.IsActive n ∧ p.free_ ≠ none
  | _, _ => True

instance : ∀ s c, Decidable (Spared s c)
  | some _, .free_wp _ => inferInstanceAs (Decidable (_ ∧ _))
  | some _, .new_wp => .isTrue trivial
  | none, _ => .isTrue trivial

/-- Two lists that share out the nodes, no call that fails to allocate before all of them are
active, and each that is not active to be allocated by some later call. -/
structure Sound : Prop where
  lists : ∃ active free, Chain p.next p.head active ∧ Chain p.next p.free_ free ∧
    (active.map p.NO).Pairwise (· < ·) ∧ (free.map p.NO).Pairwise (· < ·) ∧
      active.Disjoint free ∧ ∀ i, i ∈ active ∨ i ∈ free
  null : ∀ p', newWp p = some (p', none) → ∀ i, i ∈ p.actives
  again : ∀ i, i ∉ p.actives → ∃ k q q', machine.run (some p) (.replicate k .new_wp) = some q ∧
    newWp q = some (q', some i)

end Spec

section Runs

variable {p p' : Pool} {active free free' : List (Fin NR_WP)} {s : Option Pool}

theorem Numbered.sorted (h : p.Numbered) {l : List (Fin NR_WP)} (hl : l.Pairwise (· < ·)) :
    (l.map p.NO).Pairwise (· < ·) := by
  refine List.pairwise_map.2 (hl.imp fun {i j} hij => ?_)
  rw [h i, h j]
  exact hij

theorem run_new (h : p.Lists active (free ++ free')) :
    ∃ p' active', machine.run (some p) (.replicate free.length .new_wp) = some p' ∧
      p'.Lists active' free' ∧ active'.Perm (active ++ free) := by
  induction free generalizing p active with
  | nil => exact ⟨p, active, rfl, h, by simp⟩
  | cons i free ih =>
    obtain ⟨p₁, active₁, hnew, hlists, hperm, -⟩ := newWp_spec h
    obtain ⟨p', active', hrun, hlists', hperm'⟩ := ih hlists
    refine ⟨p', active', ?_, hlists', hperm'.trans ?_⟩
    · have hnext : machine.next (some p) .new_wp = some p₁ := by
        change (newWp p).map Prod.fst = some p₁
        rw [hnew]
        rfl
      rw [List.length_cons, List.replicate_succ, Machine.run, hnext, hrun]
    · exact (hperm.append_right free).trans List.perm_middle.symm

def Shared (s : Option Pool) : Prop :=
  ∃ p active free, s = some p ∧ p.Lists active free ∧ ∀ i, i ∈ active ∨ i ∈ free

theorem shared_reset (h : machine.IsReset s) : Shared s := by
  obtain ⟨p, rfl⟩ := h
  exact ⟨_, _, _, rfl, lists_init p, fun i => .inr (List.mem_finRange i)⟩

theorem shared_next (h : Shared s) {c : Call} (hc : Spared s c) : Shared (machine.next s c) := by
  obtain ⟨p, active, free, rfl, hlists, hall⟩ := h
  cases c with
  | new_wp =>
    cases free with
    | nil =>
      refine ⟨p, active, [], ?_, hlists, hall⟩
      change (newWp p).map Prod.fst = _
      rw [newWp_full hlists]
      rfl
    | cons node free =>
      obtain ⟨p', active', hnew, hlists', hperm, -⟩ := newWp_spec hlists
      refine ⟨p', active', free, ?_, hlists', fun i => ?_⟩
      · change (newWp p).map Prod.fst = _
        rw [hnew]
        rfl
      · have hi := hall i
        rw [hperm.mem_iff]
        simp only [List.mem_cons] at hi ⊢
        tauto
  | free_wp n =>
    obtain ⟨⟨node, hnode, hn⟩, hspare⟩ := hc
    rw [actives, hlists.walk_eq] at hnode
    have hne : free ≠ [] := by
      rintro rfl
      exact hspare (Chain.nil.1 hlists.free_chain)
    obtain ⟨p', free', hfree, hlists', hperm, -⟩ := freeWp_spec hlists hnode
      (hn.symm.trans (hlists.numbered node))
    refine ⟨p', _, free', hfree, hlists', fun i => ?_⟩
    rw [(hperm hne).mem_iff, List.mem_cons]
    by_cases hi : i = node
    · exact .inr (.inl hi)
    · exact (hall i).imp (List.mem_erase_of_ne hi).2 .inr

theorem Shared.sound (h : Shared s) : ∃ p, s = some p ∧ Sound p := by
  obtain ⟨p, active, free, rfl, hlists, hall⟩ := h
  have hactives : p.actives = active := hlists.walk_eq
  refine ⟨p, rfl, ⟨active, free, hlists.head_chain, hlists.free_chain,
    hlists.numbered.sorted hlists.head_sorted, hlists.numbered.sorted hlists.free_sorted,
    hlists.disjoint, hall⟩, fun p' hnull i => ?_, fun i hi => ?_⟩
  · rw [hactives]
    cases free with
    | nil => simpa using hall i
    | cons node free =>
      obtain ⟨q, -, hnew, -⟩ := newWp_spec hlists
      simp [hnew] at hnull
  · rw [hactives] at hi
    obtain ⟨before, after, rfl⟩ := List.append_of_mem ((hall i).resolve_left hi)
    obtain ⟨q, active', hrun, hlists', -⟩ := run_new hlists
    obtain ⟨q', -, hnew, -⟩ := newWp_spec hlists'
    exact ⟨before.length, q, q', hrun, hnew⟩

theorem pool_sound (h : machine.Reaches Spared s) : ∃ p, s = some p ∧ Sound p :=
  (h.invariant (P := Shared) (fun _ => shared_reset) fun _ _ hs hc => shared_next hs hc).sound

/-- The pool as it is before `init_wp_pool`. -/
def zeros : Pool := ⟨fun _ => ⟨0, none, [], 0, false⟩, none, none⟩

def start : Option Pool := some (initWpPool zeros)

theorem pool_sound_twoThenFree : ∃ p, machine.run start [.new_wp, .new_wp, .free_wp 0] = some p ∧
    Sound p :=
  pool_sound (Machine.reaches_run machine Spared start [.new_wp, .new_wp, .free_wp 0] ⟨_, rfl⟩
    (by decide +kernel))

theorem runs_new (s : Option Pool) (k : Nat) : machine.Runs Allowed s (.replicate k .new_wp) := by
  induction k generalizing s with
  | zero => trivial
  | succ k ih => exact ⟨by cases s <;> trivial, ih _⟩

/-- With all nodes active, the one that is freed gets into neither list. -/
theorem freed_lost : ∃ p, machine.run start (.replicate 32 .new_wp ++ [.free_wp 0]) = some p ∧
    newWp p = some (p, none) ∧ 0 ∉ p.actives ∧
      ¬∀ s, machine.Reaches Allowed s → ∃ p, s = some p ∧ Sound p := by
  have hinit : (initWpPool zeros).Lists [] (List.finRange NR_WP ++ []) := by
    simpa using lists_init zeros
  obtain ⟨p, active, hrun, hlists, hperm⟩ := run_new hinit
  rw [List.length_finRange] at hrun
  have hmem : 0 ∈ active := hperm.mem_iff.2 (by simp)
  have hactive : p.IsActive 0 := by
    refine ⟨0, ?_, hlists.numbered 0⟩
    rwa [actives, hlists.walk_eq]
  obtain ⟨q, free', hfree, hlists', -, hnil, -⟩ := freeWp_spec hlists hmem (n := 0) rfl
  obtain rfl := hnil rfl
  have hlost : 0 ∉ q.actives := by
    rw [actives, hlists'.walk_eq]
    have hnodup : active.Nodup := hlists.head_sorted.imp ne_of_lt
    exact hnodup.not_mem_erase
  have hreach : machine.Reaches Allowed (some q) := by
    have hfull : machine.Reaches Allowed (some p) := by
      rw [← hrun]
      exact Machine.reaches_run _ _ _ _ ⟨_, rfl⟩ (runs_new _ _)
    have hnext : machine.next (some p) (.free_wp 0) = some q := hfree
    exact hnext ▸ hfull.next hactive
  refine ⟨q, ?_, newWp_full hlists', hlost, fun h => ?_⟩
  · rw [Machine.run_append, start, hrun]
    exact hfree
  · obtain ⟨p', hp', hsound⟩ := h _ hreach
    obtain rfl := Option.some.inj hp'
    exact hlost (hsound.null q (newWp_full hlists') 0)

end Runs

end FpgaNpc.Sdb.Pool
