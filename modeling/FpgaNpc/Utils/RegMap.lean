import FpgaNpc.Hardware.LaneMemory

open FpgaNpc.Hardware

namespace FpgaNpc

def MaskExpand (m : BitVec 4) : Word :=
  (BitVec.fill 8 (m.getLsbD 3)) ++ (BitVec.fill 8 (m.getLsbD 2)) ++
    (BitVec.fill 8 (m.getLsbD 1)) ++ (BitVec.fill 8 (m.getLsbD 0))

def MaskData (oldData newData fullmask : Word) : Word :=
  (newData &&& fullmask) ||| (oldData &&& ~~~fullmask)

theorem getLsbD_MaskExpand (m : BitVec 4) {i j : Nat} (hi : i < 4) (hj : j < 8) :
    (MaskExpand m).getLsbD (8 * i + j) = m.getLsbD i := by
  rw [MaskExpand]
  simp only [BitVec.getLsbD_append, BitVec.getLsbD_fill]
  obtain rfl | rfl | rfl | rfl : i = 0 ∨ i = 1 ∨ i = 2 ∨ i = 3 := by omega
  all_goals grind

theorem lane_MaskData (oldData newData : Word) (strb : BitVec 4) {i : Nat} (hi : i < 4) :
    lane i (MaskData oldData newData (MaskExpand strb)) =
      if strb.getLsbD i then lane i newData else lane i oldData := by
  apply BitVec.eq_of_getLsbD_eq
  intro j hj
  rw [getLsbD_lane, MaskData, BitVec.getLsbD_or, BitVec.getLsbD_and, BitVec.getLsbD_and,
    BitVec.getLsbD_not, getLsbD_MaskExpand strb hi hj]
  have hlt : 8 * i + j < 32 := by omega
  cases strb.getLsbD i <;> simp [getLsbD_lane, hlt]

namespace RegMap

/-- The read side of `generate`: `LookupTree` over the map. -/
def rdata (mapping : List (Nat × Word)) (raddr : Nat) : Word :=
  Mux1H (mapping.map fun p => (p.1 == raddr, p.2))

def writes (a waddr : Nat) (wen : Bool) : Bool := wen && waddr == a

theorem rdata_of_not_mem {mapping : List (Nat × Word)} {raddr : Nat}
    (h : ∀ p ∈ mapping, p.1 ≠ raddr) : rdata mapping raddr = 0 := by
  induction mapping with
  | nil => rfl
  | cons p mapping ih =>
    have hne : (p.1 == raddr) = false := by simpa using h p List.mem_cons_self
    have hrest := ih fun q hq => h q (List.mem_cons_of_mem _ hq)
    rw [rdata] at hrest ⊢
    rw [List.map_cons, Mux1H, hrest, hne, if_neg Bool.false_ne_true]
    exact BitVec.zero_or

theorem rdata_of_mem {mapping : List (Nat × Word)} (hnd : (mapping.map Prod.fst).Nodup)
    {p : Nat × Word} (h : p ∈ mapping) : rdata mapping p.1 = p.2 := by
  induction mapping with
  | nil => cases h
  | cons q mapping ih =>
    rw [List.map_cons, List.nodup_cons] at hnd
    have hcons : rdata (q :: mapping) p.1 =
        (if q.1 == p.1 then q.2 else 0) ||| rdata mapping p.1 := rfl
    rw [hcons]
    rcases List.mem_cons.1 h with rfl | h
    · have hrest : rdata mapping p.1 = 0 := rdata_of_not_mem fun r hr he =>
        hnd.1 (he ▸ List.mem_map_of_mem hr)
      simp [hrest]
    · have hne : q.1 ≠ p.1 := fun he => hnd.1 (he ▸ List.mem_map_of_mem h)
      simp [hne, ih hnd.2 h]

end RegMap

end FpgaNpc
