import Mathlib.Logic.Function.Basic
import FpgaNpc.Cache.ICache

universe u v

open FpgaNpc.Hardware FpgaNpc.SRAMLike

namespace FpgaNpc

namespace SDPRAM

variable {α : Type u} {β : Type v} [DecidableEq α] {s : SDPRAM α β} {raddr waddr : α}
  {wdata : β} {readNew : Bool}

theorem next_of_not_wen :
    s.next raddr false waddr wdata readNew = ⟨s.mem, s.mem raddr⟩ := by
  simp [next]

theorem mem_next : (s.next raddr true waddr wdata readNew).mem =
    Function.update s.mem waddr wdata := rfl

theorem map_rdata_next {γ : Type*} (f : β → γ) (wen : Bool)
    (h : wen = true → f wdata = f (s.mem waddr)) :
    f (s.next raddr wen waddr wdata readNew).rdata = f (s.mem raddr) := by
  simp only [next]
  split
  case isTrue hc =>
    simp only [Bool.and_eq_true, beq_iff_eq] at hc
    rw [h hc.1.1, hc.2]
  case isFalse => rfl

theorem map_mem_next {γ : Type*} (f : β → γ) (wen : Bool)
    (h : wen = true → f wdata = f (s.mem waddr)) (a : α) :
    f ((s.next raddr wen waddr wdata readNew).mem a) = f (s.mem a) := by
  simp only [next]
  cases wen
  case false => rfl
  case true =>
    by_cases ha : a = waddr
    · simp [ha, h]
    · simp [ha]

end SDPRAM

namespace ICache

theorem Way.cases (w : Way) : w = 0 ∨ w = 1 := by
  match w with
  | 0 => exact .inl rfl
  | 1 => exact .inr rfl

def wordAddr (addr : Word) : BitVec 30 := addr.extractLsb 31 2

def asked (r : SRAMLikeReq) : List (BitVec 30) :=
  (List.range (r.len.toNat + 1)).map fun k => wordAddr r.addr + BitVec.ofNat 30 k

def blockWord (addr : Word) (k : WordOffset) : BitVec 30 := tag addr ++ index addr ++ k

def blockWords (addr : Word) (lo hi : Nat) : List (BitVec 30) :=
  (List.range' lo (hi - lo)).map fun k => blockWord addr (BitVec.ofNat 2 k)

theorem blockWords_self (addr : Word) (n : Nat) : blockWords addr n n = [] := by
  simp [blockWords]

theorem blockWords_cons (addr : Word) {lo hi : Nat} (h : lo < hi) :
    blockWords addr lo hi = blockWord addr (BitVec.ofNat 2 lo) :: blockWords addr (lo + 1) hi := by
  rw [blockWords, show hi - lo = (hi - (lo + 1)) + 1 by omega, List.range'_succ]
  rfl

theorem blockWords_concat (addr : Word) {lo hi : Nat} (h : lo ≤ hi) :
    blockWords addr lo (hi + 1) =
      blockWords addr lo hi ++ [blockWord addr (BitVec.ofNat 2 hi)] := by
  rw [blockWords, show hi + 1 - lo = (hi - lo) + 1 by omega, List.range'_concat]
  simp [blockWords, show lo + (hi - lo) = hi by omega]

theorem toNat_append {m n : Nat} (x : BitVec m) (y : BitVec n) :
    (x ++ y).toNat = x.toNat * 2 ^ n + y.toNat := by
  rw [BitVec.toNat_append, ← Nat.shiftLeft_add_eq_or_of_lt y.isLt, Nat.shiftLeft_eq]

theorem toNat_blockWord (addr : Word) (k : WordOffset) :
    (blockWord addr k).toNat = addr.toNat / 16 * 4 + k.toNat := by
  simp only [blockWord, toNat_append, tag, index, BitVec.extractLsb_toNat,
    Nat.shiftRight_eq_div_pow]
  omega

theorem wordAddr_eq (addr : Word) : wordAddr addr = blockWord addr (wordOffset addr) := by
  apply BitVec.eq_of_toNat_eq
  simp only [toNat_blockWord, wordAddr, wordOffset, BitVec.extractLsb_toNat,
    Nat.shiftRight_eq_div_pow]
  omega

theorem wordAddr_word (s : Regs) (k : WordOffset) :
    wordAddr (blockAddr s + (k ++ 0#2).setWidth 32) = blockWord s.req.addr k := by
  apply BitVec.eq_of_toNat_eq
  have hk := k.isLt
  simp only [toNat_blockWord, wordAddr, blockAddr, BitVec.extractLsb_toNat, toNat_append,
    Nat.shiftRight_eq_div_pow, BitVec.toNat_add, BitVec.toNat_setWidth, BitVec.toNat_ofNat]
  omega

theorem asked_word (s : Regs) (k : WordOffset) {r : SRAMLikeReq} (hlen : r.len = 0)
    (haddr : r.addr = blockAddr s + (k ++ 0#2).setWidth 32) :
    asked r = blockWords s.req.addr k.toNat (k.toNat + 1) := by
  rw [blockWords_cons _ (Nat.lt_succ_self _), blockWords_self, asked, hlen, haddr,
    wordAddr_word]
  simp

theorem asked_block (s : Regs) {r : SRAMLikeReq} (hlen : r.len = 3)
    (haddr : r.addr = blockAddr s) : asked r = blockWords s.req.addr 0 4 := by
  have hk (k : Nat) (hk : k < 4) : wordAddr (blockAddr s) + BitVec.ofNat 30 k =
      blockWord s.req.addr (BitVec.ofNat 2 k) := by
    apply BitVec.eq_of_toNat_eq
    simp only [toNat_blockWord, wordAddr, blockAddr, BitVec.extractLsb_toNat, toNat_append,
      Nat.shiftRight_eq_div_pow, BitVec.toNat_add, BitVec.toNat_ofNat]
    omega
  rw [asked, blockWords, hlen, haddr, List.range_eq_range']
  apply List.map_congr_left
  intro k hmem
  rw [List.mem_range'] at hmem
  exact hk k (by obtain ⟨i, hi, rfl⟩ := hmem; simp at hi ⊢; omega)

/-- The words that a line holds are such as `H` admits for the block that its tag names. -/
def LineOk (H : BitVec 30 → Word → Prop) (s : Regs) (i : Index) (w : Way) : Prop :=
  ∀ k, H ((s.infoRams.mem i).tags w ++ i ++ k) ((s.dataRams w).mem (i, k))

/-- The first `n` words of the block asked for are in the way to be replaced, such as `C`
admits. -/
structure Refilling (H C : BitVec 30 → Word → Prop) (s : Regs) (n : Nat) : Prop where
  reqValid : s.reqValid = true
  tags : s.infoRams.rdata.tags = (s.infoRams.mem (index s.req.addr)).tags
  others : ∀ i w, s.valids i w = true → (i, w) ≠ (index s.req.addr, s.replaceWay) →
    LineOk H s i w
  apart : Apart s
  absent : ∀ w, s.valids (index s.req.addr) w = true →
    (s.infoRams.mem (index s.req.addr)).tags w ≠ tag s.req.addr
  words : ∀ k : WordOffset, k.toNat < n →
    C (blockWord s.req.addr k) ((s.dataRams s.replaceWay).mem (index s.req.addr, k))
  inst : (wordOffset s.req.addr).toNat < n → C (wordAddr s.req.addr) s.inst2Fire

/-- What the cache shows of the lines in a lookup. The line that a request may hit is such as
`A` admits. -/
structure Lookup (A : BitVec 30 → Word → Prop) (s : Regs) : Prop where
  seen : ∀ w, s.valids (index s.req.addr) w = true → s.blockValids w = true
  tags : ∀ w, s.blockValids w = true →
    s.infoRams.rdata.tags = (s.infoRams.mem (index s.req.addr)).tags
  data : ∀ w, s.blockValids w = true → (s.dataRams w).rdata =
    (s.dataRams w).mem (index s.req.addr, wordOffset s.req.addr)
  apart : s.blockValids 0 = true → s.blockValids 1 = true →
    s.infoRams.rdata.tags 0 ≠ s.infoRams.rdata.tags 1
  line : s.reqValid = true → ∀ w, s.blockValids w = true → LineOk A s (index s.req.addr) w

/-- Where the cache stands, state by state of its machine, with the words that the memory owes
it. The valid lines are such as `H` admits, what has come in of a block such as `C` does, and
the response to the last request is to be such as `A` admits. -/
inductive Phase (H C A : BitVec 30 → Word → Prop) (s : Regs) (owed : List (BitVec 30)) : Prop
  | boot : s.state = .IDLE → s.reqValid = false → (∀ i w, s.valids i w = false) →
    s.reqCounter = 0 → s.respCounter = 0 → owed = [] → Phase H C A s owed
  | lookup : s.state = .IDLE → (∀ i w, s.valids i w = true → LineOk H s i w) → Apart s →
    Lookup A s → s.reqCounter = 0 → s.respCounter = 0 → owed = [] → Phase H C A s owed
  | reading : s.state = .READ → Refilling H C s s.respCounter.toNat →
    s.respCounter.toNat ≤ s.reqCounter.toNat →
    owed = blockWords s.req.addr s.respCounter.toNat s.reqCounter.toNat → Phase H C A s owed
  | committing : s.state = .COMMIT → Refilling H C s s.respCounter.toNat →
    owed = blockWords s.req.addr s.respCounter.toNat 4 → Phase H C A s owed
  | finished : s.state = .FINISH → s.reqValid = true →
    (∀ i w, s.valids i w = true → LineOk H s i w) → Apart s →
    A (wordAddr s.req.addr) s.inst2Fire → owed = [] → Phase H C A s owed

def owedNext (s : Regs) (io : Inputs) (owed : List (BitVec 30)) : List (BitVec 30) :=
  (if rFromMemFire io then owed.tail else owed) ++
    if arToMemFire s io then asked (arToMem s).bits else []

def Answers (C : BitVec 30 → Word → Prop) (owed : List (BitVec 30)) (io : Inputs) : Prop :=
  io.rFromMem.valid = true → ∃ a ∈ owed.head?, C a io.rFromMem.bits.rdata

variable {H C A H' C' A' : BitVec 30 → Word → Prop} {s : Regs} {io : Inputs}
  {owed : List (BitVec 30)}

theorem hit_of_ne (h : s.state ≠ .IDLE) : hit s = false := by simp [hit, h]

theorem rFromMemFire_eq : rFromMemFire io = io.rFromMem.valid := by
  cases h : io.rFromMem.valid <;> simp [rFromMemFire, rFromMemReady, h]

theorem rFromMemFire_of_owed_nil (hk : Answers C owed io) (h : owed = []) :
    rFromMemFire io = false := by
  rw [rFromMemFire_eq]
  cases hv : io.rFromMem.valid
  · rfl
  · obtain ⟨a, ha, -⟩ := hk hv
    simp [h] at ha

theorem rdata_of_owed (hk : Answers C owed io) (hr : rFromMemFire io = true) {lo hi : Nat}
    (h : owed = blockWords s.req.addr lo hi) (hlt : lo < hi) :
    C (blockWord s.req.addr (BitVec.ofNat 2 lo)) io.rFromMem.bits.rdata := by
  rw [rFromMemFire_eq] at hr
  obtain ⟨a, ha, hC⟩ := hk hr
  rw [h, blockWords_cons _ hlt, List.head?_cons, Option.mem_def, Option.some.injEq] at ha
  rwa [ha]

theorem hits_spec {w : Way} (h : hits s w = true) :
    s.blockValids w = true ∧ s.infoRams.rdata.tags w = tag s.req.addr := by
  simpa [hits] using h

theorem indexPreIF_eq : indexPreIF s io = index (next s io).req.addr := by
  cases h : arFromIFFire s io <;> simp [indexPreIF, next, h]

theorem wordOffsetPreIF_eq : wordOffsetPreIF s io = wordOffset (next s io).req.addr := by
  cases h : arFromIFFire s io <;> simp [wordOffsetPreIF, next, h]

theorem tags_next_of_idle (io : Inputs) (hst : s.state = .IDLE)
    (htags : hit s = true → s.infoRams.rdata.tags = (s.infoRams.mem (index s.req.addr)).tags)
    (i : Index) : ((next s io).infoRams.mem i).tags = (s.infoRams.mem i).tags := by
  have hcommit : commit s io = false := by simp [commit, hst]
  apply SDPRAM.map_mem_next ICacheInfo.tags
  simpa [newInfo, hst, hcommit] using htags

theorem lineOk_next_of_idle (hst : s.state = .IDLE)
    (htags : hit s = true → s.infoRams.rdata.tags = (s.infoRams.mem (index s.req.addr)).tags)
    {i : Index} {w : Way} (h : LineOk H s i w) : LineOk H (next s io) i w := by
  have hrefill : refill s io = false := by simp [refill, hst]
  intro k
  rw [tags_next_of_idle io hst htags]
  simpa [next, hrefill, SDPRAM.next_of_not_wen] using h k

theorem dataRams_next_of_not_refill (h : refill s io = false) (w : Way) :
    (next s io).dataRams w = ⟨(s.dataRams w).mem,
      (s.dataRams w).mem (index (next s io).req.addr, wordOffset (next s io).req.addr)⟩ := by
  rw [← indexPreIF_eq, ← wordOffsetPreIF_eq]
  simp [next, h, SDPRAM.next_of_not_wen]

theorem req_next_of_not_fire (h : arFromIFFire s io = false) : (next s io).req = s.req := by
  simp [next, h]

theorem reqValid_next_of_not_fire (ha : arFromIFFire s io = false)
    (hr : rToIFFire s io = false) : (next s io).reqValid = s.reqValid := by
  simp [next, ha, hr]

theorem valids_of_next_of_ne {i : Index} {w : Way}
    (hne : ¬(i = index s.req.addr ∧ w = s.replaceWay)) (h : (next s io).valids i w = true) :
    s.valids i w = true ∧ io.fencei = false := by
  have hsel : ¬(commit s io && i == index s.req.addr && w == s.replaceWay) = true := by
    simp only [Bool.and_eq_true, beq_iff_eq]
    exact fun hs => hne ⟨hs.1.2, hs.2⟩
  simp only [next] at h
  rw [if_neg hsel] at h
  split at h
  · simp at h
  · exact ⟨h, Bool.not_eq_true _ ▸ ‹_›⟩

theorem valids_of_next (hc : commit s io = false) {i : Index} {w : Way}
    (h : (next s io).valids i w = true) : s.valids i w = true ∧ io.fencei = false := by
  cases hf : io.fencei <;> simp [next, hc, hf] at h
  exact ⟨h, rfl⟩

theorem Apart.next (h : Apart s) (hc : commit s io = false)
    (htags : ∀ i, ((ICache.next s io).infoRams.mem i).tags = (s.infoRams.mem i).tags) :
    Apart (ICache.next s io) := by
  intro i h0 h1
  rw [htags]
  exact h i (valids_of_next hc h0).1 (valids_of_next hc h1).1

theorem miss_of_arToMemFire (hst : s.state = .IDLE) (h : arToMemFire s io = true) :
    s.reqValid = true ∧ hit s = false := by
  simp only [arToMemFire, arToMem, hst, Bool.and_eq_true] at h
  split at h
  case isTrue hm => simpa using hm
  case isFalse => simp at h

theorem tags_of_hit (hl : Lookup A s) (h : hit s = true) :
    s.infoRams.rdata.tags = (s.infoRams.mem (index s.req.addr)).tags := by
  simp only [hit, Bool.and_eq_true, Bool.or_eq_true] at h
  rcases h.2 with h | h
  · exact hl.tags 0 (hits_spec h).1
  · exact hl.tags 1 (hits_spec h).1

theorem lookup_next (hst : s.state = .IDLE)
    (hlines : ∀ i w, s.valids i w = true → LineOk A' s i w) (hapart : Apart s)
    (htags : hit s = true → s.infoRams.rdata.tags = (s.infoRams.mem (index s.req.addr)).tags) :
    Lookup A' (ICache.next s io) := by
  have hcommit : commit s io = false := by simp [commit, hst]
  have hrefill : refill s io = false := by simp [refill, hst]
  have hinfo : (hit s || commit s io) = true →
      (newInfo s).tags = (s.infoRams.mem (index s.req.addr)).tags := by
    simpa [newInfo, hst, hcommit] using htags
  have hshown : (ICache.next s io).infoRams.rdata.tags =
      (s.infoRams.mem (indexPreIF s io)).tags := SDPRAM.map_rdata_next ICacheInfo.tags _ hinfo
  refine ⟨fun w h => ?_, fun w _ => ?_, fun w _ => ?_, fun h0 h1 => ?_, fun _ w h => ?_⟩
  · rw [← indexPreIF_eq] at h
    exact (valids_of_next hcommit h).1
  · rw [← indexPreIF_eq, hshown, tags_next_of_idle io hst htags]
  · rw [dataRams_next_of_not_refill hrefill]
  · rw [hshown]
    exact hapart _ h0 h1
  · refine lineOk_next_of_idle hst htags ?_
    rw [← indexPreIF_eq]
    exact hlines _ w h

namespace Phase

theorem next_of_lookup (hst : s.state = .IDLE)
    (hlines : ∀ i w, s.valids i w = true → LineOk H s i w) (hapart : Apart s)
    (htags : hit s = true → s.infoRams.rdata.tags = (s.infoRams.mem (index s.req.addr)).tags)
    (hreq : s.reqCounter = 0) (hresp : s.respCounter = 0) (howed : owed = [])
    (hk : Answers C owed io)
    (hH : io.fencei = false → ∀ i w, s.valids i w = true → LineOk H s i w → LineOk H' s i w)
    (hA : ∀ i w, s.valids i w = true → LineOk A' s i w) (ha : arToMemFire s io = false) :
    Phase H' C' A' (ICache.next s io) (owedNext s io owed) := by
  have hcommit : commit s io = false := by simp [commit, hst]
  have hrefill : refill s io = false := by simp [refill, hst]
  refine .lookup (by simp [ICache.next, nextState, hst, ha]) (fun i w h => ?_)
    (hapart.next hcommit (tags_next_of_idle io hst htags)) (lookup_next hst hA hapart htags)
    (by simp [ICache.next, hst, ha, hreq])
    (by simp [ICache.next, hst, hrefill, hresp])
    (by simp [owedNext, ha, rFromMemFire_of_owed_nil hk howed, howed])
  obtain ⟨hv, hf⟩ := valids_of_next hcommit h
  exact lineOk_next_of_idle hst htags (hH hf i w hv (hlines i w hv))

theorem next_of_miss (hst : s.state = .IDLE) (hlen : s.req.len = 0)
    (hlines : ∀ i w, s.valids i w = true → LineOk H s i w) (hapart : Apart s)
    (hlook : Lookup A s) (hreq : s.reqCounter = 0) (hresp : s.respCounter = 0) (howed : owed = [])
    (hk : Answers C owed io)
    (hH : io.fencei = false → ∀ i w, s.valids i w = true → LineOk H s i w → LineOk H' s i w)
    (ha : arToMemFire s io = true) :
    Phase H' C' A' (ICache.next s io) (owedNext s io owed) := by
  obtain ⟨hvalid, hmiss⟩ := miss_of_arToMemFire hst ha
  have hcommit : commit s io = false := by simp [commit, hst]
  have hrefill : refill s io = false := by simp [refill, hst]
  have harf : arFromIFFire s io = false := by simp [arFromIFFire, arFromIFReady, hvalid, hmiss]
  have hrf : rToIFFire s io = false := by simp [rToIFFire, rToIF, hmiss, hst]
  have hreq' := req_next_of_not_fire harf
  have hresp' : (ICache.next s io).respCounter = 0 := by
    simp [ICache.next, hst, hrefill, hresp]
  have hinfo : (ICache.next s io).infoRams =
      ⟨s.infoRams.mem, s.infoRams.mem (indexPreIF s io)⟩ := by
    simp [ICache.next, hmiss, hcommit, SDPRAM.next_of_not_wen]
  have href : Refilling H' C' (ICache.next s io) 0 := by
    refine ⟨?_, ?_, ?_, hapart.next hcommit (by simp [hinfo]), ?_, ?_, ?_⟩
    · rw [reqValid_next_of_not_fire harf hrf, hvalid]
    · rw [hinfo, ← indexPreIF_eq]
    · intro i w h _
      obtain ⟨hv, hf⟩ := valids_of_next hcommit h
      exact lineOk_next_of_idle hst (by simp [hmiss]) (hH hf i w hv (hlines i w hv))
    · intro w h
      have hseen := hlook.seen w (by simpa [hreq'] using (valids_of_next hcommit h).1)
      rw [hinfo, hreq', ← hlook.tags w hseen]
      intro ht
      have hh : hits s w = true := by simp [hits, hseen, ht]
      have hno : hits s 0 = false ∧ hits s 1 = false := by simpa [hit, hst] using hmiss
      rcases Way.cases w with rfl | rfl <;> simp [hno] at hh
    · intro k hk
      exact absurd hk (Nat.not_lt_zero _)
    · intro hk
      exact absurd hk (Nat.not_lt_zero _)
  have howed' : owedNext s io owed = asked (arToMem s).bits := by
    simp [owedNext, ha, rFromMemFire_of_owed_nil hk howed, howed]
  cases hburst : burstable s
  case true =>
    refine .committing (by simp [ICache.next, nextState, hst, ha, hburst]) (by simpa [hresp']) ?_
    rw [howed', hreq', hresp']
    exact asked_block s (by simp [arToMem, hst, hvalid, hmiss, hburst])
      (by simp [arToMem, hst, hvalid, hmiss])
  case false =>
    have hreqc : (ICache.next s io).reqCounter = 1 := by simp [ICache.next, hst, ha, hreq]
    refine .reading (by simp [ICache.next, nextState, hst, ha, hburst]) (by simpa [hresp'])
      (by simp [hresp']) ?_
    rw [howed', hreq', hresp', hreqc]
    exact asked_word s 0 (by simp [arToMem, hst, hvalid, hmiss, hburst, hlen])
      (by simp [arToMem, hst, hvalid, hmiss])

end Phase

theorem quiet_of_refilling (io : Inputs) (hst : s.state = .READ ∨ s.state = .COMMIT)
    (hv : s.reqValid = true) : hit s = false ∧ arFromIFFire s io = false ∧
      rToIFFire s io = false ∧ (ICache.next s io).req = s.req ∧
      (ICache.next s io).reqValid = true ∧ (ICache.next s io).replaceWay = s.replaceWay := by
  have hne : s.state ≠ .IDLE ∧ s.state ≠ .FINISH := by rcases hst with h | h <;> simp [h]
  have hhit := hit_of_ne hne.1
  have harf : arFromIFFire s io = false := by simp [arFromIFFire, arFromIFReady, hne]
  have hrf : rToIFFire s io = false := by simp [rToIFFire, rToIF, hhit, hne.2]
  exact ⟨hhit, harf, hrf, req_next_of_not_fire harf,
    by rw [reqValid_next_of_not_fire harf hrf, hv], by simp [ICache.next, hne.1]⟩

theorem mem_dataRams_next {w : Way} {i : Index} {k : WordOffset} :
    ((ICache.next s io).dataRams w).mem (i, k) =
      if refill s io = true ∧ w = s.replaceWay ∧ i = index s.req.addr ∧ k = s.respCounter
      then io.rFromMem.bits.rdata else (s.dataRams w).mem (i, k) := by
  cases hr : refill s io
  case false => simp [ICache.next, hr, SDPRAM.next_of_not_wen]
  case true =>
    by_cases hw : w = s.replaceWay
    · simp [ICache.next, hr, hw, SDPRAM.mem_next, Function.update_apply]
    · have hne : (w == s.replaceWay) = false := by simpa using hw
      simp [ICache.next, hr, hw, hne, SDPRAM.next_of_not_wen]

theorem refill_eq (hst : s.state = .READ ∨ s.state = .COMMIT) :
    refill s io = rFromMemFire io := by
  rcases hst with h | h <;> simp [refill, h]

theorem toNat_add_one {k : WordOffset} (h : k.toNat < 3) : (k + 1).toNat = k.toNat + 1 := by
  rw [BitVec.toNat_add]
  simp
  omega

theorem respCounter_next (hst : s.state = .READ ∨ s.state = .COMMIT)
    (hlt : rFromMemFire io = true → s.respCounter.toNat < 3) :
    (ICache.next s io).respCounter.toNat =
      if rFromMemFire io then s.respCounter.toNat + 1 else s.respCounter.toNat := by
  have hne : s.state ≠ .FINISH := by rcases hst with h | h <;> simp [h]
  simp only [ICache.next, hne, if_false, refill_eq hst]
  split
  case isTrue h => exact toNat_add_one (hlt h)
  case isFalse => rfl

theorem reqCounter_next (hst : s.state = .READ) (ha : arToMemFire s io = true)
    (h3 : s.reqCounter ≠ 3#2) :
    (ICache.next s io).reqCounter.toNat = s.reqCounter.toNat + 1 := by
  have hne : s.reqCounter.toNat ≠ 3 := fun he => h3 (BitVec.eq_of_toNat_eq he)
  have hcount := s.reqCounter.isLt
  simp only [ICache.next, hst, ha, if_true]
  exact toNat_add_one (by omega)

theorem lt_of_reading (hk : Answers C owed io) (hr : rFromMemFire io = true)
    (howed : owed = blockWords s.req.addr s.respCounter.toNat s.reqCounter.toNat)
    (hle : s.respCounter.toNat ≤ s.reqCounter.toNat) :
    s.respCounter.toNat < s.reqCounter.toNat := by
  by_contra hge
  have heq : s.respCounter.toNat = s.reqCounter.toNat := by omega
  have hnil : owed = [] := by rw [howed, heq, blockWords_self]
  simp [rFromMemFire_of_owed_nil hk hnil] at hr

theorem lt_of_not_commit (hst : s.state = .COMMIT) (hc : commit s io = false)
    (hr : rFromMemFire io = true) : s.respCounter.toNat < 3 := by
  have hne : s.respCounter ≠ 3 := by simpa [commit, hst, hr] using hc
  have : s.respCounter.toNat ≠ 3 := fun he => hne (BitVec.eq_of_toNat_eq he)
  have := s.respCounter.isLt
  omega

theorem Refilling.imp {n : Nat} (h : Refilling H C s n)
    (hC : ∀ k w, C (blockWord s.req.addr k) w → C' (blockWord s.req.addr k) w) :
    Refilling H C' s n where
  reqValid := h.reqValid
  tags := h.tags
  others := h.others
  apart := h.apart
  absent := h.absent
  words k hk := hC k _ (h.words k hk)
  inst hk := by
    rw [wordAddr_eq]
    exact hC _ _ (wordAddr_eq _ ▸ h.inst hk)

theorem Refilling.words_next (h : Refilling H C s s.respCounter.toNat)
    (hst : s.state = .READ ∨ s.state = .COMMIT)
    (hdata : rFromMemFire io = true →
      C (blockWord s.req.addr s.respCounter) io.rFromMem.bits.rdata) {k : WordOffset}
    (hk : k.toNat <
      if rFromMemFire io then s.respCounter.toNat + 1 else s.respCounter.toNat) :
    C (blockWord s.req.addr k)
      (((ICache.next s io).dataRams s.replaceWay).mem (index s.req.addr, k)) := by
  rw [mem_dataRams_next, refill_eq hst]
  by_cases hlast : rFromMemFire io = true ∧ k = s.respCounter
  · rw [if_pos ⟨hlast.1, rfl, rfl, hlast.2⟩, hlast.2]
    exact hdata hlast.1
  · rw [if_neg (fun hp => hlast ⟨hp.1, hp.2.2.2⟩)]
    apply h.words
    have hne : rFromMemFire io = true → k.toNat ≠ s.respCounter.toNat :=
      fun hr he => hlast ⟨hr, BitVec.eq_of_toNat_eq he⟩
    split at hk
    · have := hne ‹_›
      omega
    · exact hk

theorem Refilling.inst_next (h : Refilling H C s s.respCounter.toNat)
    (hdata : rFromMemFire io = true →
      C (blockWord s.req.addr s.respCounter) io.rFromMem.bits.rdata)
    (hk : (wordOffset s.req.addr).toNat <
      if rFromMemFire io then s.respCounter.toNat + 1 else s.respCounter.toNat) :
    C (wordAddr s.req.addr) (ICache.next s io).inst2Fire := by
  by_cases hlast : s.respCounter = wordOffset s.req.addr ∧ rFromMemFire io = true
  · have hinst : (ICache.next s io).inst2Fire = io.rFromMem.bits.rdata := by
      simp [ICache.next, hlast]
    rw [hinst, wordAddr_eq, ← hlast.1]
    exact hdata hlast.2
  · have hinst : (ICache.next s io).inst2Fire = s.inst2Fire := by
      simp only [ICache.next, Bool.and_eq_true, beq_iff_eq, hlast, if_false]
    rw [hinst]
    apply h.inst
    have hne : rFromMemFire io = true → (wordOffset s.req.addr).toNat ≠ s.respCounter.toNat :=
      fun hr he => hlast ⟨(BitVec.eq_of_toNat_eq he).symm, hr⟩
    split at hk
    · have := hne ‹_›
      omega
    · exact hk

theorem Refilling.next (h : Refilling H C s s.respCounter.toNat)
    (hst : s.state = .READ ∨ s.state = .COMMIT) (hc : commit s io = false)
    (hlt : rFromMemFire io = true → s.respCounter.toNat < 3)
    (hH : io.fencei = false → ∀ i w, s.valids i w = true → LineOk H s i w → LineOk H' s i w)
    (hdata : rFromMemFire io = true →
      C (blockWord s.req.addr s.respCounter) io.rFromMem.bits.rdata) :
    Refilling H' C (ICache.next s io) (ICache.next s io).respCounter.toNat := by
  obtain ⟨hhit, harf, -, hreq, hv, hway⟩ := quiet_of_refilling io hst h.reqValid
  have hinfo : (ICache.next s io).infoRams =
      ⟨s.infoRams.mem, s.infoRams.mem (index s.req.addr)⟩ := by
    rw [← hreq, ← indexPreIF_eq]
    simp [ICache.next, hhit, hc, SDPRAM.next_of_not_wen]
  rw [respCounter_next hst hlt]
  refine ⟨hv, ?_, ?_, h.apart.next hc (by simp [hinfo]), ?_, ?_, ?_⟩
  · rw [hinfo, hreq]
  · intro i w hvalid hne k
    obtain ⟨hold, hf⟩ := valids_of_next hc hvalid
    rw [hreq, hway] at hne
    rw [hinfo, mem_dataRams_next, if_neg]
    · exact hH hf i w hold (h.others i w hold hne) k
    · rintro ⟨-, rfl, rfl, -⟩
      exact hne rfl
  · intro w hvalid
    rw [hreq] at hvalid
    rw [hinfo, hreq]
    exact h.absent w (valids_of_next hc hvalid).1
  · intro k hk
    rw [hreq, hway]
    exact h.words_next hst hdata hk
  · intro hk
    rw [hreq] at hk ⊢
    exact h.inst_next hdata hk

section Commit

variable (hst : s.state = .COMMIT) (hc : commit s io = true)
include hst hc

theorem last_of_commit : rFromMemFire io = true ∧ s.respCounter = 3 := by
  simpa [commit, hst] using hc

theorem lt_of_commit (k : WordOffset) : k.toNat <
    if rFromMemFire io then s.respCounter.toNat + 1 else s.respCounter.toNat := by
  obtain ⟨hr, hlast⟩ := last_of_commit hst hc
  rw [if_pos hr, hlast]
  exact k.isLt

theorem mem_infoRams_of_commit : (ICache.next s io).infoRams.mem =
    Function.update s.infoRams.mem (index s.req.addr) (newInfo s) := by
  simp [ICache.next, hit_of_ne (s := s) (by simp [hst]), hc, SDPRAM.mem_next]

theorem Refilling.apart_of_commit {n : Nat} (h : Refilling H C s n) :
    Apart (ICache.next s io) := by
  intro i h0 h1
  rw [mem_infoRams_of_commit hst hc]
  by_cases hi : i = index s.req.addr
  · have htags (w : Way) (hw : w ≠ s.replaceWay)
        (hvalid : (ICache.next s io).valids (index s.req.addr) w = true) :
        s.infoRams.rdata.tags w ≠ tag s.req.addr := by
      rw [h.tags]
      exact h.absent w (valids_of_next_of_ne (fun he => hw he.2) hvalid).1
    subst hi
    rw [Function.update_self]
    simp only [newInfo, hst]
    rcases Way.cases s.replaceWay with hr | hr
    · simpa [hr] using (htags 1 (by simp [hr]) h1).symm
    · simpa [hr] using htags 0 (by simp [hr]) h0
  · have hne : ¬(i = index s.req.addr ∧ (0 : Way) = s.replaceWay) := fun he => hi he.1
    have hne' : ¬(i = index s.req.addr ∧ (1 : Way) = s.replaceWay) := fun he => hi he.1
    rw [Function.update_of_ne hi]
    exact h.apart i (valids_of_next_of_ne hne h0).1 (valids_of_next_of_ne hne' h1).1

theorem Refilling.lineOk_of_commit (h : Refilling H C s s.respCounter.toNat)
    (hH : io.fencei = false → ∀ i w, s.valids i w = true → LineOk H s i w → LineOk H' s i w)
    (hdata : rFromMemFire io = true →
      C (blockWord s.req.addr s.respCounter) io.rFromMem.bits.rdata)
    (hCH : ∀ k w, C (blockWord s.req.addr k) w → H' (blockWord s.req.addr k) w) {i : Index}
    {w : Way} (hvalid : (ICache.next s io).valids i w = true) :
    LineOk H' (ICache.next s io) i w := by
  intro k
  rw [mem_infoRams_of_commit hst hc]
  by_cases hvictim : i = index s.req.addr ∧ w = s.replaceWay
  · obtain ⟨rfl, rfl⟩ := hvictim
    have htag : (newInfo s).tags s.replaceWay = tag s.req.addr := by simp [newInfo, hst]
    rw [Function.update_self, htag]
    exact hCH k _ (h.words_next (.inr hst) hdata (lt_of_commit hst hc k))
  · obtain ⟨hold, hf⟩ := valids_of_next_of_ne hvictim hvalid
    have hline := hH hf i w hold (h.others i w hold (fun he => hvictim (Prod.mk.inj he)))
    rw [mem_dataRams_next, if_neg (fun hp => hvictim ⟨hp.2.2.1, hp.2.1⟩)]
    by_cases hi : i = index s.req.addr
    · have hw : w ≠ s.replaceWay := fun hw => hvictim ⟨hi, hw⟩
      subst hi
      simpa [newInfo, hst, hw, h.tags] using hline k
    · simpa [hi] using hline k

end Commit

namespace Phase

theorem next_of_reading (hst : s.state = .READ) (h : Refilling H C s s.respCounter.toNat)
    (hlen : s.req.len = 0) (hle : s.respCounter.toNat ≤ s.reqCounter.toNat)
    (howed : owed = blockWords s.req.addr s.respCounter.toNat s.reqCounter.toNat)
    (hk : Answers C owed io)
    (hH : io.fencei = false → ∀ i w, s.valids i w = true → LineOk H s i w → LineOk H' s i w)
    (hC : ∀ k w, C (blockWord s.req.addr k) w → C' (blockWord s.req.addr k) w) :
    Phase H' C' A' (ICache.next s io) (owedNext s io owed) := by
  have hst' : s.state = .READ ∨ s.state = .COMMIT := .inl hst
  have hcommit : commit s io = false := by simp [commit, hst]
  have hcount := s.reqCounter.isLt
  have hlt' : rFromMemFire io = true → s.respCounter.toNat < s.reqCounter.toNat :=
    fun hr => lt_of_reading hk hr howed hle
  have hlt : rFromMemFire io = true → s.respCounter.toNat < 3 := fun hr => by
    have := hlt' hr
    omega
  have hdata : rFromMemFire io = true →
      C' (blockWord s.req.addr s.respCounter) io.rFromMem.bits.rdata := by
    intro hr
    exact hC _ _ (by simpa using rdata_of_owed hk hr howed (hlt' hr))
  obtain ⟨-, -, -, hreq, -, -⟩ := quiet_of_refilling io hst' h.reqValid
  have href := (h.imp hC).next hst' hcommit hlt hH hdata
  have hresp := respCounter_next hst' hlt
  have hleft : (if rFromMemFire io then owed.tail else owed) =
      blockWords s.req.addr (ICache.next s io).respCounter.toNat s.reqCounter.toNat := by
    rw [hresp, howed]
    split
    · rw [blockWords_cons _ (hlt' ‹_›), List.tail_cons]
    · rfl
  have hle' : (ICache.next s io).respCounter.toNat ≤ s.reqCounter.toNat := by
    rw [hresp]
    split
    · exact hlt' ‹_›
    · exact hle
  cases ha : arToMemFire s io
  case false =>
    have hreqc : (ICache.next s io).reqCounter = s.reqCounter := by
      simp [ICache.next, hst, ha]
    refine .reading (by simp [ICache.next, nextState, hst, ha]) href (by rwa [hreqc]) ?_
    rw [hreq, hreqc, ← hleft]
    simp [owedNext, ha]
  case true =>
    have hasked : asked (arToMem s).bits =
        blockWords s.req.addr s.reqCounter.toNat (s.reqCounter.toNat + 1) :=
      asked_word s s.reqCounter (by simp [arToMem, hst, hlen]) (by simp [arToMem, hst])
    have howed' : owedNext s io owed = blockWords s.req.addr
        (ICache.next s io).respCounter.toNat (s.reqCounter.toNat + 1) := by
      rw [blockWords_concat _ hle', ← hleft]
      rw [blockWords_cons _ (Nat.lt_succ_self _), blockWords_self] at hasked
      simp [owedNext, ha, hasked]
    by_cases h3 : s.reqCounter = 3#2
    · refine .committing (by simp [ICache.next, nextState, hst, ha, h3]) href ?_
      rw [hreq, howed', h3]
      rfl
    · have hreqc := reqCounter_next hst ha h3
      refine .reading (by simp [ICache.next, nextState, hst, ha, h3]) href
        (by rw [hreqc]; omega) ?_
      rw [hreq, hreqc, howed']

theorem next_of_committing (hst : s.state = .COMMIT)
    (h : Refilling H C s s.respCounter.toNat)
    (howed : owed = blockWords s.req.addr s.respCounter.toNat 4) (hk : Answers C owed io)
    (hH : io.fencei = false → ∀ i w, s.valids i w = true → LineOk H s i w → LineOk H' s i w)
    (hC : ∀ k w, C (blockWord s.req.addr k) w → C' (blockWord s.req.addr k) w)
    (hHA : ∀ k w, C' (blockWord s.req.addr k) w →
      H' (blockWord s.req.addr k) w ∧ A' (blockWord s.req.addr k) w) :
    Phase H' C' A' (ICache.next s io) (owedNext s io owed) := by
  have hst' : s.state = .READ ∨ s.state = .COMMIT := .inr hst
  have hcount := s.respCounter.isLt
  have hdata : rFromMemFire io = true →
      C' (blockWord s.req.addr s.respCounter) io.rFromMem.bits.rdata := by
    intro hr
    exact hC _ _ (by simpa using rdata_of_owed hk hr howed (by omega))
  obtain ⟨-, -, -, hreq, hv, -⟩ := quiet_of_refilling io hst' h.reqValid
  have hask : arToMemFire s io = false := by simp [arToMemFire, arToMem, hst]
  have hleft : owedNext s io owed =
      if rFromMemFire io then blockWords s.req.addr (s.respCounter.toNat + 1) 4 else owed := by
    simp only [owedNext, hask, howed, blockWords_cons _ hcount]
    split <;> simp
  cases hc : commit s io
  case false =>
    have hlt : rFromMemFire io = true → s.respCounter.toNat < 3 := lt_of_not_commit hst hc
    refine .committing (by simp [ICache.next, nextState, hst, hc])
      ((h.imp hC).next hst' hc hlt hH hdata) ?_
    rw [hreq, respCounter_next hst' hlt, hleft]
    split
    · rfl
    · exact howed
  case true =>
    obtain ⟨hr, hlast⟩ := last_of_commit hst hc
    refine .finished (by simp [ICache.next, nextState, hst, hc]) hv
      (fun i w => (h.imp hC).lineOk_of_commit hst hc hH hdata fun k w hk => (hHA k w hk).1)
      (h.apart_of_commit hst hc) ?_ ?_
    · have hinst := (h.imp hC).inst_next hdata (lt_of_commit hst hc _)
      rw [hreq, wordAddr_eq]
      exact (hHA _ _ (wordAddr_eq _ ▸ hinst)).2
    · rw [hleft, if_pos hr, hlast]
      exact blockWords_self _ 4

theorem next_of_finished (hst : s.state = .FINISH) (hv : s.reqValid = true)
    (hlines : ∀ i w, s.valids i w = true → LineOk H s i w) (hapart : Apart s)
    (hinst : A (wordAddr s.req.addr) s.inst2Fire) (howed : owed = [])
    (hk : Answers C owed io)
    (hH : io.fencei = false → ∀ i w, s.valids i w = true → LineOk H s i w → LineOk H' s i w)
    (hA : rToIFFire s io = false → A (wordAddr s.req.addr) s.inst2Fire →
      A' (wordAddr s.req.addr) s.inst2Fire) :
    Phase H' C' A' (ICache.next s io) (owedNext s io owed) := by
  have hhit : hit s = false := hit_of_ne (by simp [hst])
  have hcommit : commit s io = false := by simp [commit, hst]
  have hrefill : refill s io = false := by simp [refill, hst]
  have harf : arFromIFFire s io = false := by simp [arFromIFFire, arFromIFReady, hhit, hv]
  have hask : arToMemFire s io = false := by simp [arToMemFire, arToMem, hst]
  have hreq := req_next_of_not_fire harf
  have hr := rFromMemFire_of_owed_nil hk howed
  have hinfo : (ICache.next s io).infoRams =
      ⟨s.infoRams.mem, s.infoRams.mem (indexPreIF s io)⟩ := by
    simp [ICache.next, hhit, hcommit, SDPRAM.next_of_not_wen]
  have hline (i : Index) (w : Way) (h : (ICache.next s io).valids i w = true) :
      LineOk H' (ICache.next s io) i w := by
    obtain ⟨hv, hf⟩ := valids_of_next hcommit h
    intro k
    rw [hinfo, dataRams_next_of_not_refill hrefill]
    exact hH hf i w hv (hlines i w hv) k
  have howed' : owedNext s io owed = [] := by simp [owedNext, hask, hr, howed]
  cases hfire : rToIFFire s io
  case true =>
    refine .lookup (by simp [ICache.next, nextState, hst, hfire]) hline
      (hapart.next hcommit (by simp [hinfo]))
      ⟨fun w h => ?_, fun w _ => ?_, fun w _ => ?_, fun h0 h1 => ?_, fun hreqv => ?_⟩
      (by simp [ICache.next, hst]) (by simp [ICache.next, hst]) howed'
    · rw [← indexPreIF_eq] at h
      exact (valids_of_next hcommit h).1
    · rw [hinfo, ← indexPreIF_eq]
    · rw [dataRams_next_of_not_refill hrefill]
    · rw [hinfo]
      exact hapart _ h0 h1
    · simp [ICache.next, hfire, harf] at hreqv
  case false =>
    refine .finished (by simp [ICache.next, nextState, hst, hfire])
      (by rw [reqValid_next_of_not_fire harf hfire, hv]) hline
      (hapart.next hcommit (by simp [hinfo])) ?_ howed'
    have hsame : (ICache.next s io).inst2Fire = s.inst2Fire := by simp [ICache.next, hr]
    rw [hreq, hsame]
    exact hA hfire hinst

/-- A cycle in which other words come to be admitted. It asks something of the lines that stay,
of the block that comes in, of the lines that a lookup may show and of the response that
waits. -/
theorem next (h : Phase H C A s owed) (hlen : s.req.len = 0) (hk : Answers C owed io)
    (hH : io.fencei = false → ∀ i w, s.valids i w = true → LineOk H s i w → LineOk H' s i w)
    (hC : s.state = .READ ∨ s.state = .COMMIT →
      ∀ k w, C (blockWord s.req.addr k) w → C' (blockWord s.req.addr k) w)
    (hHA : s.state = .COMMIT → ∀ k w, C' (blockWord s.req.addr k) w →
      H' (blockWord s.req.addr k) w ∧ A' (blockWord s.req.addr k) w)
    (hline : s.state = .IDLE → ∀ i w, s.valids i w = true → LineOk A' s i w)
    (hA : s.state = .FINISH → rToIFFire s io = false → A (wordAddr s.req.addr) s.inst2Fire →
      A' (wordAddr s.req.addr) s.inst2Fire) :
    Phase H' C' A' (ICache.next s io) (owedNext s io owed) := by
  cases h with
  | boot hst hv hvalids hreq hresp howed =>
    have hmiss : arToMemFire s io = false := by
      cases ha : arToMemFire s io
      · rfl
      · simp [(miss_of_arToMemFire hst ha).1] at hv
    have hcommit : commit s io = false := by simp [commit, hst]
    have hb (w : Way) : (ICache.next s io).blockValids w = false := by
      simp [ICache.next, hvalids]
    refine .lookup (by simp [ICache.next, nextState, hst, hmiss])
      (fun i w h => absurd (valids_of_next hcommit h).1 (by simp [hvalids]))
      (fun i h => absurd (valids_of_next hcommit h).1 (by simp [hvalids]))
      ⟨fun w h => absurd (valids_of_next hcommit h).1 (by simp [hvalids]),
        fun w h => by simp [hb] at h, fun w h => by simp [hb] at h, fun h => by simp [hb] at h,
        fun _ w h => by simp [hb] at h⟩
      (by simp [ICache.next, hst, hmiss, hreq]) (by simp [ICache.next, refill, hst, hresp])
      (by simp [owedNext, hmiss, rFromMemFire_of_owed_nil hk howed, howed])
  | lookup hst hlines hapart hlook hreq hresp howed =>
    cases ha : arToMemFire s io
    · exact next_of_lookup hst hlines hapart (tags_of_hit hlook) hreq hresp howed hk hH
        (hline hst) ha
    · exact next_of_miss hst hlen hlines hapart hlook hreq hresp howed hk hH ha
  | reading hst href hle howed =>
    exact next_of_reading hst href hlen hle howed hk hH (hC (.inl hst))
  | committing hst href howed =>
    exact next_of_committing hst href howed hk hH (hC (.inr hst)) (hHA hst)
  | finished hst hv hlines hapart hinst howed =>
    exact next_of_finished hst hv hlines hapart hinst howed hk hH (hA hst)

theorem imp (h : Phase H C A s owed) (hC : s.state = .READ ∨ s.state = .COMMIT →
    ∀ k w, C (blockWord s.req.addr k) w → C' (blockWord s.req.addr k) w) :
    Phase H C' A s owed := by
  cases h with
  | boot hst hv hvalids hreq hresp howed => exact .boot hst hv hvalids hreq hresp howed
  | lookup hst hlines hapart hlook hreq hresp howed =>
    exact .lookup hst hlines hapart hlook hreq hresp howed
  | reading hst href hle howed => exact .reading hst (href.imp (hC (.inl hst))) hle howed
  | committing hst href howed => exact .committing hst (href.imp (hC (.inr hst))) howed
  | finished hst hv hlines hapart hinst howed => exact .finished hst hv hlines hapart hinst howed

theorem miss_next (h : Phase H C A s owed) (hst : s.state = .IDLE) (hv : s.reqValid = true)
    (hmiss : hit s = false) : hit (ICache.next s io) = false := by
  have hcommit : commit s io = false := by simp [commit, hst]
  have harf : arFromIFFire s io = false := by simp [arFromIFFire, arFromIFReady, hv, hmiss]
  have hreq := req_next_of_not_fire harf
  have hinfo : (ICache.next s io).infoRams.rdata = s.infoRams.mem (index s.req.addr) := by
    rw [← hreq, ← indexPreIF_eq]
    simp [ICache.next, hmiss, hcommit, SDPRAM.next_of_not_wen]
  have hhits (w : Way) (hw : hits s w = false) : hits (ICache.next s io) w = false := by
    cases h with
    | boot _ hreqv => simp [hreqv] at hv
    | lookup _ _ _ hlook =>
      cases hw' : hits (ICache.next s io) w
      · rfl
      · obtain ⟨hb, ht⟩ := hits_spec hw'
        have hb' : s.blockValids w = true := by
          apply hlook.seen
          rw [← hreq, ← indexPreIF_eq]
          exact hb
        rw [hinfo, hreq, ← hlook.tags w hb'] at ht
        simp [hits, hb', ht] at hw
    | reading hst' => simp [hst] at hst'
    | committing hst' => simp [hst] at hst'
    | finished hst' => simp [hst] at hst'
  have hno : hits s 0 = false ∧ hits s 1 = false := by simpa [hit, hst] using hmiss
  simp [hit, hhits 0 hno.1, hhits 1 hno.2]

theorem arToMem_next (h : Phase H C A s owed) (hv : (arToMem s).valid = true)
    (hwait : arToMemFire s io = false) : arToMem (ICache.next s io) = arToMem s := by
  cases hst : s.state
  case IDLE =>
    obtain ⟨hreqv, hmiss⟩ : s.reqValid = true ∧ hit s = false := by
      simp only [arToMem, hst] at hv
      split at hv
      case isTrue h => simpa using h
      case isFalse => simp at hv
    have harf : arFromIFFire s io = false := by simp [arFromIFFire, arFromIFReady, hreqv, hmiss]
    have hrf : rToIFFire s io = false := by simp [rToIFFire, rToIF, hst, hmiss]
    have hreq := req_next_of_not_fire harf
    have hst' : (ICache.next s io).state = .IDLE := by
      simp [ICache.next, nextState, hst, hwait]
    simp [arToMem, hst, hst', reqValid_next_of_not_fire harf hrf, hreqv, hmiss,
      h.miss_next hst hreqv hmiss, blockAddr, burstable, hreq]
  case READ =>
    have harf : arFromIFFire s io = false := by simp [arFromIFFire, arFromIFReady, hst]
    have hreq := req_next_of_not_fire harf
    have hst' : (ICache.next s io).state = .READ := by
      simp [ICache.next, nextState, hst, hwait]
    have hcount : (ICache.next s io).reqCounter = s.reqCounter := by
      simp [ICache.next, hst, hwait]
    simp [arToMem, hst, hst', hcount, blockAddr, hreq]
  case COMMIT => simp [arToMem, hst] at hv
  case FINISH => simp [arToMem, hst] at hv

theorem lines_of_idle (h : Phase H C A s owed) (hst : s.state = .IDLE) :
    ∀ i w, s.valids i w = true → LineOk H s i w := by
  cases h with
  | boot _ _ hvalids => exact fun i w hv => by simp [hvalids] at hv
  | lookup _ hlines => exact hlines
  | reading hst' => simp [hst] at hst'
  | committing hst' => simp [hst] at hst'
  | finished hst' => simp [hst] at hst'

theorem reqValid_of_finish (h : Phase H C A s owed) (hst : s.state = .FINISH) :
    s.reqValid = true := by
  cases h with
  | boot hst' => simp [hst] at hst'
  | lookup hst' => simp [hst] at hst'
  | reading hst' => simp [hst] at hst'
  | committing hst' => simp [hst] at hst'
  | finished _ hv => exact hv

theorem hitData_spec (hlook : Lookup A s) (hv : s.reqValid = true) (h : hit s = true) :
    A (wordAddr s.req.addr) (hitData s) := by
  have hword (w : Way) (hw : hits s w = true) :
      A (wordAddr s.req.addr) (s.dataRams w).rdata := by
    obtain ⟨hb, ht⟩ := hits_spec hw
    rw [hlook.data w hb, wordAddr_eq, blockWord, ← ht, hlook.tags w hb]
    exact hlook.line hv w hb _
  cases h0 : hits s 0
  case false =>
    have h1 : hits s 1 = true := by
      simp only [hit, h0, Bool.false_or, Bool.and_eq_true] at h
      exact h.2
    simpa [hitData, Mux1H, h0, h1] using hword 1 h1
  case true =>
    have h1 : hits s 1 = false := by
      by_contra h1
      obtain ⟨hb, ht⟩ := hits_spec h0
      obtain ⟨hb', ht'⟩ := hits_spec (Bool.not_eq_false _ ▸ h1)
      exact hlook.apart hb hb' (ht.trans ht'.symm)
    simpa [hitData, Mux1H, h0, h1] using hword 0 h0

theorem rToIF_spec (h : Phase H C A s owed) (hv : (rToIF s).valid = true) :
    s.reqValid = true ∧ A (wordAddr s.req.addr) (rToIF s).bits.rdata := by
  cases h with
  | boot hst hreq => simp [rToIF, hst, hreq] at hv
  | lookup hst _ _ hlook =>
    have hh : hit s = true ∧ s.reqValid = true := by simpa [rToIF, hst] using hv
    exact ⟨hh.2, by simpa [rToIF, hst] using hitData_spec hlook hh.2 hh.1⟩
  | reading hst => simp [rToIF, hst] at hv
  | committing hst => simp [rToIF, hst] at hv
  | finished hst hreq _ _ hinst => exact ⟨hreq, by simpa [rToIF, hst] using hinst⟩

end Phase

end ICache

end FpgaNpc
