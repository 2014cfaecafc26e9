import Mathlib.Tactic.IntervalCases
import FpgaNpc.Core.Codes
import FpgaNpc.Riscv.LoadStore
import FpgaNpc.Utils.RegMap

universe u

open FpgaNpc.Hardware FpgaNpc.ControlSignals FpgaNpc.InterStage FpgaNpc.Riscv

namespace FpgaNpc.MEM

structure IsStore (s : Regs) (w : Width) : Prop where
  idle : s.state = .IDLE
  wen : wen s = true
  ren : ren s = false
  mask : byteWise s = byteMask w
  align : align s = true
  issues : (isSC s && s.reservation != vaddr s) = false

structure IsLoad (s : Regs) (i : LoadInst) : Prop where
  wen : wen s = false
  ren : ren s = true
  mask : byteWise s = byteMask i.width
  signExt : (controlSignals s).signExt = i.signed
  align : align s = true
  fuTypeAMO : (controlSignals s).fuTypeAMO = false

section Alignment

variable {s : Regs} {w : Width} {a x : Word}

theorem toNat_low (a : Word) : (a.extractLsb 1 0).toNat = laneOf a := by
  rw [BitVec.extractLsb_toNat, Nat.shiftRight_zero]
  rfl

theorem aligned_of_align (hmask : byteWise s = byteMask w) (h : align s = true) :
    laneOf (vaddr s) % w.bytes = 0 ∧ laneOf (vaddr s) + w.bytes ≤ 4 := by
  have hmod : (vaddr s).toNat % w.bytes = 0 := by
    by_contra hne
    have hfalse := (align_iff (x := some ⟨.store, w⟩) hmask).2 ⟨_, rfl, hne⟩
    simp [h] at hfalse
  rw [laneOf]
  cases w <;> simp only [Width.bytes] at hmod ⊢ <;> omega

theorem sub_lt_iff {n : Nat} (h : laneOf a + n ≤ 4) : (x - a).toNat < n ↔
    wordOf x = wordOf a ∧ laneOf a ≤ laneOf x ∧ laneOf x - laneOf a < n := by
  have ha := a.isLt
  have hx := x.isLt
  rw [wordOf_eq_iff, BitVec.toNat_sub]
  simp only [laneOf] at h ⊢
  omega

theorem toNat_sub_of_lane (hw : wordOf x = wordOf a) (hl : laneOf a ≤ laneOf x) :
    (x - a).toNat = laneOf x - laneOf a := by
  have ha := a.isLt
  have hx := x.isLt
  rw [wordOf_eq_iff] at hw
  rw [BitVec.toNat_sub]
  simp only [laneOf] at hl ⊢
  omega

end Alignment

section Store

variable {s : Regs} {w : Width}

theorem getLsbD_byteMask (w : Width) {i : Nat} (hi : i < 4) :
    (byteMask w).getLsbD i = decide (i < w.bytes) := by
  revert i
  cases w <;> decide

theorem lane_memWdata (h : byteWise s = byteMask w) {i : Nat} (hi : i < 4) :
    lane i (memWdata s) = lane (i % w.bytes) (controlSignals s).memWriteData := by
  generalize hd : (controlSignals s).memWriteData = data
  apply BitVec.eq_of_getLsbD_eq
  intro j hj
  rw [getLsbD_lane, getLsbD_lane]
  cases w
  case byte =>
    have hdata : memWdata s = data.extractLsb 7 0 ++ data.extractLsb 7 0 ++ data.extractLsb 7 0 ++
        data.extractLsb 7 0 := by
      simp [memWdata, PriorityMux, h, byteMask, hd]
    rw [hdata]
    simp only [BitVec.getLsbD_append, BitVec.getLsbD_extractLsb, Width.bytes]
    interval_cases i <;> grind
  case half =>
    have hdata : memWdata s = data.extractLsb 15 0 ++ data.extractLsb 15 0 := by
      simp [memWdata, PriorityMux, h, byteMask, hd]
    rw [hdata]
    simp only [BitVec.getLsbD_append, BitVec.getLsbD_extractLsb, Width.bytes]
    interval_cases i <;> grind
  case word =>
    have hdata : memWdata s = data := by simp [memWdata, PriorityMux, h, byteMask, hd]
    rw [hdata, Width.bytes, Nat.mod_eq_of_lt hi]

theorem IsStore.access (h : IsStore s w) : access s = true := by simp [MEM.access, h.wen, h.align]

theorem IsStore.req (h : IsStore s w) : req s = ⟨true,
    { wr := true
      size := reqSize s
      addr := vaddr s
      wdata := memWdata s
      wstrb := byteMask w <<< laneOf (vaddr s)
      len := 0 }⟩ := by
  have hmask : (controlSignals s).memRawMask = byteMask w := h.mask
  rw [MEM.req, h.idle]
  simp only [h.access, if_true, h.issues, h.wen, h.ren, hmask, toNat_low]
  rfl

theorem IsStore.wstrb (h : IsStore s w) {i : Nat} (hi : i < 4) :
    (MEM.req s).bits.wstrb.getLsbD i = true ↔
      laneOf (vaddr s) ≤ i ∧ i - laneOf (vaddr s) < w.bytes := by
  rw [h.req, BitVec.getLsbD_shiftLeft, getLsbD_byteMask w (by omega)]
  simp [hi]

theorem IsStore.bytes {σ : Type u} (h : IsStore s w) (M : LaneMemory σ) (m : σ) :
    M.bytes (M.write m (wordOf (MEM.req s).bits.addr) (MEM.req s).bits.wdata
      (MEM.req s).bits.wstrb) =
      ByteMemory.store (M.bytes m) w (vaddr s) (controlSignals s).memWriteData := by
  obtain ⟨hmod, hle⟩ := aligned_of_align h.mask h.align
  funext x
  have hlane := laneOf_lt x
  rw [M.bytes_write, ByteMemory.store]
  refine if_ctx_congr ?_ (fun hin => ?_) fun _ => rfl
  · rw [h.wstrb hlane, sub_lt_iff hle, h.req]
  · rw [sub_lt_iff hle] at hin
    obtain ⟨hword, hfirst, hlast⟩ := hin
    rw [h.req, lane_memWdata h.mask hlane, toNat_sub_of_lane hword hfirst]
    congr 1
    have hdiv : laneOf x % w.bytes = (laneOf x - laneOf (vaddr s)) % w.bytes := by
      rw [← Nat.sub_add_cancel hfirst, Nat.add_mod, hmod, Nat.add_zero, Nat.mod_mod,
        Nat.sub_add_cancel hfirst]
    rw [hdiv, Nat.mod_eq_of_lt hlast]

end Store

section Load

variable {s : Regs} {io : Inputs} {i : LoadInst}

theorem fill_append (k : Nat) {n : Nat} (c : Bool) (x : BitVec n) :
    fill k (x.msb && c) ++ x = if c then x.signExtend (k + n) else x.setWidth (k + n) := by
  apply BitVec.eq_of_getLsbD_eq
  intro i hi
  rw [BitVec.getLsbD_append]
  cases c
  case false => grind [fill, BitVec.getLsbD_setWidth]
  case true =>
    rw [Bool.and_true, if_pos rfl, BitVec.getLsbD_signExtend]
    cases x.msb <;> grind [fill]

theorem IsLoad.regWdata_eq (h : IsLoad s i) : regWdata s io = memRes s io := by
  simp [regWdata, PriorityMux, h.fuTypeAMO, h.ren]

theorem lane_rdataShift (s : Regs) (io : Inputs) (k : Nat) :
    lane k (rdataShift s io) = lane (laneOf (vaddr s) + k) io.rResp.bits.rdata := by
  apply BitVec.eq_of_getLsbD_eq
  intro j hj
  rw [getLsbD_lane, getLsbD_lane, rdataShift, BitVec.getLsbD_ushiftRight, offset, toNat_low]
  congr 2
  omega

theorem memRes_eq (h : byteWise s = byteMask i.width) (hs : (controlSignals s).signExt = i.signed) :
    memRes s io = i.extend (rdataShift s io) := by
  generalize hx : rdataShift s io = x
  have hbyte : x.extractLsb 7 0 = x.setWidth 8 := by
    rw [BitVec.setWidth_eq_extractLsb' (by decide)]
    rfl
  have hhalf : x.extractLsb 15 0 = x.setWidth 16 := by
    rw [BitVec.setWidth_eq_extractLsb' (by decide)]
    rfl
  have hb : x.getLsbD 7 = (x.setWidth 8).msb := by simp [BitVec.msb_setWidth]
  have hh : x.getLsbD 15 = (x.setWidth 16).msb := by simp [BitVec.msb_setWidth]
  rw [memRes, h, hs, hx, hbyte, hhalf, hb, hh]
  cases i
  case LB => exact fill_append 24 true (x.setWidth 8)
  case LBU => exact fill_append 24 false (x.setWidth 8)
  case LH => exact fill_append 16 true (x.setWidth 16)
  case LHU => exact fill_append 16 false (x.setWidth 16)
  case LW => rfl

theorem IsLoad.regWdata {σ : Type u} (h : IsLoad s i) (M : LaneMemory σ) (m : σ)
    (hr : io.rResp.bits.rdata = M.word m (wordOf (vaddr s))) :
    regWdata s io = i.value (M.bytes m) (vaddr s) := by
  obtain ⟨-, hle⟩ := aligned_of_align h.mask h.align
  rw [h.regWdata_eq, memRes_eq h.mask h.signExt]
  symm
  apply LoadInst.value_of_lanes
  intro k hk
  rw [M.bytes_add m (by omega), lane_rdataShift, hr]

theorem IsLoad.req (h : IsLoad s i) (hidle : s.state = .IDLE) : (req s).valid = true ∧
    (req s).bits.wr = false ∧ (req s).bits.addr = vaddr s := by
  have haccess : access s = true := by simp [MEM.access, h.ren, h.align]
  rw [MEM.req, hidle]
  simp [haccess, isSC, h.fuTypeAMO, h.ren]

end Load

theorem lanes_exact {σ : Type u} (M : LaneMemory σ) (m : σ) {s : Regs} {w : Width}
    (h : IsStore s w) :
    let write := (req s).bits
    let m' := M.write m (wordOf write.addr) write.wdata write.wstrb
    (req s).valid = true ∧ write.wr = true ∧
      M.bytes m' = ByteMemory.store (M.bytes m) w (vaddr s) (controlSignals s).memWriteData ∧
      ∀ (later : Regs) (i : LoadInst), IsLoad later i → i.width = w → vaddr later = vaddr s →
        (later.state = .IDLE → (req later).valid = true ∧ (req later).bits.wr = false ∧
          (req later).bits.addr = vaddr s) ∧
        ∀ (n : σ) (io : Inputs), io.rResp.bits.rdata = M.word n (wordOf (vaddr s)) →
          (∀ k < w.bytes, M.bytes n (vaddr s + BitVec.ofNat 32 k) =
            M.bytes m' (vaddr s + BitVec.ofNat 32 k)) →
          regWdata later io = i.extend (controlSignals s).memWriteData := by
  have hbytes := h.bytes M m
  refine ⟨by rw [h.req], by rw [h.req], hbytes, fun later i hl hw ha => ?_⟩
  refine ⟨fun hidle => ha ▸ hl.req hidle, fun n io hr hsame => ?_⟩
  rw [hl.regWdata M n (by rw [hr, ha]), ha]
  apply LoadInst.value_of_lanes
  intro k hk
  rw [hw] at hk
  rw [hsame k hk, hbytes]
  exact ByteMemory.store_add _ _ _ _ hk

/-- A memory of words that are masked as the peripherals mask their registers. -/
def masked : LaneMemory (BitVec 30 → Word) where
  word m := m
  write m a data strb := Function.update m a (MaskData (m a) data (MaskExpand strb))
  lane_write m a data strb b i hi := by
    by_cases h : b = a
    · subst h
      rw [Function.update_self, lane_MaskData _ _ _ hi]
      simp
    · rw [Function.update_of_ne h, if_neg (fun hb => h hb.1)]

def accessing (memRead memWrite signExt : Bool) (mask : BitVec 4) (addr data : Word) : Regs :=
  { reset with
    fromEXE := { ExeMemBus.zero with
      nop := false
      controlSignals := { ExeMemSignalsBundle.zero with
        memRawMask := mask, signExt := signExt, regWriteData := addr, memWriteData := data,
        memRead := memRead, memWrite := memWrite } } }

/-- sb of 0x80 in the last lane, and lb of it -/
theorem lanes_exact_byte :
    regWdata (accessing true false true MemRead.B 0x80000003 0)
      ⟨true, ⟨true, ⟨0x80adbeef⟩⟩, ⟨false, ⟨false⟩⟩⟩ = 0xffffff80 := by
  have h := lanes_exact masked (fun _ => 0xdeadbeef)
    (s := accessing false true false MemWrite.B 0x80000003 0x12345680) (w := .byte)
    ⟨rfl, rfl, rfl, rfl, rfl, rfl⟩
  refine ((h.2.2.2 (accessing true false true MemRead.B 0x80000003 0) .LB
    ⟨rfl, rfl, rfl, rfl, rfl, rfl⟩ rfl rfl).2 _ _ ?_ fun _ _ => rfl).trans ?_ <;> decide +kernel

end FpgaNpc.MEM
