import FpgaNpc.Core.Execution
import FpgaNpc.Top.Fencei

open FpgaNpc.Hardware FpgaNpc.InterStage FpgaNpc.SRAMLike FpgaNpc.Riscv

namespace FpgaNpc

namespace Core

variable {B : Build} {prog : Word → Word} {s : Regs} {io : Inputs} {g : IF.Port} {pc : Word}

theorem ready_of_dead (ha : s.exeStage.fromID.nop = true)
    (hv : MEM.toWBValid s.memStage io.dbus = true) : (ifInputs B s io).toIDReady = true := by
  have hnop : EXE.nop s.exeStage (exeInputs B s io) = true := by simp [EXE.nop, ha]
  have hmem : toMEMFire B s io = true := by
    have hready : (exeInputs B s io).toMEMReady = true := hv
    simp [toMEMFire, EXE.toMEMFire, EXE.toMEMValid, EXE.jumpValid, EXE.jumpBusValid,
      EXE.mulOrDivValid, EXE.mulOrDivEnable, hnop, hready]
  have hst : ID.stall (idInputs B s io) = false := by
    by_contra hst
    obtain ⟨-, rs, -, hm⟩ := stall_spec (toWBFire_of_toMEMFire hmem) (Bool.not_eq_false _ ▸ hst)
    simp [BypassNetwork.matched, EXE.bypass, hnop] at hm
  have hready : (ifInputs B s io).toIDReady =
      (toEXEFire B s io && !ID.stall (idInputs B s io)) := rfl
  rw [hready, toEXEFire_eq, hmem, hst]
  rfl

theorem FrontInv.ready_of_booting (h : FrontInv B prog s g pc) (hi : Fetches B prog s io g)
    (h0 : g.handed = 0) (hfire : toIDFire B s io = true) (io' : Inputs) :
    (ifInputs B (next B s io) io').toIDReady = true := by
  have hfired : s.idStage.hasFired = true := by
    by_contra hn
    rw [h.waits_fresh hi h0 (Bool.not_eq_true _ ▸ hn)] at hfire
    cases hfire
  have hmem := (toIDFire_spec hfire).1
  have hfrom : (next B s io).memStage.fromEXE = toMEM B s io := by
    rw [next_fromEXE, hmem, if_pos rfl]
  refine ready_of_dead ?_ ?_
  · rw [next_fromID, hmem, if_pos rfl]
    simp [toEXE, ID.toEXE, ID.nop, hfired]
  · have hidle : (next B s io).memStage.state = .IDLE := MEM.nextState_of_fire hmem
    have hacc : MEM.access (next B s io).memStage = false := by
      cases ha : (toMEM B s io).nop
      case true => simp [MEM.access, MEM.ren, MEM.wen, hfrom, ha]
      case false =>
        have hexe : s.exeStage.fromID.nop = false := by
          have hnop : (s.exeStage.fromID.nop || _ || _ || _) = false := ha
          simp only [Bool.or_eq_false_iff] at hnop
          exact hnop.1.1.1
        have hcarries := ((h.booting h0).2.exe hexe).carries (exeInputs B s io)
        exact MEM.access_of_carries (e := .nothing) (hfrom ▸ hcarries) (hfrom ▸ ha) trivial
    simp [MEM.toWBValid, hidle, hacc]

end Core

theorem Hardware.FlowQueue.mem_next {α : Type*} {q : FlowQueue α} {b r : Bool} {a d : α}
    (h : d ∈ q.next b a r) : d ∈ q ∨ b = true ∧ a = d := by
  cases q <;> cases b <;> cases r <;> simp_all [FlowQueue.next]

namespace Top

open FpgaNpc.Core (World)
open Memory (Store)

section Definitions

variable (B : Core.Build) (code : BitVec 30 → Prop) (image : BitVec 30 → Word) (s : Regs)
  (io : Inputs) (g : World (BitVec 30 → Word))

def program (a : Word) : Word := image (wordOf a)

/-- What IF asks for is from a part of the memory that MEM does not store to. The arbiter forwards
the fetches that it grants, and the predictor keeps to its answer. What IF hands over at `PC_INIT`
has come, and a load that was predicted to be taken does not leave EXE while ID waits for what it
loads. -/
structure Paced : Prop where
  fetched : IF.arFire s.core.ifStage (coreInputs image s io).port = true →
    code (wordOf (IF.npc s.core.ifStage (ifInputs B image s io)))
  stored : ∀ u ∈ issues image s io, ¬code (wordOf u.addr)
  forwarded : ¬Arbiter.FetchesAwReqBusy s.arbiter (arbiterInputs B image s io)
  pred : ∀ p ∈ g.inst.pred,
    (io.branchPredResp.branchPred, io.branchPredResp.branchPredTarget) = p
  boot : g.inst.handed = 0 → io.branchPredResp.branchPred = false
  again : 2 ≤ g.inst.handed → s.core.ifStage.PC = B.config.PC_INIT →
    (ifInputs B image s io).toIDReady = true →
      IF.instValid s.core.ifStage (coreInputs image s io).port = true ∧
        IF.reqValid s.core.ifStage (coreInputs image s io).port = true
  load : Core.toMEMFire B s.core (coreInputs image s io) = true →
    s.core.exeStage.fromID.branchPred = true → (loadInst s.core.exeStage.fromID.inst).isSome →
      Core.toIDFire B s.core (coreInputs image s io) = true

instance [DecidablePred code] : Decidable (Paced B code image s io g) :=
  decidable_of_iff
    ((IF.arFire s.core.ifStage (coreInputs image s io).port = true →
        code (wordOf (IF.npc s.core.ifStage (ifInputs B image s io)))) ∧
      (∀ u ∈ issues image s io, ¬code (wordOf u.addr)) ∧
      ¬Arbiter.FetchesAwReqBusy s.arbiter (arbiterInputs B image s io) ∧
      (g.inst.pred.all fun p =>
        (io.branchPredResp.branchPred, io.branchPredResp.branchPredTarget) = p) ∧
      (g.inst.handed = 0 → io.branchPredResp.branchPred = false) ∧
      (2 ≤ g.inst.handed → s.core.ifStage.PC = B.config.PC_INIT →
        (ifInputs B image s io).toIDReady = true →
          IF.instValid s.core.ifStage (coreInputs image s io).port = true ∧
            IF.reqValid s.core.ifStage (coreInputs image s io).port = true) ∧
      (Core.toMEMFire B s.core (coreInputs image s io) = true →
        s.core.exeStage.fromID.branchPred = true →
          (loadInst s.core.exeStage.fromID.inst).isSome →
            Core.toIDFire B s.core (coreInputs image s io) = true))
    (by simp only [Option.all_eq_true, decide_eq_true_eq]
        exact ⟨fun ⟨hf, hs, ha, hp, hb, hg, hl⟩ => ⟨hf, hs, ha, hp, hb, hg, hl⟩,
          fun ⟨hf, hs, ha, hp, hb, hg, hl⟩ => ⟨hf, hs, ha, hp, hb, hg, hl⟩⟩)

def Copied (a : BitVec 30) (w : Word) : Prop := code a → w = image a

structure PortsInv (issued : List Store) (owed : Arbiter.Owed) : Prop where
  connected : BusInv s issued owed
  mem : g.mem = (Memory.medium image).after issued
  stores : ∀ u ∈ issued, ¬code (wordOf u.addr)
  cache : ICache.Phase (Copied code image) (Copied code image) (Copied code image) s.icache
    (icacheOwed s)
  len : s.icache.req.len = 0
  pending : g.inst.pending = if s.icache.reqValid then some s.icache.req.addr else none
  asked : ∀ a ∈ g.inst.pending, code (wordOf a)
  first : g.inst.handed = 1 → s.core.ifStage.reqFired = false ∧
    ∀ io, (Core.ifInputs B s.core io).toIDReady = true
  outstanding : g.data.outstanding = MEM.awaits s.core.memStage
  rHeld : g.data.rHeld = s.arbiter.rChannelDBusQueue
  wHeld : g.data.wHeld = s.arbiter.bChannelQueue.isSome
  copied : ∀ x ∈ s.memory.words, Copied code image x.1 x.2
  read : s.memory.id ≠ 0 → ∀ x ∈ s.memory.words, x.2 = g.mem x.1
  left : s.memory.id ≠ 0 → ∀ a ∈ Memory.owed s.memory, a = wordOf g.asked
  queued : ∀ d ∈ s.arbiter.rChannelDBusQueue, d = g.mem (wordOf g.asked)

/-- The system shows the state of the hart: its registers once WB has written, its memory once a
store has been answered, and its instruction as the next one to be passed on. No trap comes up. -/
structure Shows (h : Hart) : Prop where
  regs : ∀ r, (Core.written s.core).read r = h.regs r
  mem : ¬Core.Storing s.core → MEM.masked.bytes (Memory.look image s.memory) = h.mem
  passes : Core.toWBFire s.core (coreInputs image s io) = true →
    Core.WBReportable false (Core.toWB s.core (coreInputs image s io)) = true →
      (Core.toWB s.core (coreInputs image s io)).pc = h.pc ∧
        (Core.toWB s.core (coreInputs image s io)).inst = h.inst (program image)
  calm : Core.diverts s.core (coreInputs image s io) = false

end Definitions

variable {B : Core.Build} {code : BitVec 30 → Prop} {image : BitVec 30 → Word} {s : Regs}
  {io : Inputs} {g : World (BitVec 30 → Word)} {issued : List Store} {owed : Arbiter.Owed}

section Memory

theorem after_concat (us : List Store) (u : Store) (a : BitVec 30) :
    (Memory.medium image).after (us ++ [u]) a =
      if wordOf u.addr = a then MaskData ((Memory.medium image).after us a) u.data
        (MaskExpand u.strb) else (Memory.medium image).after us a := by
  rw [Medium.after, List.foldl_append]
  rfl

theorem after_of_code {us : List Store} (hus : ∀ u ∈ us, ¬code (wordOf u.addr)) {a : BitVec 30}
    (ha : code a) : (Memory.medium image).after us a = image a := by
  induction us using List.reverseRecOn with
  | nil => rfl
  | append_singleton us u ih =>
    have hu : wordOf u.addr ≠ a := fun he =>
      hus u (List.mem_append_right _ List.mem_cons_self) (he.symm ▸ ha)
    rw [after_concat, if_neg hu]
    exact ih fun v hv => hus v (List.mem_append_left _ hv)

theorem masked_write_eq (us : List Store) (u : Store) :
    MEM.masked.write ((Memory.medium image).after us) (wordOf u.addr) u.data u.strb =
      (Memory.medium image).after (us ++ [u]) := by
  funext a
  have hwrite : MEM.masked.write ((Memory.medium image).after us) (wordOf u.addr) u.data u.strb =
    Function.update ((Memory.medium image).after us) (wordOf u.addr) _ := rfl
  rw [hwrite, Function.update_apply, after_concat]
  by_cases h : a = wordOf u.addr
  · rw [if_pos h, if_pos h.symm, h]
  · rw [if_neg h, if_neg (Ne.symm h)]

end Memory

namespace PortsInv

section Serves

variable (h : PortsInv B code image s g issued owed)
include h

theorem issued_eq (hw : MEM.awaits s.core.memStage ≠ some true) : issued = s.memory.settled := by
  have hpending (hb : owed.bPending = true) : MEM.awaits s.core.memStage = some true :=
    h.connected.pending.symm.trans (h.connected.arbiter.bPending hb).1
  cases h.connected.writing with
  | free _ _ _ _ _ hi => exact hi
  | address _ _ _ _ _ _ _ hi => exact hi
  | data _ _ _ _ _ _ _ _ hi => exact hi
  | taken _ _ _ hb => exact absurd (hpending hb) hw
  | settled _ hb => exact absurd (hpending hb) hw

theorem look_eq (hw : MEM.awaits s.core.memStage ≠ some true) :
    Memory.look image s.memory = g.mem := by
  rw [h.mem, h.issued_eq hw]
  rfl

theorem look_of_code {a : BitVec 30} (ha : code a) : Memory.look image s.memory a = image a :=
  after_of_code (fun u hu => h.stores u (h.connected.writing.settled_prefix.subset hu)) ha

theorem copied_read (as : List (BitVec 30)) :
    ∀ x ∈ Memory.read image s.memory as, Copied code image x.1 x.2 := by
  intro x hx ha
  simp only [Memory.read, List.mem_map] at hx
  obtain ⟨a, -, rfl⟩ := hx
  exact h.look_of_code ha

theorem wordsNow_copied : ∀ x ∈ Memory.wordsNow image s.memory io.memory,
    Copied code image x.1 x.2 := by
  intro x hx
  rcases List.mem_append.1 hx with hx | hx
  · exact h.copied x hx
  · exact h.copied_read _ x hx

theorem mem_read (hw : MEM.awaits s.core.memStage ≠ some true) (as : List (BitVec 30)) :
    ∀ x ∈ Memory.read image s.memory as, x.2 = g.mem x.1 := by
  intro x hx
  simp only [Memory.read, List.mem_map] at hx
  obtain ⟨a, -, rfl⟩ := hx
  rw [← h.look_eq hw]

theorem wordsNow_mem (hw : MEM.awaits s.core.memStage ≠ some true) (hid : s.memory.id ≠ 0) :
    ∀ x ∈ Memory.wordsNow image s.memory io.memory, x.2 = g.mem x.1 := by
  intro x hx
  rcases List.mem_append.1 hx with hx | hx
  · exact h.read hid x hx
  · exact h.mem_read hw _ x hx

theorem rChannelDBus_spec (hw : MEM.awaits s.core.memStage ≠ some true)
    (hv : Arbiter.rChannelDBusValid (arbiterInputs B image s io) = true) :
    (Memory.r image s.memory io.memory).bits.data = g.mem (wordOf g.asked) := by
  have hv' : ((Memory.r image s.memory io.memory).bits.id == 1 &&
    (Memory.r image s.memory io.memory).valid) = true := hv
  rw [Bool.and_eq_true, beq_iff_eq] at hv'
  obtain ⟨a, rest, hwords, hid, -⟩ := Memory.r_spec hv'.2
  have hid' : s.memory.id ≠ 0 := by
    rw [← hid, hv'.1]
    decide
  have hnow : (a, (Memory.r image s.memory io.memory).bits.data) ∈
      Memory.wordsNow image s.memory io.memory := hwords ▸ List.mem_cons_self
  have hmem := h.wordsNow_mem hw hid' _ hnow
  have ha : a ∈ Memory.owed s.memory := by
    rw [Memory.owed_eq image s.memory io.memory, hwords]
    exact List.mem_cons_self
  rw [← h.left hid' a ha]
  exact hmem

theorem data_kept : g.data.Kept (dbus image s io) where
  read hv := h.outstanding.trans (h.connected.awaits_of_rResp hv)
  write hv := h.outstanding.trans (h.connected.awaits_of_wResp hv)
  rHeld d hd := by
    have hq : s.arbiter.rChannelDBusQueue = some d := h.rHeld.symm.trans hd
    simp [dbus, Arbiter.dbusRResp, hq, FlowQueue.deqValid, FlowQueue.deqBits]
  wHeld hv := by
    have hq : s.arbiter.bChannelQueue.isSome = true := h.wHeld.symm.trans hv
    simp [dbus, Arbiter.dbusWResp, hq, FlowQueue.deqValid]

theorem data_read (hv : (dbus image s io).rResp.valid = true) :
    (dbus image s io).rResp.bits.rdata = g.mem (wordOf g.asked) := by
  have hw : MEM.awaits s.core.memStage ≠ some true := by
    rw [h.connected.awaits_of_rResp hv]
    decide
  cases hq : s.arbiter.rChannelDBusQueue with
  | some d =>
    have hdata : (dbus image s io).rResp.bits.rdata = d := by
      simp [dbus, Arbiter.dbusRResp, hq, FlowQueue.deqBits]
    rw [hdata]
    exact h.queued d hq
  | none =>
    have hdata : (dbus image s io).rResp.bits.rdata =
        (Memory.r image s.memory io.memory).bits.data := by
      simp [dbus, Arbiter.dbusRResp, hq, FlowQueue.deqBits, requests]
    have hv' : Arbiter.rChannelDBusValid (requests image s io) = true := by
      simpa [dbus, Arbiter.dbusRResp, hq, FlowQueue.deqValid] using hv
    rw [hdata]
    exact h.rChannelDBus_spec hw hv'

theorem word (hv : (ICache.rToIF s.icache).valid = true) :
    ∃ a ∈ g.inst.pending, (ICache.rToIF s.icache).bits.rdata = program image a := by
  obtain ⟨hreq, hcopied⟩ := h.cache.rToIF_spec hv
  have hp : g.inst.pending = some s.icache.req.addr := by rw [h.pending, hreq, if_pos rfl]
  exact ⟨_, hp, hcopied (h.asked _ hp)⟩

theorem arReady (hv : s.icache.reqValid = false) : ICache.arFromIFReady s.icache = true := by
  have hst : s.icache.state = .IDLE := by
    cases h.cache with
    | boot hst => exact hst
    | lookup hst => exact hst
    | reading _ href => exact absurd (hv.symm.trans href.reqValid) Bool.false_ne_true
    | committing _ href => exact absurd (hv.symm.trans href.reqValid) Bool.false_ne_true
    | finished _ hreq => simp [hv] at hreq
  simp [ICache.arFromIFReady, hst, hv]

omit h in
theorem rToIF_of_ready (hreq : s.icache.reqValid = true)
    (hready : ICache.arFromIFReady s.icache = true) : (ICache.rToIF s.icache).valid = true := by
  simp only [ICache.arFromIFReady, hreq, Bool.true_and, Bool.not_true, Bool.or_false,
    Bool.and_eq_true, Bool.or_eq_true, beq_iff_eq] at hready
  obtain ⟨hst | hst, hhit⟩ := hready
  · simp [ICache.rToIF, hst, hhit, hreq]
  · simp [ICache.rToIF, hst]

theorem accepts {pc : Word} (hf : Core.FrontInv B (program image) s.core g.inst pc)
    (ha : IF.arFire s.core.ifStage (coreInputs image s io).port = true) :
    g.inst.pending = none ∨ IF.rFire s.core.ifStage (coreInputs image s io).port = true := by
  cases hp : g.inst.pending with
  | none => exact .inl rfl
  | some a =>
    have hreq : s.icache.reqValid = true := by
      by_contra hn
      simp [h.pending, hn] at hp
    obtain ⟨hnot, hready⟩ : s.core.ifStage.reqFired = false ∧
        ICache.arFromIFReady s.icache = true := by
      rw [IF.arFire, Bool.and_eq_true, Bool.not_eq_true'] at ha
      exact ha
    have hget : s.core.ifStage.instGetted = false := by
      cases hf.fetch with
      | boot _ _ _ _ hn => simp [hn] at hp
      | bootAsked _ _ hr => simp [hnot] at hr
      | bootGot _ _ hr => simp [hnot] at hr
      | first _ _ _ _ hn => simp [hn] at hp
      | firstAsked _ _ _ hr => simp [hnot] at hr
      | waiting _ _ _ hget => exact hget
      | got _ _ _ hn => simp [hn] at hp
      | ahead _ _ hr => simp [hnot] at hr
    have hv : (coreInputs image s io).port.r.valid = true := rToIF_of_ready hreq hready
    exact .inr (by simp [IF.rFire, IF.rReady, hv, hget])

theorem first_asks {pc : Word} (hf : Core.FrontInv B (program image) s.core g.inst pc)
    (h1 : g.inst.handed = 1) (io : Inputs) : (ICache.rToIF s.icache).valid = false ∧
      IF.reqValid s.core.ifStage (coreInputs image s io).port = true := by
  have hnot := (h.first h1).1
  have hreq : s.icache.reqValid = false := by
    have hp : g.inst.pending = none := by
      cases hf.fetch with
      | first _ _ _ _ hn => exact hn
      | firstAsked _ _ _ hr => simp [hnot] at hr
      | boot h0 | bootAsked h0 | bootGot h0 => omega
      | waiting _ h2 | got h2 | ahead _ h2 => omega
    by_contra hn
    simp [h.pending, hn] at hp
  refine ⟨?_, ?_⟩
  · by_contra hv
    have := (h.cache.rToIF_spec (Bool.not_eq_false _ ▸ hv)).1
    simp [hreq] at this
  · have hready : (coreInputs image s io).port.arReady = true := h.arReady hreq
    simp [IF.reqValid, IF.arFire, hnot, hready]

theorem serves {start hart ahead : Hart}
    (hi : Core.ExecInv B MEM.masked (program image) start s.core g hart ahead)
    (hok : Paced B code image s io g) :
    Core.Serves B MEM.masked (program image) s.core (coreInputs image s io) g where
  accepts := h.accepts hi.front
  word := h.word
  pred := hok.pred
  boot := hok.boot
  first h1 := by
    obtain ⟨hnone, hasks⟩ := h.first_asks hi.front h1 io
    exact ⟨hnone, fun _ => hasks⟩
  again := hok.again
  load := hok.load
  kept := h.data_kept
  read := h.data_read

end Serves

section Next

variable (h : PortsInv B code image s g issued owed)
include h

theorem awaits_of_id (hid : s.memory.id ≠ 0) (hne : Memory.owed s.memory ≠ []) :
    MEM.awaits s.core.memStage = some false := by
  by_contra hw
  have howed := h.connected.dbusOwed
  rw [if_neg hw, dbusOwed, dbusLeft, if_neg hid] at howed
  have hlen := List.length_pos_iff.2 hne
  omega

theorem not_queued (hw : MEM.awaits s.core.memStage ≠ some false) :
    s.arbiter.rChannelDBusQueue = none := by
  have howed := h.connected.dbusOwed
  rw [if_neg hw, dbusOwed] at howed
  rw [← Option.toList_eq_nil_iff, ← List.length_eq_zero_iff]
  omega

omit h in
theorem observe_mem : (World.observe B MEM.masked s.core (coreInputs image s io) g).mem =
    if MEM.reqFire s.core.memStage (dbus image s io) &&
        (MEM.req s.core.memStage).bits.wr then
      MEM.masked.write g.mem (wordOf (MEM.req s.core.memStage).bits.addr)
        (MEM.req s.core.memStage).bits.wdata (MEM.req s.core.memStage).bits.wstrb
    else g.mem := rfl

omit h in
theorem observe_mem_of_awaits {wr : Bool} (hw : MEM.awaits s.core.memStage = some wr) :
    (World.observe B MEM.masked s.core (coreInputs image s io) g).mem = g.mem ∧
      (World.observe B MEM.masked s.core (coreInputs image s io) g).asked = g.asked := by
  have hreq : MEM.reqFire s.core.memStage (coreInputs image s io).dbus = false := by
    simp [MEM.reqFire, MEM.req_of_awaits hw]
  simp [World.observe, hreq]

theorem mem_next : (World.observe B MEM.masked s.core (coreInputs image s io) g).mem =
    (Memory.medium image).after (issued ++ issues image s io) := by
  rw [observe_mem, issues, h.mem]
  cases MEM.reqFire s.core.memStage (dbus image s io) && (MEM.req s.core.memStage).bits.wr
  case false => rw [if_neg Bool.false_ne_true, if_neg Bool.false_ne_true, List.append_nil]
  case true =>
    rw [if_pos rfl, if_pos rfl]
    exact masked_write_eq issued ⟨_, _, _⟩

theorem stores_next (hok : Paced B code image s io g) :
    ∀ u ∈ issued ++ issues image s io, ¬code (wordOf u.addr) := by
  intro u hu
  exact (List.mem_append.1 hu).elim (h.stores u) (hok.stored u)

theorem cache_next (hok : Paced B code image s io g) :
    ICache.Phase (Copied code image) (Copied code image) (Copied code image)
      (next B image s io).icache (icacheOwed (next B image s io)) := by
  rw [h.connected.icacheOwed_next hok.forwarded]
  exact h.cache.next h.len (h.connected.answers fun _ => h.wordsNow_copied)
    (fun _ _ _ _ hline => hline) (fun _ _ _ hw => hw) (fun _ _ _ hw => ⟨hw, hw⟩)
    h.cache.lines_of_idle fun _ _ hw => hw

theorem len_next : (next B image s io).icache.req.len = 0 := by
  have hreq : (next B image s io).icache.req = RegEnable (icacheInputs B image s io).arFromIF.bits
    (ICache.arFromIFFire s.icache (icacheInputs B image s io)) s.icache.req := rfl
  rw [hreq]
  cases ICache.arFromIFFire s.icache (icacheInputs B image s io)
  case true => rfl
  case false => exact h.len

theorem pending_next : (World.observe B MEM.masked s.core (coreInputs image s io) g).inst.pending =
    if (next B image s io).icache.reqValid then some (next B image s io).icache.req.addr
    else none := by
  have hobserve : (World.observe B MEM.masked s.core (coreInputs image s io) g).inst.pending =
    if ICache.arFromIFFire s.icache (icacheInputs B image s io) then
      some (icacheInputs B image s io).arFromIF.bits.addr
    else if ICache.rToIFFire s.icache (icacheInputs B image s io) then none
    else g.inst.pending := rfl
  have hnext : (next B image s io).icache =
    ICache.next s.icache (icacheInputs B image s io) := rfl
  rw [hobserve, hnext, h.pending]
  cases ha : ICache.arFromIFFire s.icache (icacheInputs B image s io) <;>
    cases hr : ICache.rToIFFire s.icache (icacheInputs B image s io) <;>
    simp [ICache.next, ha, hr]

theorem asked_next (hok : Paced B code image s io g) :
    ∀ a ∈ (World.observe B MEM.masked s.core (coreInputs image s io) g).inst.pending,
      code (wordOf a) := by
  have hobserve : (World.observe B MEM.masked s.core (coreInputs image s io) g).inst.pending =
    if IF.arFire s.core.ifStage (coreInputs image s io).port then
      some (IF.npc s.core.ifStage (ifInputs B image s io))
    else if IF.rFire s.core.ifStage (coreInputs image s io).port then none
    else g.inst.pending := rfl
  intro a ha
  rw [hobserve] at ha
  split at ha
  case isTrue hfire =>
    obtain rfl := Option.mem_some.1 ha
    exact hok.fetched hfire
  case isFalse =>
    split at ha
    · cases ha
    · exact h.asked a ha

theorem outstanding_next :
    (World.observe B MEM.masked s.core (coreInputs image s io) g).data.outstanding =
      MEM.awaits (next B image s io).core.memStage := by
  have hnext : MEM.awaits (next B image s io).core.memStage = _ := MEM.awaits_next
  rw [hnext, ← h.outstanding]
  rfl

omit h in
theorem rHeld_next : (World.observe B MEM.masked s.core (coreInputs image s io) g).data.rHeld =
    (next B image s io).arbiter.rChannelDBusQueue := by
  have hobserve : (World.observe B MEM.masked s.core (coreInputs image s io) g).data.rHeld =
    if s.arbiter.rChannelDBusQueue.deqValid (Arbiter.rChannelDBusValid (requests image s io)) &&
        !(s.arbiter.rChannelDBusQueue.deqValid (Arbiter.rChannelDBusValid (requests image s io)) &&
          (arbiterInputs B image s io).dbusRRespReady) then
      some (s.arbiter.rChannelDBusQueue.deqBits (requests image s io).r.bits.data)
    else none := rfl
  have hnext : (next B image s io).arbiter.rChannelDBusQueue =
    s.arbiter.rChannelDBusQueue.next (Arbiter.rChannelDBusValid (requests image s io))
      (requests image s io).r.bits.data (arbiterInputs B image s io).dbusRRespReady := rfl
  rw [hobserve, hnext]
  cases s.arbiter.rChannelDBusQueue <;>
    cases Arbiter.rChannelDBusValid (requests image s io) <;>
    cases (arbiterInputs B image s io).dbusRRespReady <;>
    simp [FlowQueue.next, FlowQueue.deqValid, FlowQueue.deqBits]

omit h in
theorem wHeld_next : (World.observe B MEM.masked s.core (coreInputs image s io) g).data.wHeld =
    (next B image s io).arbiter.bChannelQueue.isSome := by
  have hobserve : (World.observe B MEM.masked s.core (coreInputs image s io) g).data.wHeld =
    (s.arbiter.bChannelQueue.deqValid (requests image s io).b.valid &&
      !(s.arbiter.bChannelQueue.deqValid (requests image s io).b.valid &&
        (arbiterInputs B image s io).dbusWRespReady)) := rfl
  have hnext : (next B image s io).arbiter.bChannelQueue =
    s.arbiter.bChannelQueue.next (requests image s io).b.valid (requests image s io).b.bits
      (arbiterInputs B image s io).dbusWRespReady := rfl
  rw [hobserve, hnext]
  cases s.arbiter.bChannelQueue <;> cases (requests image s io).b.valid <;>
    cases (arbiterInputs B image s io).dbusWRespReady <;>
    simp [FlowQueue.next, FlowQueue.deqValid]

omit h in
theorem mem_words_next {x : BitVec 30 × Word} (hx : x ∈ (next B image s io).memory.words) :
    x ∈ Memory.wordsNow image s.memory io.memory ∨
      x ∈ Memory.read image s.memory
        ((Memory.newLeft io.memory (bus B image s io)).take io.memory.reads) := by
  have hwords : (next B image s io).memory.words =
    (if Memory.rFire image s.memory io.memory (bus B image s io) then
      (Memory.wordsNow image s.memory io.memory).tail
    else Memory.wordsNow image s.memory io.memory) ++
      Memory.read image s.memory
        ((Memory.newLeft io.memory (bus B image s io)).take io.memory.reads) := rfl
  rw [hwords, List.mem_append] at hx
  refine hx.imp_left fun hx => ?_
  split at hx
  · exact List.mem_of_mem_tail hx
  · exact hx

theorem copied_next : ∀ x ∈ (next B image s io).memory.words, Copied code image x.1 x.2 := by
  intro x hx
  rcases mem_words_next hx with hx | hx
  · exact h.wordsNow_copied x hx
  · exact h.copied_read _ x hx

theorem reads_of_arFire (hok : Paced B code image s io g)
    (ha : Arbiter.arFire s.arbiter (arbiterInputs B image s io) = true)
    (hid : (next B image s io).memory.id ≠ 0) :
    Memory.newLeft io.memory (bus B image s io) =
        [wordOf (World.observe B MEM.masked s.core (coreInputs image s io) g).asked] ∧
      (World.observe B MEM.masked s.core (coreInputs image s io) g).mem = g.mem ∧
        MEM.awaits s.core.memStage = none := by
  have hd : Arbiter.servesDBus s.arbiter (arbiterInputs B image s io) = true := by
    by_contra hd
    rw [next_id, ha, if_pos rfl, Arbiter.arBits_id, if_neg hd] at hid
    exact hid rfl
  have hforwarded :=
    (h.connected.arbiter.readsForwarded_iff (h.connected.kept B image io)).2 hok.forwarded
  have hf := hforwarded.dbus.2
    ⟨ha, by simp [Arbiter.arBits_id, hd], by simp [Arbiter.arBits_addr, hd]⟩
  simp only [Arbiter.dbusRead, Bool.and_eq_true, Bool.not_eq_true'] at hf
  have hwr : (MEM.req s.core.memStage).bits.wr = false := hf.1.2
  have hreq : MEM.reqFire s.core.memStage (coreInputs image s io).dbus = true := by
    have hfire : MEM.reqFire s.core.memStage (coreInputs image s io).dbus =
      ((MEM.req s.core.memStage).valid &&
        Arbiter.dbusReqReady s.arbiter (arbiterInputs B image s io)) := rfl
    have hv : (MEM.req s.core.memStage).valid = true := hf.1.1
    rw [hfire, hf.2, hv]
    rfl
  refine ⟨?_, ?_, (h.connected.awaits_of_arFire hok.forwarded ha hd).1⟩
  · have hasked : (World.observe B MEM.masked s.core (coreInputs image s io) g).asked =
        (MEM.req s.core.memStage).bits.addr := by
      simp [World.observe, hreq]
    rw [newLeft_of_fire ha, hasked, Memory.asked, Arbiter.arBits_len, Arbiter.arBits_addr, hd,
      if_pos rfl, if_pos rfl]
    simp [arbiterInputs, requests, ICache.wordAddr, wordOf, BitVec.extractLsb]
  · rw [observe_mem, hwr, Bool.and_false, if_neg Bool.false_ne_true]

theorem stays_of_id (ha : Arbiter.arFire s.arbiter (arbiterInputs B image s io) = false)
    (hid : (next B image s io).memory.id ≠ 0) (hne : Memory.owed s.memory ≠ []) :
    s.memory.id ≠ 0 ∧ MEM.awaits s.core.memStage = some false := by
  rw [next_id, ha, if_neg Bool.false_ne_true] at hid
  exact ⟨hid, h.awaits_of_id hid hne⟩

omit h in
theorem wordsNow_of_owed (hnil : Memory.owed s.memory = []) :
    Memory.wordsNow image s.memory io.memory = [] := by
  rw [Memory.owed_eq image s.memory io.memory, List.append_eq_nil_iff, List.map_eq_nil_iff] at hnil
  exact hnil.1

theorem read_next (hok : Paced B code image s io g) (hid : (next B image s io).memory.id ≠ 0) :
    ∀ x ∈ (next B image s io).memory.words,
      x.2 = (World.observe B MEM.masked s.core (coreInputs image s io) g).mem x.1 := by
  intro x hx
  cases ha : Arbiter.arFire s.arbiter (arbiterInputs B image s io)
  case true =>
    obtain ⟨-, hmem, hw⟩ := h.reads_of_arFire hok ha hid
    rw [hmem]
    rcases mem_words_next hx with hx | hx
    · rw [wordsNow_of_owed (h.connected.owed_of_arFire ha)] at hx
      cases hx
    · exact h.mem_read (by simp [hw]) _ x hx
  case false =>
    have hnow : x ∈ Memory.wordsNow image s.memory io.memory := by
      rcases mem_words_next hx with hx | hx
      · exact hx
      · simp [newLeft_of_not ha, Memory.read] at hx
    obtain ⟨hid', hw⟩ := h.stays_of_id ha hid fun hnil => by
      rw [wordsNow_of_owed hnil] at hnow
      cases hnow
    rw [(observe_mem_of_awaits hw).1]
    exact h.wordsNow_mem (by simp [hw]) hid' x hnow

theorem left_next (hok : Paced B code image s io g) (hid : (next B image s io).memory.id ≠ 0) :
    ∀ a ∈ Memory.owed (next B image s io).memory,
      a = wordOf (World.observe B MEM.masked s.core (coreInputs image s io) g).asked := by
  intro a hmem
  rw [h.connected.owed_next] at hmem
  cases ha : Arbiter.arFire s.arbiter (arbiterInputs B image s io)
  case true =>
    rw [h.connected.owed_of_arFire ha, (h.reads_of_arFire hok ha hid).1] at hmem
    simpa using hmem
  case false =>
    rw [newLeft_of_not ha, List.append_nil] at hmem
    have howed : a ∈ Memory.owed s.memory := by
      split at hmem
      · exact List.mem_of_mem_tail hmem
      · exact hmem
    obtain ⟨hid', hw⟩ := h.stays_of_id ha hid (List.ne_nil_of_mem howed)
    rw [(observe_mem_of_awaits hw).2]
    exact h.left hid' a howed

theorem queued_next : ∀ d ∈ (next B image s io).arbiter.rChannelDBusQueue,
    d = (World.observe B MEM.masked s.core (coreInputs image s io) g).mem
      (wordOf (World.observe B MEM.masked s.core (coreInputs image s io) g).asked) := by
  intro d hd
  have hnext : (next B image s io).arbiter.rChannelDBusQueue =
    s.arbiter.rChannelDBusQueue.next (Arbiter.rChannelDBusValid (arbiterInputs B image s io))
      (Memory.r image s.memory io.memory).bits.data
      (arbiterInputs B image s io).dbusRRespReady := rfl
  rw [hnext] at hd
  rcases FlowQueue.mem_next hd with hq | ⟨hv, rfl⟩
  · have hw : MEM.awaits s.core.memStage = some false := by
      by_contra hw
      simp [h.not_queued hw] at hq
    rw [(observe_mem_of_awaits hw).1, (observe_mem_of_awaits hw).2]
    exact h.queued d hq
  · have hw : MEM.awaits s.core.memStage = some false := by
      have hv' : ((Memory.r image s.memory io.memory).bits.id == 1 &&
        (Memory.r image s.memory io.memory).valid) = true := hv
      rw [Bool.and_eq_true, beq_iff_eq] at hv'
      obtain ⟨_, _, _, hid, -⟩ := Memory.r_spec hv'.2
      refine h.awaits_of_id ?_ fun hnil => ?_
      · rw [← hid, hv'.1]
        decide
      · simp [Memory.r_valid_of_owed hnil] at hv'
    rw [(observe_mem_of_awaits hw).1, (observe_mem_of_awaits hw).2]
    exact h.rChannelDBus_spec (by simp [hw]) hv

theorem first_of_boot {pc : Word} (hf : Core.FrontInv B (program image) s.core g.inst pc)
    (hs : Core.Fetches B (program image) s.core (coreInputs image s io) g.inst)
    (h1 : (World.observe B MEM.masked s.core (coreInputs image s io) g).inst.handed = 1) :
    (next B image s io).core.ifStage.reqFired = false ∧
      ∀ io', (Core.ifInputs B (next B image s io).core io').toIDReady = true := by
  have hobserve : (World.observe B MEM.masked s.core (coreInputs image s io) g).inst.handed =
    if Core.toIDFire B s.core (coreInputs image s io) then g.inst.handed + 1
    else g.inst.handed := rfl
  rw [hobserve] at h1
  cases hfire : Core.toIDFire B s.core (coreInputs image s io)
  case true =>
    rw [hfire, if_pos rfl] at h1
    refine ⟨?_, hf.ready_of_booting hs (by omega) hfire⟩
    have hnext : (next B image s io).core.ifStage = _ := IF.next_of_fire hfire
    rw [hnext]
  case false =>
    rw [hfire, if_neg Bool.false_ne_true] at h1
    have hpc : s.core.ifStage.PC = B.config.PC_INIT := by
      cases hf.fetch with
      | first _ hpc => exact hpc
      | firstAsked _ _ hpc => exact hpc
      | boot h0 | bootAsked h0 | bootGot h0 => omega
      | waiting _ h2 | got h2 | ahead _ h2 => omega
    have hready := (h.first h1).2 (coreInputs image s io)
    have hid : Core.toIDFire B s.core (coreInputs image s io) =
      (IF.toIDValid B.config s.core.ifStage (coreInputs image s io).port &&
        (Core.ifInputs B s.core (coreInputs image s io)).toIDReady) := rfl
    simp [hid, hready, IF.toIDValid, hpc] at hfire

theorem next {start hart ahead : Hart}
    (hi : Core.ExecInv B MEM.masked (program image) start s.core g hart ahead)
    (hok : Paced B code image s io g) :
    PortsInv B code image (Top.next B image s io)
      (World.observe B MEM.masked s.core (coreInputs image s io) g) (issued ++ issues image s io)
      (owed.observe s.arbiter (arbiterInputs B image s io)) where
  connected := h.connected.next h.cache hok.forwarded
  mem := h.mem_next
  stores := h.stores_next hok
  cache := h.cache_next hok
  len := h.len_next
  pending := h.pending_next
  asked := h.asked_next hok
  first := h.first_of_boot hi.front (h.serves hi hok).toFetches
  outstanding := h.outstanding_next
  rHeld := rHeld_next
  wHeld := wHeld_next
  copied := h.copied_next
  read := h.read_next hok
  left := h.left_next hok
  queued := h.queued_next

end Next

theorem reset (hs : IsReset B s) : PortsInv B code image s (.idle image) [] .nothing where
  connected := .reset hs.core.memStage hs.arbiter hs.memory
  mem := rfl
  stores u hu := by cases hu
  cache := by
    have howed : icacheOwed s = [] := by
      rw [icacheOwed, hs.memory]
      rfl
    exact .boot hs.icache.state hs.icache.reqValid hs.icache.valids hs.icache.reqCounter
      hs.icache.respCounter howed
  len := by rw [hs.icache.req]; rfl
  pending := by rw [hs.icache.reqValid]; rfl
  asked a ha := by cases ha
  first h1 := by cases h1
  outstanding := by rw [hs.core.memStage]; rfl
  rHeld := by rw [hs.arbiter]; rfl
  wHeld := by rw [hs.arbiter]; rfl
  copied x hx := by rw [hs.memory] at hx; cases hx
  read _ x hx := by rw [hs.memory] at hx; cases hx
  left hid := by rw [hs.memory] at hid; exact absurd rfl hid
  queued d hd := by rw [hs.arbiter] at hd; cases hd

end PortsInv

section Runs

variable {start hart ahead : Hart}

end Runs

end Top

end FpgaNpc
