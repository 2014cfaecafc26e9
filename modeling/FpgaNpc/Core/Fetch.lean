import FpgaNpc.Core.IF

open FpgaNpc.Hardware FpgaNpc.SRAMLike FpgaNpc.InterStage

namespace FpgaNpc.IF

structure Port where
  pending : Option Word
  /-- The address of the request whose response `instReg` holds, and that response. -/
  latched : Option (Word × Word)
  handed : Nat
  excepHeld : Option Word
  /-- The target of the jump raised in the last cycle, when ID took nothing in it. -/
  raised : Option Word
  answered : Bool
  pred : Option (Bool × Word)

def Port.idle : Port := ⟨none, none, 0, none, none, false, none⟩

def Port.observe (config : RVConfig) (s : Regs) (io : Inputs) (g : Port) : Port where
  pending := if arFire s io.toInstPort then some (npc s io)
    else if rFire s io.toInstPort then none else g.pending
  latched := if rFire s io.toInstPort then g.pending.map (·, io.r.bits.rdata) else g.latched
  handed := if toIDFire config s io then g.handed + 1 else g.handed
  excepHeld := if io.excepCMD.valid && !excepCMDReady config s io then some io.excepCMD.bits
    else none
  raised := if io.jumpBus.valid && !toIDFire config s io then
    some io.jumpBus.bits.jumpTarget else none
  answered := jumpBusReady config s io.toInstPort
  pred := if toIDFire config s io then none
    else some (io.branchPredResp.branchPred, io.branchPredResp.branchPredTarget)

def observed (config : RVConfig) : Machine (Regs × Port) Inputs :=
  (machine config).monitor .idle (Port.observe config)

/-- The port answers accepted requests only and has one at a time, redirects are held until
they are taken, and the prediction does not change while the stage waits. -/
structure Port.Kept (g : Port) (s : Regs) (io : Inputs) : Prop where
  accepts : io.arReady = true → g.pending = none ∨ rFire s io.toInstPort = true
  answers : io.r.valid = true → g.pending.isSome
  excep : ∀ t ∈ g.excepHeld, io.excepCMD = ⟨true, t⟩
  flush : io.excepCMD.valid = true → io.flush = true
  jump : ∀ t ∈ g.raised, g.answered = false →
    io.jumpBus = ⟨true, ⟨t⟩⟩ ∨ io.excepCMD.valid = true
  raise : io.jumpBus.valid = true → s.reqFired = true →
    g.raised = some io.jumpBus.bits.jumpTarget
  pred : ∀ p ∈ g.pred,
    (io.branchPredResp.branchPred, io.branchPredResp.branchPredTarget) = p

def source (s : Regs) (io : Inputs) (g : Port) : Option (Word × Word) :=
  if rFire s io.toInstPort then g.pending.map (·, io.r.bits.rdata) else g.latched

/-- What ID takes as an instruction is the response to a request for its pc. -/
def HandsFetched (config : RVConfig) (s : Regs) (io : Inputs) (g : Port) : Prop :=
  toIDFire config s io = true → (toID config s io).nop = false →
    source s io g = some ((toID config s io).pc, (toID config s io).inst)

/-- The cycles in which being at `PC_INIT` does not stand in for a word that has not come: the
boot goes there straight and gets on before the next word arrives, and a later visit waits
for its word. A jump is not given up once the word at its target is asked for. -/
structure WordArrived (config : RVConfig) (s : Regs) (io : Inputs) (g : Port) : Prop where
  boot : g.handed = 0 → npc s io = config.PC_INIT
  first : g.handed = 1 → io.r.valid = false ∧
    (io.toIDReady = true → reqValid s io.toInstPort = true)
  again : 2 ≤ g.handed → s.PC = config.PC_INIT → io.toIDReady = true →
    instValid s io.toInstPort = true ∧ reqValid s io.toInstPort = true
  jump : ∀ t ∈ g.raised, g.answered = true → s.reqFired = true →
    io.jumpBus = ⟨true, ⟨t⟩⟩ ∨ io.excepCMD.valid = true

def Promised (s : Regs) (g : Port) (q : Word) : Prop :=
  g.excepHeld.isSome ∨ g.raised = some q ∨
    (g.raised = none ∧ ∃ b t, g.pred = some (b, t) ∧ q = if b then t else s.PC + 4)

instance (g : Port) (s : Regs) (io : Inputs) : Decidable (g.Kept s io) :=
  decidable_of_iff ((io.arReady = true → g.pending = none ∨ rFire s io.toInstPort = true) ∧
      (io.r.valid = true → g.pending.isSome) ∧
      (g.excepHeld.all fun t => io.excepCMD = ⟨true, t⟩) ∧
      (io.excepCMD.valid = true → io.flush = true) ∧
      (g.raised.all fun t => g.answered = false →
        io.jumpBus = ⟨true, ⟨t⟩⟩ ∨ io.excepCMD.valid = true) ∧
      (io.jumpBus.valid = true → s.reqFired = true →
        g.raised = some io.jumpBus.bits.jumpTarget) ∧
      (g.pred.all fun p =>
        (io.branchPredResp.branchPred, io.branchPredResp.branchPredTarget) = p))
    (by simp only [Option.all_eq_true, decide_eq_true_eq]
        exact ⟨fun ⟨ha, hr, he, hf, hj, hq, hp⟩ => ⟨ha, hr, he, hf, hj, hq, hp⟩,
          fun ⟨ha, hr, he, hf, hj, hq, hp⟩ => ⟨ha, hr, he, hf, hj, hq, hp⟩⟩)

instance (config : RVConfig) (s : Regs) (io : Inputs) (g : Port) :
    Decidable (WordArrived config s io g) :=
  decidable_of_iff ((g.handed = 0 → npc s io = config.PC_INIT) ∧
      (g.handed = 1 → io.r.valid = false ∧
        (io.toIDReady = true → reqValid s io.toInstPort = true)) ∧
      (2 ≤ g.handed → s.PC = config.PC_INIT → io.toIDReady = true →
        instValid s io.toInstPort = true ∧ reqValid s io.toInstPort = true) ∧
      (g.raised.all fun t => g.answered = true → s.reqFired = true →
        io.jumpBus = ⟨true, ⟨t⟩⟩ ∨ io.excepCMD.valid = true))
    (by simp only [Option.all_eq_true, decide_eq_true_eq]
        exact ⟨fun ⟨hb, hf, ha, hj⟩ => ⟨hb, hf, ha, hj⟩, fun ⟨hb, hf, ha, hj⟩ => ⟨hb, hf, ha, hj⟩⟩)

/-- Where the stage stands between the word of its pc and the request for the next. A pending
exception leaves only instructions that are flushed. -/
inductive Phase (config : RVConfig) (s : Regs) (g : Port) : Prop
  | boot : g.handed = 0 → s.PC = config.PC_INIT - 4 → s.reqFired = false →
    s.instGetted = false → g.pending = none → Phase config s g
  | bootAsked : g.handed = 0 → s.PC = config.PC_INIT - 4 → s.reqFired = true →
    s.instGetted = false → g.pending = some config.PC_INIT → Phase config s g
  | bootGot : g.handed = 0 → s.PC = config.PC_INIT - 4 → s.reqFired = true →
    s.instGetted = true → g.pending = none →
    g.latched = some (config.PC_INIT, s.instReg) → Phase config s g
  | first : g.handed = 1 → s.PC = config.PC_INIT → s.reqFired = false →
    s.instGetted = false → g.pending = none →
    g.latched = some (config.PC_INIT, s.instReg) → Phase config s g
  | firstAsked (q : Word) : g.handed = 1 → s.PC = config.PC_INIT → s.reqFired = true →
    s.instGetted = false → g.pending = some q → Promised s g q →
    g.latched = some (config.PC_INIT, s.instReg) → Phase config s g
  | waiting (p : Word) : 2 ≤ g.handed → s.reqFired = false → s.instGetted = false →
    g.pending = some p → (g.excepHeld = none → p = s.PC) → Phase config s g
  | got : 2 ≤ g.handed → s.reqFired = false → s.instGetted = true → g.pending = none →
    (g.excepHeld = none → g.latched = some (s.PC, s.instReg)) → Phase config s g
  | ahead (q : Word) : 2 ≤ g.handed → s.reqFired = true → s.instGetted = true →
    g.pending = some q → Promised s g q →
    (g.excepHeld = none → g.latched = some (s.PC, s.instReg)) → Phase config s g

variable {config : RVConfig} {s : Regs} {io : Inputs} {g : Port}

theorem next_of_fire (h : toIDFire config s io = true) : next config s io =
    ⟨false, npc s io, false, if rFire s io.toInstPort then io.r.bits.rdata else s.instReg⟩ := by
  have hr : (rFire s io.toInstPort && !s.instGetted) = rFire s io.toInstPort := by
    cases hg : s.instGetted <;> simp [rFire, rReady, hg]
  simp [next, h, hr, RegEnable]

theorem next_of_wait (h : toIDFire config s io = false) : next config s io =
    ⟨arFire s io.toInstPort || s.reqFired, s.PC, rFire s io.toInstPort || s.instGetted,
      if rFire s io.toInstPort then io.r.bits.rdata else s.instReg⟩ := by
  have hr : (rFire s io.toInstPort && !s.instGetted) = rFire s io.toInstPort := by
    cases hg : s.instGetted <;> simp [rFire, rReady, hg]
  have ha : (arFire s io.toInstPort && !s.reqFired) = arFire s io.toInstPort := by
    cases hq : s.reqFired <;> simp [arFire, hq]
  simp only [next, h, hr, ha, RegEnable]
  cases arFire s io.toInstPort <;> cases rFire s io.toInstPort <;> simp

theorem rFire_eq : rFire s io.toInstPort = (io.r.valid && !s.instGetted) := by
  cases h : io.r.valid <;> simp [rFire, rReady, h]

theorem arFire_eq : arFire s io.toInstPort = (!s.reqFired && io.arReady) := rfl

theorem valid_of_fire (hc : WordArrived config s io g) (hh : g.handed ≠ 1)
    (h0 : g.handed = 0 → s.PC = config.PC_INIT - 4) (h : toIDFire config s io = true) :
    instValid s io.toInstPort = true ∧ reqValid s io.toInstPort = true := by
  simp only [toIDFire, toIDValid, Bool.and_eq_true, Bool.or_eq_true, beq_iff_eq] at h
  rcases h with ⟨h | hpc, hready⟩
  · exact h
  · by_cases hz : g.handed = 0
    · have := h0 hz
      rw [hpc] at this
      exact absurd this (by bv_omega)
    · exact hc.again (by omega) hpc hready

theorem npc_eq : npc s io = if io.excepCMD.valid then io.excepCMD.bits
    else if io.jumpBus.valid then io.jumpBus.bits.jumpTarget
    else if io.branchPredResp.branchPred then io.branchPredResp.branchPredTarget
    else s.PC + 4 := rfl

theorem excepHeld_observe (h : toIDFire config s io = false) :
    (g.observe config s io).excepHeld =
      if io.excepCMD.valid then some io.excepCMD.bits else none := by
  simp [Port.observe, excepCMDReady, h]

theorem promised_npc (h : toIDFire config s io = false) :
    Promised (next config s io) (g.observe config s io) (npc s io) := by
  rw [Promised, excepHeld_observe h, npc_eq]
  cases he : io.excepCMD.valid
  case true => exact .inl rfl
  case false =>
    cases hj : io.jumpBus.valid
    case true => exact .inr (.inl (by simp [Port.observe, hj, h]))
    case false =>
      exact .inr (.inr ⟨by simp [Port.observe, hj], io.branchPredResp.branchPred,
        io.branchPredResp.branchPredTarget, by simp [Port.observe, h],
        by simp [next_of_wait h]⟩)

theorem Promised.npc_eq {q : Word} (hp : Promised s g q) (hk : g.Kept s io)
    (hc : WordArrived config s io g) (hreq : s.reqFired = true) :
    io.excepCMD.valid = true ∨ npc s io = q := by
  rcases hp with hx | hr | ⟨hr, b, t, hpred, hq⟩
  · obtain ⟨t, ht⟩ := Option.isSome_iff_exists.1 hx
    exact .inl (by rw [hk.excep t ht])
  · have hj : io.jumpBus = ⟨true, ⟨q⟩⟩ ∨ io.excepCMD.valid = true := by
      cases ha : g.answered
      · exact hk.jump q hr ha
      · exact hc.jump q hr ha hreq
    rcases hj with hj | hx
    · cases hx : io.excepCMD.valid
      · exact .inr (by simp [IF.npc_eq, hx, hj])
      · exact .inl rfl
    · exact .inl hx
  · have hj : io.jumpBus.valid = false := by
      cases hj : io.jumpBus.valid
      · rfl
      · simp [hk.raise hj hreq] at hr
    have hb := hk.pred _ hpred
    simp only [Prod.mk.injEq] at hb
    cases hx : io.excepCMD.valid
    · exact .inr (by simp [IF.npc_eq, hx, hj, hb, hq])
    · exact .inl rfl

theorem Promised.wait {q : Word} (hp : Promised s g q) (hk : g.Kept s io)
    (hc : WordArrived config s io g) (hreq : s.reqFired = true)
    (h : toIDFire config s io = false) :
    Promised (next config s io) (g.observe config s io) q := by
  rcases hp.npc_eq hk hc hreq with hx | hq
  · exact .inl (by simp [excepHeld_observe h, hx])
  · rw [← hq]
    exact promised_npc h

namespace Phase

theorem handsFetched (hp : Phase config s g) (hk : g.Kept s io)
    (hc : WordArrived config s io g) : HandsFetched config s io g := by
  intro hfire hnop
  simp only [toID, Bool.or_eq_false_iff, beq_eq_false_iff_ne] at hnop
  have hx : g.excepHeld = none := by
    cases hx : g.excepHeld
    · rfl
    · have hv := hk.flush (by rw [hk.excep _ hx])
      simp [hnop.2] at hv
  cases hp with
  | boot _ hpc => exact absurd hpc hnop.1
  | bootAsked _ hpc => exact absurd hpc hnop.1
  | bootGot _ hpc => exact absurd hpc hnop.1
  | first hh hpc _ hget _ hl =>
    simp [source, rFire_eq, (hc.first hh).1, hl, toID, hpc]
  | firstAsked q hh hpc _ hget _ _ hl =>
    simp [source, rFire_eq, (hc.first hh).1, hl, toID, hpc]
  | waiting p hh hreq hget hpend hpc =>
    have hr : rFire s io.toInstPort = true := by
      simpa [instValid, hget] using (valid_of_fire hc (by omega) (by omega) hfire).1
    simp [source, hr, hpend, toID, hpc hx]
  | got _ _ hget _ hl => simp [source, rFire_eq, hget, hl hx, toID]
  | ahead q _ _ hget _ _ hl => simp [source, rFire_eq, hget, hl hx, toID]

theorem waiting_of_fire {q : Word} (hfire : toIDFire config s io = true)
    (hh : 1 ≤ g.handed) (hpend : (g.observe config s io).pending = some q)
    (hq : io.excepCMD.valid = true ∧ s.reqFired = true ∨ q = npc s io) :
    Phase config (next config s io) (g.observe config s io) := by
  refine .waiting q (by simp [Port.observe, hfire]; omega) (by simp [next_of_fire hfire])
    (by simp [next_of_fire hfire]) hpend ?_
  intro hx
  rcases hq with ⟨hv, hr⟩ | hq
  · simp [Port.observe, excepCMDReady, hfire, hv, hr] at hx
  · simp [next_of_fire hfire, hq]

theorem next_of_fire (hp : Phase config s g) (hk : g.Kept s io) (hc : WordArrived config s io g)
    (hfire : toIDFire config s io = true) :
    Phase config (IF.next config s io) (g.observe config s io) := by
  cases hp with
  | boot hh hpc hreq hget hpend =>
    have hv := (valid_of_fire hc (by omega) (fun _ => hpc) hfire).1
    have hans := hk.answers
    simp [instValid, rFire_eq, hget] at hv
    simp [hpend, hv] at hans
  | bootAsked hh hpc hreq hget hpend =>
    have hr : rFire s io.toInstPort = true := by
      simpa [instValid, hget] using (valid_of_fire hc (by omega) (fun _ => hpc) hfire).1
    exact .first (by simp [Port.observe, hfire, hh]) (by simp [IF.next_of_fire hfire, hc.boot hh])
      (by simp [IF.next_of_fire hfire]) (by simp [IF.next_of_fire hfire])
      (by simp [Port.observe, arFire_eq, hreq, hr])
      (by simp [Port.observe, hr, hpend, IF.next_of_fire hfire])
  | bootGot hh hpc hreq hget hpend hl =>
    have hr : rFire s io.toInstPort = false := by simp [rFire_eq, hget]
    exact .first (by simp [Port.observe, hfire, hh]) (by simp [IF.next_of_fire hfire, hc.boot hh])
      (by simp [IF.next_of_fire hfire]) (by simp [IF.next_of_fire hfire])
      (by simp [Port.observe, arFire_eq, hreq, hr, hpend])
      (by simp [Port.observe, hr, hl, IF.next_of_fire hfire])
  | first hh hpc hreq hget hpend hl =>
    have hready : io.toIDReady = true := by
      simp only [toIDFire, Bool.and_eq_true] at hfire
      exact hfire.2
    have ha : arFire s io.toInstPort = true := by
      simpa [reqValid, hreq] using (hc.first hh).2 hready
    exact waiting_of_fire hfire (by omega) (by simp [Port.observe, ha]) (.inr rfl)
  | firstAsked q hh hpc hreq hget hpend hprom hl =>
    have hr : rFire s io.toInstPort = false := by simp [rFire_eq, (hc.first hh).1]
    refine waiting_of_fire (q := q) hfire (by omega)
      (by simp [Port.observe, arFire_eq, hreq, hr, hpend]) ?_
    rcases hprom.npc_eq hk hc hreq with hx | hq
    · exact .inl ⟨hx, hreq⟩
    · exact .inr hq.symm
  | waiting p hh hreq hget hpend hpc =>
    have ha : arFire s io.toInstPort = true := by
      simpa [reqValid, hreq] using (valid_of_fire hc (by omega) (by omega) hfire).2
    exact waiting_of_fire hfire (by omega) (by simp [Port.observe, ha]) (.inr rfl)
  | got hh hreq hget hpend hl =>
    have ha : arFire s io.toInstPort = true := by
      simpa [reqValid, hreq] using (valid_of_fire hc (by omega) (by omega) hfire).2
    exact waiting_of_fire hfire (by omega) (by simp [Port.observe, ha]) (.inr rfl)
  | ahead q hh hreq hget hpend hprom hl =>
    refine waiting_of_fire (q := q) hfire (by omega)
      (by simp [Port.observe, arFire_eq, hreq, rFire_eq, hget, hpend]) ?_
    rcases hprom.npc_eq hk hc hreq with hx | hq
    · exact .inl ⟨hx, hreq⟩
    · exact .inr hq.symm

theorem congr {g' : Port} (hp : Phase config s g) (hhanded : g'.handed = g.handed)
    (hpending : g'.pending = g.pending) (hlatched : g'.latched = g.latched)
    (hexcep : g'.excepHeld = none → g.excepHeld = none)
    (hprom : ∀ q, s.reqFired = true → Promised s g q → Promised s g' q) :
    Phase config s g' := by
  cases hp with
  | boot hh hpc hreq hget hpend =>
    exact .boot (hhanded.trans hh) hpc hreq hget (hpending.trans hpend)
  | bootAsked hh hpc hreq hget hpend =>
    exact .bootAsked (hhanded.trans hh) hpc hreq hget (hpending.trans hpend)
  | bootGot hh hpc hreq hget hpend hl =>
    exact .bootGot (hhanded.trans hh) hpc hreq hget (hpending.trans hpend) (hlatched.trans hl)
  | first hh hpc hreq hget hpend hl =>
    exact .first (hhanded.trans hh) hpc hreq hget (hpending.trans hpend) (hlatched.trans hl)
  | firstAsked q hh hpc hreq hget hpend hq hl =>
    exact .firstAsked q (hhanded.trans hh) hpc hreq hget (hpending.trans hpend) (hprom q hreq hq)
      (hlatched.trans hl)
  | waiting p hh hreq hget hpend hpc =>
    exact .waiting p (hhanded ▸ hh) hreq hget (hpending.trans hpend) fun hx => hpc (hexcep hx)
  | got hh hreq hget hpend hl =>
    exact .got (hhanded ▸ hh) hreq hget (hpending.trans hpend) fun hx =>
      hlatched.trans (hl (hexcep hx))
  | ahead q hh hreq hget hpend hq hl =>
    exact .ahead q (hhanded ▸ hh) hreq hget (hpending.trans hpend) (hprom q hreq hq) fun hx =>
      hlatched.trans (hl (hexcep hx))

section Wait

variable (hp : Phase config s g) (hk : g.Kept s io) (hc : WordArrived config s io g)
  (hfire : toIDFire config s io = false)

include hfire

theorem handed_of_wait : (g.observe config s io).handed = g.handed := by
  simp [Port.observe, hfire]

theorem PC_of_wait : (IF.next config s io).PC = s.PC := by simp [IF.next_of_wait hfire]

include hk

theorem excepHeld_of_wait (hx : (g.observe config s io).excepHeld = none) :
    g.excepHeld = none := by
  rw [excepHeld_observe hfire] at hx
  cases hold : g.excepHeld
  · rfl
  · simp [hk.excep _ hold] at hx

include hp hc

theorem next_of_still (ha : arFire s io.toInstPort = false)
    (hr : rFire s io.toInstPort = false) :
    Phase config (IF.next config s io) (g.observe config s io) := by
  have hnext : IF.next config s io = s := by simp [IF.next_of_wait hfire, ha, hr]
  rw [hnext]
  refine hp.congr (handed_of_wait hfire) (by simp [Port.observe, ha, hr])
    (by simp [Port.observe, hr]) (excepHeld_of_wait hk hfire) fun q hreq hq => ?_
  have hwait := hq.wait hk hc hreq hfire
  rwa [hnext] at hwait

theorem next_of_ask (ha : arFire s io.toInstPort = true) (hr : rFire s io.toInstPort = false) :
    Phase config (IF.next config s io) (g.observe config s io) := by
  have hhanded := handed_of_wait (g := g) hfire
  have hpc' := PC_of_wait hfire
  have hreq' : (IF.next config s io).reqFired = true := by simp [IF.next_of_wait hfire, ha]
  have hget' : (IF.next config s io).instGetted = s.instGetted := by
    simp [IF.next_of_wait hfire, hr]
  have hinst : (IF.next config s io).instReg = s.instReg := by simp [IF.next_of_wait hfire, hr]
  have hpend' : (g.observe config s io).pending = some (npc s io) := by simp [Port.observe, ha]
  have hl' : (g.observe config s io).latched = g.latched := by simp [Port.observe, hr]
  obtain ⟨hnot, hready⟩ : s.reqFired = false ∧ io.arReady = true := by simpa [arFire_eq] using ha
  cases hp with
  | boot hh hpc hreq hget hpend =>
    exact .bootAsked (hhanded.trans hh) (hpc'.trans hpc) hreq' (hget'.trans hget)
      (by rw [hpend', hc.boot hh])
  | first hh hpc hreq hget hpend hl =>
    exact .firstAsked (npc s io) (hhanded.trans hh) (hpc'.trans hpc) hreq' (hget'.trans hget)
      hpend' (promised_npc hfire) (by rw [hl', hinst, hl])
  | waiting p hh hreq hget hpend hpc =>
    rcases hk.accepts hready with hn | hf
    · simp [hpend] at hn
    · simp [hr] at hf
  | got hh hreq hget hpend hl =>
    exact .ahead (npc s io) (hhanded ▸ hh) hreq' (hget'.trans hget) hpend' (promised_npc hfire)
      fun hx => by rw [hl', hinst, hpc', hl (excepHeld_of_wait hk hfire hx)]
  | bootAsked _ _ hreq => simp [hnot] at hreq
  | bootGot _ _ hreq => simp [hnot] at hreq
  | firstAsked _ _ _ hreq => simp [hnot] at hreq
  | ahead _ _ hreq => simp [hnot] at hreq

theorem next_of_word (hr : rFire s io.toInstPort = true) :
    Phase config (IF.next config s io) (g.observe config s io) := by
  have hhanded := handed_of_wait (g := g) hfire
  have hpc' := PC_of_wait hfire
  have hreq' : (IF.next config s io).reqFired = (arFire s io.toInstPort || s.reqFired) := by
    simp [IF.next_of_wait hfire]
  have hget' : (IF.next config s io).instGetted = true := by simp [IF.next_of_wait hfire, hr]
  obtain ⟨hv, hnot⟩ : io.r.valid = true ∧ s.instGetted = false := by simpa [rFire_eq] using hr
  cases hp with
  | boot hh hpc hreq hget hpend =>
    have hans := hk.answers hv
    simp [hpend] at hans
  | bootAsked hh hpc hreq hget hpend =>
    have ha : arFire s io.toInstPort = false := by simp [arFire_eq, hreq]
    exact .bootGot (hhanded.trans hh) (hpc'.trans hpc) (by rw [hreq', hreq, Bool.or_true]) hget'
      (by simp [Port.observe, ha, hr]) (by simp [Port.observe, hr, hpend, IF.next_of_wait hfire])
  | first hh => simp [(hc.first hh).1] at hv
  | firstAsked _ hh => simp [(hc.first hh).1] at hv
  | waiting p hh hreq hget hpend hpc =>
    have hl : (g.observe config s io).excepHeld = none → (g.observe config s io).latched =
        some ((IF.next config s io).PC, (IF.next config s io).instReg) := by
      intro hx
      simp [Port.observe, hr, hpend, IF.next_of_wait hfire, hpc (excepHeld_of_wait hk hfire hx)]
    cases ha : arFire s io.toInstPort
    case true =>
      exact .ahead (npc s io) (hhanded ▸ hh) (by rw [hreq', ha, Bool.true_or]) hget'
        (by simp [Port.observe, ha]) (promised_npc hfire) hl
    case false =>
      exact .got (hhanded ▸ hh) (by rw [hreq', ha, hreq, Bool.or_false]) hget'
        (by simp [Port.observe, ha, hr]) hl
  | bootGot _ _ _ hget => simp [hnot] at hget
  | got _ _ hget => simp [hnot] at hget
  | ahead _ _ _ hget => simp [hnot] at hget

end Wait

theorem next_of_wait (hp : Phase config s g) (hk : g.Kept s io) (hc : WordArrived config s io g)
    (hfire : toIDFire config s io = false) :
    Phase config (IF.next config s io) (g.observe config s io) := by
  cases hr : rFire s io.toInstPort
  case true => exact hp.next_of_word hk hc hfire hr
  case false =>
    cases ha : arFire s io.toInstPort
    case true => exact hp.next_of_ask hk hc hfire ha hr
    case false => exact hp.next_of_still hk hc hfire ha hr

theorem next (hp : Phase config s g) (hk : g.Kept s io) (hc : WordArrived config s io g) :
    Phase config (IF.next config s io) (g.observe config s io) := by
  cases hfire : toIDFire config s io
  · exact hp.next_of_wait hk hc hfire
  · exact hp.next_of_fire hk hc hfire

end Phase

theorem hands_fetched {p : Regs × Port}
    (h : (observed config).Reaches
      (fun p io => p.2.Kept p.1 io ∧ WordArrived config p.1 io p.2) p)
    (hk : p.2.Kept p.1 io) (hc : WordArrived config p.1 io p.2) :
    HandsFetched config p.1 io p.2 := by
  have hphase : Phase config p.1 p.2 := h.monitor_invariant (P := Phase config)
    (fun _ hs => hs ▸ .boot rfl rfl rfl rfl rfl) fun _ _ _ ih hok => ih.next hok.1 hok.2
  exact hphase.handsFetched hk hc

def Inputs.idle : Inputs :=
  ⟨⟨false, ⟨false, ⟨0⟩⟩⟩, ⟨false, ⟨0⟩⟩, ⟨false, 0⟩, true, false, .zero⟩

def bootInputs : List Inputs :=
  [{ Inputs.idle with arReady := true }, { Inputs.idle with r := ⟨true, ⟨0x13⟩⟩ },
    { Inputs.idle with arReady := true }]

theorem hands_fetched_boot :
    let p := (observed .elaborated).run (reset .elaborated, .idle) bootInputs
    HandsFetched .elaborated p.1 { Inputs.idle with arReady := true, r := ⟨true, ⟨0x6f⟩⟩ } p.2 := by
  have hr := (observed .elaborated).reaches_run
    (fun p io => p.2.Kept p.1 io ∧ WordArrived .elaborated p.1 io p.2)
    (reset .elaborated, .idle) bootInputs ⟨rfl, rfl⟩ (by decide +kernel)
  exact hands_fetched hr (by decide +kernel) (by decide +kernel)

/-- The second instruction jumps back to `PC_INIT`, whose word has not come again. -/
def jumpToInit : List Inputs :=
  bootInputs ++ [{ Inputs.idle with
    arReady := true, r := ⟨true, ⟨0x6f⟩⟩, jumpBus := ⟨true, ⟨0x10000000⟩⟩, flush := true }]

theorem stale_word_at_init :
    ¬∀ p, (observed .elaborated).Reaches (fun p io => p.2.Kept p.1 io) p →
      ∀ io, p.2.Kept p.1 io → HandsFetched .elaborated p.1 io p.2 := by
  intro h
  have hr := (observed .elaborated).reaches_run (fun p io => p.2.Kept p.1 io)
    (reset .elaborated, .idle) jumpToInit ⟨rfl, rfl⟩ (by decide +kernel)
  have := h _ hr .idle (by decide +kernel) (by decide +kernel) (by decide +kernel)
  revert this
  decide +kernel

end FpgaNpc.IF
