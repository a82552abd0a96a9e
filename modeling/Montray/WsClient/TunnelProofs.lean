import Montray.WsClient.Tunnel

/-!
# Montray.WsClient.TunnelProofs

Readiness by process generation, in every run of the supervisor.

`GateOk` is about the gate and the trace: which channels are closed, what the holder of `readyMtx`
may rely on, and how often readiness was announced. `SupervisorOk` adds the loop and the callbacks:
between two processes nobody can open the gate, and `markReady` is called only for a generation that
is ready.

* `supervisor_run`: the invariant holds in every run.
* `SupervisorOk.late`: a callback of a process that was declared exited does nothing.
* `readiness_generations`: what holds of the gate, of the events and of `WaitReady`.
-/

namespace Montray
namespace WsClient

open Lib

/-! ## The trace -/

def Trace.isReadyOf (g : Nat) : Trace → Bool
  | .event g' e => g' = g && e.kind = .ready
  | _ => false

/-- How often generation `g` was announced as ready. -/
def readyCount (g : Nat) (os : List Trace) : Nat := os.countP (Trace.isReadyOf g)

@[simp] theorem readyCount_append (g : Nat) (os out : List Trace) :
    readyCount g (os ++ out) = readyCount g os + readyCount g out :=
  List.countP_append ..

@[simp] theorem readyCount_nil (g : Nat) : readyCount g [] = 0 := rfl

theorem readyCount_ready (g g' : Nat) (now : Time) :
    readyCount g [.event g' { kind := .ready, time := now }] = if g' = g then 1 else 0 := by
  simp [readyCount, Trace.isReadyOf, List.countP_cons]

def Trace.kind? : Trace → Option TunnelEventKind
  | .event _ e => some e.kind
  | _ => none

/-- The kind of the event that was emitted last. -/
def lastKind (os : List Trace) : Option TunnelEventKind := (os.filterMap Trace.kind?).getLast?

@[simp] theorem lastKind_event (os : List Trace) (g : Nat) (e : TunnelEvent) :
    lastKind (os ++ [.event g e]) = some e.kind := by
  simp [lastKind, Trace.kind?]

theorem lastKind_append {os out : List Trace} (h : out.filterMap Trace.kind? = []) :
    lastKind (os ++ out) = lastKind os := by
  simp [lastKind, h]

/-! ## The gate -/

/-- Someone holds `readyMtx` and has emitted, before cancellation. -/
def Gate.announced (gate : Gate) : Prop :=
  gate.ready = true ∨ gate.ctxDone = false ∧ ∃ caller, gate.readyMtx = some (caller, true)

structure GateOk (os : List Trace) (gate : Gate) : Prop where
  closed_iff : ∀ ch, ch ∈ gate.closed ↔ ch < gate.readyCh ∨ ch = gate.readyCh ∧ gate.ready = true
  closed_nodup : gate.closed.Nodup
  unready_lt : ∀ g, .unready g ∈ os → g < gate.readyCh
  held : ∀ caller emitted, gate.readyMtx = some (caller, emitted) →
    caller.generationReady = gate.readyCh ∧ gate.ready = false
  announced_count : gate.announced → 0 < readyCount gate.readyCh os
  announced_last : gate.announced → lastKind os = some .ready
  count_le : gate.ctxDone = false → ∀ g, readyCount g os ≤ 1
  count_pos : gate.ctxDone = false → ∀ g, 0 < readyCount g os →
    g < gate.readyCh ∨ g = gate.readyCh ∧ gate.announced

section Gate

variable {os out : List Trace} {gate gate' : Gate} {caller : Caller} {send returned : Bool}
  {now : Time}

theorem GateOk.init : GateOk [] {} where
  closed_iff := by simp
  closed_nodup := List.nodup_nil
  unready_lt := by simp
  held := by simp
  announced_count := by simp [Gate.announced]
  announced_last := by simp [Gate.announced]
  count_le := by simp
  count_pos := by simp

/-- Things that happen away from the gate. -/
theorem GateOk.trace (h : GateOk os gate) (hkind : out.filterMap Trace.kind? = [])
    (hunready : ∀ g, .unready g ∉ out) : GateOk (os ++ out) gate := by
  have hcount : ∀ g, readyCount g (os ++ out) = readyCount g os := by
    intro g
    have hzero : readyCount g out = 0 := by
      refine List.countP_eq_zero.mpr fun x hx hready => ?_
      cases x with
      | event g' e =>
        have hnone := List.filterMap_eq_nil_iff.mp hkind _ hx
        simp [Trace.kind?] at hnone
      | _ => simp [Trace.isReadyOf] at hready
    rw [readyCount_append, hzero, Nat.add_zero]
  refine ⟨h.closed_iff, h.closed_nodup, ?_, h.held, ?_, ?_, ?_, ?_⟩
  · intro g hg
    rcases List.mem_append.mp hg with hg | hg
    · exact h.unready_lt g hg
    · exact absurd hg (hunready g)
  · intro ha
    rw [hcount]
    exact h.announced_count ha
  · intro ha
    rw [lastKind_append hkind]
    exact h.announced_last ha
  · intro hc g
    rw [hcount]
    exact h.count_le hc g
  · intro hc g hg
    rw [hcount] at hg
    exact h.count_pos hc g hg

theorem GateOk.cancel (h : GateOk os gate) : GateOk os { gate with ctxDone := true } where
  closed_iff := h.closed_iff
  closed_nodup := h.closed_nodup
  unready_lt := h.unready_lt
  held := h.held
  announced_count ha := by
    rcases ha with ha | ⟨ha, -⟩
    · exact h.announced_count (.inl ha)
    · cases ha
  announced_last ha := by
    rcases ha with ha | ⟨ha, -⟩
    · exact h.announced_last (.inl ha)
    · cases ha
  count_le := nofun
  count_pos := nofun

/-- Taking the lock: nothing has been emitted under it yet. -/
theorem GateOk.enter (h : GateOk os gate) (hmtx : gate.readyMtx = none) (hready : gate.ready = false)
    (hcaller : caller.generationReady = gate.readyCh) :
    GateOk os { gate with readyMtx := some (caller, false) } := by
  have hno : ¬ Gate.announced { gate with readyMtx := some (caller, false) } := by
    rintro (ha | ⟨-, c, hc⟩)
    · rw [hready] at ha
      cases ha
    · cases hc
  refine ⟨h.closed_iff, h.closed_nodup, h.unready_lt, ?_, fun ha => absurd ha hno,
    fun ha => absurd ha hno, h.count_le, ?_⟩
  · intro c emitted hc
    cases hc
    exact ⟨hcaller, hready⟩
  · intro hc g hg
    rcases h.count_pos hc g hg with hlt | ⟨-, ha | ⟨-, c, hc'⟩⟩
    · exact .inl hlt
    · rw [hready] at ha
      cases ha
    · rw [hmtx] at hc'
      cases hc'

/-- Announcing readiness, with the lock held. -/
theorem GateOk.announce (h : GateOk os gate) (hmtx : gate.readyMtx = some (caller, false))
    (now : Time) :
    GateOk (os ++ [.event caller.generationReady { kind := .ready, time := now }])
      { gate with readyMtx := some (caller, true) } := by
  obtain ⟨hcaller, hready⟩ := h.held caller false hmtx
  -- before the first announcement of this generation there was none
  have hzero : gate.ctxDone = false → readyCount gate.readyCh os = 0 := by
    intro hc
    by_contra hne
    rcases h.count_pos hc gate.readyCh (Nat.pos_of_ne_zero hne) with hlt | ⟨-, ha | ⟨-, c, hc'⟩⟩
    · exact absurd hlt (Nat.lt_irrefl _)
    · rw [hready] at ha
      cases ha
    · rw [hmtx] at hc'
      cases hc'
  rw [hcaller]
  refine ⟨h.closed_iff, h.closed_nodup, ?_, ?_, ?_, fun _ => lastKind_event _ _ _, ?_, ?_⟩
  · intro g hg
    rcases List.mem_append.mp hg with hg | hg
    · exact h.unready_lt g hg
    · simp at hg
  · intro c emitted hc
    cases hc
    exact ⟨hcaller, hready⟩
  · intro _
    rw [readyCount_append, readyCount_ready, if_pos rfl]
    omega
  · intro hc g
    have hle := h.count_le hc g
    have hz := hzero hc
    rw [readyCount_append, readyCount_ready]
    split
    · rename_i heq
      subst heq
      omega
    · omega
  · intro hc g hg
    rw [readyCount_append, readyCount_ready] at hg
    by_cases heq : gate.readyCh = g
    · exact .inr ⟨heq.symm, .inr ⟨hc, caller, rfl⟩⟩
    · rw [if_neg heq, Nat.add_zero] at hg
      rcases h.count_pos hc g hg with hlt | ⟨he, -⟩
      · exact .inl hlt
      · exact absurd he.symm heq

/-- Cancelled before the emission. -/
theorem GateOk.skip (h : GateOk os gate) (hmtx : gate.readyMtx = some (caller, false))
    (hc : gate.ctxDone = true) : GateOk os { gate with readyMtx := some (caller, true) } := by
  obtain ⟨hcaller, hready⟩ := h.held caller false hmtx
  have hno : ¬ Gate.announced { gate with readyMtx := some (caller, true) } := by
    rintro (ha | ⟨ha, -⟩)
    · rw [hready] at ha
      cases ha
    · rw [hc] at ha
      cases ha
  refine ⟨h.closed_iff, h.closed_nodup, h.unready_lt, ?_, fun ha => absurd ha hno,
    fun ha => absurd ha hno, ?_, ?_⟩
  · intro c emitted hc
    cases hc
    exact ⟨hcaller, hready⟩
  · intro hc'
    rw [hc] at hc'
    cases hc'
  · intro hc'
    rw [hc] at hc'
    cases hc'

/-- Cancelled after the emission: the gate stays shut. -/
theorem GateOk.abandon (h : GateOk os gate) (hmtx : gate.readyMtx = some (caller, true))
    (hc : gate.ctxDone = true) : GateOk os { gate with readyMtx := none } := by
  obtain ⟨-, hready⟩ := h.held caller true hmtx
  have hno : ¬ Gate.announced { gate with readyMtx := none } := by
    rintro (ha | ⟨-, c, hc'⟩)
    · rw [hready] at ha
      cases ha
    · cases hc'
  refine ⟨h.closed_iff, h.closed_nodup, h.unready_lt, nofun, fun ha => absurd ha hno,
    fun ha => absurd ha hno, ?_, ?_⟩
  · intro hc'
    rw [hc] at hc'
    cases hc'
  · intro hc'
    rw [hc] at hc'
    cases hc'

/-- A channel that is not closed yet is closed. -/
theorem closeCh_ok (h : GateOk os gate) (hready : gate.ready = false) :
    (∀ ch, ch ∈ gate.closeCh.closed ↔ ch < gate.readyCh + 1) ∧ gate.closeCh.closed.Nodup := by
  have hnot : gate.readyCh ∉ gate.closed := by
    intro hmem
    rcases (h.closed_iff _).mp hmem with hlt | ⟨-, hr⟩
    · exact absurd hlt (Nat.lt_irrefl _)
    · rw [hready] at hr
      cases hr
  constructor
  · intro ch
    simp only [Gate.closeCh, List.mem_append, List.mem_singleton, h.closed_iff, hready,
      Bool.false_eq_true, and_false, or_false]
    omega
  · exact List.nodup_append.mpr ⟨h.closed_nodup, List.nodup_singleton _, by
      intro a ha b hb
      rw [List.mem_singleton.mp hb]
      rintro rfl
      exact hnot ha⟩

/-- The gate is opened, after readiness was announced. -/
theorem GateOk.open (h : GateOk os gate) (hmtx : gate.readyMtx = some (caller, true))
    (hc : gate.ctxDone = false) :
    GateOk os { gate.closeCh with ready := true, readyMtx := none } := by
  obtain ⟨-, hready⟩ := h.held caller true hmtx
  obtain ⟨hclosed, hnodup⟩ := closeCh_ok h hready
  have hann : gate.announced := .inr ⟨hc, caller, hmtx⟩
  refine ⟨?_, hnodup, h.unready_lt, nofun, fun _ => h.announced_count hann,
    fun _ => h.announced_last hann, h.count_le, ?_⟩
  · intro ch
    rw [hclosed]
    simp only [Gate.closeCh, and_true]
    omega
  · intro hc g hg
    rcases h.count_pos hc g hg with hlt | ⟨he, -⟩
    · exact .inl hlt
    · exact .inr ⟨he, .inl rfl⟩

/-- The sections of `markReady`. -/
inductive MarkStep (gate : Gate) (caller : Caller) (now : Time) :
    Gate → Bool → List Trace → Prop where
  | ignore (hmtx : gate.readyMtx = none)
      (h : gate.readyCh ≠ caller.generationReady ∨ gate.ready = true) :
      MarkStep gate caller now gate true []
  | enter (hmtx : gate.readyMtx = none) (hready : gate.ready = false)
      (hcaller : caller.generationReady = gate.readyCh) :
      MarkStep gate caller now { gate with readyMtx := some (caller, false) } false []
  | announce (hmtx : gate.readyMtx = some (caller, false)) :
      MarkStep gate caller now { gate with readyMtx := some (caller, true) } false
        [.event caller.generationReady { kind := .ready, time := now }]
  | skip (hmtx : gate.readyMtx = some (caller, false)) (hc : gate.ctxDone = true) :
      MarkStep gate caller now { gate with readyMtx := some (caller, true) } false []
  | abandon (hmtx : gate.readyMtx = some (caller, true)) (hc : gate.ctxDone = true) :
      MarkStep gate caller now { gate with readyMtx := none } true []
  | opened (hmtx : gate.readyMtx = some (caller, true)) (hc : gate.ctxDone = false) :
      MarkStep gate caller now { gate.closeCh with ready := true, readyMtx := none } true []

theorem markReady_cases (hs : gate.markReady caller send now = some (gate', returned, out)) :
    MarkStep gate caller now gate' returned out := by
  unfold Gate.markReady at hs
  split at hs
  · rename_i hmtx
    split at hs
    · rename_i hcheck
      cases hs
      exact .ignore hmtx hcheck
    · rename_i hcheck
      cases hs
      simp only [ne_eq, not_or, not_not, Bool.not_eq_true] at hcheck
      exact .enter hmtx hcheck.2 hcheck.1.symm
  · rename_i holder emitted hmtx
    split at hs
    · cases hs
    · rename_i hholder
      obtain rfl := not_not.mp hholder
      split at hs
      · dsimp only at hs
        split at hs
        · cases hs
          exact .announce hmtx
        · split at hs
          · rename_i hc
            cases hs
            exact .skip hmtx hc
          · cases hs
      · split at hs
        · rename_i hc
          cases hs
          exact .abandon hmtx hc
        · rename_i hc
          cases hs
          exact .opened hmtx (Bool.eq_false_iff.mpr hc)

theorem GateOk.markReady (h : GateOk os gate) (hs : MarkStep gate caller now gate' returned out) :
    GateOk (os ++ out) gate' := by
  cases hs with
  | ignore hmtx hcheck => simpa using h
  | enter hmtx hready hcaller => simpa using h.enter hmtx hready hcaller
  | announce hmtx => exact h.announce hmtx now
  | skip hmtx hc => simpa using h.skip hmtx hc
  | abandon hmtx hc => simpa using h.abandon hmtx hc
  | opened hmtx hc => simpa using h.open hmtx hc

/-- A failure is announced while the gate is shut and nobody holds the lock. -/
theorem GateOk.failed (h : GateOk os gate) (hready : gate.ready = false)
    (hmtx : gate.readyMtx = none) (g : Nat) {e : TunnelEvent} (he : e.kind = .failed) :
    GateOk (os ++ [.event g e]) gate := by
  have hno : ¬ gate.announced := by
    rintro (ha | ⟨-, c, hc⟩)
    · rw [hready] at ha
      cases ha
    · rw [hmtx] at hc
      cases hc
  have hcount : ∀ g', readyCount g' (os ++ [.event g e]) = readyCount g' os := by
    intro g'
    simp [readyCount, Trace.isReadyOf, he]
  refine ⟨h.closed_iff, h.closed_nodup, ?_, h.held, fun ha => absurd ha hno,
    fun ha => absurd ha hno, ?_, ?_⟩
  · intro g' hg
    rcases List.mem_append.mp hg with hg | hg
    · exact h.unready_lt g' hg
    · simp at hg
  · intro hc g'
    rw [hcount]
    exact h.count_le hc g'
  · intro hc g' hg
    rw [hcount] at hg
    exact h.count_pos hc g' hg

theorem GateOk.setUnready (h : GateOk os gate) (hs : gate.setUnready = some gate') :
    GateOk (os ++ [.unready gate.readyCh]) gate' ∧ gate'.readyCh = gate.readyCh + 1 ∧
      gate'.ready = false ∧ gate'.readyMtx = none ∧ gate'.ctxDone = gate.ctxDone := by
  unfold Gate.setUnready at hs
  split at hs
  · cases hs
  · rename_i hmtx
    -- whether or not it was closed before, the old channel is closed now
    have hclosed : (∀ ch, ch ∈ (if gate.ready then gate else gate.closeCh).closed ↔
        ch < gate.readyCh + 1) ∧ (if gate.ready then gate else gate.closeCh).closed.Nodup := by
      split
      · rename_i hready
        refine ⟨fun ch => ?_, h.closed_nodup⟩
        rw [h.closed_iff]
        simp only [hready, and_true]
        omega
      · rename_i hready
        exact closeCh_ok h (Bool.eq_false_iff.mpr hready)
    have hch : (if gate.ready then gate else gate.closeCh).readyCh = gate.readyCh := by
      split <;> rfl
    have hcd : (if gate.ready then gate else gate.closeCh).ctxDone = gate.ctxDone := by
      split <;> rfl
    have hm : (if gate.ready then gate else gate.closeCh).readyMtx = none := by
      split <;> exact hmtx
    cases hs
    dsimp only
    have hno : ¬ Gate.announced
        { (if gate.ready then gate else gate.closeCh) with
          readyCh := (if gate.ready then gate else gate.closeCh).readyCh + 1, ready := false } := by
      rintro (ha | ⟨-, c, hc⟩)
      · cases ha
      · rw [hm] at hc
        cases hc
    have hcount : ∀ g, readyCount g (os ++ [.unready gate.readyCh]) = readyCount g os := by
      intro g
      simp [readyCount, Trace.isReadyOf]
    refine ⟨⟨?_, hclosed.2, ?_, ?_, fun ha => absurd ha hno, fun ha => absurd ha hno, ?_, ?_⟩,
      by rw [hch], rfl, hm, hcd⟩
    · intro ch
      rw [hclosed.1, hch]
      simp
    · intro g hg
      rw [hch]
      rcases List.mem_append.mp hg with hg | hg
      · exact Nat.lt_succ_of_lt (h.unready_lt g hg)
      · obtain rfl : g = gate.readyCh := by simpa using hg
        exact Nat.lt_succ_self _
    · intro c emitted hc
      rw [hm] at hc
      cases hc
    · intro hc g
      rw [hcount]
      exact h.count_le (hcd.symm.trans hc) g
    · intro hc g hg
      rw [hcount] at hg
      rw [hch]
      rcases h.count_pos (hcd.symm.trans hc) g hg with hlt | ⟨he, -⟩
      · exact .inl (Nat.lt_succ_of_lt hlt)
      · exact .inl (he ▸ Nat.lt_succ_self _)

end Gate

/-! ## The loop and the callbacks -/

/-- The process of the generation has started, and has matched the probe if there is one. -/
def GenerationReady (probe : List UInt8) (os : List Trace)
    (callbacks : Nat → Stream → Callback) (g : Nat) : Prop :=
  .started g ∈ os ∧ (probe = [] ∨ ∃ stream, probe <:+: (callbacks g stream).written)

/-- The generation whose process the loop has to do with. -/
def RunPc.generation : RunPc → Option Nat
  | .start g => some g
  | .startFailed g _ => some g
  | .markReady g => some g
  | .wait g => some g
  | .exited g _ => some g
  | .setUnready g _ => some g
  | _ => none

/-- The loop has declared a process exited and has not started the next one. -/
def RunPc.between : RunPc → Bool
  | .top => true
  | .start _ => true
  | .startFailed _ _ => true
  | .emit _ _ => true
  | .waitToRestart => true
  | _ => false

structure CallbackOk (probe : List UInt8) (os : List Trace) (readyCh g : Nat) (c : Callback) :
    Prop where
  live : c.live = true → g ≤ readyCh ∧ .started g ∈ os
  tail : c.writer.ready = false → c.writer.tail <:+ c.written
  marking : c.marking = true → c.live = true ∧ probe <:+: c.written

structure SupervisorOk (probe : List UInt8) (os : List Trace) (t : Supervisor) : Prop where
  gate : GateOk os t.gate
  generation : ∀ g, t.run.generation = some g → g = t.gate.readyCh
  between : t.run.between = true → t.gate.ready = false ∧ t.gate.readyMtx = none ∧
    ∀ g stream, (t.callbacks g stream).live = true → g < t.gate.readyCh
  callbacks : ∀ g stream, CallbackOk probe os t.gate.readyCh g (t.callbacks g stream)
  calls : ∀ g, t.run = .markReady g → GenerationReady probe os t.callbacks g
  held : ∀ caller emitted, t.gate.readyMtx = some (caller, emitted) →
    GenerationReady probe os t.callbacks t.gate.readyCh
  ready : t.gate.ready = true → GenerationReady probe os t.callbacks t.gate.readyCh

section Supervisor

variable {probe : List UInt8} {os out : List Trace} {t t' : Supervisor}

theorem GenerationReady.mono {callbacks callbacks' : Nat → Stream → Callback} {g : Nat}
    (h : GenerationReady probe os callbacks g)
    (hc : ∀ stream, (callbacks g stream).written <+: (callbacks' g stream).written) :
    GenerationReady probe (os ++ out) callbacks' g := by
  refine ⟨List.mem_append_left _ h.1, h.2.imp_right ?_⟩
  rintro ⟨stream, hs⟩
  exact ⟨stream, hs.trans (hc stream).isInfix⟩

theorem CallbackOk.mono {readyCh readyCh' g : Nat} {c : Callback} (h : CallbackOk probe os readyCh g c)
    (hle : readyCh ≤ readyCh') : CallbackOk probe (os ++ out) readyCh' g c where
  live hl := ⟨Nat.le_trans (h.live hl).1 hle, List.mem_append_left _ (h.live hl).2⟩
  tail := h.tail
  marking := h.marking

/-- What a write to a stream does to its callback. -/
theorem CallbackOk.write {readyCh g : Nat} {c : Callback} (h : CallbackOk probe os readyCh g c)
    (hlive : c.live = true) (p : List UInt8) :
    CallbackOk probe os readyCh g
      { c with writer := (c.writer.write probe p).1, written := c.written ++ p,
               marking := (c.writer.write probe p).2 } := by
  unfold ReadinessProbeWriter.write
  split
  · rename_i hready
    exact ⟨h.live, fun hr => by simp [hready] at hr, nofun⟩
  · rename_i hready
    have hsuffix : c.writer.tail ++ p <:+ c.written ++ p := by
      obtain ⟨l, hl⟩ := h.tail (Bool.eq_false_iff.mpr hready)
      exact ⟨l, by rw [← hl, List.append_assoc]⟩
    dsimp only
    split
    · rename_i hfound
      exact ⟨h.live, nofun, fun _ => ⟨hlive, hfound.trans hsuffix.isInfix⟩⟩
    · exact ⟨h.live, fun _ => (List.drop_suffix _ _).trans hsuffix, nofun⟩

theorem setCallback_same (t : Supervisor) (g : Nat) (stream : Stream) (c : Callback) :
    (t.setCallback g stream c).callbacks g stream = c := by
  simp [Supervisor.setCallback]

theorem setCallback_other (t : Supervisor) {g g' : Nat} {stream stream' : Stream} (c : Callback)
    (h : ¬ (g' = g ∧ stream' = stream)) :
    (t.setCallback g stream c).callbacks g' stream' = t.callbacks g' stream' := by
  by_cases hg : g' = g
  · subst hg
    have hs : stream' ≠ stream := fun hs => h ⟨rfl, hs⟩
    simp [Supervisor.setCallback, hs]
  · simp [Supervisor.setCallback, hg]

/-- A callback is replaced by one that has been given at least as much output. -/
theorem setCallback_written (t : Supervisor) {g : Nat} {stream : Stream} {c : Callback}
    (h : (t.callbacks g stream).written <+: c.written) (g' : Nat) (stream' : Stream) :
    (t.callbacks g' stream').written <+: ((t.setCallback g stream c).callbacks g' stream').written := by
  by_cases he : g' = g ∧ stream' = stream
  · obtain ⟨rfl, rfl⟩ := he
    rw [setCallback_same]
    exact h
  · rw [setCallback_other t c he]

theorem SupervisorOk.init : SupervisorOk probe [] {} where
  gate := GateOk.init
  generation := nofun
  between := by simp
  callbacks := fun g stream => ⟨nofun, fun _ => List.suffix_refl _, nofun⟩
  calls := nofun
  held := nofun
  ready := nofun

theorem SupervisorOk.cancel (h : SupervisorOk probe os t) :
    SupervisorOk probe os { t with gate := { t.gate with ctxDone := true } } :=
  ⟨h.gate.cancel, h.generation, h.between, h.callbacks, h.calls, h.held, h.ready⟩

/-- A callback is given output, or returns from `markReady`. -/
theorem SupervisorOk.setCallback (h : SupervisorOk probe os t) {g : Nat} {stream : Stream}
    {c : Callback} (hc : CallbackOk probe os t.gate.readyCh g c)
    (hlive : c.live = (t.callbacks g stream).live)
    (hwritten : (t.callbacks g stream).written <+: c.written) :
    SupervisorOk probe os (t.setCallback g stream c) := by
  have hready : ∀ g', GenerationReady probe os t.callbacks g' →
      GenerationReady probe os (t.setCallback g stream c).callbacks g' := by
    intro g' hr
    have hmono : GenerationReady probe (os ++ []) (t.setCallback g stream c).callbacks g' :=
      hr.mono (setCallback_written t hwritten g')
    rwa [List.append_nil] at hmono
  refine ⟨h.gate, h.generation, ?_, ?_, fun g' hg => hready g' (h.calls g' hg),
    fun caller emitted hm => hready _ (h.held caller emitted hm), fun hr => hready _ (h.ready hr)⟩
  · intro hb
    obtain ⟨h1, h2, h3⟩ := h.between hb
    refine ⟨h1, h2, fun g' stream' hl => h3 g' stream' ?_⟩
    by_cases he : g' = g ∧ stream' = stream
    · obtain ⟨rfl, rfl⟩ := he
      rwa [setCallback_same, hlive] at hl
    · rwa [setCallback_other t c he] at hl
  · intro g' stream'
    by_cases he : g' = g ∧ stream' = stream
    · obtain ⟨rfl, rfl⟩ := he
      rw [setCallback_same]
      exact hc
    · rw [setCallback_other t c he]
      exact h.callbacks g' stream'

/-- The loop goes on to a place from which nothing new follows. -/
theorem SupervisorOk.goto (h : SupervisorOk probe os t) {run : RunPc}
    (hgeneration : ∀ g, run.generation = some g → g = t.gate.readyCh)
    (hbetween : run.between = true → t.run.between = true) (hcalls : ∀ g, run ≠ .markReady g) :
    SupervisorOk probe os { t with run } :=
  ⟨h.gate, hgeneration, fun hb => h.between (hbetween hb), h.callbacks,
    fun g hg => absurd hg (hcalls g), h.held, h.ready⟩

/-- A call of `markReady` for a generation that is ready. -/
theorem SupervisorOk.markReady (h : SupervisorOk probe os t) {caller : Caller} {now : Time}
    {gate : Gate} {returned : Bool} (hs : MarkStep t.gate caller now gate returned out)
    (hgen : GenerationReady probe os t.callbacks caller.generationReady)
    (hrun : caller.generationReady = t.gate.readyCh → t.run.between = false) :
    SupervisorOk probe (os ++ out) { t with gate } := by
  have hgate := h.gate.markReady hs
  have hmono : ∀ {g}, GenerationReady probe os t.callbacks g →
      GenerationReady probe (os ++ out) t.callbacks g :=
    fun hg => hg.mono fun _ => List.prefix_refl _
  have hch : gate.readyCh = t.gate.readyCh := by
    cases hs <;> rfl
  -- the gate is touched only by a caller of the current generation, whose process is running
  have hcurrent : gate ≠ t.gate → caller.generationReady = t.gate.readyCh := by
    intro hne
    cases hs with
    | ignore => exact absurd rfl hne
    | enter hmtx hready hcaller => exact hcaller
    | announce hmtx => exact (h.gate.held _ _ hmtx).1
    | skip hmtx hc => exact (h.gate.held _ _ hmtx).1
    | abandon hmtx hc => exact (h.gate.held _ _ hmtx).1
    | opened hmtx hc => exact (h.gate.held _ _ hmtx).1
  have hready : gate ≠ t.gate → GenerationReady probe (os ++ out) t.callbacks gate.readyCh := by
    intro hne
    rw [hch, ← hcurrent hne]
    exact hmono hgen
  refine ⟨hgate, fun g hg => (h.generation g hg).trans hch.symm, ?_, ?_,
    fun g hg => hmono (h.calls g hg), ?_, ?_⟩
  · intro hb
    have hsame : gate = t.gate := by
      by_contra hne
      exact absurd (hrun (hcurrent hne)) (by simpa using hb)
    rw [hsame]
    exact h.between hb
  · intro g stream
    exact (h.callbacks g stream).mono (Nat.le_of_eq hch.symm)
  · intro c emitted hc
    by_cases hsame : gate = t.gate
    · have hheld := hmono (h.held c emitted (hsame ▸ hc))
      rwa [hch]
    · exact hready hsame
  · intro hr
    by_cases hsame : gate = t.gate
    · have hheld := hmono (h.ready (hsame ▸ hr))
      rwa [hch]
    · exact hready hsame

/-- Something is traced that the gate does not depend on. -/
theorem SupervisorOk.trace (h : SupervisorOk probe os t) (hgate : GateOk (os ++ out) t.gate) :
    SupervisorOk probe (os ++ out) t := by
  have hmono : ∀ {g}, GenerationReady probe os t.callbacks g →
      GenerationReady probe (os ++ out) t.callbacks g :=
    fun hg => hg.mono fun _ => List.prefix_refl _
  exact ⟨hgate, h.generation, h.between, fun g stream => (h.callbacks g stream).mono (Nat.le_refl _),
    fun g hg => hmono (h.calls g hg), fun c e hc => hmono (h.held c e hc),
    fun hr => hmono (h.ready hr)⟩

theorem GateOk.started {gate : Gate} (h : GateOk os gate) (g : Nat) :
    GateOk (os ++ [.started g]) gate :=
  h.trace rfl (by simp)

/-- A process without a probe has started. -/
theorem SupervisorOk.startedNoProbe (h : SupervisorOk [] os t) {g : Nat} (hrun : t.run = .start g) :
    SupervisorOk [] (os ++ [.started g]) { t with run := .markReady g } := by
  have htrace := h.trace (h.gate.started g)
  refine ⟨htrace.gate, fun g' hg => ?_, nofun, htrace.callbacks, fun g' hg => ?_, htrace.held,
    htrace.ready⟩
  · cases hg
    exact h.generation g (by rw [hrun]; rfl)
  · cases hg
    exact ⟨by simp, .inl rfl⟩

/-- A process with a probe has started, and its output is watched. -/
theorem SupervisorOk.startedProbe (h : SupervisorOk probe os t) {g : Nat} (hrun : t.run = .start g) :
    SupervisorOk probe (os ++ [.started g])
      { (t.setCallback g .stdout { live := true }).setCallback g .stderr { live := true } with
        run := .wait g } := by
  have hg : g = t.gate.readyCh := h.generation g (by rw [hrun]; rfl)
  obtain ⟨hready, hmtx, -⟩ := h.between (by rw [hrun]; rfl)
  refine ⟨h.gate.started g, fun g' hg' => ?_, nofun, fun g' stream => ?_, nofun, ?_, ?_⟩
  · cases hg'
    exact hg
  · by_cases he : g' = g
    · subst he
      have hnew : ((t.setCallback g' .stdout { live := true }).setCallback g' .stderr
          { live := true }).callbacks g' stream = { live := true } := by
        cases stream <;> simp [Supervisor.setCallback]
      show CallbackOk probe _ t.gate.readyCh g' (((t.setCallback g' .stdout
        { live := true }).setCallback g' .stderr { live := true }).callbacks g' stream)
      rw [hnew]
      exact ⟨fun _ => ⟨Nat.le_of_eq hg, by simp⟩, fun _ => List.suffix_refl _, nofun⟩
    · show CallbackOk probe _ t.gate.readyCh g' (((t.setCallback g .stdout
        { live := true }).setCallback g .stderr { live := true }).callbacks g' stream)
      rw [setCallback_other _ _ fun hh => he hh.1, setCallback_other _ _ fun hh => he hh.1]
      exact (h.callbacks g' stream).mono (Nat.le_refl _)
  · intro c e hc
    have hc : t.gate.readyMtx = some (c, e) := hc
    rw [hmtx] at hc
    cases hc
  · intro hr
    have hr : t.gate.ready = true := hr
    rw [hready] at hr
    cases hr

/-- A process is declared exited. -/
theorem SupervisorOk.setUnready (h : SupervisorOk probe os t) {g : Nat} {error : String}
    (hrun : t.run = .setUnready g error) {gate : Gate} (hs : t.gate.setUnready = some gate) :
    SupervisorOk probe (os ++ [.unready g]) { t with gate, run := .emit g error } := by
  have hg : g = t.gate.readyCh := h.generation g (by rw [hrun]; rfl)
  obtain ⟨hgate, hch, hready, hmtx, -⟩ := h.gate.setUnready hs
  subst hg
  refine ⟨hgate, nofun, fun _ => ⟨hready, hmtx, fun g' stream hl => ?_⟩, fun g' stream => ?_, nofun,
    ?_, ?_⟩
  · have hle := ((h.callbacks g' stream).live hl).1
    show g' < gate.readyCh
    omega
  · exact (h.callbacks g' stream).mono (by show _ ≤ gate.readyCh; omega)
  · intro c e hc
    have hc : gate.readyMtx = some (c, e) := hc
    rw [hmtx] at hc
    cases hc
  · intro hr
    have hr : gate.ready = true := hr
    rw [hready] at hr
    cases hr

theorem SupervisorOk.loop (h : SupervisorOk probe os t) {m : Meets}
    (hs : t.loop probe m = some (t', out)) : SupervisorOk probe (os ++ out) t' := by
  unfold Supervisor.loop at hs
  split at hs
  · -- the gate of the next process is read
    rename_i hrun
    split at hs
    · cases hs
    · cases hs
      rw [List.append_nil]
      exact h.goto (fun g hg => by cases hg; rfl) (fun _ => by rw [hrun]; rfl) nofun
  · rename_i g hrun
    have hg : g = t.gate.readyCh := h.generation g (by rw [hrun]; rfl)
    split at hs
    · cases hs
      rw [List.append_nil]
      exact h.goto (fun g' hg' => by cases hg'; exact hg) (fun _ => by rw [hrun]; rfl) nofun
    · split at hs
      · rename_i hprobe
        cases hs
        subst hprobe
        exact h.startedNoProbe hrun
      · cases hs
        exact h.startedProbe hrun
  · rename_i g err hrun
    have hg : g = t.gate.readyCh := h.generation g (by rw [hrun]; rfl)
    split at hs
    · cases hs
      rw [List.append_nil]
      exact h.goto nofun nofun nofun
    · cases hs
      rw [List.append_nil]
      exact h.goto (fun g' hg' => by cases hg'; exact hg) nofun nofun
  · rename_i g hrun
    have hg : g = t.gate.readyCh := h.generation g (by rw [hrun]; rfl)
    split at hs
    · cases hs
    · rename_i gate returned out' hmark
      cases hs
      have hstep := h.markReady (markReady_cases hmark) (h.calls g hrun)
        (fun _ => by rw [hrun]; rfl)
      have hch : g = gate.readyCh := hstep.generation g (by rw [hrun]; rfl)
      cases returned with
      | true => exact hstep.goto (fun g' hg' => by cases hg'; exact hch) nofun nofun
      | false =>
        have hsame : ({ t with gate, run := .markReady g } : Supervisor) = { t with gate } := by
          rw [← hrun]
        exact hsame ▸ hstep
  · rename_i g hrun
    have hg : g = t.gate.readyCh := h.generation g (by rw [hrun]; rfl)
    cases hs
    rw [List.append_nil]
    exact h.goto (fun g' hg' => by cases hg'; exact hg) nofun nofun
  · rename_i g details hrun
    have hg : g = t.gate.readyCh := h.generation g (by rw [hrun]; rfl)
    split at hs
    · cases hs
      rw [List.append_nil]
      exact h.goto nofun nofun nofun
    · cases hs
      rw [List.append_nil]
      exact h.goto (fun g' hg' => by cases hg'; exact hg) nofun nofun
  · rename_i g error hrun
    split at hs
    · cases hs
    · rename_i gate hset
      cases hs
      exact h.setUnready hrun hset
  · rename_i g error hrun
    have hb : t.run.between = true := by rw [hrun]; rfl
    obtain ⟨hready, hmtx, -⟩ := h.between hb
    dsimp only at hs
    split at hs
    · cases hs
      have htrace := h.trace (h.gate.failed hready hmtx g (e := ⟨.failed, m.now, error⟩) rfl)
      exact htrace.goto nofun (fun _ => hb) nofun
    · split at hs
      · cases hs
        rw [List.append_nil]
        exact h.goto nofun (fun _ => hb) nofun
      · cases hs
  · rename_i hrun
    split at hs
    · cases hs
      rw [List.append_nil]
      exact h.goto nofun (fun _ => by rw [hrun]; rfl) nofun
    · split at hs
      · cases hs
        rw [List.append_nil]
        exact h.goto nofun nofun nofun
      · cases hs
  · cases hs

theorem SupervisorOk.step (h : SupervisorOk probe os t) {a : TunnelAction}
    (hs : t.step probe a = some (t', out)) : SupervisorOk probe (os ++ out) t' := by
  cases a with
  | cancel =>
    cases hs
    rw [List.append_nil]
    exact h.cancel
  | loop m => exact h.loop hs
  | write g stream p =>
    simp only [Supervisor.step] at hs
    split at hs
    · rename_i hlive
      cases hs
      rw [List.append_nil]
      exact h.setCallback ((h.callbacks g stream).write hlive.1 p) rfl (List.prefix_append _ _)
    · cases hs
  | callback g stream m =>
    simp only [Supervisor.step] at hs
    split at hs
    · rename_i hmarking
      split at hs
      · cases hs
      · rename_i gate returned out' hmark
        cases hs
        obtain ⟨hlive, hmatch⟩ := (h.callbacks g stream).marking hmarking
        obtain ⟨-, hstarted⟩ := (h.callbacks g stream).live hlive
        have hstep := h.markReady (markReady_cases hmark)
          ⟨hstarted, .inr ⟨stream, hmatch⟩⟩ ?_
        · refine hstep.setCallback ?_ rfl (List.prefix_refl _)
          have hc := hstep.callbacks g stream
          exact ⟨hc.live, hc.tail, fun _ => ⟨hlive, hmatch⟩⟩
        · intro hg
          by_contra hb
          have hlt := (h.between (by simpa using hb)).2.2 g stream hlive
          have hg : g = t.gate.readyCh := hg
          omega
    · cases hs

/-- A callback of a process that was declared exited leaves the gate alone. -/
theorem SupervisorOk.late (h : SupervisorOk probe os t) {g : Nat} {stream : Stream}
    (hunready : .unready g ∈ os) {a : TunnelAction}
    (ha : (∃ p, a = .write g stream p) ∨ ∃ m, a = .callback g stream m)
    (hs : t.step probe a = some (t', out)) : t'.gate = t.gate ∧ out = [] := by
  have hlt := h.gate.unready_lt g hunready
  obtain ⟨p, rfl⟩ | ⟨m, rfl⟩ := ha
  · simp only [Supervisor.step] at hs
    split at hs
    · cases hs
      exact ⟨rfl, rfl⟩
    · cases hs
  · simp only [Supervisor.step] at hs
    split at hs
    · split at hs
      · cases hs
      · rename_i gate returned out' hmark
        cases hs
        have hold : ∀ emitted, t.gate.readyMtx ≠ some (.callback g stream, emitted) := by
          intro emitted hmtx
          have heq : g = t.gate.readyCh := (h.gate.held _ _ hmtx).1
          omega
        cases markReady_cases hmark with
        | ignore hmtx hcheck => exact ⟨rfl, rfl⟩
        | enter hmtx hready hcaller =>
          have hcaller : g = t.gate.readyCh := hcaller
          omega
        | announce hmtx => exact absurd hmtx (hold _)
        | skip hmtx hc => exact absurd hmtx (hold _)
        | abandon hmtx hc => exact absurd hmtx (hold _)
        | opened hmtx hc => exact absurd hmtx (hold _)
    · cases hs

end Supervisor

/-! ## Callers of `WaitReady` -/

/-- Wherever `WaitReady` returned true because of a generation, it had been announced before. -/
def WaitedAfter (os : List Trace) : Prop :=
  ∀ (pre : List Trace) (caller : String) (g : Nat) (post : List Trace),
    os = pre ++ .waitReady caller g :: post → 0 < readyCount g pre

theorem WaitedAfter.append {os out : List Trace} (h : WaitedAfter os)
    (hout : ∀ caller g, .waitReady caller g ∈ out → out = [.waitReady caller g] ∧
      0 < readyCount g os) : WaitedAfter (os ++ out) := by
  intro pre caller g post heq
  rcases List.append_eq_append_iff.mp heq with ⟨l, hpre, hout'⟩ | ⟨l, hos, hl⟩
  · have hmem : .waitReady caller g ∈ out := by simp [hout']
    obtain ⟨hsingle, hpos⟩ := hout caller g hmem
    rw [hpre, readyCount_append]
    omega
  · cases l with
    | nil =>
      have hmem : .waitReady caller g ∈ out := by
        have hl : .waitReady caller g :: post = out := hl
        simp [← hl]
      obtain ⟨-, hpos⟩ := hout caller g hmem
      rw [hos, List.append_nil] at hpos
      exact hpos
    | cons x l =>
      obtain ⟨rfl, -⟩ := List.cons.inj hl
      exact h pre caller g l hos

/-- The supervisor itself does not return from `WaitReady`. -/
theorem step_not_waitReady {probe : List UInt8} {t t' : Supervisor} {a : TunnelAction}
    {out : List Trace} (hs : t.step probe a = some (t', out)) (caller : String) (g : Nat) :
    .waitReady caller g ∉ out := by
  have hmark : ∀ {gate gate' : Gate} {c : Caller} {send returned : Bool} {now : Time}
      {out : List Trace}, gate.markReady c send now = some (gate', returned, out) →
      .waitReady caller g ∉ out := by
    intro gate gate' c send returned now out hm
    cases markReady_cases hm <;> simp
  cases a with
  | cancel =>
    cases hs
    simp
  | loop m =>
    simp only [Supervisor.step, Supervisor.loop] at hs
    split at hs
    · split at hs <;> cases hs
      simp
    · split at hs
      · cases hs
        simp
      · split at hs <;> cases hs <;> simp
    · split at hs <;> cases hs <;> simp
    · split at hs
      · cases hs
      · rename_i hm
        cases hs
        exact hmark hm
    · cases hs
      simp
    · split at hs <;> cases hs <;> simp
    · split at hs <;> cases hs
      simp
    · split at hs
      · cases hs
        simp
      · split at hs <;> cases hs
        simp
    · split at hs
      · cases hs
        simp
      · split at hs <;> cases hs
        simp
    · cases hs
  | write g' stream p =>
    simp only [Supervisor.step] at hs
    split at hs <;> cases hs
    simp
  | callback g' stream m =>
    simp only [Supervisor.step] at hs
    split at hs
    · split at hs
      · cases hs
      · rename_i hm
        cases hs
        exact hmark hm
    · cases hs

theorem supervisor_run {probe : List UInt8} {os : List Trace} {s : Supervision}
    (h : Guarded.Path (supervision probe) os s) :
    SupervisorOk probe os s.tunnel ∧ WaitedAfter os := by
  refine Guarded.Path.history (I := fun os s => SupervisorOk probe os s.tunnel ∧ WaitedAfter os)
    ⟨SupervisorOk.init, by intro pre caller g post heq; simp at heq⟩ ?_ h
  rintro os s a s' out ⟨hok, hwait⟩ hs
  have hquiet : SupervisorOk probe (os ++ []) s.tunnel ∧ WaitedAfter (os ++ []) := by
    rw [List.append_nil]
    exact ⟨hok, hwait⟩
  cases a with
  | tunnel a =>
    simp only [supervision, Supervision.step] at hs
    split at hs
    · cases hs
    · rename_i hstep
      cases hs
      exact ⟨hok.step hstep, hwait.append fun caller g hmem =>
        absurd hmem (step_not_waitReady hstep caller g)⟩
  | waitReady caller =>
    simp only [supervision, Supervision.step] at hs
    split at hs <;> cases hs
    exact hquiet
  | read caller =>
    simp only [supervision, Supervision.step] at hs
    split at hs
    · split at hs
      · rename_i hready
        cases hs
        refine ⟨hok.trace (hok.gate.trace rfl (by simp)), hwait.append fun c g hmem => ?_⟩
        obtain ⟨rfl, rfl⟩ : c = caller ∧ g = s.tunnel.gate.readyCh := by simpa using hmem
        exact ⟨rfl, hok.gate.announced_count (.inl hready)⟩
      · cases hs
        exact hquiet
    · cases hs
  | wake caller =>
    simp only [supervision, Supervision.step] at hs
    split at hs
    · split at hs <;> cases hs
      exact hquiet
    · cases hs
  | giveUp caller =>
    simp only [supervision, Supervision.step] at hs
    split at hs <;> cases hs
    exact hquiet
  | isReady caller =>
    simp only [supervision, Supervision.step] at hs
    split at hs <;> cases hs
    exact hquiet

/-- **Readiness by generation**, in every run. -/
theorem readiness_generations (probe : List UInt8) {os : List Trace} {s : Supervision}
    (h : Guarded.Path (supervision probe) os s) :
    s.tunnel.gate.closed.Nodup ∧
    (s.tunnel.gate.ready = true →
      GenerationReady probe os s.tunnel.callbacks s.tunnel.gate.readyCh ∧
        .unready s.tunnel.gate.readyCh ∉ os) ∧
    (s.tunnel.gate.ctxDone = false → ∀ g, readyCount g os ≤ 1) ∧
    (∀ pre caller g post, os = pre ++ .waitReady caller g :: post → 0 < readyCount g pre) ∧
    (∀ g stream a t' out, .unready g ∈ os →
      ((∃ p, a = .write g stream p) ∨ ∃ m, a = .callback g stream m) →
      s.tunnel.step probe a = some (t', out) → t'.gate = s.tunnel.gate ∧ out = []) := by
  obtain ⟨hok, hwait⟩ := supervisor_run h
  refine ⟨hok.gate.closed_nodup, fun hready => ⟨hok.ready hready, fun hmem => ?_⟩,
    hok.gate.count_le, hwait, fun g stream a t' out hmem ha hs => hok.late hmem ha hs⟩
  exact absurd (hok.gate.unready_lt _ hmem) (Nat.lt_irrefl _)

/-- The probe `OK` arrives in two pieces on stdout, and on stderr while the process ends: the second
callback finds the gate of the next process. -/
def lateCallback : List SupervisionAction :=
  [.tunnel (.loop {}), .tunnel (.loop {}), .waitReady "client", .read "client",
   .tunnel (.write 0 .stdout [79]), .tunnel (.write 0 .stdout [75]), .tunnel (.callback 0 .stdout {}),
   .tunnel (.callback 0 .stdout {}), .tunnel (.callback 0 .stdout {}), .wake "client",
   .read "client", .tunnel (.write 0 .stderr [79, 75]), .tunnel (.loop {}), .tunnel (.loop {}),
   .tunnel (.loop {})]

theorem readiness_generations_lateCallback :
    ∃ os s, Guarded.Path (supervision [79, 75]) os s ∧
      .waitReady "client" 0 ∈ os ∧ readyCount 0 os = 1 ∧ s.tunnel.gate.readyCh = 1 ∧
      (s.tunnel.step [79, 75] (.callback 0 .stderr {})).isSome = true ∧
      s.tunnel.gate.closed.Nodup ∧
      ∀ t' out, s.tunnel.step [79, 75] (.callback 0 .stderr {}) = some (t', out) →
        t'.gate = s.tunnel.gate ∧ out = [] := by
  obtain ⟨os, s, hpath, hp⟩ := Guarded.exists_path (G := supervision [79, 75]) (a := lateCallback)
    (p := fun r => .unready 0 ∈ r.1 && .waitReady "client" 0 ∈ r.1 && readyCount 0 r.1 = 1 &&
      r.2.tunnel.gate.readyCh = 1 &&
      (r.2.tunnel.step [79, 75] (.callback 0 .stderr {})).isSome) (by decide)
  simp only [Bool.and_eq_true, decide_eq_true_eq, and_assoc] at hp
  obtain ⟨hunready, hwait, hcount, hch, hsome⟩ := hp
  obtain ⟨hnodup, -, -, -, hlate⟩ := readiness_generations [79, 75] hpath
  exact ⟨os, s, hpath, hwait, hcount, hch, hsome, hnodup, fun t' out hs =>
    hlate 0 .stderr _ t' out hunready (.inr ⟨_, rfl⟩) hs⟩

end WsClient
end Montray
