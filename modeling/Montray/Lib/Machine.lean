import Mathlib

/-!
# Montray.Lib.Machine

Runs of machines, over arbitrary state, input and output types.

* `Mealy`: a machine that accepts every input and answers it. `run` is the state after a list of
  inputs, `outputs` the answers in order.
* `Guarded`: a machine whose actions may be disabled. `Path` is a finite run with the outputs it
  emitted, so a set of streams can be described by the machine that emits them.

Each comes with its invariant rule and with the rule for invariants that also speak about the
history. `Mealy.purge` is the rule for two runs, one with some inputs deleted, and `Mealy.register`
the one for what the last write left; `Guarded.only` keeps the runs all of whose steps meet a
condition, `Guarded.labelled` tells with every output which action emitted it, and
`Guarded.recorded` emits a record of every step. `Guarded.progress` is the rule for what one party
can always bring about. `Throughout` is about what is still to be done: a
property of every state a list of inputs leads through. `Steps` counts the steps of a relation;
`Steps.bounded` is the rule of termination for it and `Endless.of_invariant` the rule of divergence.
-/

namespace Montray
namespace Lib

/-- Every input is accepted and answered with one output. -/
structure Mealy (σ ι ο : Type) where
  init : σ
  step : σ → ι → σ × ο

namespace Mealy

variable {σ ι ο : Type} (M : Mealy σ ι ο)

/-- The state reached from `s` by the inputs `is`. -/
def runFrom (s : σ) : List ι → σ
  | [] => s
  | i :: is => runFrom (M.step s i).1 is

/-- The answers given to the inputs `is` from `s` on, in order. -/
def outputsFrom (s : σ) : List ι → List ο
  | [] => []
  | i :: is => (M.step s i).2 :: outputsFrom (M.step s i).1 is

def run (is : List ι) : σ := M.runFrom M.init is

def outputs (is : List ι) : List ο := M.outputsFrom M.init is

theorem runFrom_append (s : σ) (is js : List ι) :
    M.runFrom s (is ++ js) = M.runFrom (M.runFrom s is) js := by
  induction is generalizing s with
  | nil => rfl
  | cons i is ih => exact ih (M.step s i).1

theorem outputsFrom_append (s : σ) (is js : List ι) :
    M.outputsFrom s (is ++ js) = M.outputsFrom s is ++ M.outputsFrom (M.runFrom s is) js := by
  induction is generalizing s with
  | nil => rfl
  | cons i is ih =>
    simp only [List.cons_append, outputsFrom, runFrom]
    rw [ih]

@[simp] theorem run_nil : M.run [] = M.init := rfl

@[simp] theorem run_snoc (is : List ι) (i : ι) :
    M.run (is ++ [i]) = (M.step (M.run is) i).1 := by
  simp [run, runFrom_append, runFrom]

theorem outputs_snoc (is : List ι) (i : ι) :
    M.outputs (is ++ [i]) = M.outputs is ++ [(M.step (M.run is) i).2] := by
  simp [outputs, outputsFrom_append, outputsFrom, run]

/-- Every answer of a run is a step's answer to one of the inputs. -/
theorem mem_outputs {is : List ι} {o : ο} (h : o ∈ M.outputs is) :
    ∃ s, ∃ i ∈ is, o = (M.step s i).2 := by
  unfold outputs at h
  generalize M.init = s at h
  induction is generalizing s with
  | nil => cases h
  | cons i is ih =>
    rcases List.mem_cons.mp h with rfl | h
    · exact ⟨s, i, List.mem_cons_self, rfl⟩
    · obtain ⟨s', j, hj, ho⟩ := ih _ h
      exact ⟨s', j, List.mem_cons_of_mem _ hj, ho⟩

/-- What holds of the initial state and is kept by every step along a history holds after every
history. -/
theorem history {I : List ι → σ → Prop} (h0 : I [] M.init)
    (hs : ∀ is i, I is (M.run is) → I (is ++ [i]) (M.step (M.run is) i).1) :
    ∀ is, I is (M.run is) := by
  intro is
  induction is using List.reverseRecOn with
  | nil => exact h0
  | append_singleton is i ih =>
    rw [M.run_snoc]
    exact hs is i ih

/-- The invariant rule. -/
theorem invariant {I : σ → Prop} (h0 : I M.init) (hs : ∀ s i, I s → I (M.step s i).1) :
    ∀ is, I (M.run is) :=
  M.history (I := fun _ s => I s) h0 fun _ i h => hs _ i h

/-- A quantity that no step lowers only grows along a run. -/
theorem run_mono {f : σ → ℕ} (hf : ∀ s i, f s ≤ f (M.step s i).1) {is js : List ι}
    (h : is <+: js) : f (M.run is) ≤ f (M.run js) := by
  obtain ⟨ks, rfl⟩ := h
  induction ks using List.reverseRecOn with
  | nil => simp
  | append_singleton ks k ih =>
    rw [← List.append_assoc, M.run_snoc]
    exact Nat.le_trans ih (hf _ k)

/-- The purge rule: skipped inputs keep the relation on the left, kept ones keep it on both sides
and look the same. Then deleting the skipped inputs changes nothing that is looked at. -/
theorem purge {β : Type} {R : σ → σ → Prop} {k : ι → Bool} {f : ι → ο → β}
    (hskip : ∀ s s' i, R s s' → k i = false → R (M.step s i).1 s')
    (hkeep : ∀ s s' i, R s s' → k i = true →
      R (M.step s i).1 (M.step s' i).1 ∧ f i (M.step s i).2 = f i (M.step s' i).2)
    (is : List ι) {s s' : σ} (h : R s s') :
    R (M.runFrom s is) (M.runFrom s' (is.filter k)) ∧
      ((is.zip (M.outputsFrom s is)).filter fun p => k p.1).map (fun p => f p.1 p.2) =
        ((is.filter k).zip (M.outputsFrom s' (is.filter k))).map fun p => f p.1 p.2 := by
  induction is generalizing s s' with
  | nil => exact ⟨h, rfl⟩
  | cons i is ih =>
    cases hi : k i with
    | false =>
      simp only [List.filter_cons, hi, runFrom, outputsFrom, List.zip_cons_cons]
      exact ih (hskip s s' i h hi)
    | true =>
      obtain ⟨hr, hf⟩ := hkeep s s' i h hi
      simp only [List.filter_cons, hi, runFrom, outputsFrom, List.zip_cons_cons, if_true,
        List.map_cons, hf]
      exact ⟨(ih hr).1, by rw [(ih hr).2]⟩

/-- The register rule: where every step leaves what is seen of the state alone or sets it, a run
leaves there what was set last. -/
theorem register {β : Type} (view : σ → β) (written : ι → ο → Option β)
    (h : ∀ s i, view (M.step s i).1 = (written i (M.step s i).2).getD (view s)) (is : List ι) :
    view (M.run is) =
      ((is.zip (M.outputs is)).filterMap fun p => written p.1 p.2).getLast?.getD (view M.init) := by
  unfold run outputs
  generalize M.init = s
  induction is generalizing s with
  | nil => rfl
  | cons i is ih =>
    simp only [runFrom, outputsFrom, List.zip_cons_cons, List.filterMap_cons]
    rw [ih, h s i]
    cases written i (M.step s i).2 with
    | none => rfl
    | some b => simp [List.getLast?_cons]

end Mealy

/-- An action is taken only where its guard holds; taking it emits a list of outputs. -/
structure Guarded (σ α ο : Type) where
  init : σ
  step : σ → α → Option (σ × List ο)

namespace Guarded

variable {σ α ο : Type}

/-- `Path G os s`: some run of `G` from its initial state ends in `s` having emitted `os`. -/
inductive Path (G : Guarded σ α ο) : List ο → σ → Prop where
  | nil : Path G [] G.init
  | step {os : List ο} {s s' : σ} {a : α} {out : List ο} :
      Path G os s → G.step s a = some (s', out) → Path G (os ++ out) s'

/-- Taking the actions one after the other, with what has been emitted so far. -/
def exec (G : Guarded σ α ο) : List ο × σ → List α → Option (List ο × σ)
  | r, [] => some r
  | (os, s), a :: as =>
    match G.step s a with
    | none => none
    | some (s', out) => exec G (os ++ out, s') as

theorem Path.exec {G : Guarded σ α ο} {as : List α} {r r' : List ο × σ} (h : Path G r.1 r.2)
    (he : G.exec r as = some r') : Path G r'.1 r'.2 := by
  induction as generalizing r with
  | nil =>
    cases he
    exact h
  | cons a as ih =>
    simp only [Guarded.exec] at he
    split at he
    · cases he
    · rename_i s' out hs
      exact ih (.step h hs) he

/-- A run found by evaluation. -/
theorem exists_path {G : Guarded σ α ο} {a : List α} {p : List ο × σ → Bool}
    (h : (G.exec ([], G.init) a).any p = true) : ∃ os s, Path G os s ∧ p (os, s) = true := by
  obtain ⟨⟨os, s⟩, he, hp⟩ := (Option.any_eq_true _ _).mp h
  exact ⟨os, s, Path.exec .nil he, hp⟩

/-- What holds initially and is kept by every step holds at the end of every run. -/
theorem Path.history {G : Guarded σ α ο} {I : List ο → σ → Prop} (h0 : I [] G.init)
    (hs : ∀ os s a s' out, I os s → G.step s a = some (s', out) → I (os ++ out) s')
    {os : List ο} {s : σ} (h : Path G os s) : I os s := by
  induction h with
  | nil => exact h0
  | step _ ht ih => exact hs _ _ _ _ _ ih ht

/-- The machine whose runs are the runs of `G` in which every step meets `C`. -/
def only (G : Guarded σ α ο) (C : σ → α → Prop) [∀ s a, Decidable (C s a)] : Guarded σ α ο where
  init := G.init
  step s a := if C s a then G.step s a else none

theorem only_step {G : Guarded σ α ο} {C : σ → α → Prop} [∀ s a, Decidable (C s a)] {s : σ} {a : α}
    {r : σ × List ο} : (G.only C).step s a = some r ↔ C s a ∧ G.step s a = some r := by
  simp [only]

theorem Path.of_only {G : Guarded σ α ο} {C : σ → α → Prop} [∀ s a, Decidable (C s a)] {os : List ο}
    {s : σ} (h : Path (G.only C) os s) : Path G os s := by
  induction h with
  | nil => exact .nil
  | step _ ht ih => exact .step ih (only_step.mp ht).2

/-- The same machine, with every output beside the action that emitted it. -/
def labelled (G : Guarded σ α ο) : Guarded σ α (α × ο) where
  init := G.init
  step s a := (G.step s a).map fun r => (r.1, r.2.map fun o => (a, o))

theorem labelled_step {G : Guarded σ α ο} {s s' : σ} {a : α} {out : List (α × ο)}
    (h : G.labelled.step s a = some (s', out)) :
    ∃ out', G.step s a = some (s', out') ∧ out = out'.map fun o => (a, o) := by
  obtain ⟨⟨t, out'⟩, hs, heq⟩ := Option.map_eq_some_iff.mp h
  cases heq
  exact ⟨out', hs, rfl⟩

/-- A step of a run: the state it was taken in, the action and what it emitted. -/
structure Record (σ α ο : Type) where
  state : σ
  action : α
  outputs : List ο

/-- The same machine, which keeps a record of its steps. -/
def recorded (G : Guarded σ α ο) : Guarded σ α (Record σ α ο) where
  init := G.init
  step s a := (G.step s a).map fun r => (r.1, [⟨s, a, r.2⟩])

theorem recorded_step {G : Guarded σ α ο} {s s' : σ} {a : α} {out : List (Record σ α ο)}
    (h : G.recorded.step s a = some (s', out)) :
    ∃ os, G.step s a = some (s', os) ∧ out = [⟨s, a, os⟩] := by
  obtain ⟨⟨t, os⟩, hs, heq⟩ := Option.map_eq_some_iff.mp h
  cases heq
  exact ⟨os, hs, rfl⟩

/-- Every record is of a step that the run up to it allows. -/
theorem Path.record {G : Guarded σ α ο} {rs : List (Record σ α ο)} {s : σ}
    (h : G.recorded.Path rs s) {l r : List (Record σ α ο)} {x : Record σ α ο}
    (heq : rs = l ++ x :: r) :
    G.recorded.Path l x.state ∧ ∃ s', G.step x.state x.action = some (s', x.outputs) := by
  induction h generalizing r with
  | nil => cases l <;> cases heq
  | step hp ht ih =>
    obtain ⟨os, hs, rfl⟩ := recorded_step ht
    rcases r.eq_nil_or_concat with rfl | ⟨r, y, rfl⟩
    · obtain ⟨rfl, hx⟩ := List.append_inj' heq rfl
      cases hx
      exact ⟨hp, _, hs⟩
    · rw [List.concat_eq_append, ← List.cons_append, ← List.append_assoc] at heq
      exact ih (List.append_inj' heq rfl).1

/-- The rule of termination: if the steps of a party `Q` keep an invariant and use up some of a
measure, then the party cannot take more of them than the measure has. -/
theorem exec_bounded {G : Guarded σ α ο} {I : σ → Prop} {Q : α → Prop} {f : σ → ℕ}
    (h : ∀ s a s' out, I s → Q a → G.step s a = some (s', out) → I s' ∧ f s' < f s)
    {as : List α} {r r' : List ο × σ} (hs : I r.2) (has : ∀ a ∈ as, Q a)
    (he : G.exec r as = some r') : I r'.2 ∧ as.length + f r'.2 ≤ f r.2 := by
  induction as generalizing r with
  | nil =>
    cases he
    exact ⟨hs, by simp⟩
  | cons a as ih =>
    simp only [Guarded.exec] at he
    split at he
    · cases he
    · rename_i s' out hstep
      obtain ⟨hI, hlt⟩ := h _ a s' out hs (has a (by simp)) hstep
      obtain ⟨hI', hle⟩ : I r'.2 ∧ as.length + f r'.2 ≤ f s' :=
        ih hI (fun b hb => has b (by simp [hb])) he
      refine ⟨hI', ?_⟩
      simp only [List.length_cons]
      omega

end Guarded

section Throughout

variable {σ α : Type} {P : σ → Prop} {f : σ → α → σ}

/-- `P` holds in `s` and after each of the inputs, taken one after the other. -/
def Throughout (P : σ → Prop) (f : σ → α → σ) : σ → List α → Prop
  | s, [] => P s
  | s, a :: as => P s ∧ Throughout P f (f s a) as

theorem Throughout.head {s : σ} {as : List α} (h : Throughout P f s as) : P s := by
  cases as with
  | nil => exact h
  | cons a as => exact h.1

theorem Throughout.append {s : σ} {as bs : List α} (h : Throughout P f s as)
    (hb : Throughout P f (as.foldl f s) bs) : Throughout P f s (as ++ bs) := by
  induction as generalizing s with
  | nil => exact hb
  | cons a as ih => exact ⟨h.1, ih h.2 hb⟩

end Throughout
/-! ## Steps that are counted -/

section Steps

variable {σ : Type} {R : σ → σ → Prop} {init : σ}

/-- A state that is reached from the initial one in so many steps. -/
inductive Steps (R : σ → σ → Prop) (init : σ) : ℕ → σ → Prop where
  | start : Steps R init 0 init
  | step {n : ℕ} {s s' : σ} : Steps R init n s → R s s' → Steps R init (n + 1) s'

theorem Steps.invariant {I : σ → Prop} (h0 : I init) (hs : ∀ s s', I s → R s s' → I s') {n : ℕ}
    {s : σ} (h : Steps R init n s) : I s := by
  induction h with
  | start => exact h0
  | step _ hr ih => exact hs _ _ ih hr

/-- The rule of termination: an invariant under which every step uses up some of a measure. -/
theorem Steps.bounded {I : σ → Prop} {f : σ → ℕ} (h0 : I init)
    (hs : ∀ s s', I s → R s s' → I s' ∧ f s' < f s) {n : ℕ} {s : σ} (h : Steps R init n s) :
    I s ∧ n + f s ≤ f init := by
  induction h with
  | start => exact ⟨h0, by omega⟩
  | step _ hr ih =>
    obtain ⟨hI, hlt⟩ := hs _ _ ih.1 hr
    exact ⟨hI, by omega⟩

/-- A run without an end. -/
def Endless (R : σ → σ → Prop) (init : σ) : Prop :=
  ∃ run : ℕ → σ, run 0 = init ∧ ∀ i, R (run i) (run (i + 1))

/-- The rule of divergence: an invariant under which there is always a step that keeps it. -/
theorem Endless.of_invariant {I : σ → Prop} (h0 : I init) (hs : ∀ s, I s → ∃ s', R s s' ∧ I s') :
    Endless R init := by
  choose! next hnext using hs
  have hI (i : ℕ) : I (next^[i] init) := by
    induction i with
    | zero => exact h0
    | succ i ih =>
      rw [Function.iterate_succ_apply']
      exact (hnext _ ih).2
  refine ⟨fun i => next^[i] init, rfl, fun i => ?_⟩
  simp only [Function.iterate_succ_apply']
  exact (hnext _ (hI i)).1

theorem Endless.cons {s : σ} (h : R init s) (hs : Endless R s) : Endless R init := by
  obtain ⟨run, rfl, hrun⟩ := hs
  refine ⟨fun i => Nat.casesOn i init run, rfl, fun i => ?_⟩
  cases i with
  | zero => exact h
  | succ i => exact hrun i

theorem Endless.steps (h : Endless R init) (n : ℕ) : ∃ s, Steps R init n s := by
  obtain ⟨run, rfl, hrun⟩ := h
  refine ⟨run n, ?_⟩
  induction n with
  | zero => exact .start
  | succ n ih => exact .step ih (hrun n)

end Steps

end Lib
end Montray
