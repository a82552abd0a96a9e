import Mathlib

/-!
# Montray.Lib.Requests

Programs that ask their surroundings for one thing after the other, where every request may be
answered in several ways.

* `Prog`: a program, as the tree of its requests. What a request may be answered, and what it does,
  is a relation `does`.
* `Reaches`: the points a program comes through. A program that is killed stops at one of them.
  `execute` is one run.
* `Safe`: what holds after every request, and at the end; the rules follow the program
  (`Safe.bind`), and `Safe.reaches` is what they are for.
* `Keeps`: an invariant that is kept from wherever it holds.
-/

namespace Montray
namespace Lib

inductive Prog (Op : Type) (Answer : Op → Type) (α : Type) : Type where
  | pure (a : α)
  | ask (op : Op) (next : Answer op → Prog Op Answer α)

namespace Prog

variable {Op : Type} {Answer : Op → Type} {σ α β ε : Type}

def bind : Prog Op Answer α → (α → Prog Op Answer β) → Prog Op Answer β
  | .pure a, f => f a
  | .ask op next, f => .ask op fun answer => (next answer).bind f

instance : Monad (Prog Op Answer) where
  pure := .pure
  bind := .bind

/-! ## Runs -/

section Runs

variable (does : σ → (op : Op) → Answer op → σ → Prop)

inductive Step : σ × Prog Op Answer α → σ × Prog Op Answer α → Prop where
  | ask {s s' : σ} {op : Op} {next : Answer op → Prog Op Answer α} {answer : Answer op}
      (h : does s op answer s') : Step (s, .ask op next) (s', next answer)

abbrev Reaches : σ × Prog Op Answer α → σ × Prog Op Answer α → Prop :=
  Relation.ReflTransGen (Step does)

/-- The run in which `respond` answers. -/
def execute (respond : σ → (op : Op) → Answer op × σ) : Prog Op Answer α → σ → α × σ
  | .pure a, s => (a, s)
  | .ask op next, s => (next (respond s op).1).execute respond (respond s op).2

theorem reaches_execute {respond : σ → (op : Op) → Answer op × σ}
    (h : ∀ s op, does s op (respond s op).1 (respond s op).2) (p : Prog Op Answer α) (s : σ) :
    Reaches does (s, p) ((p.execute respond s).2, .pure (p.execute respond s).1) := by
  induction p generalizing s with
  | pure a => exact .refl
  | ask op next ih => exact .head (.ask (h s op)) (ih _ _)

/-- After every request `I` holds, and the result is as `Q` says. -/
def Safe (I : σ → Prop) (Q : α → σ → Prop) : Prog Op Answer α → σ → Prop
  | .pure a, s => Q a s
  | .ask op next, s => ∀ answer s', does s op answer s' → I s' ∧ Safe I Q (next answer) s'

/-- Wherever the invariant holds the program keeps it. -/
def Keeps (I : σ → Prop) (p : Prog Op Answer α) : Prop :=
  ∀ s, I s → Safe does I (fun _ t => I t) p s

end Runs

section Rules

variable {does : σ → (op : Op) → Answer op → σ → Prop} {I : σ → Prop} {Q R : α → σ → Prop}
  {p : Prog Op Answer α} {s s' : σ}

theorem Safe.mono {I' : σ → Prop} {Q' : α → σ → Prop} (h : p.Safe does I Q s)
    (hI : ∀ t, I t → I' t) (hQ : ∀ a t, Q a t → Q' a t) : p.Safe does I' Q' s := by
  induction p generalizing s with
  | pure a => exact hQ a s h
  | ask op next ih =>
    intro answer s' hdoes
    obtain ⟨hstep, hnext⟩ := h answer s' hdoes
    exact ⟨hI _ hstep, ih answer hnext⟩

theorem Safe.bind {S : β → σ → Prop} {f : α → Prog Op Answer β} (h : p.Safe does I R s)
    (hf : ∀ a t, R a t → (f a).Safe does I S t) : (p >>= f).Safe does I S s := by
  induction p generalizing s with
  | pure a => exact hf a s h
  | ask op next ih =>
    intro answer s' hdoes
    obtain ⟨hstep, hnext⟩ := h answer s' hdoes
    exact ⟨hstep, ih answer hnext⟩

/-- At every point of a run the invariant holds, and what is left of the program is safe. -/
theorem Safe.reaches (h : p.Safe does I Q s) (hs : I s) {p' : Prog Op Answer α}
    (hr : Reaches does (s, p) (s', p')) : I s' ∧ p'.Safe does I Q s' := by
  generalize hc : (s', p') = c at hr
  induction hr generalizing s' p' with
  | refl =>
    cases hc
    exact ⟨hs, h⟩
  | tail _ hstep ih =>
    cases hstep with
    | ask hdoes =>
      cases hc
      obtain ⟨-, hsafe⟩ := ih rfl
      exact hsafe _ _ hdoes

/-- An error ends the program, a result is handed on. -/
theorem Safe.bindExcept {x : ExceptT ε (Prog Op Answer) α} {f : α → ExceptT ε (Prog Op Answer) β}
    {R : Except ε α → σ → Prop} {Q : Except ε β → σ → Prop} (h : x.run.Safe does I R s)
    (hok : ∀ a t, R (.ok a) t → (f a).run.Safe does I Q t)
    (herr : ∀ e t, R (.error e) t → Q (.error e) t) : (x >>= f).run.Safe does I Q s := by
  rw [ExceptT.run_bind]
  refine Safe.bind h fun r t hr => ?_
  cases r with
  | ok a => exact hok a t hr
  | error e => exact herr e t hr

theorem Keeps.bind {f : α → Prog Op Answer β} (h : p.Keeps does I)
    (hf : ∀ a, (f a).Keeps does I) : (p >>= f).Keeps does I :=
  fun s hs => Safe.bind (h s hs) fun a t ht => hf a t ht

theorem Keeps.bindExcept {x : ExceptT ε (Prog Op Answer) α} {f : α → ExceptT ε (Prog Op Answer) β}
    (h : x.run.Keeps does I) (hf : ∀ a, (f a).run.Keeps does I) : (x >>= f).run.Keeps does I :=
  fun s hs => Safe.bindExcept (h s hs) (fun a t ht => hf a t ht) (fun _ _ ht => ht)

end Rules

end Prog

end Lib
end Montray
