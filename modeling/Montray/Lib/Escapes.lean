import Montray.Lib.Bytes
import Montray.Lib.Sequences

/-!
# Montray.Lib.Escapes

Texts in which every symbol is written as an escape of its own, and readers that undo it.

A reader is followed through one escape with anything behind it; `Prepending.read_flatMap` then
follows it through a whole text. What a reader has found so far is put in front of what it finds in
the rest, whatever the rest is read as: a list, a first word, or an error.

* `Prepending`: the ways of putting something in front, with `inFront` and `onFirst` among them.
* `read_word`: a word whose symbols stand for themselves.
* `replaceAll_singleton`: replacing one symbol is an escape of every symbol.
* `fromHexNumber_hexNumber`: numbers of a fixed width.
-/

namespace Montray
namespace Lib

/-! ## Reading escapes -/

section Reading

variable {α β γ δ τ : Type}

/-- Putting symbols in front, one after the other or all at once. -/
structure Prepending (act : List γ → δ → δ) : Prop where
  nil : ∀ d, act [] d = d
  append : ∀ u v d, act (u ++ v) d = act u (act v d)

/-- A reader that is right about every escape is right about a text of them. -/
theorem Prepending.read_flatMap {act : List γ → δ → δ} (hact : Prepending act)
    {read : List β → δ} {esc : α → List β} {out : α → List γ} {l : List α}
    (h : ∀ a ∈ l, ∀ rest, read (esc a ++ rest) = act (out a) (read rest)) (rest : List β) :
    read (l.flatMap esc ++ rest) = act (l.flatMap out) (read rest) := by
  induction l with
  | nil => exact (hact.nil _).symm
  | cons a l ih =>
    have htail := ih fun b hb => h b (List.mem_cons_of_mem a hb)
    rw [List.flatMap_cons, List.append_assoc, h a List.mem_cons_self, htail, List.flatMap_cons,
      hact.append]

theorem prepending_append : Prepending (fun u v : List γ => u ++ v) :=
  ⟨fun _ => rfl, List.append_assoc⟩

/-- In front of what was read, if anything was. -/
theorem Prepending.option {act : List γ → δ → δ} (hact : Prepending act) :
    Prepending fun u => Option.map (act u) where
  nil d := by
    cases d with
    | none => rfl
    | some r => exact congrArg some (hact.nil r)
  append u v d := by
    cases d with
    | none => rfl
    | some r => exact congrArg some (hact.append u v r)

/-- In front of what was read, with the rest of the text beside it. -/
def inFront (u : List γ) : Option (List γ × τ) → Option (List γ × τ) :=
  Option.map fun r => (u ++ r.1, r.2)

theorem prepending_inFront : Prepending (inFront : List γ → Option (List γ × τ) → _) := by
  refine Prepending.option ⟨fun r => rfl, fun u v r => ?_⟩
  exact Prod.ext (List.append_assoc u v r.1) rfl

/-- In front of the first of some words. -/
def wordsOnFirst : List γ → List (List γ) → List (List γ)
  | [], ws => ws
  | u, [] => [u]
  | u, v :: vs => (u ++ v) :: vs

@[simp] theorem wordsOnFirst_cons (u v : List γ) (vs : List (List γ)) :
    wordsOnFirst u (v :: vs) = (u ++ v) :: vs := by
  cases u <;> rfl

theorem wordsOnFirst_ne_nil {u : List γ} (hu : u ≠ []) (ws : List (List γ)) :
    wordsOnFirst u ws ≠ [] := by
  cases u with
  | nil => exact absurd rfl hu
  | cons a u => cases ws <;> exact List.cons_ne_nil _ _

theorem prepending_wordsOnFirst : Prepending (wordsOnFirst : List γ → List (List γ) → _) where
  nil ws := rfl
  append u v ws := by
    cases ws with
    | cons w ws => simp
    | nil =>
      cases u with
      | nil => rfl
      | cons a u =>
        cases v with
        | nil => simp [wordsOnFirst]
        | cons b v => rfl

def onFirst (u : List γ) : Option (List (List γ)) → Option (List (List γ)) :=
  Option.map (wordsOnFirst u)

theorem prepending_onFirst : Prepending (onFirst : List γ → Option (List (List γ)) → _) :=
  prepending_wordsOnFirst.option

/-- In front of a word that begins here. -/
theorem onFirst_map_nil (u : List γ) (words : Option (List (List γ))) :
    onFirst u (words.map ([] :: ·)) = words.map (u :: ·) := by
  cases words with
  | none => rfl
  | some ws => simp [onFirst]

/-- A word whose symbols `ok` stand for themselves, at its start and within it. -/
theorem read_word {start bare : List γ → Option (List (List γ))} {ok : γ → Bool}
    (hstart : ∀ a rest, ok a = true → start (a :: rest) = onFirst [a] (bare rest))
    (hbare : ∀ a rest, ok a = true → bare (a :: rest) = onFirst [a] (bare rest))
    {a : γ} {l rest : List γ} (hok : (a :: l).all ok = true)
    (hend : bare rest = (start rest).map ([] :: ·)) :
    start (a :: l ++ rest) = (start rest).map ((a :: l) :: ·) := by
  rw [List.all_cons, Bool.and_eq_true, List.all_eq_true] at hok
  have htail : ∀ b ∈ l, ∀ rest, bare ([b] ++ rest) = onFirst [b] (bare rest) :=
    fun b hb rest => hbare b rest (hok.2 b hb)
  have hread := prepending_onFirst.read_flatMap htail rest
  rw [List.flatMap_singleton'] at hread
  rw [List.cons_append, hstart a (l ++ rest) hok.1, hread, ← prepending_onFirst.append, hend,
    onFirst_map_nil]
  rfl

end Reading

/-! ## One symbol replaced -/

theorem replaceAll_singleton {α : Type} [DecidableEq α] (a : α) (new l : List α) :
    replaceAll [a] new l = l.flatMap fun b => if b = a then new else [b] := by
  induction l with
  | nil => rfl
  | cons b l ih =>
    rw [List.flatMap_cons, ← ih]
    by_cases hb : b = a
    · rw [hb, if_pos rfl]
      exact replaceAll_occurrence new (List.cons_ne_nil _ _) l
    · rw [if_neg hb]
      have hskip : ¬ [a] <+: b :: l := fun h => hb (List.cons_prefix_cons.mp h).1.symm
      rw [replaceAll, replaceFrom, if_neg hskip]
      rfl

/-- A symbol with the mark written twice. -/
def doubled {α : Type} [DecidableEq α] (mark a : α) : List α :=
  if a = mark then [mark, mark] else [a]

/-! ## Numbers of a fixed width -/

/-- The lower-case digits, the highest first. -/
def hexNumber : Nat → Nat → List Char
  | 0, _ => []
  | width + 1, n => hexNumber width (n / 16) ++ [hexDigit (n % 16)]

def fromHexNumber (cs : List Char) : Option Nat :=
  cs.foldlM (fun n c => (fromHexChar c).map (16 * n + ·)) 0

@[simp] theorem length_hexNumber (width n : Nat) : (hexNumber width n).length = width := by
  induction width generalizing n with
  | zero => rfl
  | succ width ih => rw [hexNumber, List.length_append, ih, List.length_singleton]

theorem fromHexNumber_hexNumber {width n : Nat} (h : n < 16 ^ width) :
    fromHexNumber (hexNumber width n) = some n := by
  induction width generalizing n with
  | zero =>
    have hn : n = 0 := by simpa using h
    rw [hn]
    rfl
  | succ width ih =>
    have hhigh : n / 16 < 16 ^ width := by
      rw [Nat.pow_succ] at h
      omega
    have hlow := fromHexChar_hexDigit (n % 16) (Nat.mod_lt n (by decide))
    have hparts : 16 * (n / 16) + n % 16 = n := Nat.div_add_mod n 16
    rw [hexNumber, fromHexNumber, List.foldlM_append, ← fromHexNumber, ih hhigh]
    simp [hlow, hparts]

end Lib
end Montray
