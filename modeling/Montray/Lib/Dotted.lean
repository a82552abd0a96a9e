import Mathlib

/-!
# Montray.Lib.Dotted

Names built as `a ++ "." ++ b`. If the first part holds no dot it can be read back, so such names
are equal only part by part, and a dotted name begins with `p ++ "."` only if its first part is `p`.
-/

namespace Montray
namespace Lib

variable {α : Type} {sep : α} {a b x y : List α}

theorem append_sep_inj (ha : sep ∉ a) (hb : sep ∉ b) (h : a ++ sep :: x = b ++ sep :: y) :
    a = b ∧ x = y := by
  induction a generalizing b with
  | nil =>
    cases b with
    | nil => exact ⟨rfl, List.tail_eq_of_cons_eq h⟩
    | cons c b =>
      obtain rfl : sep = c := List.head_eq_of_cons_eq h
      exact absurd (List.mem_cons_self ..) hb
  | cons c a ih =>
    cases b with
    | nil =>
      obtain rfl : c = sep := List.head_eq_of_cons_eq h
      exact absurd (List.mem_cons_self ..) ha
    | cons d b =>
      obtain rfl : c = d := List.head_eq_of_cons_eq h
      obtain ⟨rfl, rfl⟩ := ih (fun hc => ha (List.mem_cons_of_mem _ hc))
        (fun hc => hb (List.mem_cons_of_mem _ hc)) (List.tail_eq_of_cons_eq h)
      exact ⟨rfl, rfl⟩

theorem sep_isPrefix_iff (ha : sep ∉ a) (hb : sep ∉ b) :
    a ++ [sep] <+: b ++ sep :: y ↔ a = b := by
  constructor
  · rintro ⟨t, ht⟩
    rw [List.append_assoc] at ht
    exact (append_sep_inj ha hb ht).1
  · rintro rfl
    exact ⟨y, by simp⟩

/-- Texts that differ in their first `n` characters differ whatever follows. -/
theorem append_ne_append {p q : String} {n : Nat} (hp : n ≤ p.toList.length)
    (hq : n ≤ q.toList.length) (h : p.toList.take n ≠ q.toList.take n) (a b : String) :
    p ++ a ≠ q ++ b := by
  intro heq
  have htake : (p ++ a).toList.take n = (q ++ b).toList.take n := by rw [heq]
  rw [String.toList_append, String.toList_append, List.take_append_of_le_length hp,
    List.take_append_of_le_length hq] at htake
  exact h htake

/-- `a.b` -/
def dotted (a b : String) : String := a ++ "." ++ b

theorem toList_dotted (a b : String) : (dotted a b).toList = a.toList ++ '.' :: b.toList := by
  simp [dotted]

theorem dotted_inj {a b x y : String} (ha : '.' ∉ a.toList) (hb : '.' ∉ b.toList)
    (h : dotted a x = dotted b y) : a = b ∧ x = y := by
  have hl := congrArg String.toList h
  rw [toList_dotted, toList_dotted] at hl
  obtain ⟨h1, h2⟩ := append_sep_inj ha hb hl
  exact ⟨String.toList_inj.mp h1, String.toList_inj.mp h2⟩

/-- Whether a name begins with `p.` -/
def under (p key : String) : Bool := (p.toList ++ ['.']).isPrefixOf key.toList

theorem under_dotted {p a b : String} (hp : '.' ∉ p.toList) (ha : '.' ∉ a.toList) :
    under p (dotted a b) = true ↔ p = a := by
  rw [under, List.isPrefixOf_iff_prefix, toList_dotted, sep_isPrefix_iff hp ha, String.toList_inj]

end Lib
end Montray
