import Montray.Lib.Machine

/-!
# Montray.Lib.Chunks

Machines that are given one list chunk by chunk, and what they have to keep of it.

* `Mealy.chunks`: an invariant about everything that was given, whatever the chunks.
* `Mealy.count_detected`: a machine that answers when something lasting first holds answers once.
* `rtake_append_rtake`: the last elements can be kept up to date from the last elements.
* `infix_append_rtake`: with enough of them, an occurrence that began in an earlier chunk is found.
* `mem_windows`: searching all windows of a list is searching for an occurrence.
-/

namespace Montray
namespace Lib

variable {α : Type}

/-! ## Machines -/

namespace Mealy

variable {σ ο : Type}

theorem chunks (M : Mealy σ (List α) ο) {I : List α → σ → Prop} (h0 : I [] M.init)
    (hs : ∀ given s chunk, I given s → I (given ++ chunk) (M.step s chunk).1)
    (chunks : List (List α)) : I chunks.flatten (M.run chunks) := by
  refine M.history (I := fun chunks s => I chunks.flatten s) h0 ?_ chunks
  intro before chunk h
  rw [List.flatten_append, List.flatten_singleton]
  exact hs _ _ _ h

theorem count_detected (M : Mealy σ (List α) Bool) {P : List α → Prop} [DecidablePred P]
    (h0 : ¬ P []) (hlasts : ∀ given chunk, P given → P (given ++ chunk))
    (hstep : ∀ before chunk, (M.step (M.run before) chunk).2 = true ↔
      ¬ P before.flatten ∧ P (before.flatten ++ chunk))
    (chunks : List (List α)) :
    (M.outputs chunks).count true = if P chunks.flatten then 1 else 0 := by
  induction chunks using List.reverseRecOn with
  | nil => rw [List.flatten_nil, if_neg h0]; rfl
  | append_singleton before chunk ih =>
    rw [M.outputs_snoc, List.count_append, ih, List.flatten_append, List.flatten_singleton,
      List.count_singleton]
    have hanswer := hstep before chunk
    by_cases hbefore : P before.flatten
    · have hno : (M.step (M.run before) chunk).2 = false :=
        Bool.eq_false_iff.mpr fun h => (hanswer.mp h).1 hbefore
      simp [hbefore, hlasts _ chunk hbefore, hno]
    · by_cases hafter : P (before.flatten ++ chunk)
      · simp [hbefore, hafter, hanswer.mpr ⟨hbefore, hafter⟩]
      · have hno : (M.step (M.run before) chunk).2 = false :=
          Bool.eq_false_iff.mpr fun h => hafter (hanswer.mp h).2
        simp [hbefore, hafter, hno]

end Mealy

/-! ## The last elements -/

theorem length_rtake (l : List α) (n : ℕ) : (l.rtake n).length = min n l.length := by
  rw [List.rtake, List.length_drop]
  omega

theorem rtake_suffix (l : List α) (n : ℕ) : l.rtake n <:+ l :=
  List.drop_suffix _ _

theorem suffix_rtake {l c : List α} {n : ℕ} (h : l <:+ c) (hn : l.length ≤ n) :
    l <:+ c.rtake n := by
  refine List.suffix_of_suffix_length_le h (rtake_suffix c n) ?_
  rw [length_rtake]
  exact Nat.le_min.mpr ⟨hn, h.length_le⟩

theorem rtake_append_suffix (c p : List α) (n : ℕ) : c.rtake n ++ p <:+ c ++ p := by
  obtain ⟨l, hl⟩ := rtake_suffix c n
  exact ⟨l, by rw [← List.append_assoc, hl]⟩

theorem rtake_append_rtake (c p : List α) (n : ℕ) :
    (c.rtake n ++ p).rtake n = (c ++ p).rtake n := by
  have hlen : ((c.rtake n ++ p).rtake n).length = ((c ++ p).rtake n).length := by
    simp only [length_rtake, List.length_append]
    omega
  have hsuffix : (c.rtake n ++ p).rtake n <:+ c ++ p :=
    (rtake_suffix _ n).trans (rtake_append_suffix c p n)
  refine (suffix_rtake hsuffix ?_).eq_of_length hlen
  rw [length_rtake]
  exact Nat.min_le_left _ _

theorem rtake_of_length_le {l : List α} {n : ℕ} (h : l.length ≤ n) : l.rtake n = l := by
  rw [List.rtake, Nat.sub_eq_zero_of_le h, List.drop_zero]

/-- A long chunk pushes everything else out. -/
theorem rtake_append_of_le {c p : List α} {n : ℕ} (h : n ≤ p.length) :
    (c ++ p).rtake n = p.rtake n := by
  have hsplit : (c ++ p).length - n = c.length + (p.length - n) := by
    rw [List.length_append]
    omega
  rw [List.rtake, hsplit, List.drop_length_add_append]
  rfl

/-! ## Occurrences -/

theorem infix_append_rtake {w c : List α} (h : ¬ w <:+: c) (p : List α) :
    w <:+: c ++ p ↔ w <:+: c.rtake (w.length - 1) ++ p := by
  constructor
  · intro hw
    rcases List.infix_append_iff.mp hw with hw | hw | ⟨l, r, rfl, hl, hr⟩
    · exact absurd hw h
    · exact List.infix_append_iff.mpr (.inr (.inl hw))
    · -- the occurrence goes on in `p`, so what it has of `c` is shorter than the whole
      have hne : r ≠ [] := by
        rintro rfl
        rw [List.append_nil] at h
        exact h hl.isInfix
      have hpos := List.length_pos_iff.mpr hne
      refine List.infix_append_iff.mpr (.inr (.inr ⟨l, r, rfl, suffix_rtake hl ?_, hr⟩))
      rw [List.length_append]
      omega
  · intro hw
    exact hw.trans (rtake_append_suffix c p _).isInfix

/-- The slices of `n` consecutive elements. -/
def windows (n : ℕ) (l : List α) : List (List α) :=
  (List.range (l.length + 1 - n)).map fun i => (l.drop i).take n

theorem mem_windows {w l : List α} : w ∈ windows w.length l ↔ w <:+: l := by
  simp only [windows, List.mem_map, List.mem_range]
  constructor
  · rintro ⟨i, -, hw⟩
    rw [← hw]
    exact (List.take_prefix _ _).isInfix.trans (List.drop_suffix _ _).isInfix
  · rintro ⟨s, t, rfl⟩
    refine ⟨s.length, ?_, ?_⟩
    · simp only [List.length_append]
      omega
    · rw [List.append_assoc, List.drop_left, List.take_left]

end Lib
end Montray
