import Mathlib

/-!
# Montray.Lib.Keyed

Finite maps with string keys, the orders in which a loop may visit one, and loops whose passes
touch one key each.

* `KeyMap`: an extensional finite map, so two maps are equal when they look up the same.
* `RangeOrder`: an order of visiting the entries of a map. A loop over a hash map is modelled by
  folding over `visit`, and a theorem about it quantifies over the order.
* `foldl_keyed`: if each pass of a loop changes what is seen at its own key only and no key is
  visited twice, the loop acts on every key on its own.
-/

namespace Montray
namespace Lib

abbrev KeyMap (ν : Type) := Std.ExtTreeMap String ν compare

namespace KeyMap

variable {ν : Type}

theorem lookup_insert (m : KeyMap ν) (k a : String) (v : ν) :
    (m.insert k v)[a]? = if k = a then some v else m[a]? := by
  simp [Std.ExtTreeMap.getElem?_insert]

theorem lookup_erase (m : KeyMap ν) (k a : String) :
    (m.erase k)[a]? = if k = a then none else m[a]? := by
  simp [Std.ExtTreeMap.getElem?_erase]

theorem lookup_none_iff {m : KeyMap ν} {k : String} : m[k]? = none ↔ k ∉ m := by
  simp

theorem mem_iff_lookup {m : KeyMap ν} {k : String} : k ∈ m ↔ ∃ v, m[k]? = some v := by
  rw [← Option.isSome_iff_exists, Std.ExtTreeMap.isSome_getElem?_iff_mem]

theorem nodup_toList_keys (m : KeyMap ν) : (m.toList.map Prod.fst).Nodup := by
  rw [Std.ExtTreeMap.map_fst_toList_eq_keys]
  exact Std.ExtTreeMap.nodup_keys

theorem mem_toList {m : KeyMap ν} {k : String} {v : ν} : (k, v) ∈ m.toList ↔ m[k]? = some v :=
  Std.ExtTreeMap.mem_toList_iff_getElem?_eq_some

theorem not_mem_toList_keys {m : KeyMap ν} {k : String} (h : m[k]? = none) :
    k ∉ m.toList.map Prod.fst := by
  intro hk
  obtain ⟨⟨a, v⟩, hmem, rfl⟩ := List.mem_map.mp hk
  rw [mem_toList.mp hmem] at h
  cases h

/-- A concatenation over the entries to which only the entry of `k` contributes. -/
theorem flatMap_toList {β : Type} {m : KeyMap ν} {k : String} {g : String × ν → List β}
    (h : ∀ p ∈ m.toList, p.1 ≠ k → g p = []) :
    m.toList.flatMap g = (m[k]?.map fun v => g (k, v)).getD [] := by
  cases hk : m[k]? with
  | none =>
    refine List.flatMap_eq_nil_iff.mpr fun p hp => h p hp fun heq => ?_
    exact not_mem_toList_keys hk (List.mem_map.mpr ⟨p, hp, heq⟩)
  | some v =>
    have hnd := m.nodup_toList_keys
    obtain ⟨l, r, hlr⟩ := List.append_of_mem (mem_toList.mpr hk)
    rw [hlr] at h hnd ⊢
    simp only [List.map_append, List.map_cons, List.nodup_append, List.nodup_cons, List.mem_map,
      not_exists, not_and, List.mem_cons] at hnd
    have hl : l.flatMap g = [] := by
      refine List.flatMap_eq_nil_iff.mpr fun p hp => h p (by simp [hp]) ?_
      exact hnd.2.2 p.1 ⟨p, hp, rfl⟩ k (.inl rfl)
    have hr : r.flatMap g = [] :=
      List.flatMap_eq_nil_iff.mpr fun p hp => h p (by simp [hp]) (hnd.2.1.1 p hp)
    simp [hl, hr]

theorem size_eq_zero_iff {m : KeyMap ν} : m.size = 0 ↔ ∀ k : String, m[k]? = none := by
  rw [← Std.ExtTreeMap.eq_empty_iff_size_eq_zero]
  constructor
  · rintro rfl k
    simp
  · intro h
    apply Std.ExtTreeMap.ext_getElem?
    simpa using h

theorem size_eq_ncard (m : KeyMap ν) : m.size = {k | k ∈ m}.ncard := by
  have hset : {k | k ∈ m} = (m.keys.toFinset : Set String) := by
    ext k
    simp
  rw [hset, Set.ncard_coe_finset, List.toFinset_card_of_nodup Std.ExtTreeMap.nodup_keys,
    Std.ExtTreeMap.length_keys]

/-- `m` with the entry at `k` set to `o`, or removed. -/
def put (m : KeyMap ν) (k : String) : Option ν → KeyMap ν
  | some v => m.insert k v
  | none => m.erase k

theorem lookup_put (m : KeyMap ν) (k a : String) (o : Option ν) :
    (put m k o)[a]? = if k = a then o else m[a]? := by
  cases o with
  | some v => exact lookup_insert m k a v
  | none => exact lookup_erase m k a

theorem put_lookup {m : KeyMap ν} {k : String} {o : Option ν} (h : m[k]? = o) : put m k o = m := by
  apply Std.ExtTreeMap.ext_getElem?
  intro a
  rw [lookup_put]
  split
  · rename_i hk
    rw [← hk, h]
  · rfl

theorem lookup_modify (m : KeyMap ν) (k a : String) (f : ν → ν) :
    (m.modify k f)[a]? = if k = a then m[k]?.map f else m[a]? := by
  simp [Std.ExtTreeMap.getElem?_modify]

theorem modify_eq_put (m : KeyMap ν) (k : String) (f : ν → ν) :
    m.modify k f = put m k (m[k]?.map f) := by
  apply Std.ExtTreeMap.ext_getElem?
  intro a
  rw [lookup_modify, lookup_put]

/-- Every entry of `m` satisfies `P`. -/
def All (m : KeyMap ν) (P : String → ν → Prop) : Prop :=
  ∀ (k : String) (v : ν), m[k]? = some v → P k v

section All

variable {m : KeyMap ν} {P Q : String → ν → Prop} {k : String} {v : ν}

theorem all_empty : All (∅ : KeyMap ν) P := by
  intro k v h
  simp at h

theorem All.insert (h : All m P) (hv : P k v) : All (m.insert k v) P := by
  intro a w hw
  rw [lookup_insert] at hw
  split at hw
  · rename_i hk
    cases hw
    exact hk ▸ hv
  · exact h a w hw

theorem All.erase (h : All m P) : All (m.erase k) P := by
  intro a w hw
  rw [lookup_erase] at hw
  split at hw
  · cases hw
  · exact h a w hw

theorem All.imp (h : All m P) (hpq : ∀ k v, P k v → Q k v) : All m Q :=
  fun k v hv => hpq k v (h k v hv)

theorem All.put {o : Option ν} (h : All m P) (hv : ∀ v, o = some v → P k v) : All (put m k o) P := by
  cases o with
  | none => exact h.erase
  | some v => exact h.insert (hv v rfl)

end All

/-- Some entry of `m` has the attribute `y`. -/
def Has {γ : Type} (m : KeyMap ν) (f : ν → Option γ) (y : γ) : Prop :=
  ∃ (k : String) (v : ν), m[k]? = some v ∧ f v = some y

section Has

variable {γ : Type} {m : KeyMap ν} {f : ν → Option γ} {y : γ} {k : String} {v : ν} {o : Option ν}

theorem has_put (h : o.bind f = some y) : Has (put m k o) f y := by
  obtain ⟨w, rfl, hw⟩ := Option.bind_eq_some_iff.mp h
  exact ⟨k, w, by rw [lookup_put, if_pos rfl], hw⟩

theorem Has.of_put (h : Has (put m k o) f y) : Has m f y ∨ o.bind f = some y := by
  obtain ⟨a, w, ha, hw⟩ := h
  rw [lookup_put] at ha
  split at ha
  · exact .inr (by rw [ha]; exact hw)
  · exact .inl ⟨a, w, ha, hw⟩

/-- An entry without the attribute may be replaced. -/
theorem Has.put (h : Has m f y) (hk : m[k]?.bind f ≠ some y) : Has (put m k o) f y := by
  obtain ⟨a, w, ha, hw⟩ := h
  refine ⟨a, w, ?_, hw⟩
  rw [lookup_put, if_neg, ha]
  rintro rfl
  rw [ha] at hk
  exact hk hw

/-- An entry may be replaced by one with the same attribute. -/
theorem has_put_iff (h : o.bind f = m[k]?.bind f) : Has (KeyMap.put m k o) f y ↔ Has m f y := by
  by_cases hy : m[k]?.bind f = some y
  · obtain ⟨w, hw, hf⟩ := Option.bind_eq_some_iff.mp hy
    exact iff_of_true (has_put (h.trans hy)) ⟨k, w, hw, hf⟩
  · constructor
    · intro hput
      rcases hput.of_put with hput | hput
      · exact hput
      · exact absurd (h.symm.trans hput) hy
    · exact fun hm => hm.put hy

end Has

end KeyMap

/-- An order in which a loop may visit the entries of a map. -/
structure RangeOrder (ν : Type) where
  visit : KeyMap ν → List (String × ν)
  perm : ∀ m, (visit m).Perm m.toList

namespace RangeOrder

variable {ν : Type}

/-- Visiting in key order. -/
def sorted (ν : Type) : RangeOrder ν := ⟨fun m => m.toList, fun _ => .refl _⟩

theorem mem_visit (o : RangeOrder ν) {m : KeyMap ν} {k : String} {v : ν} :
    (k, v) ∈ o.visit m ↔ m[k]? = some v := by
  rw [(o.perm m).mem_iff, KeyMap.mem_toList]

theorem nodup_visit (o : RangeOrder ν) (m : KeyMap ν) : ((o.visit m).map Prod.fst).Nodup :=
  ((o.perm m).map Prod.fst).nodup_iff.mpr m.nodup_toList_keys

end RangeOrder

section Fold

variable {σ α κ β : Type} {f : σ → α → σ} {key : α → κ} {v : σ → κ → β}

theorem foldl_keyed_other (hother : ∀ s a k, k ≠ key a → v (f s a) k = v s k) :
    ∀ (l : List α) (s : σ) (k : κ), (∀ a ∈ l, key a ≠ k) → v (l.foldl f s) k = v s k := by
  intro l
  induction l with
  | nil => intro s k _; rfl
  | cons a l ih =>
    intro s k hk
    rw [List.foldl_cons, ih (f s a) k fun b hb => hk b (List.mem_cons_of_mem _ hb)]
    exact hother s a k fun h => hk a List.mem_cons_self h.symm

/-- A loop whose passes each change the view at their own key only, with no key visited twice:
at a visited key the view changes as that one pass changes it. `I` is what the loop keeps and
`R` what one pass does at its key. -/
theorem foldl_keyed_rel {I : σ → Prop} {R : α → β → β → Prop}
    (hinv : ∀ s a, I s → I (f s a))
    (hself : ∀ s a, I s → R a (v s (key a)) (v (f s a) (key a)))
    (hother : ∀ s a k, k ≠ key a → v (f s a) k = v s k) :
    ∀ (l : List α) (s : σ), I s → (l.map key).Nodup →
      ∀ a ∈ l, R a (v s (key a)) (v (l.foldl f s) (key a)) := by
  intro l
  induction l with
  | nil => intro s _ _ a ha; cases ha
  | cons b l ih =>
    intro s hs hnd a ha
    simp only [List.map_cons, List.nodup_cons, List.mem_map, not_exists, not_and] at hnd
    rw [List.foldl_cons]
    rcases List.mem_cons.mp ha with rfl | hal
    · rw [foldl_keyed_other hother l (f s a) (key a) fun c hc => hnd.1 c hc]
      exact hself s a hs
    · have hne : key a ≠ key b := hnd.1 a hal
      have := ih (f s b) (hinv s b hs) hnd.2 a hal
      rwa [hother s b (key a) hne] at this

/-- `foldl_keyed_rel` for a pass that is a function of what it finds at its key. -/
theorem foldl_keyed {u : α → β → β}
    (hself : ∀ s a, v (f s a) (key a) = u a (v s (key a)))
    (hother : ∀ s a k, k ≠ key a → v (f s a) k = v s k)
    (l : List α) (s : σ) (hnd : (l.map key).Nodup) {a : α} (ha : a ∈ l) :
    v (l.foldl f s) (key a) = u a (v s (key a)) :=
  foldl_keyed_rel (I := fun _ => True) (R := fun a b b' => b' = u a b) (fun _ _ _ => trivial)
    (fun s a _ => hself s a) hother l s trivial hnd a ha

end Fold

namespace KeyMap

variable {α ν : Type} {key : α → String} {val : α → ν} {l : List α} {a : α} {k : String}

theorem lookup_foldl_erase_other (m : KeyMap ν) (h : ∀ a ∈ l, key a ≠ k) :
    (l.foldl (fun m a => m.erase (key a)) m)[k]? = m[k]? :=
  foldl_keyed_other (v := fun (m : KeyMap ν) k => m[k]?)
    (fun m a k hk => by rw [lookup_erase, if_neg hk.symm]) l m k h

theorem lookup_foldl_erase (m : KeyMap ν) (hnd : (l.map key).Nodup) (ha : a ∈ l) :
    (l.foldl (fun m a => m.erase (key a)) m)[key a]? = none :=
  foldl_keyed (v := fun (m : KeyMap ν) k => m[k]?) (u := fun _ _ => none)
    (fun m a => by rw [lookup_erase, if_pos rfl])
    (fun m a k hk => by rw [lookup_erase, if_neg hk.symm]) l m hnd ha

theorem lookup_foldl_insert_other (m : KeyMap ν) (h : ∀ a ∈ l, key a ≠ k) :
    (l.foldl (fun m a => m.insert (key a) (val a)) m)[k]? = m[k]? :=
  foldl_keyed_other (v := fun (m : KeyMap ν) k => m[k]?)
    (fun m a k hk => by rw [lookup_insert, if_neg hk.symm]) l m k h

theorem lookup_foldl_insert (m : KeyMap ν) (hnd : (l.map key).Nodup) (ha : a ∈ l) :
    (l.foldl (fun m a => m.insert (key a) (val a)) m)[key a]? = some (val a) :=
  foldl_keyed (v := fun (m : KeyMap ν) k => m[k]?) (u := fun a _ => some (val a))
    (fun m a => by rw [lookup_insert, if_pos rfl])
    (fun m a k hk => by rw [lookup_insert, if_neg hk.symm]) l m hnd ha

section Upsert

variable {ε μ : Type} (f : String → Option μ → ν → Except ε μ)

/-- Visits the entries of a list, setting each key to what `f` makes of the old value and the new
one, up to the first failure. -/
def upsert (m : KeyMap μ) : List (String × ν) → Except ε (KeyMap μ)
  | [] => .ok m
  | (k, v) :: l =>
    match f k m[k]? v with
    | .error e => .error e
    | .ok w => upsert (m.insert k w) l

variable {f}

theorem upsert_ok {l : List (String × ν)} {m m' : KeyMap μ} (hnd : (l.map Prod.fst).Nodup)
    (h : upsert f m l = .ok m') :
    (∀ k v, (k, v) ∈ l → ∃ w, f k m[k]? v = .ok w ∧ m'[k]? = some w) ∧
      ∀ k : String, k ∉ l.map Prod.fst → m'[k]? = m[k]? := by
  induction l generalizing m with
  | nil =>
    cases h
    simp
  | cons p l ih =>
    obtain ⟨a, u⟩ := p
    rw [List.map_cons, List.nodup_cons] at hnd
    obtain ⟨ha, hnd⟩ := hnd
    simp only [upsert] at h
    split at h
    · cases h
    · rename_i w hw
      obtain ⟨hin, hout⟩ := ih hnd h
      refine ⟨?_, ?_⟩
      · intro k v hmem
        rcases List.mem_cons.mp hmem with heq | hmem
        · cases heq
          exact ⟨w, hw, by rw [hout a ha, lookup_insert, if_pos rfl]⟩
        · have hne : a ≠ k := fun heq => ha (heq ▸ List.mem_map.mpr ⟨(k, v), hmem, rfl⟩)
          obtain ⟨w', hw', hm'⟩ := hin k v hmem
          rw [lookup_insert, if_neg hne] at hw'
          exact ⟨w', hw', hm'⟩
      · intro k hk
        rw [List.map_cons, List.mem_cons, not_or] at hk
        rw [hout k hk.2, lookup_insert, if_neg (Ne.symm hk.1)]

theorem upsert_total {l : List (String × ν)} {m : KeyMap μ}
    (h : ∀ k v, (k, v) ∈ l → ∀ o, ∃ w, f k o v = .ok w) : ∃ m', upsert f m l = .ok m' := by
  induction l generalizing m with
  | nil => exact ⟨m, rfl⟩
  | cons p l ih =>
    obtain ⟨w, hw⟩ := h p.1 p.2 List.mem_cons_self m[p.1]?
    simp only [upsert, hw]
    exact ih fun k v hmem => h k v (List.mem_cons_of_mem _ hmem)

/-- If the old value never decides whether `f` fails, and how, then the map does not either. -/
theorem upsert_uniform
    (h : ∀ k v, (∃ e, ∀ o, f k o v = .error e) ∨ ∃ g : Option μ → μ, ∀ o, f k o v = .ok (g o))
    (l : List (String × ν)) :
    (∃ e, ∀ m, upsert f m l = .error e) ∨
      ∃ g : KeyMap μ → KeyMap μ, ∀ m, upsert f m l = .ok (g m) := by
  induction l with
  | nil => exact .inr ⟨id, fun m => rfl⟩
  | cons p l ih =>
    rcases h p.1 p.2 with ⟨e, he⟩ | ⟨w, hw⟩
    · exact .inl ⟨e, fun m => by simp only [upsert, he]⟩
    · rcases ih with ⟨e, he⟩ | ⟨g, hg⟩
      · exact .inl ⟨e, fun m => by simp only [upsert, hw, he]⟩
      · exact .inr ⟨fun m => g (m.insert p.1 (w m[p.1]?)), fun m => by simp only [upsert, hw, hg]⟩

end Upsert

/-- The map of a list of entries; a later entry replaces an earlier one with its key. -/
def ofEntries (l : List (String × ν)) : KeyMap ν := l.foldl (fun m p => m.insert p.1 p.2) ∅

theorem ofEntries_toList (m : KeyMap ν) : ofEntries m.toList = m := by
  apply Std.ExtTreeMap.ext_getElem?
  intro k
  cases hk : m[k]? with
  | none =>
    have hne : ∀ p ∈ m.toList, p.1 ≠ k :=
      fun p hp heq => not_mem_toList_keys hk (List.mem_map.mpr ⟨p, hp, heq⟩)
    exact (lookup_foldl_insert_other ∅ hne).trans (by simp)
  | some v =>
    have hget : (ofEntries m.toList)[(k, v).1]? = some (k, v).2 :=
      lookup_foldl_insert ∅ m.nodup_toList_keys (mem_toList.mpr hk)
    exact hget

theorem all_ofEntries {P : String → ν → Prop} {l : List (String × ν)} (h : ∀ p ∈ l, P p.1 p.2) :
    All (ofEntries l) P := by
  suffices hfold : ∀ m : KeyMap ν, All m P → All (l.foldl (fun m p => m.insert p.1 p.2) m) P from
    hfold ∅ all_empty
  induction l with
  | nil => exact fun m hm => hm
  | cons p l ih =>
    intro m hm
    exact ih (fun q hq => h q (List.mem_cons_of_mem _ hq)) _ (hm.insert (h p List.mem_cons_self))

theorem ofEntries_lookup_none {l : List (String × ν)} {k : String} (h : ∀ p ∈ l, p.1 ≠ k) :
    (ofEntries l)[k]? = none :=
  (lookup_foldl_insert_other ∅ h).trans (by simp)

/-- The last entry with a key counts. -/
theorem ofEntries_lookup (l : List (String × ν)) (k : String) :
    (ofEntries l)[k]? = (l.reverse.find? fun p => p.1 = k).map Prod.snd := by
  induction l using List.reverseRecOn with
  | nil => simp [ofEntries]
  | append_singleton l p ih =>
    have happend : ofEntries (l ++ [p]) = (ofEntries l).insert p.1 p.2 := by simp [ofEntries]
    rw [happend, lookup_insert, List.reverse_append, List.reverse_singleton, List.singleton_append]
    by_cases hp : p.1 = k
    · rw [if_pos hp, List.find?_cons_of_pos (by simpa using hp), Option.map_some]
    · rw [if_neg hp, List.find?_cons_of_neg (by simpa using hp), ih]

/-- Lists of entries that correspond to each other make maps that do. -/
theorem ofEntries_forall₂ {μ : Type} {R : ν → μ → Prop} {l : List (String × ν)}
    {l' : List (String × μ)} (h : List.Forall₂ (fun p q => p.1 = q.1 ∧ R p.2 q.2) l l')
    (k : String) : Option.Rel R (ofEntries l)[k]? (ofEntries l')[k]? := by
  suffices hfold : ∀ (m : KeyMap ν) (m' : KeyMap μ), Option.Rel R m[k]? m'[k]? →
      Option.Rel R (l.foldl (fun m p => m.insert p.1 p.2) m)[k]?
        (l'.foldl (fun m p => m.insert p.1 p.2) m')[k]? from
    hfold ∅ ∅ (by simp)
  induction h with
  | nil => exact fun m m' hm => hm
  | cons hp _ ih =>
    intro m m' hm
    rw [List.foldl_cons, List.foldl_cons]
    refine ih _ _ ?_
    rw [lookup_insert, lookup_insert, ← hp.1]
    split
    · exact .some hp.2
    · exact hm

end KeyMap
end Lib
end Montray
