import Montray.Server.Tracker

/-!
# Montray.Server.TrackerSpec

What the tracker is for: its two maps are a function of the last observations.

* `observations k calls`: what was fed for `k`, in order, with the clock readings. `outage` is the
  unbroken stretch of non-OK observations at its end.
* `Incident calls w`: the history alone says that `w` is an ongoing incident.
* `tracker_is_last_observation`: after any calls the two maps are what the history says, and every
  published total lists exactly the incidents.
-/

namespace Montray
namespace Tracker

open Lib

/-! ## Published lists -/

/-- Every entry is filed under its own key. -/
def Keyed (m : KeyMap ItemWContext) : Prop :=
  ∀ (k : ItemKey) (w : ItemWContext), m[k]? = some w → w.key = k

theorem mem_itemsMapToSortedSlice {order : RangeOrder ItemWContext} {m : KeyMap ItemWContext}
    (hm : Keyed m) {w : ItemWContext} :
    w ∈ itemsMapToSortedSlice order m ↔ m[w.key]? = some w := by
  unfold itemsMapToSortedSlice
  rw [(List.perm_insertionSort _ _).mem_iff, List.mem_map]
  constructor
  · rintro ⟨⟨k, v⟩, hp, rfl⟩
    have hv := order.mem_visit.mp hp
    rw [hm k v hv]
    exact hv
  · intro h
    exact ⟨(w.key, w), order.mem_visit.mpr h, rfl⟩

theorem itemsMapToSortedSlice_sorted {order : RangeOrder ItemWContext} {m : KeyMap ItemWContext}
    (hm : Keyed m) :
    (itemsMapToSortedSlice order m).Pairwise (fun a b => a.key < b.key) := by
  unfold itemsMapToSortedSlice
  have hle := List.pairwise_insertionSort (fun a b : ItemWContext => a.key ≤ b.key)
    ((order.visit m).map Prod.snd)
  have hne : (((order.visit m).map Prod.snd).insertionSort
      (fun a b : ItemWContext => a.key ≤ b.key)).Pairwise (fun a b => a.key ≠ b.key) := by
    rw [(List.perm_insertionSort _ _).pairwise_iff (fun h => Ne.symm h), List.pairwise_map]
    have hnd := order.nodup_visit m
    rw [List.Nodup, List.pairwise_map] at hnd
    refine hnd.imp_of_mem ?_
    intro p q hp hq hpq
    rw [hm p.1 p.2 (order.mem_visit.mp hp), hm q.1 q.2 (order.mem_visit.mp hq)]
    exact hpq
  exact (hle.and hne).imp fun h => lt_of_le_of_ne h.1 h.2

/-- The iteration order does not show in a published list. -/
theorem itemsMapToSortedSlice_order (order order' : RangeOrder ItemWContext)
    {m : KeyMap ItemWContext} (hm : Keyed m) :
    itemsMapToSortedSlice order m = itemsMapToSortedSlice order' m := by
  have hvisit : ((order.visit m).map Prod.snd).Perm ((order'.visit m).map Prod.snd) :=
    ((order.perm m).trans (order'.perm m).symm).map _
  have hperm : (itemsMapToSortedSlice order m).Perm (itemsMapToSortedSlice order' m) :=
    ((List.perm_insertionSort _ _).trans hvisit).trans (List.perm_insertionSort _ _).symm
  exact hperm.eq_of_pairwise (fun a b _ _ hab hba => absurd hba (lt_asymm hab))
    (itemsMapToSortedSlice_sorted hm) (itemsMapToSortedSlice_sorted hm)

theorem Keyed.feedItems {ist : ItemStatesTracker} (h : Keyed ist.itemsNotOK) (c : Call) :
    Keyed (feedItems ist c).1.itemsNotOK := by
  intro k w hw
  rw [feedItems_notOK] at hw
  cases hc : c.newItems[k]? with
  | none =>
    rw [hc] at hw
    exact h k w hw
  | some item =>
    rw [hc] at hw
    have hkey := c.key_eq k item hc
    simp only [reported] at hw
    split at hw
    · cases hw
    · split at hw
      · cases hw
        exact hkey
      · cases hw
        exact hkey

/-! ## The history of a key -/

/-- What the calls fed for `k`, in order, each with the clock reading of its call. -/
def observations (k : ItemKey) (calls : List Call) : List (Item × Time) :=
  calls.filterMap fun c => c.newItems[k]?.map fun item => (item, c.clock k)

def lastFed (k : ItemKey) (calls : List Call) : Option Item :=
  (observations k calls).getLast?.map Prod.fst

/-- The unbroken stretch of non-OK observations at the end of the history of `k`. -/
def outage (k : ItemKey) (calls : List Call) : List (Item × Time) :=
  (observations k calls).rtakeWhile fun o => decide (o.1.state ≠ .ok)

/-- `w` is ongoing after `calls`: it carries the item fed last for its key, which is not OK, and
the clock reading of the call that began the outage. -/
structure Incident (calls : List Call) (w : ItemWContext) : Prop where
  last : lastFed w.key calls = some w.toItem
  notOK : w.state ≠ .ok
  started : (outage w.key calls).head?.map Prod.snd = some w.incidentStartedAt
  fresh : w.stale = false

/-- What the history says about one key, in the shape one pass of the loop needs. -/
structure History (k : ItemKey) (calls : List Call) (ist : ItemStatesTracker) : Prop where
  ok : (∃ w, ist.itemsOK[k]? = some w) ↔ ∃ item, lastFed k calls = some item ∧ item.state = .ok
  notOK : ∀ w, ist.itemsNotOK[k]? = some w ↔ w.key = k ∧ Incident calls w

variable {k : ItemKey} {calls : List Call} {c : Call}

theorem observations_snoc_none (h : c.newItems[k]? = none) :
    observations k (calls ++ [c]) = observations k calls := by
  simp [observations, h]

theorem observations_snoc_some {item : Item} (h : c.newItems[k]? = some item) :
    observations k (calls ++ [c]) = observations k calls ++ [(item, c.clock k)] := by
  simp [observations, h]

theorem lastFed_snoc_none (h : c.newItems[k]? = none) :
    lastFed k (calls ++ [c]) = lastFed k calls := by
  rw [lastFed, lastFed, observations_snoc_none h]

theorem lastFed_snoc_some {item : Item} (h : c.newItems[k]? = some item) :
    lastFed k (calls ++ [c]) = some item := by
  rw [lastFed, observations_snoc_some h, List.getLast?_concat]
  rfl

theorem outage_snoc_none (h : c.newItems[k]? = none) :
    outage k (calls ++ [c]) = outage k calls := by
  rw [outage, outage, observations_snoc_none h]

theorem outage_snoc_some {item : Item} (h : c.newItems[k]? = some item)
    (hs : item.state ≠ .ok) :
    outage k (calls ++ [c]) = outage k calls ++ [(item, c.clock k)] := by
  rw [outage, observations_snoc_some h, List.rtakeWhile_concat_pos _ _ _ (by simpa using hs)]
  rfl

theorem outage_eq_nil_iff :
    outage k calls = [] ↔ ∀ item, lastFed k calls = some item → item.state = .ok := by
  unfold outage lastFed
  rcases List.eq_nil_or_concat (observations k calls) with h | ⟨os, o, h⟩
  · simp [h]
  · by_cases ho : o.1.state = .ok
    · simp [h, ho]
    · simp [h, ho]

theorem lastFed_key {item : Item} (h : lastFed k calls = some item) : item.key = k := by
  unfold lastFed at h
  rw [Option.map_eq_some_iff] at h
  obtain ⟨o, ho, rfl⟩ := h
  have hmem := List.mem_of_getLast? ho
  simp only [observations, List.mem_filterMap, Option.map_eq_some_iff] at hmem
  obtain ⟨c, _, item, hc, rfl⟩ := hmem
  exact c.key_eq k item hc

/-- A key whose last observation is not OK has an incident. -/
theorem exists_incident {item : Item} (h : lastFed k calls = some item) (hs : item.state ≠ .ok) :
    ∃ w, w.key = k ∧ Incident calls w := by
  have hne : outage k calls ≠ [] := by
    intro hnil
    exact hs (outage_eq_nil_iff.mp hnil item h)
  obtain ⟨o, os, ho⟩ := List.exists_cons_of_ne_nil hne
  have hkey := lastFed_key h
  refine ⟨{ toItem := item, incidentStartedAt := o.2 }, hkey, ?_, hs, ?_, rfl⟩
  · exact hkey ▸ h
  · show (outage item.key calls).head?.map Prod.snd = some o.2
    rw [hkey, ho]
    rfl

/-- The one incident a key has once a call fed a non-OK item for it. -/
theorem incident_snoc_iff {item : Item} (hc : c.newItems[k]? = some item) (hs : item.state ≠ .ok)
    {t : Time} (ht : (outage k (calls ++ [c])).head?.map Prod.snd = some t) (w : ItemWContext) :
    some ({ toItem := item, incidentStartedAt := t } : ItemWContext) = some w ↔
      w.key = k ∧ Incident (calls ++ [c]) w := by
  have hlast : lastFed k (calls ++ [c]) = some item := lastFed_snoc_some hc
  have hkey := c.key_eq k item hc
  constructor
  · intro hw
    cases hw
    refine ⟨hkey, ?_, hs, ?_, rfl⟩
    · show lastFed item.key _ = some item
      rw [hkey, hlast]
    · show (outage item.key _).head?.map Prod.snd = _
      rw [hkey, ht]
  · rintro ⟨hk, hi⟩
    have h1 := hi.last
    rw [hk, hlast] at h1
    have h2 := hi.started
    rw [hk, ht] at h2
    have h3 := hi.fresh
    cases w
    simp_all

theorem incident_snoc_none (hc : c.newItems[k]? = none) {w : ItemWContext} (hk : w.key = k) :
    Incident (calls ++ [c]) w ↔ Incident calls w := by
  have hl : lastFed w.key (calls ++ [c]) = lastFed w.key calls := by
    rw [hk]; exact lastFed_snoc_none hc
  have ho : outage w.key (calls ++ [c]) = outage w.key calls := by
    rw [hk]; exact outage_snoc_none hc
  constructor
  · rintro ⟨h1, h2, h3, h4⟩
    exact ⟨hl ▸ h1, h2, ho ▸ h3, h4⟩
  · rintro ⟨h1, h2, h3, h4⟩
    exact ⟨hl ▸ h1, h2, ho ▸ h3, h4⟩

theorem feedItems_slot (ist : ItemStatesTracker) (c : Call) (k : ItemKey) :
    (feedItems ist c).1.itemsOK[k]? = ((loop ist c).slot k).ok ∧
      (feedItems ist c).1.itemsNotOK[k]? = ((loop ist c).slot k).notOK := ⟨rfl, rfl⟩

/-- One call keeps what the history says about every key. -/
theorem History.step {ist : ItemStatesTracker} (h : History k calls ist) (c : Call) :
    History k (calls ++ [c]) (feedItems ist c).1 := by
  obtain ⟨hok, hnotOK⟩ := feedItems_slot ist c k
  rw [loop_slot] at hok hnotOK
  cases hc : c.newItems[k]? with
  | none =>
    rw [hc] at hok hnotOK
    refine ⟨?_, ?_⟩
    · rw [hok, lastFed_snoc_none hc]
      exact h.ok
    · intro w
      rw [hnotOK]
      refine (h.notOK w).trans (and_congr_right fun hk => ?_)
      exact (incident_snoc_none hc hk).symm
  | some item =>
    rw [hc] at hok hnotOK
    simp only [Slot.feed, ItemStatesTracker.slot] at hok hnotOK
    have hlast : lastFed k (calls ++ [c]) = some item := lastFed_snoc_some hc
    by_cases hs : item.state = .ok
    · rw [if_pos hs] at hok hnotOK
      refine ⟨?_, ?_⟩
      · rw [hok, hlast]
        exact ⟨fun _ => ⟨item, rfl, hs⟩, fun _ => ⟨_, rfl⟩⟩
      · intro w
        rw [hnotOK]
        constructor
        · intro hw; cases hw
        · rintro ⟨hk, hi⟩
          have := hi.last
          rw [hk, hlast] at this
          cases this
          exact absurd hs hi.notOK
    · rw [if_neg hs] at hok hnotOK
      have houtage : outage k (calls ++ [c]) = outage k calls ++ [(item, c.clock k)] :=
        outage_snoc_some hc hs
      cases hex : ist.itemsNotOK[k]? with
      | none =>
        -- a new incident: the outage begins with this call
        rw [hex] at hok hnotOK
        have hnil : outage k calls = [] := by
          rw [outage_eq_nil_iff]
          intro item' hi'
          by_contra hs'
          obtain ⟨w, hw⟩ := exists_incident hi' hs'
          have := (h.notOK w).mpr hw
          rw [hex] at this
          cases this
        refine ⟨?_, ?_⟩
        · rw [hok, hlast]
          simp [hs]
        · intro w
          rw [hnotOK]
          exact incident_snoc_iff hc hs (by rw [houtage, hnil]; rfl) w
      | some ex =>
        -- the outage goes on: the start stays, the item is replaced
        rw [hex] at hok hnotOK
        obtain ⟨hexk, hexi⟩ := (h.notOK ex).mp hex
        have hstart := hexi.started
        rw [hexk] at hstart
        have hhead : (outage k (calls ++ [c])).head?.map Prod.snd = some ex.incidentStartedAt := by
          rw [houtage]
          cases ho : outage k calls with
          | nil => rw [ho] at hstart; cases hstart
          | cons o os => rw [ho] at hstart; exact hstart
        refine ⟨?_, ?_⟩
        · rw [hok, hlast]
          simp [hs]
        · intro w
          rw [hnotOK, ← incident_snoc_iff hc hs hhead w]
          simp only [hexi.fresh]

theorem history_run (k : ItemKey) (calls : List Call) : History k calls (tracker.run calls) := by
  refine tracker.history (I := fun calls ist => History k calls ist) ?_ ?_ calls
  · refine ⟨?_, ?_⟩
    · simp [tracker, newItemStatesTracker, lastFed, observations]
    · intro w
      constructor
      · intro hw; simp [tracker, newItemStatesTracker] at hw
      · rintro ⟨_, hi⟩
        have := hi.last
        simp [lastFed, observations] at this
  · intro calls c h
    exact h.step c

theorem exists_lastFed_iff :
    (∃ item, lastFed k calls = some item) ↔ ∃ c ∈ calls, k ∈ c.newItems := by
  rw [← Option.isSome_iff_exists, lastFed, Option.isSome_map, List.getLast?_isSome]
  simp [observations, KeyMap.mem_iff_lookup]

theorem mem_itemsOK_iff : k ∈ (tracker.run calls).itemsOK ↔
    ∃ item, lastFed k calls = some item ∧ item.state = .ok := by
  rw [KeyMap.mem_iff_lookup]
  exact (history_run k calls).ok

theorem mem_itemsNotOK_iff : k ∈ (tracker.run calls).itemsNotOK ↔
    ∃ item, lastFed k calls = some item ∧ item.state ≠ .ok := by
  rw [KeyMap.mem_iff_lookup]
  constructor
  · rintro ⟨w, hw⟩
    obtain ⟨rfl, hi⟩ := ((history_run k calls).notOK w).mp hw
    exact ⟨w.toItem, hi.last, hi.notOK⟩
  · rintro ⟨item, hl, hs⟩
    obtain ⟨w, hw⟩ := exists_incident hl hs
    exact ⟨w, ((history_run k calls).notOK w).mpr hw⟩

theorem keyed_itemsNotOK (calls : List Call) : Keyed (tracker.run calls).itemsNotOK := by
  intro k w hw
  exact (((history_run k calls).notOK w).mp hw).1

/-- What a notification lists, in terms of the tracker after the call and the call's delta maps. -/
theorem notification_eq {ist : ItemStatesTracker} {n : Notification}
    (h : (tracker.step ist c).2 = some n) :
    n.ongoingIncidents =
      { total := itemsMapToSortedSlice c.sliceOrder (tracker.step ist c).1.itemsNotOK
        added := itemsMapToSortedSlice c.sliceOrder (loop ist c).added
        removed := itemsMapToSortedSlice c.sliceOrder (loop ist c).removed
        updated := itemsMapToSortedSlice c.sliceOrder (loop ist c).updated
        numItemsOK := (tracker.step ist c).1.itemsOK.size } := by
  simp only [tracker, feedItems] at h
  split at h
  · cases h
  · cases h
    rfl

/-- **The tracker equals its last-observation specification.** -/
theorem tracker_is_last_observation (calls : List Call) :
    (∀ k, ¬ (k ∈ (tracker.run calls).itemsOK ∧ k ∈ (tracker.run calls).itemsNotOK)) ∧
    (∀ k, k ∈ (tracker.run calls).itemsOK ∨ k ∈ (tracker.run calls).itemsNotOK ↔
      ∃ c ∈ calls, k ∈ c.newItems) ∧
    (∀ k, k ∈ (tracker.run calls).itemsNotOK ↔
      ∃ item, lastFed k calls = some item ∧ item.state ≠ .ok) ∧
    (∀ (k : ItemKey) (w : ItemWContext), (tracker.run calls).itemsNotOK[k]? = some w ↔
      w.key = k ∧ Incident calls w) ∧
    (∀ pre c post n, calls = pre ++ c :: post → (tracker.step (tracker.run pre) c).2 = some n →
      n.ongoingIncidents.total.Pairwise (fun a b => a.key < b.key) ∧
      (∀ w, w ∈ n.ongoingIncidents.total ↔ Incident (pre ++ [c]) w) ∧
      n.ongoingIncidents.numItemsOK =
        {k | ∃ item, lastFed k (pre ++ [c]) = some item ∧ item.state = .ok}.ncard) := by
  refine ⟨?_, ?_, fun _ => mem_itemsNotOK_iff, fun k w => (history_run k calls).notOK w, ?_⟩
  · rintro k ⟨h1, h2⟩
    obtain ⟨item, hl, hs⟩ := mem_itemsOK_iff.mp h1
    obtain ⟨item', hl', hs'⟩ := mem_itemsNotOK_iff.mp h2
    rw [hl] at hl'
    cases hl'
    exact hs' hs
  · intro k
    rw [mem_itemsOK_iff, mem_itemsNotOK_iff, ← exists_lastFed_iff]
    constructor
    · rintro (⟨item, hl, _⟩ | ⟨item, hl, _⟩) <;> exact ⟨item, hl⟩
    · rintro ⟨item, hl⟩
      by_cases hs : item.state = .ok
      · exact .inl ⟨item, hl, hs⟩
      · exact .inr ⟨item, hl, hs⟩
  · intro pre c post n _ hn
    rw [notification_eq hn, ← tracker.run_snoc]
    have hkeyed := keyed_itemsNotOK (pre ++ [c])
    refine ⟨itemsMapToSortedSlice_sorted hkeyed, ?_, ?_⟩
    · intro w
      rw [mem_itemsMapToSortedSlice hkeyed, (history_run w.key (pre ++ [c])).notOK w]
      simp
    · show Std.ExtTreeMap.size _ = _
      rw [KeyMap.size_eq_ncard]
      simp only [mem_itemsOK_iff]

end Tracker
end Montray
