import Montray.Server.TrackerSpec

/-!
# Montray.Server.TrackerDeltas

The deltas of a notification against the totals.

* `Change`: what one call can do to the incident of one key, and which delta it reports for it.
* `applyDelta`, `replay`: what a client that only looks at deltas does.
* `tracker_deltas_replay`: the deltas of a call lead from the incidents before it to the incidents
  after it, so replaying all of them reproduces every total.
-/

namespace Montray
namespace Tracker

open Lib

/-- What a call does to the incident `old` of one key: the slot after it. -/
inductive Change (old : Option ItemWContext) (s : Slot) : Prop where
  | same (hn : s.notOK = old) (ha : s.added = none) (hr : s.removed = none) (hu : s.updated = none)
  | added (w : ItemWContext) (ho : old = none) (hn : s.notOK = some w) (ha : s.added = some w)
      (hr : s.removed = none) (hu : s.updated = none)
  | removed (w : ItemWContext) (ho : old = some w) (hn : s.notOK = none) (ha : s.added = none)
      (hr : s.removed = some w) (hu : s.updated = none)
  | updated (o w : ItemWContext) (ho : old = some o) (hn : s.notOK = some w) (ha : s.added = none)
      (hr : s.removed = none) (hu : s.updated = some w)
      (hw : o.state ≠ w.state ∨ o.details ≠ w.details)

theorem loop_change {ist : ItemStatesTracker} (hist : Keyed ist.itemsNotOK) (c : Call)
    (k : ItemKey) : Change ist.itemsNotOK[k]? ((loop ist c).slot k) := by
  rw [loop_slot]
  cases hc : c.newItems[k]? with
  | none => exact .same rfl rfl rfl rfl
  | some item =>
    simp only [Slot.feed, ItemStatesTracker.slot]
    by_cases hs : item.state = .ok
    · rw [if_pos hs]
      cases hex : ist.itemsNotOK[k]? with
      | none => exact .same rfl rfl rfl rfl
      | some w => exact .removed w rfl rfl rfl rfl rfl
    · rw [if_neg hs]
      cases hex : ist.itemsNotOK[k]? with
      | none => exact .added _ rfl rfl rfl rfl rfl
      | some ex =>
        by_cases he : ex.toItem = item
        · refine .same ?_ rfl rfl (if_pos he)
          rw [← he]
        · refine .updated ex _ rfl rfl rfl rfl (if_neg he) ?_
          -- the two items share their key, so they differ in what is shown
          have hkey : ex.key = item.key := (hist k ex hex).trans (c.key_eq k item hc).symm
          by_contra hsame
          simp only [not_or, not_not] at hsame
          apply he
          cases hx : ex.toItem
          cases item
          simp_all

/-- Taking the deltas of a notification into a set of incidents. -/
def applyDelta (incidents : KeyMap ItemWContext) (d : OngoingIncidentsWDelta) :
    KeyMap ItemWContext :=
  let rest := d.removed.foldl (fun m w => m.erase w.key) incidents
  (d.updated ++ d.added).foldl (fun m w => m.insert w.key w) rest

def replay (notifications : List (Option Notification)) : KeyMap ItemWContext :=
  (notifications.filterMap id).foldl (fun m n => applyDelta m n.ongoingIncidents) ∅

/-- The deltas `d` lead from the incidents `T` to the incidents `T'`. -/
structure Leads (T T' : KeyMap ItemWContext) (d : OngoingIncidentsWDelta) : Prop where
  added_removed : ∀ a ∈ d.added, ∀ r ∈ d.removed, a.key ≠ r.key
  added_updated : ∀ a ∈ d.added, ∀ u ∈ d.updated, a.key ≠ u.key
  removed_updated : ∀ r ∈ d.removed, ∀ u ∈ d.updated, r.key ≠ u.key
  added_absent : ∀ a ∈ d.added, a.key ∉ T
  removed_entry : ∀ r ∈ d.removed, T[r.key]? = some r
  updated_changed : ∀ u ∈ d.updated, ∃ o, T[u.key]? = some o ∧ T'[u.key]? = some u ∧
    (o.state ≠ u.state ∨ o.details ≠ u.details)
  apply_eq : applyDelta T d = T'

section OneCall

variable {ist : ItemStatesTracker} {c : Call}

/-- The three delta maps of a call file every entry under its own key, and each entry says what
became of that key. -/
theorem loop_deltas (hist : Keyed ist.itemsNotOK) (hnext : Keyed (loop ist c).itemsNotOK)
    (k : ItemKey) (w : ItemWContext) :
    ((loop ist c).added[k]? = some w → w.key = k ∧ ist.itemsNotOK[k]? = none ∧
      (loop ist c).itemsNotOK[k]? = some w ∧ (loop ist c).removed[k]? = none ∧
      (loop ist c).updated[k]? = none) ∧
    ((loop ist c).removed[k]? = some w → w.key = k ∧ ist.itemsNotOK[k]? = some w ∧
      (loop ist c).itemsNotOK[k]? = none ∧ (loop ist c).added[k]? = none ∧
      (loop ist c).updated[k]? = none) ∧
    ((loop ist c).updated[k]? = some w → w.key = k ∧
      (∃ o, ist.itemsNotOK[k]? = some o ∧ (o.state ≠ w.state ∨ o.details ≠ w.details)) ∧
      (loop ist c).itemsNotOK[k]? = some w ∧ (loop ist c).added[k]? = none ∧
      (loop ist c).removed[k]? = none) := by
  have hold := hist k w
  have hnew := hnext k w
  cases loop_change hist c k with
  | same hn ha hr hu =>
    simp only [Feed.slot] at hn ha hr hu
    simp [ha, hr, hu]
  | added w' ho hn ha hr hu =>
    simp only [Feed.slot] at hn ha hr hu
    simp only [ha, hr, hu, ho, hn] at hnew ⊢
    refine ⟨?_, by simp, by simp⟩
    rintro ⟨⟩
    simpa using hnew rfl
  | removed w' ho hn ha hr hu =>
    simp only [Feed.slot] at hn ha hr hu
    simp only [ha, hr, hu, ho, hn] at hold ⊢
    refine ⟨by simp, ?_, by simp⟩
    rintro ⟨⟩
    simpa using hold rfl
  | updated o w' ho hn ha hr hu hw =>
    simp only [Feed.slot] at hn ha hr hu
    simp only [ha, hr, hu, ho, hn] at hnew ⊢
    refine ⟨by simp, by simp, ?_⟩
    rintro ⟨⟩
    exact ⟨hnew rfl, ⟨o, rfl, hw⟩, by simp⟩

theorem slice_keys_nodup {order : RangeOrder ItemWContext} {m : KeyMap ItemWContext}
    (hm : Keyed m) : ((itemsMapToSortedSlice order m).map (·.key)).Nodup := by
  rw [List.Nodup, List.pairwise_map]
  exact (itemsMapToSortedSlice_sorted hm).imp fun h => ne_of_lt h

/-- A key is in a published list iff it is in the map. -/
theorem slice_key_iff {order : RangeOrder ItemWContext} {m : KeyMap ItemWContext} (hm : Keyed m)
    {k : ItemKey} : m[k]? = none ↔ ∀ w ∈ itemsMapToSortedSlice order m, w.key ≠ k := by
  constructor
  · rintro hk w hw rfl
    rw [mem_itemsMapToSortedSlice hm, hk] at hw
    cases hw
  · intro h
    cases hk : m[k]? with
    | none => rfl
    | some w =>
      have hkey := hm k w hk
      exact absurd hkey (h w ((mem_itemsMapToSortedSlice hm).mpr (by rw [hkey]; exact hk)))

theorem lookup_insert_slice {order : RangeOrder ItemWContext} {a : KeyMap ItemWContext}
    (ha : Keyed a) (m : KeyMap ItemWContext) (k : ItemKey) :
    ((itemsMapToSortedSlice order a).foldl (fun m w => m.insert w.key w) m)[k]? =
      a[k]?.or m[k]? := by
  cases hk : a[k]? with
  | none => exact KeyMap.lookup_foldl_insert_other m ((slice_key_iff ha).mp hk)
  | some w =>
    have hkey := ha k w hk
    subst hkey
    have hmem : w ∈ itemsMapToSortedSlice order a := (mem_itemsMapToSortedSlice ha).mpr hk
    exact KeyMap.lookup_foldl_insert m (slice_keys_nodup ha) hmem

theorem lookup_erase_slice {order : RangeOrder ItemWContext} {r : KeyMap ItemWContext}
    (hr : Keyed r) (m : KeyMap ItemWContext) (k : ItemKey) :
    ((itemsMapToSortedSlice order r).foldl (fun m w => m.erase w.key) m)[k]? =
      if r[k]? = none then m[k]? else none := by
  cases hk : r[k]? with
  | none => exact KeyMap.lookup_foldl_erase_other m ((slice_key_iff hr).mp hk)
  | some w =>
    have hkey := hr k w hk
    subst hkey
    have hmem : w ∈ itemsMapToSortedSlice order r := (mem_itemsMapToSortedSlice hr).mpr hk
    exact KeyMap.lookup_foldl_erase m (slice_keys_nodup hr) hmem

theorem leads_of_step (hist : Keyed ist.itemsNotOK) (hnext : Keyed (loop ist c).itemsNotOK)
    {n : Notification} (hn : (tracker.step ist c).2 = some n) :
    Leads ist.itemsNotOK (tracker.step ist c).1.itemsNotOK n.ongoingIncidents := by
  have hd := loop_deltas hist hnext
  have hadded : Keyed (loop ist c).added := fun k w h => ((hd k w).1 h).1
  have hremoved : Keyed (loop ist c).removed := fun k w h => ((hd k w).2.1 h).1
  have hupdated : Keyed (loop ist c).updated := fun k w h => ((hd k w).2.2 h).1
  rw [notification_eq hn]
  refine ⟨?_, ?_, ?_, ?_, ?_, ?_, ?_⟩
  · intro a ha r hr heq
    rw [mem_itemsMapToSortedSlice hadded] at ha
    rw [mem_itemsMapToSortedSlice hremoved, ← heq, ((hd _ _).1 ha).2.2.2.1] at hr
    cases hr
  · intro a ha u hu heq
    rw [mem_itemsMapToSortedSlice hadded] at ha
    rw [mem_itemsMapToSortedSlice hupdated, ← heq, ((hd _ _).1 ha).2.2.2.2] at hu
    cases hu
  · intro r hr u hu heq
    rw [mem_itemsMapToSortedSlice hremoved] at hr
    rw [mem_itemsMapToSortedSlice hupdated, ← heq, ((hd _ _).2.1 hr).2.2.2.2] at hu
    cases hu
  · intro a ha
    rw [mem_itemsMapToSortedSlice hadded] at ha
    exact KeyMap.lookup_none_iff.mp ((hd _ _).1 ha).2.1
  · intro r hr
    rw [mem_itemsMapToSortedSlice hremoved] at hr
    exact ((hd _ _).2.1 hr).2.1
  · intro u hu
    rw [mem_itemsMapToSortedSlice hupdated] at hu
    obtain ⟨_, ⟨o, ho, hne⟩, hnew, _⟩ := (hd _ _).2.2 hu
    exact ⟨o, ho, hnew, hne⟩
  · apply Std.ExtTreeMap.ext_getElem?
    intro k
    simp only [applyDelta, List.foldl_append]
    rw [lookup_insert_slice hadded, lookup_insert_slice hupdated, lookup_erase_slice hremoved]
    show _ = (loop ist c).itemsNotOK[k]?
    cases loop_change hist c k with
    | same hn ha hr hu =>
      simp only [Feed.slot] at hn ha hr hu
      rw [ha, hr, hu, hn]
      rfl
    | added w ho hn ha hr hu =>
      simp only [Feed.slot] at hn ha hr hu
      rw [ha, hn]
      rfl
    | removed w ho hn ha hr hu =>
      simp only [Feed.slot] at hn ha hr hu
      rw [ha, hr, hu, hn]
      rfl
    | updated o w ho hn ha hr hu hw =>
      simp only [Feed.slot] at hn ha hr hu
      rw [ha, hu, hn]
      rfl

/-- A call reports nothing exactly when it left the incidents as they were. -/
theorem step_none_iff (hist : Keyed ist.itemsNotOK) :
    (tracker.step ist c).2 = none ↔ (tracker.step ist c).1.itemsNotOK = ist.itemsNotOK := by
  have hempty : (tracker.step ist c).2 = none ↔ (∀ k : ItemKey, (loop ist c).added[k]? = none) ∧
      (∀ k : ItemKey, (loop ist c).removed[k]? = none) ∧
      (∀ k : ItemKey, (loop ist c).updated[k]? = none) := by
    simp only [tracker, feedItems, ite_eq_left_iff, reduceCtorEq, imp_false, not_not,
      KeyMap.size_eq_zero_iff]
  rw [hempty]
  constructor
  · rintro ⟨hadded, hremoved, hupdated⟩
    apply Std.ExtTreeMap.ext_getElem?
    intro k
    cases loop_change hist c k with
    | same hn ha hr hu => exact hn
    | added w ho hn ha hr hu => cases ha.symm.trans (hadded k)
    | removed w ho hn ha hr hu => cases hr.symm.trans (hremoved k)
    | updated o w ho hn ha hr hu hw => cases hu.symm.trans (hupdated k)
  · intro h
    have hnone : ∀ k : ItemKey, (loop ist c).added[k]? = none ∧ (loop ist c).removed[k]? = none ∧
        (loop ist c).updated[k]? = none := by
      intro k
      have hk : (loop ist c).itemsNotOK[k]? = ist.itemsNotOK[k]? := by
        rw [← h]; rfl
      cases loop_change hist c k with
      | same hn ha hr hu => exact ⟨ha, hr, hu⟩
      | added w ho hn ha hr hu => cases (hn.symm.trans hk).trans ho
      | removed w ho hn ha hr hu => cases (hn.symm.trans hk).trans ho
      | updated o w ho hn ha hr hu hw =>
        cases (hn.symm.trans hk).trans ho
        simp at hw
    exact ⟨fun k => (hnone k).1, fun k => (hnone k).2.1, fun k => (hnone k).2.2⟩

/-- `r` is reported as removed exactly when the call ended the incident `r`. -/
theorem removed_iff (hist : Keyed ist.itemsNotOK) {r : ItemWContext} {k : ItemKey} :
    (∃ n ∈ (feedItems ist c).2, r ∈ n.ongoingIncidents.removed ∧ r.key = k) ↔
      ist.itemsNotOK[k]? = some r ∧ (feedItems ist c).1.itemsNotOK[k]? = none := by
  have hnext : Keyed (loop ist c).itemsNotOK := hist.feedItems c
  have hd := loop_deltas hist hnext
  have hremoved : Keyed (loop ist c).removed := fun k w h => ((hd k w).2.1 h).1
  constructor
  · rintro ⟨n, hn, hr, rfl⟩
    rw [notification_eq hn, mem_itemsMapToSortedSlice hremoved] at hr
    obtain ⟨_, hold, hnew, _⟩ := (hd _ r).2.1 hr
    exact ⟨hold, hnew⟩
  · rintro ⟨hold, hnew⟩
    have hkey := hist k r hold
    have hentry : (loop ist c).removed[k]? = some r := by
      cases loop_change hist c k with
      | same hn ha hr hu => cases (hn.symm.trans hnew).symm.trans hold
      | added w ho hn ha hr hu => cases hn.symm.trans hnew
      | removed w ho hn ha hr hu => cases ho.symm.trans hold; exact hr
      | updated o w ho hn ha hr hu hw => cases hn.symm.trans hnew
    cases hout : (feedItems ist c).2 with
    | none =>
      have hsame := (step_none_iff hist).mp hout
      have : (feedItems ist c).1.itemsNotOK[k]? = some r := by
        rw [← hold, ← hsame]
        rfl
      cases this.symm.trans hnew
    | some n =>
      refine ⟨n, rfl, ?_, hkey⟩
      rw [notification_eq hout, mem_itemsMapToSortedSlice hremoved, hkey]
      exact hentry

/-- A key that is reported as added had no incident before the call and has one after it. -/
theorem added_new (hist : Keyed ist.itemsNotOK) {n : Notification} {w : ItemWContext}
    (hn : (feedItems ist c).2 = some n) (hw : w ∈ n.ongoingIncidents.added) :
    ist.itemsNotOK[w.key]? = none ∧ (feedItems ist c).1.itemsNotOK[w.key]? = some w := by
  have hd := loop_deltas hist (hist.feedItems c)
  have hadded : Keyed (loop ist c).added := fun k w h => ((hd k w).1 h).1
  rw [notification_eq hn, mem_itemsMapToSortedSlice hadded] at hw
  obtain ⟨_, hold, hnew, _⟩ := (hd _ w).1 hw
  exact ⟨hold, hnew⟩

end OneCall

theorem replay_run (calls : List Call) :
    replay (tracker.outputs calls) = (tracker.run calls).itemsNotOK := by
  induction calls using List.reverseRecOn with
  | nil => rfl
  | append_singleton calls c ih =>
    have hist := keyed_itemsNotOK calls
    have hnext := keyed_itemsNotOK (calls ++ [c])
    rw [tracker.run_snoc] at hnext ⊢
    rw [tracker.outputs_snoc]
    cases hn : (tracker.step (tracker.run calls) c).2 with
    | none =>
      rw [(step_none_iff hist).mp hn, ← ih]
      simp [replay]
    | some n =>
      have happly := (leads_of_step hist hnext hn).apply_eq
      rw [← happly, ← ih]
      simp [replay]

/-- **The deltas replay to the totals.** -/
theorem tracker_deltas_replay (calls : List Call) (c : Call) :
    ((tracker.step (tracker.run calls) c).2 = none ↔
      (tracker.run (calls ++ [c])).itemsNotOK = (tracker.run calls).itemsNotOK) ∧
    ∀ n, (tracker.step (tracker.run calls) c).2 = some n →
      Leads (tracker.run calls).itemsNotOK (tracker.run (calls ++ [c])).itemsNotOK
        n.ongoingIncidents ∧
      n.ongoingIncidents.total =
        itemsMapToSortedSlice c.sliceOrder (replay (tracker.outputs (calls ++ [c]))) := by
  have hist := keyed_itemsNotOK calls
  have hnext := keyed_itemsNotOK (calls ++ [c])
  rw [replay_run]
  rw [tracker.run_snoc] at hnext ⊢
  refine ⟨step_none_iff hist, ?_⟩
  intro n hn
  refine ⟨leads_of_step hist hnext hn, ?_⟩
  rw [notification_eq hn]

end Tracker
end Montray
