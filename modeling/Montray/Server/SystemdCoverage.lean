import Montray.Server.SystemdMonitor

/-!
# Montray.Server.SystemdCoverage

Which units are known to the tracker after the first update of the provider.

The first update is completed with a synthetic unit for every name that a rule lists
(`withMissing`), but a unit becomes an item only if some rule applies to it, by its names and its
type. A name that no rule applies to is dropped without a word.

* `not_sent_run`: nothing is ever sent about a name that no rule applies to.
* `named_units_known`: every listed name is sent to the tracker just if a rule applies to each.
-/

namespace Montray
namespace Systemd

open Lib Tracker

/-- The unit as systemd reports it, or as not reported. -/
def reportedUnit (upd : UnitUpdate) (name : String) : Unit := unitOf (name, upd.units[name]?.join)

theorem lookup_foldl_addMissing (names : List String) (units : KeyMap (Option Unit))
    (name : String) :
    (names.foldl addMissing units)[name]? =
      units[name]?.or (if name ∈ names then some (some (notSent name)) else none) := by
  induction names generalizing units with
  | nil => simp
  | cons a names ih =>
    rw [List.foldl_cons, ih]
    unfold addMissing
    by_cases ha : a = name
    · subst ha
      split
      · rename_i hmem
        obtain ⟨entry, hentry⟩ := KeyMap.mem_iff_lookup.mp hmem
        simp [hentry]
      · rename_i hmem
        simp [KeyMap.lookup_none_iff.mpr hmem]
    · have hmem : (name ∈ a :: names) ↔ name ∈ names := by simp [Ne.symm ha]
      simp only [hmem]
      split
      · rfl
      · rw [KeyMap.lookup_insert, if_neg ha]

/-- The first update shows every listed name, as systemd reports it or as not reported. -/
theorem shown_named (c : CollectorParams) (upd : UnitUpdate) (order : RangeOrder (Option Unit))
    {rule : ConfigUnitRule} (hrule : rule ∈ c.config.unitRules) {name : String}
    (hname : name ∈ rule.names) :
    shown c true name (.units upd order) = some (reportedUnit upd name) := by
  have hlisted : name ∈ c.config.unitRules.flatMap (·.names) :=
    List.mem_flatMap.mpr ⟨rule, hrule, hname⟩
  simp only [shown, represented, if_true, withMissing, lookup_foldl_addMissing, hlisted,
    reportedUnit]
  rcases upd.units[name]? with _ | _ | unit <;> rfl

theorem reportedUnit_name (upd : UnitUpdate) (name : String) :
    (reportedUnit upd name).name = name := by
  unfold reportedUnit
  cases hu : upd.units[name]? with
  | none => rfl
  | some entry => exact unitOf_name hu

/-- A rule of the configuration applies to the name. -/
def Selected (c : CollectorParams) (name : String) : Prop :=
  ∃ rule ∈ c.config.unitRules, rule.applies name = true

/-- Whether there is an item for a name is decided by the rules alone. -/
theorem getItemFromUnit_selected {c : CollectorParams} {unit : Unit} :
    (getItemFromUnit c unit).isSome = true ↔ Selected c unit.name := by
  simp [getItemFromUnit, Selected, List.find?_isSome]

/-- Without an incident, an observation is published. -/
theorem Slot.observe_item {s : Slot} (hresolve : s.resolve = none) (generation : Nat) (unit : Unit)
    (item : Item) (resolve : Option ConfigResolve) :
    (s.observe generation unit item resolve).item = some item := by
  unfold Slot.observe
  rw [hresolve]
  split <;> rfl

/-! ## Names that no rule applies to -/

section NotSelected

variable {c : CollectorParams} {name : String} (hname : ¬ Selected c name)

include hname

theorem observation_not_selected (firstUpdate : Bool) (event : Event) :
    observation c firstUpdate name event = none := by
  rw [observation, Option.bind_eq_none_iff]
  intro unit hunit
  rw [← shown_name hunit, ← getItemFromUnit_selected, Option.not_isSome_iff_eq_none] at hname
  rw [hname, Option.map_none]

/-- No event opens an incident about the name or sends anything about it. -/
theorem handle_not_selected {s : State}
    (hs : s.slot none (itemKeyFromSystemdName c.id name) = .clear none) (event : Event) :
    (handle c s event).1.slot (sentItem (handle c s event).2 (itemKeyFromSystemdName c.id name))
      (itemKeyFromSystemdName c.id name) = .clear none := by
  cases handle_keyStep c s event name with
  | quiet _ hslot => exact hslot.trans hs
  | expired pending _ hpending _ =>
    rw [show s.pendingResolutions[itemKeyFromSystemdName c.id name]? = none from
      congrArg Slot.pending hs] at hpending
    cases hpending
  | observed o _ _ hobs _ =>
    rw [observation_not_selected hname] at hobs
    cases hobs

theorem not_selected_run (inputs : List (Input c)) :
    ((monitor c).run inputs).coll.slot none (itemKeyFromSystemdName c.id name) = .clear none := by
  refine (monitor c).invariant
    (I := fun s => s.coll.slot none (itemKeyFromSystemdName c.id name) = .clear none) ?_ ?_ inputs
  · simp [monitor, System.init, State.slot, Slot.clear]
  · intro s i hs
    cases i with
    | other upd => exact hs
    | own event readings =>
      have h := handle_not_selected hname hs event
      rw [show sentItem _ _ = none from congrArg Slot.item h] at h
      exact h

/-- In no run is an item sent for the name. -/
theorem not_sent_run (inputs : List (Input c)) (event : Event) :
    sentItem (handle c ((monitor c).run inputs).coll event).2
      (itemKeyFromSystemdName c.id name) = none :=
  congrArg Slot.item (handle_not_selected hname (not_selected_run hname inputs) event)

end NotSelected

/-! ## Before the first update -/

/-- The input is an update of the provider. -/
def Input.isUpdate {c : CollectorParams} : Input c → Bool
  | .own (.units _ _) _ => true
  | _ => false

theorem coll_before {c : CollectorParams} {before : List (Input c)}
    (h : ∀ i ∈ before, i.isUpdate = false) : ((monitor c).run before).coll = {} := by
  induction before using List.reverseRecOn with
  | nil => rfl
  | append_singleton before i ih =>
    have hcoll := ih fun j hj => h j (List.mem_append_left _ hj)
    have hi := h i (by simp)
    rw [Mealy.run_snoc, monitor_step]
    cases i with
    | other upd => exact hcoll
    | own event readings =>
      cases event with
      | units upd order => cases hi
      | err text => exact hcoll
      | ready key generation =>
        simp only [System.step, hcoll]
        simp [handle]

/-- An item that is fed to the tracker is known to it. -/
theorem known_of_fed (ist : ItemStatesTracker) (call : Call) {k : ItemKey} {item : Item}
    (h : call.newItems[k]? = some item) :
    k ∈ (feedItems ist call).1.itemsOK ∨ k ∈ (feedItems ist call).1.itemsNotOK := by
  have hslot : (loop ist call).slot k = (ist.slot k).feed (call.clock k) item := by
    rw [loop_slot, h]
  have hok : (feedItems ist call).1.itemsOK[k]? = ((ist.slot k).feed (call.clock k) item).ok :=
    congrArg Slot.ok hslot
  have hnotOK : (feedItems ist call).1.itemsNotOK[k]? =
      ((ist.slot k).feed (call.clock k) item).notOK := congrArg Slot.notOK hslot
  rw [KeyMap.mem_iff_lookup, KeyMap.mem_iff_lookup, hok, hnotOK]
  unfold Tracker.Slot.feed
  split
  · exact .inl ⟨_, rfl⟩
  · split
    · exact .inr ⟨_, rfl⟩
    · exact .inr ⟨_, rfl⟩

theorem known_of_sent (r : Readings) (sent : Option Update)
    (h : ∀ items, sent = some (.items items) → KeyMap.All items fun k item => item.key = k)
    (ist : ItemStatesTracker) {k : ItemKey} {item : Item} (hsent : sentItem sent k = some item) :
    k ∈ (coreFeed ist (r.call sent h)).1.itemsOK ∨
      k ∈ (coreFeed ist (r.call sent h)).1.itemsNotOK := by
  cases sent with
  | none => cases hsent
  | some upd =>
    cases upd with
    | err text => cases hsent
    | items items => exact known_of_fed ist _ hsent

/-- What the first update sends for a listed name that a rule applies to. -/
theorem first_sentItem {c : CollectorParams} (upd : UnitUpdate) (order : RangeOrder (Option Unit))
    {rule : ConfigUnitRule} (hrule : rule ∈ c.config.unitRules) {name : String}
    (hname : name ∈ rule.names) {item : Item} {resolve : Option ConfigResolve}
    (hitem : getItemFromUnit c (reportedUnit upd name) = some (item, resolve)) :
    sentItem (handle c {} (.units upd order)).2 (itemKeyFromSystemdName c.id name) = some item := by
  have hobs : observation c true name (.units upd order) =
      some ⟨reportedUnit upd name, item, resolve⟩ := by
    simp [observation, shown_named c upd order hrule hname, hitem]
  cases handle_keyStep c {} (.units upd order) name with
  | quiet hquiet _ =>
    rw [show observation c true name (.units upd order) = none from hquiet] at hobs
    cases hobs
  | expired pending hevent _ _ => cases hevent
  | observed o generation _ hobs' hslot =>
    rw [show observation c true name (.units upd order) = some o from hobs'] at hobs
    cases hobs
    exact (congrArg Slot.item hslot).trans (Slot.observe_item (by simp [State.slot]) _ _ _ _)

/-- **Listed units are monitored.** With the first update of the provider, after any provider
errors, timer callbacks and updates of other collectors, an item is sent for every listed name (the
one of the unit as systemd reports it, or as not reported) and is then known to the tracker, if and
only if some rule applies to every listed name. -/
theorem named_units_known (c : CollectorParams) (before : List (Input c))
    (hbefore : ∀ i ∈ before, i.isUpdate = false) (upd : UnitUpdate)
    (order : RangeOrder (Option Unit)) (readings : Readings) :
    let s := (monitor c).run before
    let s' := (s.step c (.own (.units upd order) readings)).1
    (∀ rule ∈ c.config.unitRules, ∀ name ∈ rule.names,
      let key := itemKeyFromSystemdName c.id name
      ∃ item, sentItem (handle c s.coll (.units upd order)).2 key = some item ∧
        (∃ resolve, getItemFromUnit c (reportedUnit upd name) = some (item, resolve)) ∧
        (key ∈ s'.tracker.itemsOK ∨ key ∈ s'.tracker.itemsNotOK)) ↔
    ∀ rule ∈ c.config.unitRules, ∀ name ∈ rule.names, Selected c name := by
  intro s s'
  constructor
  · intro hknown rule hrule name hname
    by_contra hnot
    obtain ⟨item, hsent, -⟩ := hknown rule hrule name hname
    rw [not_sent_run hnot before] at hsent
    cases hsent
  · intro hselected rule hrule name hname key
    have hcoll : s.coll = {} := coll_before hbefore
    have hitem := hselected rule hrule name hname
    rw [← reportedUnit_name upd name, ← getItemFromUnit_selected, Option.isSome_iff_exists] at hitem
    obtain ⟨⟨item, resolve⟩, hitem⟩ := hitem
    have hsent : sentItem (handle c s.coll (.units upd order)).2 key = some item := by
      rw [hcoll]
      exact first_sentItem upd order hrule hname hitem
    exact ⟨item, hsent, ⟨resolve, hitem⟩, known_of_sent readings _ _ s.tracker hsent⟩

/-- `nginx.service` by its name, and every other service by its type. -/
def coveredParams : CollectorParams where
  id := "units"
  config :=
    { unitRules :=
        [{ names := ["nginx.service"], conditions := [{ state := "active", result := .ok }] },
          { type := "service", conditions := [{ result := .warning }] }] }

theorem covered_selected : ∀ rule ∈ coveredParams.config.unitRules, ∀ name ∈ rule.names,
    Selected coveredParams name := by
  unfold Selected
  decide

theorem named_units_known_notSent :
    let upd : UnitUpdate := ⟨∅, by simp⟩
    ∃ item, sentItem (handle coveredParams {} (.units upd (.sorted _))).2 "units.nginx.service" =
        some item ∧ item.state = .error ∧
      item.details = "Unit nginx.service was not reported by systemd" := by
  intro upd
  obtain ⟨item, hsent, ⟨resolve, hitem⟩, -⟩ := (named_units_known coveredParams []
    (by simp) upd (.sorted _) ⟨.sorted _, .sorted _, fun _ => 0, 0⟩).mpr covered_selected
    { names := ["nginx.service"], conditions := [{ state := "active", result := .ok }] } (by decide)
    "nginx.service" (by decide)
  have hnotSent : getItemFromUnit coveredParams (reportedUnit upd "nginx.service") =
      some ({ key := "units.nginx.service", state := .error,
              details := "Unit nginx.service was not reported by systemd" }, none) := by decide
  rw [hnotSent] at hitem
  cases hitem
  exact ⟨_, hsent, rfl, rfl⟩

/-- A timer, by its name, in a rule for services. -/
def mistypedParams : CollectorParams where
  id := "units"
  config :=
    { unitRules := [{ names := ["backup.timer"]
                      type := "service"
                      conditions := [{ state := "active", result := .ok }] }] }

/-- The configuration is accepted, and whatever systemd reports, nothing is ever sent for the
timer. -/
theorem named_unit_unmonitored :
    validateConfig mistypedParams.config = .ok () ∧
    (∃ rule ∈ mistypedParams.config.unitRules, "backup.timer" ∈ rule.names) ∧
    ∀ (before : List (Input mistypedParams)) (event : Event),
      sentItem (handle mistypedParams ((monitor mistypedParams).run before).coll event).2
        (itemKeyFromSystemdName mistypedParams.id "backup.timer") = none := by
  have hnot : ¬ Selected mistypedParams "backup.timer" := by
    unfold Selected
    decide
  exact ⟨rfl, by decide, not_sent_run hnot⟩

end Systemd
end Montray
