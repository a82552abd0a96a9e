import Montray.Server.SystemdCollector
import Montray.Server.TrackerDeltas

/-!
# Montray.Server.SystemdMonitor

The systemd collector together with the core that feeds its updates to the tracker. Updates of
other collectors arrive in between: their keys start with other collector ids, so none of them is
a key of this collector.

* `monitor`: the composed machine.
* `Sim`: how the two copies of one unit's incident agree, in three cases.
* `collector_tracker_simulate`: they agree after every run.
-/

namespace Montray
namespace Systemd

open Lib Tracker

/-- The orders and clock readings of one `FeedItems` call. -/
structure Readings where
  order : RangeOrder Item
  sliceOrder : RangeOrder ItemWContext
  clock : ItemKey → Time
  time : Time

/-- The call an update leads to in `Core.run`; an error is logged only. -/
def Readings.call (r : Readings) (sent : Option Update)
    (h : ∀ items, sent = some (.items items) → KeyMap.All items fun k item => item.key = k) :
    Option Call :=
  match sent, h with
  | some (.items items), h =>
    some ⟨items, fun k item hk => h items rfl k item hk, r.order, r.sliceOrder, r.clock, r.time⟩
  | _, _ => none

def coreFeed (ist : ItemStatesTracker) : Option Call → ItemStatesTracker × Option Notification
  | none => (ist, none)
  | some call => feedItems ist call

theorem coreFeed_notOK (r : Readings) (sent : Option Update)
    (h : ∀ items, sent = some (.items items) → KeyMap.All items fun k item => item.key = k)
    (ist : ItemStatesTracker) (k : ItemKey) :
    (coreFeed ist (r.call sent h)).1.itemsNotOK[k]? =
      match sentItem sent k with
      | none => ist.itemsNotOK[k]?
      | some item => reported (r.clock k) item ist.itemsNotOK[k]? := by
  cases sent with
  | none => rfl
  | some upd =>
    cases upd with
    | err text => rfl
    | items items => exact feedItems_notOK _ _ k

/-- A call that feeds an update of another collector. -/
structure OtherUpdate (id : String) where
  call : Call
  other : ∀ name, itemKeyFromSystemdName id name ∉ call.newItems

inductive Input (c : CollectorParams) where
  | own (event : Event) (readings : Readings)
  | other (upd : OtherUpdate c.id)

structure System where
  coll : State
  tracker : ItemStatesTracker
  ok : coll.Ok
  keyed : Keyed tracker.itemsNotOK

def System.init : System := ⟨{}, newItemStatesTracker, KeyMap.all_empty, KeyMap.all_empty⟩

theorem Keyed.coreFeed {ist : ItemStatesTracker} (h : Keyed ist.itemsNotOK) (call : Option Call) :
    Keyed (coreFeed ist call).1.itemsNotOK := by
  cases call with
  | none => exact h
  | some call => exact Tracker.Keyed.feedItems h call

section Monitor

variable (c : CollectorParams)

/-- The call that handling an event leads to. -/
def System.call (s : System) : Input c → Option Call
  | .own event readings =>
    readings.call (handle c s.coll event).2 (handle_ok c s.coll s.ok event).2.2
  | .other upd => some upd.call

def System.step (s : System) (i : Input c) : System × Option Notification :=
  (⟨match i with
      | .own event _ => (handle c s.coll event).1
      | .other _ => s.coll,
    (coreFeed s.tracker (s.call c i)).1,
    by
      cases i with
      | own event _ => exact (handle_ok c s.coll s.ok event).1
      | other _ => exact s.ok,
    Keyed.coreFeed s.keyed _⟩,
    (coreFeed s.tracker (s.call c i)).2)

def monitor : Mealy System (Input c) (Option Notification) := ⟨.init, fun s i => s.step c i⟩

@[simp] theorem monitor_step (s : System) (i : Input c) : (monitor c).step s i = s.step c i := rfl

/-- The last answer that `f` gave along a run of the monitor. -/
def lastOf {α : Type} (f : System → Input c → Option α) (inputs : List (Input c)) : Option α :=
  let asked : Mealy System (Input c) (Option α) := ⟨.init, fun s i => ((s.step c i).1, f s i)⟩
  ((asked.outputs inputs).filterMap id).getLast?

theorem lastOf_snoc {α : Type} (f : System → Input c → Option α) (inputs : List (Input c))
    (i : Input c) :
    lastOf c f (inputs ++ [i]) = (f ((monitor c).run inputs) i).or (lastOf c f inputs) := by
  let asked : Mealy System (Input c) (Option α) := ⟨.init, fun s i => ((s.step c i).1, f s i)⟩
  have hrun : ∀ inputs, asked.run inputs = (monitor c).run inputs := by
    intro inputs
    induction inputs using List.reverseRecOn with
    | nil => rfl
    | append_singleton inputs i ih =>
      rw [Mealy.run_snoc, Mealy.run_snoc, ih]
      rfl
  have hout : (asked.step (asked.run inputs) i).2 = f ((monitor c).run inputs) i := by
    rw [hrun]
  show ((asked.outputs (inputs ++ [i])).filterMap id).getLast? = _
  rw [Mealy.outputs_snoc, hout, List.filterMap_append]
  cases f ((monitor c).run inputs) i with
  | none => simp [lastOf, asked]
  | some o => simp

/-- The unit `name` as an input shows it. -/
def System.shows (name : String) (s : System) : Input c → Option Unit
  | .own event _ => shown c s.coll.firstUpdate name event
  | .other _ => none

/-- What an input says about the unit `name`. -/
def System.observes (name : String) (s : System) : Input c → Option Observation
  | .own event _ => observation c s.coll.firstUpdate name event
  | .other _ => none

def lastShown (name : String) : List (Input c) → Option Unit := lastOf c (System.shows c name)

def lastObserved (name : String) : List (Input c) → Option Observation :=
  lastOf c (System.observes c name)

/-- The tracker's incident of a unit, after the event was handled and its update fed. -/
theorem own_notOK (s : System) (event : Event) (r : Readings) (k : ItemKey) :
    (s.step c (.own event r)).1.tracker.itemsNotOK[k]? =
      match sentItem (handle c s.coll event).2 k with
      | none => s.tracker.itemsNotOK[k]?
      | some item => reported (r.clock k) item s.tracker.itemsNotOK[k]? := by
  exact coreFeed_notOK r _ _ s.tracker k

theorem other_notOK (s : System) (upd : OtherUpdate c.id) (name : String) :
    (s.step c (.other upd)).1.tracker.itemsNotOK[itemKeyFromSystemdName c.id name]? =
      s.tracker.itemsNotOK[itemKeyFromSystemdName c.id name]? := by
  have h := feedItems_notOK s.tracker upd.call (itemKeyFromSystemdName c.id name)
  rw [KeyMap.lookup_none_iff.mpr (upd.other name)] at h
  exact h

end Monitor

/-! ## The simulation, one unit at a time -/

/-- `o` is what the collector makes of a unit called `name`. -/
structure Observation.Of (c : CollectorParams) (name : String) (o : Observation) : Prop where
  item : getItemFromUnit c o.unit = some (o.item, o.resolve)
  name : o.unit.name = name

theorem shown_name {c : CollectorParams} {first : Bool} {name : String} {event : Event}
    {unit : Unit} (h : shown c first name event = some unit) : unit.name = name := by
  cases event with
  | units upd order =>
    simp only [shown, Option.map_eq_some_iff] at h
    obtain ⟨entry, hentry, rfl⟩ := h
    exact unitOf_name hentry
  | err text => cases h
  | ready key generation => cases h

theorem observation_of {c : CollectorParams} {first : Bool} {name : String} {event : Event}
    {o : Observation} (h : observation c first name event = some o) : o.Of c name := by
  simp only [observation, Option.bind_eq_some_iff, Option.map_eq_some_iff] at h
  obtain ⟨unit, hunit, r, hr, rfl⟩ := h
  exact ⟨hr, shown_name hunit⟩

/-- Interest depends on the name only, so a unit with an observation has no later appearance that
is passed over. -/
theorem lastShown_eq {c : CollectorParams} {name : String} {inputs : List (Input c)}
    {o : Observation} (h : lastObserved c name inputs = some o) :
    lastShown c name inputs = some o.unit ∧ o.Of c name := by
  induction inputs using List.reverseRecOn generalizing o with
  | nil => cases h
  | append_singleton inputs i ih =>
    rw [lastObserved, lastOf_snoc] at h
    rw [lastShown, lastOf_snoc]
    cases i with
    | other upd => exact ih h
    | own event r =>
      simp only [System.observes, System.shows] at h ⊢
      cases hobs : observation c ((monitor c).run inputs).coll.firstUpdate name event with
      | some o' =>
        rw [hobs] at h
        cases h
        refine ⟨?_, observation_of hobs⟩
        simp only [observation, Option.bind_eq_some_iff, Option.map_eq_some_iff] at hobs
        obtain ⟨unit, hunit, r, _, rfl⟩ := hobs
        rw [hunit]
        rfl
      | none =>
        rw [hobs] at h
        obtain ⟨hshown, ho⟩ := ih h
        cases hunit : shown c ((monitor c).run inputs).coll.firstUpdate name event with
        | none => exact ⟨hshown, ho⟩
        | some unit =>
          have hsome := getItemFromUnit_isSome (c := c) (ho.name.trans (shown_name hunit).symm)
          rw [ho.item] at hsome
          simp only [observation, hunit, Option.bind_some, Option.map_eq_none_iff] at hobs
          rw [hobs] at hsome
          cases hsome

/-- How the collector's copy `b` and the tracker's copy `w` of the incident of the unit `name`
agree, given the last observation of the unit: there is no incident, or the unit is failing, or
it is OK again and its policy defers the resolution. -/
inductive Sim (c : CollectorParams) (name : String) (last : Option Observation) (b : Slot)
    (w : Option ItemWContext) : Prop where
  | clear (hb : b = .clear none) (hw : w = none)
  | failing (o : Observation) (policy : Option ConfigResolve) (e : ItemWContext)
      (hlast : last = some o) (ho : o.Of c name) (hs : o.item.state ≠ .ok)
      (hb : b = ⟨some policy, some o.item.state, none, none, none⟩)
      (hw : w = some e) (he : e.toItem = o.item)
  | deferred (o : Observation) (policy : ConfigResolve) (severity : ItemState)
      (pending : Option PendingResolution) (e : ItemWContext)
      (hlast : last = some o) (ho : o.Of c name) (hs : o.item.state = .ok)
      (hb : b = ⟨some (some policy), some severity, pending,
        some ⟨o.unit.state, o.unit.subState⟩, none⟩)
      (hsev : severity ≠ .ok) (hp : ∀ q, pending = some q → q.item = o.item)
      (hw : w = some e)
      (he : e.toItem = { o.item with
        state := severity, details := deferredDetails o.item.details o.unit policy })

/-- What remains of a slot once the update is sent. -/
def Slot.kept (b : Slot) : Slot := ⟨b.resolve, b.state, b.pending, b.deferred, none⟩

theorem Slot.recover_fields (generation : Nat) (unit : Unit) (item : Item)
    (resolve : ConfigResolve) (b : Slot) :
    (b.recover generation unit item resolve).resolve = b.resolve ∧
      (b.recover generation unit item resolve).state = b.state ∧
      (b.recover generation unit item resolve).deferred = b.deferred ∧
      (b.recover generation unit item resolve).item = b.item ∧
      ∀ q, (b.recover generation unit item resolve).pending = some q → q.item = item := by
  unfold Slot.recover
  split
  · refine ⟨rfl, rfl, rfl, rfl, ?_⟩
    rintro q ⟨⟩
    rfl
  · refine ⟨rfl, rfl, rfl, rfl, ?_⟩
    rintro q ⟨⟩

/-- The deferred case is entered and kept by every OK observation of a unit whose incident has a
policy: `x` is the item shown for it. -/
theorem Sim.of_recover {c : CollectorParams} {name : String} {o : Observation} {b : Slot}
    {policy : ConfigResolve} {severity : ItemState} {e : ItemWContext} (ho : o.Of c name)
    (hs : o.item.state = .ok) (hres : b.resolve = some (some policy))
    (hstate : b.state = some severity) (hsev : severity ≠ .ok)
    (hdef : b.deferred = some ⟨o.unit.state, o.unit.subState⟩)
    (he : e.toItem = { o.item with
      state := severity, details := deferredDetails o.item.details o.unit policy })
    (generation : Nat) :
    Sim c name (some o) (b.recover generation o.unit o.item policy).kept (some e) := by
  obtain ⟨h1, h2, h3, _, h5⟩ := b.recover_fields generation o.unit o.item policy
  refine .deferred o policy severity (b.recover generation o.unit o.item policy).pending e rfl ho
    hs ?_ hsev h5 rfl he
  rw [Slot.kept, h1, h2, h3, hres, hstate, hdef]

theorem Observation.Of.item_eq {c : CollectorParams} {name : String} {o o' : Observation}
    (ho : o.Of c name) (ho' : o'.Of c name) (hstate : o.unit.state = o'.unit.state)
    (hsub : o.unit.subState = o'.unit.subState) : o.unit = o'.unit ∧ o.item = o'.item := by
  have hunit : o.unit = o'.unit := by
    have hname := ho.name.trans ho'.name.symm
    cases hu : o.unit
    cases hu' : o'.unit
    simp_all
  refine ⟨hunit, ?_⟩
  have h := ho.item
  rw [hunit, ho'.item, Option.some.injEq, Prod.mk.injEq] at h
  exact h.1.symm

/-- A unit that is OK again while its incident has a policy. -/
theorem Sim.observe_deferred {c : CollectorParams} {name : String} {o : Observation} {b : Slot}
    {w : Option ItemWContext} {policy : ConfigResolve} {last : Option Observation}
    (h : Sim c name last b w) (ho : o.Of c name) (hs : o.item.state = .ok)
    (hb : b.resolve = some (some policy)) (generation : Nat) (now : Time) :
    Sim c name (some o)
      ((b.publishDeferred o.unit o.item policy).recover generation o.unit o.item policy).kept
      (match (b.publishDeferred o.unit o.item policy).item with
        | none => w
        | some item => reported now item w) := by
  cases h with
  | clear hb' hw =>
    subst hb'
    cases hb
  | failing o' policy' e hlast ho' hs' hb' hw he =>
    subst hb' hw
    cases hb
    -- the first OK observation since the failure: its state is published
    simp only [Slot.publishDeferred, reduceCtorEq, if_false, Option.getD_some, reported, hs']
    exact .of_recover ho hs rfl rfl hs' rfl rfl generation
  | deferred o' policy' severity pending e hlast ho' hs' hb' hsev hp hw he =>
    subst hb' hw
    cases hb
    by_cases hsame : some (⟨o'.unit.state, o'.unit.subState⟩ : DeferredResolutionUnitState) =
        some ⟨o.unit.state, o.unit.subState⟩
    · -- nothing changed, so nothing is published: the tracker shows this very state already
      obtain ⟨hstate, hsub⟩ : o'.unit.state = o.unit.state ∧ o'.unit.subState = o.unit.subState := by
        simpa using hsame
      obtain ⟨hunit, hitem⟩ := ho'.item_eq ho hstate hsub
      simp only [Slot.publishDeferred, hsame, if_true]
      refine .of_recover ho hs rfl rfl hsev rfl ?_ generation
      rw [he, hunit, hitem]
    · simp only [Slot.publishDeferred, hsame, if_false, Option.getD_some, reported, hsev]
      exact .of_recover ho hs rfl rfl hsev rfl rfl generation

/-- One input keeps the two copies of a unit's incident in agreement. -/
theorem Sim.keyStep {c : CollectorParams} {s : State} {event : Event} {name : String}
    {after : Slot} {last : Option Observation} {w : Option ItemWContext}
    (h : Sim c name last (s.slot none (itemKeyFromSystemdName c.id name)) w)
    (hk : KeyStep c s event name after) (now : Time) :
    Sim c name ((observation c s.firstUpdate name event).or last) after.kept
      (match after.item with
        | none => w
        | some item => reported now item w) := by
  cases hk with
  | quiet hobs hslot =>
    subst hslot
    rw [hobs]
    exact h
  | expired pending hevent hpending hslot =>
    subst hslot hevent
    -- only the deferred case has a window, and its item is the last OK observation
    cases h with
    | clear hb hw =>
      have : (s.slot none (itemKeyFromSystemdName c.id name)).pending = some pending := hpending
      rw [hb] at this
      cases this
    | failing o policy e hlast ho hs hb hw he =>
      have : (s.slot none (itemKeyFromSystemdName c.id name)).pending = some pending := hpending
      rw [hb] at this
      cases this
    | deferred o policy severity pending' e hlast ho hs hb hsev hp hw he =>
      have : (s.slot none (itemKeyFromSystemdName c.id name)).pending = some pending := hpending
      rw [hb] at this
      refine .clear rfl ?_
      simp [Slot.clear, reported, hp pending this, hs]
  | observed o generation hgen hobs hslot =>
    have ho := observation_of hobs
    rw [hobs, Option.some_or]
    subst hslot
    unfold Slot.observe
    split
    · rename_i hs
      -- failing: whatever incident there was takes the new item
      cases hw : w with
      | none =>
        refine .failing o _ { toItem := o.item, incidentStartedAt := now } rfl ho hs rfl ?_ rfl
        simp [Slot.nonOK, reported, hs]
      | some e =>
        refine .failing o _ { e with toItem := o.item } rfl ho hs rfl ?_ rfl
        simp [Slot.nonOK, reported, hs]
    · rename_i hs
      rw [ne_eq, not_not] at hs
      split
      · rename_i policy hpolicy
        rw [(Slot.recover_fields _ _ _ _ _).2.2.2.1]
        exact h.observe_deferred ho hs hpolicy generation now
      · refine .clear rfl ?_
        simp [Slot.clear, reported, hs]

theorem sim_run (c : CollectorParams) (name : String) (inputs : List (Input c)) :
    Sim c name (lastObserved c name inputs)
      (((monitor c).run inputs).coll.slot none (itemKeyFromSystemdName c.id name))
      ((monitor c).run inputs).tracker.itemsNotOK[itemKeyFromSystemdName c.id name]? := by
  refine (monitor c).history (I := fun inputs s => Sim c name (lastObserved c name inputs)
    (s.coll.slot none (itemKeyFromSystemdName c.id name))
    s.tracker.itemsNotOK[itemKeyFromSystemdName c.id name]?) ?_ ?_ inputs
  · refine .clear ?_ ?_
    · simp [monitor, System.init, State.slot, Slot.clear]
    · simp [monitor, System.init, newItemStatesTracker]
  · intro inputs i ih
    rw [lastObserved, lastOf_snoc]
    cases i with
    | own event r =>
      have h := ih.keyStep (handle_keyStep c ((monitor c).run inputs).coll event name)
        (r.clock (itemKeyFromSystemdName c.id name))
      have hw := own_notOK c ((monitor c).run inputs) event r (itemKeyFromSystemdName c.id name)
      rw [monitor_step, hw]
      exact h
    | other upd =>
      have hw := other_notOK c ((monitor c).run inputs) upd name
      rw [monitor_step, hw]
      exact ih

/-- A key that belongs to no unit of this collector is never touched. -/
theorem handle_slot_foreign (c : CollectorParams) {s : State} {k : ItemKey}
    (hk : ∀ name, k ≠ itemKeyFromSystemdName c.id name) (hs : s.slot none k = .clear none)
    (event : Event) : (handle c s event).1.slot none k = .clear none := by
  cases event with
  | units upd order =>
    have hother : ∀ (p : Pass) (e : String × Option Unit) (k : ItemKey), k ≠ entryKey c e →
        (handleUnit c p e).slot k = p.slot k := fun p e k h => handleUnit_slot_other c p e h
    have h := foldl_keyed_other (v := Pass.slot) hother
      (order.visit (represented c s.firstUpdate upd).units)
      { s with firstUpdate := false, items := ∅ } k (fun e _ heq => hk _ heq.symm)
    simp only [Pass.slot, Slot.mk.injEq] at h
    obtain ⟨h1, h2, h3, h4, _⟩ := h
    rw [← hs]
    simp only [State.slot, Slot.mk.injEq, and_true]
    exact ⟨h1, h2, h3, h4⟩
  | err text => exact hs
  | ready key generation =>
    simp only [handle]
    split
    · exact hs
    · rename_i pending hp
      split
      · exact hs
      · by_cases hkey : key = k
        · subst hkey
          simp [State.slot, Slot.clear]
        · rw [← hs]
          simp [State.slot, KeyMap.lookup_erase, hkey]

theorem foreign_run (c : CollectorParams) {k : ItemKey}
    (hk : ∀ name, k ≠ itemKeyFromSystemdName c.id name) (inputs : List (Input c)) :
    ((monitor c).run inputs).coll.slot none k = .clear none := by
  refine (monitor c).invariant (I := fun s => s.coll.slot none k = .clear none) ?_ ?_ inputs
  · simp [monitor, System.init, State.slot, Slot.clear]
  · intro s i hs
    cases i with
    | own event r => exact handle_slot_foreign c hk hs event
    | other upd => exact hs

/-- The three cases of `Sim`, read off field by field. -/
theorem Sim.agree {c : CollectorParams} {name : String} {last : Option Observation} {b : Slot}
    {w : Option ItemWContext} (h : Sim c name last b w) :
    b.state.isSome = b.resolve.isSome ∧ b.state = w.map (·.state) ∧
    (b.pending.isSome ∨ b.deferred.isSome →
      b.state.isSome ∧ ∃ policy, b.resolve = some (some policy)) ∧
    (∀ e, w = some e → ∃ o, last = some o ∧ o.unit.name = name ∧
      (o.item.state ≠ .ok ∧ e.details = systemdUnitDetails o.unit ∨
        ∃ policy, o.item.state = .ok ∧ b.resolve = some (some policy) ∧
          e.details = deferredDetails (systemdUnitDetails o.unit) o.unit policy)) := by
  cases h with
  | clear hb hw =>
    subst hb hw
    simp [Slot.clear]
  | failing o policy e hlast ho hs hb hw he =>
    subst hb hw
    refine ⟨rfl, by simp [he], by simp, ?_⟩
    rintro e' ⟨⟩
    refine ⟨o, hlast, ho.name, .inl ⟨hs, ?_⟩⟩
    rw [he, (getItemFromUnit_item ho.item).2]
  | deferred o policy severity pending e hlast ho hs hb hsev hp hw he =>
    subst hb hw
    refine ⟨rfl, by simp [he], fun _ => ⟨rfl, policy, rfl⟩, ?_⟩
    rintro e' ⟨⟩
    refine ⟨o, hlast, ho.name, .inr ⟨policy, hs, rfl, ?_⟩⟩
    rw [he, (getItemFromUnit_item ho.item).2]

/-- **Collector and tracker simulate each other.** -/
theorem collector_tracker_simulate (c : CollectorParams) (inputs : List (Input c)) :
    let s := (monitor c).run inputs
    (∀ k, k ∈ s.coll.incidentStates ↔ k ∈ s.coll.incidentResolve) ∧
    (∀ k, k ∈ s.coll.incidentStates ↔
      (∃ name, k = itemKeyFromSystemdName c.id name) ∧ k ∈ s.tracker.itemsNotOK) ∧
    (∀ (k : ItemKey) (severity : ItemState), s.coll.incidentStates[k]? = some severity →
      ∃ w, s.tracker.itemsNotOK[k]? = some w ∧ w.state = severity) ∧
    (∀ k, k ∈ s.coll.pendingResolutions ∨ k ∈ s.coll.deferredResolutionStates →
      k ∈ s.coll.incidentStates ∧ ∃ policy, s.coll.incidentResolve[k]? = some (some policy)) ∧
    (∀ (name : String) (w : ItemWContext),
      s.tracker.itemsNotOK[itemKeyFromSystemdName c.id name]? = some w →
      ∃ o, lastObserved c name inputs = some o ∧ lastShown c name inputs = some o.unit ∧
        o.unit.name = name ∧
        (o.item.state ≠ .ok ∧ w.details = systemdUnitDetails o.unit ∨
          ∃ policy, o.item.state = .ok ∧
            s.coll.incidentResolve[itemKeyFromSystemdName c.id name]? = some (some policy) ∧
            w.details = deferredDetails (systemdUnitDetails o.unit) o.unit policy)) := by
  intro s
  have hown : ∀ name, Sim c name (lastObserved c name inputs)
      (s.coll.slot none (itemKeyFromSystemdName c.id name))
      s.tracker.itemsNotOK[itemKeyFromSystemdName c.id name]? := fun name => sim_run c name inputs
  have hforeign : ∀ k, (∀ name, k ≠ itemKeyFromSystemdName c.id name) →
      s.coll.slot none k = .clear none := fun k hk => foreign_run c hk inputs
  -- a key of any of the four maps is the key of a unit
  have hcases : ∀ k, (∃ name, k = itemKeyFromSystemdName c.id name) ∨
      (k ∉ s.coll.incidentStates ∧ k ∉ s.coll.incidentResolve ∧
        k ∉ s.coll.pendingResolutions ∧ k ∉ s.coll.deferredResolutionStates) := by
    intro k
    by_cases hk : ∃ name, k = itemKeyFromSystemdName c.id name
    · exact .inl hk
    · have h := hforeign k (not_exists.mp hk)
      simp only [State.slot, Slot.clear, Slot.mk.injEq, KeyMap.lookup_none_iff, and_true] at h
      exact .inr ⟨h.2.1, h.1, h.2.2.1, h.2.2.2⟩
  have hstate : ∀ name, s.coll.incidentStates[itemKeyFromSystemdName c.id name]? =
      s.tracker.itemsNotOK[itemKeyFromSystemdName c.id name]?.map (·.state) :=
    fun name => (hown name).agree.2.1
  refine ⟨?_, ?_, ?_, ?_, ?_⟩
  · intro k
    rcases hcases k with ⟨name, rfl⟩ | ⟨h1, h2, _, _⟩
    · have h := (hown name).agree.1
      simp only [State.slot, Std.ExtTreeMap.isSome_getElem?_eq_contains] at h
      rw [Std.ExtTreeMap.mem_iff_contains, Std.ExtTreeMap.mem_iff_contains, h]
    · exact ⟨fun h => absurd h h1, fun h => absurd h h2⟩
  · have hmem : ∀ name, itemKeyFromSystemdName c.id name ∈ s.coll.incidentStates ↔
        itemKeyFromSystemdName c.id name ∈ s.tracker.itemsNotOK := by
      intro name
      rw [KeyMap.mem_iff_lookup, KeyMap.mem_iff_lookup, hstate name]
      simp
    intro k
    constructor
    · intro h
      rcases hcases k with ⟨name, rfl⟩ | ⟨h1, _, _, _⟩
      · exact ⟨⟨name, rfl⟩, (hmem name).mp h⟩
      · exact absurd h h1
    · rintro ⟨⟨name, rfl⟩, h⟩
      exact (hmem name).mpr h
  · intro k severity hsev
    rcases hcases k with ⟨name, rfl⟩ | ⟨h1, _, _, _⟩
    · rw [hstate name, Option.map_eq_some_iff] at hsev
      exact hsev
    · exact absurd (KeyMap.mem_iff_lookup.mpr ⟨severity, hsev⟩) h1
  · intro k hk
    rcases hcases k with ⟨name, rfl⟩ | ⟨_, _, h3, h4⟩
    · have h := (hown name).agree.2.2.1
      simp only [State.slot, Std.ExtTreeMap.isSome_getElem?_iff_mem] at h
      exact h hk
    · rcases hk with hk | hk
      · exact absurd hk h3
      · exact absurd hk h4
  · intro name w hw
    obtain ⟨o, hlast, hname, htext⟩ := (hown name).agree.2.2.2 w hw
    exact ⟨o, hlast, (lastShown_eq hlast).1, hname, htext⟩

end Systemd
end Montray
