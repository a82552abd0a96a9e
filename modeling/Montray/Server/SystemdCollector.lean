import Montray.Lib.Machine
import Montray.Server.SystemdConfig

/-!
# Montray.Server.SystemdCollector

The loop of the systemd collector's `run`, before teardown: provider updates, provider errors and
timer callbacks.

A callback is any pair of a key and a generation, at any time: timers that were stopped, timers
that fire late and timers that never existed are all among them. Generations are natural numbers
where the source counts with a `uint64`: a run has fewer than 2^64 deferred recoveries.

* `handleUnit`: one pass of the loop over the units of an update.
* `Slot`: what the loop keeps about one key; `Slot.observe` is one pass seen at its key.
* `handle_keyStep`: what one input can do to one key, in three cases.
-/

namespace Montray
namespace Systemd

open Lib

structure PendingResolution where
  item : Item
  generation : Nat
  deriving DecidableEq, Repr

structure DeferredResolutionUnitState where
  state : UnitState
  subState : String
  deriving DecidableEq, Repr

/-- The variables of `run`. A present `none` in `incidentResolve` is an incident without a
delayed-resolution policy. -/
structure State where
  firstUpdate : Bool := true
  incidentResolve : KeyMap (Option ConfigResolve) := ∅
  incidentStates : KeyMap ItemState := ∅
  pendingResolutions : KeyMap PendingResolution := ∅
  deferredResolutionStates : KeyMap DeferredResolutionUnitState := ∅
  nextGeneration : Nat := 0

/-- The variables during the loop over an update, with the items of the update it assembles. -/
structure Pass extends State where
  items : KeyMap Item

namespace Pass

def cancelPendingResolution (p : Pass) (key : ItemKey) : Pass :=
  { p with pendingResolutions := p.pendingResolutions.erase key }

/-- A non-OK item interrupts any recovery window and keeps the policy of its incident. -/
def nonOK (p : Pass) (item : Item) (resolve : Option ConfigResolve) : Pass :=
  let p := p.cancelPendingResolution item.key
  { p with
    deferredResolutionStates := p.deferredResolutionStates.erase item.key
    incidentResolve :=
      if item.key ∈ p.incidentResolve then p.incidentResolve
      else p.incidentResolve.insert item.key resolve
    incidentStates := p.incidentStates.insert item.key item.state
    items := p.items.insert item.key item }

/-- An OK item that has no incident, or one without a policy, is published at once. -/
def healthy (p : Pass) (item : Item) : Pass :=
  let p := p.cancelPendingResolution item.key
  { p with
    incidentResolve := p.incidentResolve.erase item.key
    incidentStates := p.incidentStates.erase item.key
    deferredResolutionStates := p.deferredResolutionStates.erase item.key
    items := p.items.insert item.key item }

/-- Publishes the new unit details of an OK item whose incident stays open, once per state. -/
def publishDeferred (p : Pass) (unit : Unit) (item : Item) (resolve : ConfigResolve) : Pass :=
  let deferredState : DeferredResolutionUnitState := ⟨unit.state, unit.subState⟩
  if p.deferredResolutionStates[item.key]? = some deferredState then p
  else
    { p with
      deferredResolutionStates := p.deferredResolutionStates.insert item.key deferredState
      items := p.items.insert item.key
        { item with
          state := p.incidentStates[item.key]?.getD (.other "")
          details := deferredDetails item.details unit resolve } }

/-- Starts, continues or stops the recovery window. -/
def recover (p : Pass) (unit : Unit) (item : Item) (resolve : ConfigResolve) : Pass :=
  if ¬ containsUnitState resolve.states unit.state then p.cancelPendingResolution item.key
  else
    match p.pendingResolutions[item.key]? with
    | some pending =>
      -- Keep the original timer, but publish the freshest details when it expires.
      { p with
        pendingResolutions :=
          p.pendingResolutions.insert item.key { pending with item := item } }
    | none =>
      { p with
        nextGeneration := p.nextGeneration + 1
        pendingResolutions :=
          p.pendingResolutions.insert item.key ⟨item, p.nextGeneration + 1⟩ }

end Pass

/-- The unit of an entry; a removed one is replaced by the synthetic one. -/
def unitOf (e : String × Option Unit) : Unit := e.2.getD (notSent e.1)

/-- One pass of the loop over the units of an update. -/
def handleUnit (c : CollectorParams) (p : Pass) (e : String × Option Unit) : Pass :=
  match getItemFromUnit c (unitOf e) with
  | none => p
  | some (item, resolve) =>
    if item.state ≠ .ok then p.nonOK item resolve
    else
      match p.incidentResolve[item.key]? with
      | some (some resolve) =>
        (p.publishDeferred (unitOf e) item resolve).recover (unitOf e) item resolve
      | _ => p.healthy item

inductive Event where
  | units (upd : UnitUpdate) (order : RangeOrder (Option Unit))
  | err (text : String)
  | ready (key : ItemKey) (generation : Nat)

/-- The update the loop goes over: the first one represents every named unit. -/
def represented (c : CollectorParams) (firstUpdate : Bool) (upd : UnitUpdate) : UnitUpdate :=
  if firstUpdate then withMissing c.config upd else upd

def handleUnits (c : CollectorParams) (s : State) (upd : UnitUpdate)
    (order : RangeOrder (Option Unit)) : Pass :=
  (order.visit (represented c s.firstUpdate upd).units).foldl (handleUnit c)
    { s with firstUpdate := false, items := ∅ }

/-- One turn of the loop of `run`, with the update it sends. -/
def handle (c : CollectorParams) (s : State) : Event → State × Option Update
  | .units upd order =>
    let p := handleUnits c s upd order
    (p.toState, if p.items.size = 0 then none else some (.items p.items))
  | .err text => (s, some (.err ("got error from systemd conn: " ++ text)))
  | .ready key generation =>
    match s.pendingResolutions[key]? with
    | none => (s, none)
    | some pending =>
      if pending.generation ≠ generation then (s, none)
      else
        ({ s with
            pendingResolutions := s.pendingResolutions.erase key
            incidentResolve := s.incidentResolve.erase key
            incidentStates := s.incidentStates.erase key
            deferredResolutionStates := s.deferredResolutionStates.erase key },
          some (.items ((∅ : KeyMap Item).insert key pending.item)))

/-! ## One key at a time -/

/-- What the loop keeps about one key, and what the update being assembled says about it. -/
structure Slot where
  resolve : Option (Option ConfigResolve)
  state : Option ItemState
  pending : Option PendingResolution
  deferred : Option DeferredResolutionUnitState
  item : Option Item

/-- A key without an incident, about which `item` is published. -/
def Slot.clear (item : Option Item) : Slot := ⟨none, none, none, none, item⟩

def Pass.slot (p : Pass) (k : ItemKey) : Slot :=
  ⟨p.incidentResolve[k]?, p.incidentStates[k]?, p.pendingResolutions[k]?,
    p.deferredResolutionStates[k]?, p.items[k]?⟩

namespace Slot

def nonOK (item : Item) (resolve : Option ConfigResolve) (s : Slot) : Slot :=
  ⟨some (s.resolve.getD resolve), some item.state, none, none, some item⟩

def publishDeferred (unit : Unit) (item : Item) (resolve : ConfigResolve) (s : Slot) : Slot :=
  if s.deferred = some ⟨unit.state, unit.subState⟩ then s
  else
    { s with
      deferred := some ⟨unit.state, unit.subState⟩
      item := some { item with
        state := s.state.getD (.other "")
        details := deferredDetails item.details unit resolve } }

/-- `generation` is the number a window gets if this pass opens one. -/
def recover (generation : Nat) (unit : Unit) (item : Item) (resolve : ConfigResolve)
    (s : Slot) : Slot :=
  if containsUnitState resolve.states unit.state then
    { s with pending := some ⟨item, (s.pending.map (·.generation)).getD generation⟩ }
  else { s with pending := none }

/-- One pass of the loop, at the key of its item. -/
def observe (generation : Nat) (unit : Unit) (item : Item) (resolve : Option ConfigResolve)
    (s : Slot) : Slot :=
  if item.state ≠ .ok then s.nonOK item resolve
  else
    match s.resolve with
    | some (some resolve) =>
      (s.publishDeferred unit item resolve).recover generation unit item resolve
    | _ => .clear (some item)

end Slot

section PassSlots

variable (p : Pass) (unit : Unit) (item : Item) (k : ItemKey)

theorem Pass.nonOK_slot (resolve : Option ConfigResolve) :
    (p.nonOK item resolve).slot k =
      if item.key = k then (p.slot k).nonOK item resolve else p.slot k := by
  simp only [Pass.nonOK, Pass.cancelPendingResolution, Pass.slot, Slot.nonOK]
  by_cases hk : item.key = k
  · subst hk
    by_cases hmem : item.key ∈ p.incidentResolve
    · simp [hmem]
    · simp [hmem]
  · by_cases hmem : item.key ∈ p.incidentResolve
    · simp [hmem, KeyMap.lookup_insert, KeyMap.lookup_erase, hk]
    · simp [hmem, KeyMap.lookup_insert, KeyMap.lookup_erase, hk]

theorem Pass.healthy_slot :
    (p.healthy item).slot k = if item.key = k then .clear (some item) else p.slot k := by
  simp only [Pass.healthy, Pass.cancelPendingResolution, Pass.slot]
  by_cases hk : item.key = k
  · subst hk
    simp [Slot.clear]
  · simp [KeyMap.lookup_insert, KeyMap.lookup_erase, hk]

theorem Pass.publishDeferred_slot (resolve : ConfigResolve) :
    (p.publishDeferred unit item resolve).slot k =
      if item.key = k then (p.slot k).publishDeferred unit item resolve else p.slot k := by
  unfold Pass.publishDeferred
  by_cases hk : item.key = k
  · subst hk
    by_cases hd : p.deferredResolutionStates[item.key]? = some ⟨unit.state, unit.subState⟩
    · simp [hd, Pass.slot, Slot.publishDeferred]
    · simp [hd, Pass.slot, Slot.publishDeferred]
  · rw [if_neg hk]
    dsimp only
    split
    · rfl
    · simp [Pass.slot, KeyMap.lookup_insert, hk]

theorem Pass.recover_slot (resolve : ConfigResolve) :
    (p.recover unit item resolve).slot k =
      if item.key = k then (p.slot k).recover (p.nextGeneration + 1) unit item resolve
      else p.slot k := by
  unfold Pass.recover Slot.recover
  by_cases hk : item.key = k
  · subst hk
    rw [if_pos rfl]
    split
    · simp [Pass.slot, Pass.cancelPendingResolution]
    · rename_i hc
      rw [not_not] at hc
      split
      · rename_i pending hp
        simp [Pass.slot, hp, hc]
      · rename_i hp
        simp [Pass.slot, hp, hc]
  · rw [if_neg hk]
    split
    · simp [Pass.slot, Pass.cancelPendingResolution, KeyMap.lookup_erase, hk]
    · split
      · simp [Pass.slot, KeyMap.lookup_insert, hk]
      · simp [Pass.slot, KeyMap.lookup_insert, hk]

theorem Pass.nextGeneration_publishDeferred (resolve : ConfigResolve) :
    (p.publishDeferred unit item resolve).nextGeneration = p.nextGeneration := by
  unfold Pass.publishDeferred
  dsimp only
  split <;> rfl

theorem Pass.nextGeneration_recover (resolve : ConfigResolve) :
    p.nextGeneration ≤ (p.recover unit item resolve).nextGeneration := by
  unfold Pass.recover
  split
  · exact Nat.le_refl _
  · split
    · exact Nat.le_refl _
    · exact Nat.le_succ _

end PassSlots

section Units

variable (c : CollectorParams)

/-- The key an entry of an update is about. -/
def entryKey (e : String × Option Unit) : ItemKey :=
  itemKeyFromSystemdName c.id (unitOf e).name

theorem nextGeneration_handleUnit (p : Pass) (e : String × Option Unit) :
    p.nextGeneration ≤ (handleUnit c p e).nextGeneration := by
  unfold handleUnit
  split
  · exact Nat.le_refl _
  · rename_i item _ _
    split
    · exact Nat.le_refl _
    · split
      · rename_i resolve _
        have h := (p.publishDeferred (unitOf e) item resolve).nextGeneration_recover (unitOf e)
          item resolve
        rwa [Pass.nextGeneration_publishDeferred] at h
      · exact Nat.le_refl _

theorem handleUnit_slot_other (p : Pass) (e : String × Option Unit) {k : ItemKey}
    (hk : k ≠ entryKey c e) : (handleUnit c p e).slot k = p.slot k := by
  unfold handleUnit
  split
  · rfl
  · rename_i item resolve hitem
    have hne : ¬ item.key = k := by
      rw [(getItemFromUnit_item hitem).1]
      exact fun h => hk h.symm
    split
    · rw [Pass.nonOK_slot, if_neg hne]
    · split
      · rw [Pass.recover_slot, if_neg hne, Pass.publishDeferred_slot, if_neg hne]
      · rw [Pass.healthy_slot, if_neg hne]

theorem handleUnit_slot_self (p : Pass) {e : String × Option Unit} {item : Item}
    {resolve : Option ConfigResolve} (hitem : getItemFromUnit c (unitOf e) = some (item, resolve)) :
    (handleUnit c p e).slot (entryKey c e) =
      (p.slot (entryKey c e)).observe (p.nextGeneration + 1) (unitOf e) item resolve := by
  have hkey : entryKey c e = item.key := (getItemFromUnit_item hitem).1.symm
  unfold handleUnit Slot.observe
  rw [hitem, hkey]
  dsimp only
  split
  · rw [Pass.nonOK_slot, if_pos rfl]
  · have hres : (p.slot item.key).resolve = p.incidentResolve[item.key]? := rfl
    rw [hres]
    split
    · rw [Pass.recover_slot, if_pos rfl, Pass.publishDeferred_slot, if_pos rfl,
        Pass.nextGeneration_publishDeferred]
    · rw [Pass.healthy_slot, if_pos rfl]

theorem handleUnit_ignored (p : Pass) {e : String × Option Unit}
    (hitem : getItemFromUnit c (unitOf e) = none) : handleUnit c p e = p := by
  unfold handleUnit
  rw [hitem]

end Units

/-! ## What one input does to one key -/

/-- What an update says about a unit: the unit, the item it becomes and the policy of the
condition it matched. -/
structure Observation where
  unit : Unit
  item : Item
  resolve : Option ConfigResolve

/-- The unit `name` as an event shows it to the loop. -/
def shown (c : CollectorParams) (firstUpdate : Bool) (name : String) : Event → Option Unit
  | .units upd _ =>
    (represented c firstUpdate upd).units[name]?.map fun entry => unitOf (name, entry)
  | _ => none

/-- What an event says about the unit `name`, unless the collector is not interested in it. -/
def observation (c : CollectorParams) (firstUpdate : Bool) (name : String) (event : Event) :
    Option Observation :=
  (shown c firstUpdate name event).bind fun unit =>
    (getItemFromUnit c unit).map fun r => ⟨unit, r.1, r.2⟩

/-- The item a sent update carries for a key. -/
def sentItem (sent : Option Update) (k : ItemKey) : Option Item :=
  match sent with
  | some (.items items) => items[k]?
  | _ => none

def State.slot (s : State) (item : Option Item) (k : ItemKey) : Slot :=
  ⟨s.incidentResolve[k]?, s.incidentStates[k]?, s.pendingResolutions[k]?,
    s.deferredResolutionStates[k]?, item⟩

/-- What an event can do to the key of the unit `name`. -/
inductive KeyStep (c : CollectorParams) (s : State) (event : Event) (name : String)
    (after : Slot) : Prop where
  | quiet (hobs : observation c s.firstUpdate name event = none)
      (hslot : after = s.slot none (itemKeyFromSystemdName c.id name))
  | expired (pending : PendingResolution)
      (hevent : event = .ready (itemKeyFromSystemdName c.id name) pending.generation)
      (hpending : s.pendingResolutions[itemKeyFromSystemdName c.id name]? = some pending)
      (hslot : after = .clear (some pending.item))
  | observed (o : Observation) (generation : Nat) (hgen : s.nextGeneration < generation)
      (hobs : observation c s.firstUpdate name event = some o)
      (hslot : after = (s.slot none (itemKeyFromSystemdName c.id name)).observe generation
        o.unit o.item o.resolve)

section KeySteps

variable (c : CollectorParams) (s : State)

theorem unitOf_name {upd : UnitUpdate} {name : String} {entry : Option Unit}
    (h : upd.units[name]? = some entry) : (unitOf (name, entry)).name = name := by
  cases entry with
  | none => rfl
  | some u => exact upd.named name u h

/-- The loop over an update, seen at the key of one unit. -/
theorem handleUnits_slot (upd : UnitUpdate) (order : RangeOrder (Option Unit)) (name : String) :
    KeyStep c s (.units upd order) name
      ((handleUnits c s upd order).slot (itemKeyFromSystemdName c.id name)) := by
  let start : Pass := { s with firstUpdate := false, items := ∅ }
  have hstart : ∀ k, start.slot k = s.slot none k := by
    intro k
    simp [start, Pass.slot, State.slot]
  have hentry : ∀ e ∈ order.visit (represented c s.firstUpdate upd).units,
      entryKey c e = itemKeyFromSystemdName c.id e.1 := by
    intro e he
    rw [entryKey, unitOf_name (order.mem_visit.mp he)]
  have hother : ∀ (p : Pass) (e : String × Option Unit) (k : ItemKey), k ≠ entryKey c e →
      (handleUnit c p e).slot k = p.slot k := fun p e k h => handleUnit_slot_other c p e h
  cases hu : (represented c s.firstUpdate upd).units[name]? with
  | none =>
    refine .quiet (by simp [observation, shown, hu]) ?_
    rw [← hstart]
    refine foldl_keyed_other (v := Pass.slot) hother _ start _ ?_
    intro e he heq
    rw [hentry e he] at heq
    have hlook := order.mem_visit.mp he
    rw [itemKeyFromSystemdName_inj heq, hu] at hlook
    cases hlook
  | some entry =>
    have hmem : (name, entry) ∈ order.visit (represented c s.firstUpdate upd).units :=
      order.mem_visit.mpr hu
    have hnd : ((order.visit (represented c s.firstUpdate upd).units).map (entryKey c)).Nodup := by
      rw [List.map_congr_left hentry]
      have hnd := (order.nodup_visit (represented c s.firstUpdate upd).units).map
        (f := itemKeyFromSystemdName c.id) fun _ _ h => itemKeyFromSystemdName_inj h
      rwa [List.map_map] at hnd
    -- the generation counter never goes back, so a window opened here has a fresh generation
    have h := foldl_keyed_rel (f := handleUnit c) (v := Pass.slot)
      (I := fun p => s.nextGeneration ≤ p.nextGeneration)
      (R := fun e b b' => match getItemFromUnit c (unitOf e) with
        | none => b' = b
        | some r => ∃ g, s.nextGeneration < g ∧ b' = b.observe g (unitOf e) r.1 r.2)
      (fun p e h => Nat.le_trans h (nextGeneration_handleUnit c p e))
      (by
        intro p e h
        split
        · rename_i hnone
          rw [handleUnit_ignored c p hnone]
        · rename_i r hr
          exact ⟨p.nextGeneration + 1, by omega, handleUnit_slot_self c p hr⟩)
      hother _ start (Nat.le_refl _) hnd (name, entry) hmem
    have hkey : entryKey c (name, entry) = itemKeyFromSystemdName c.id name := hentry _ hmem
    rw [hkey, hstart] at h
    cases hitem : getItemFromUnit c (unitOf (name, entry)) with
    | none =>
      rw [hitem] at h
      exact .quiet (by simp [observation, shown, hu, hitem]) h
    | some r =>
      rw [hitem] at h
      obtain ⟨g, hg, hslot⟩ := h
      exact .observed ⟨unitOf (name, entry), r.1, r.2⟩ g hg (by simp [observation, shown, hu, hitem]) hslot

theorem handle_keyStep (event : Event) (name : String) :
    KeyStep c s event name ((handle c s event).1.slot
      (sentItem (handle c s event).2 (itemKeyFromSystemdName c.id name))
      (itemKeyFromSystemdName c.id name)) := by
  cases event with
  | units upd order =>
    have h := handleUnits_slot c s upd order name
    have hsent : sentItem (handle c s (.units upd order)).2 (itemKeyFromSystemdName c.id name) =
        (handleUnits c s upd order).items[itemKeyFromSystemdName c.id name]? := by
      simp only [handle]
      split
      · rename_i hsize
        exact (KeyMap.size_eq_zero_iff.mp hsize _).symm
      · rfl
    rw [hsent]
    exact h
  | err text => exact .quiet rfl rfl
  | ready key generation =>
    simp only [handle]
    split
    · exact .quiet rfl rfl
    · rename_i pending hp
      split
      · exact .quiet rfl rfl
      · rename_i hgen
        rw [ne_eq, not_not] at hgen
        subst hgen
        by_cases hk : key = itemKeyFromSystemdName c.id name
        · subst hk
          refine .expired pending rfl hp ?_
          simp [State.slot, sentItem, Slot.clear]
        · refine .quiet rfl ?_
          simp [State.slot, sentItem, KeyMap.lookup_erase, hk]

/-- The recovery windows are filed under the keys of their items, with generations that have been
given out. -/
def State.Ok (s : State) : Prop :=
  KeyMap.All s.pendingResolutions fun k q => q.item.key = k ∧ q.generation ≤ s.nextGeneration

/-- The same for the items of the update that is assembled. -/
structure Pass.Ok (p : Pass) : Prop where
  state : p.toState.Ok
  items : KeyMap.All p.items fun k item => item.key = k

theorem Pass.Ok.publishDeferred {p : Pass} (h : p.Ok) (unit : Unit) (item : Item)
    (resolve : ConfigResolve) : (p.publishDeferred unit item resolve).Ok := by
  unfold Pass.publishDeferred
  dsimp only
  split
  · exact h
  · exact ⟨h.state, h.items.insert rfl⟩

theorem Pass.Ok.recover {p : Pass} (h : p.Ok) (unit : Unit) (item : Item)
    (resolve : ConfigResolve) : (p.recover unit item resolve).Ok := by
  unfold Pass.recover
  split
  · exact ⟨h.state.erase, h.items⟩
  · split
    · rename_i pending hp
      exact ⟨h.state.insert ⟨rfl, (h.state _ _ hp).2⟩, h.items⟩
    · refine ⟨?_, h.items⟩
      have hstate : KeyMap.All p.pendingResolutions fun k q =>
          q.item.key = k ∧ q.generation ≤ p.nextGeneration + 1 :=
        h.state.imp fun k q hq => ⟨hq.1, by omega⟩
      exact hstate.insert ⟨rfl, Nat.le_refl _⟩

theorem Pass.Ok.handleUnit {p : Pass} (h : p.Ok) (e : String × Option Unit) :
    (handleUnit c p e).Ok := by
  unfold Systemd.handleUnit
  split
  · exact h
  · split
    · exact ⟨h.state.erase, h.items.insert rfl⟩
    · split
      · exact (h.publishDeferred _ _ _).recover _ _ _
      · exact ⟨h.state.erase, h.items.insert rfl⟩

theorem handleUnits_ok (h : s.Ok) (upd : UnitUpdate) (order : RangeOrder (Option Unit)) :
    (handleUnits c s upd order).Ok ∧
      s.nextGeneration ≤ (handleUnits c s upd order).nextGeneration := by
  unfold handleUnits
  generalize order.visit (represented c s.firstUpdate upd).units = entries
  have hstart : ({ s with firstUpdate := false, items := ∅ } : Pass).Ok := ⟨h, KeyMap.all_empty⟩
  have hgen : s.nextGeneration ≤
      ({ s with firstUpdate := false, items := ∅ } : Pass).nextGeneration := Nat.le_refl _
  generalize ({ s with firstUpdate := false, items := ∅ } : Pass) = p at hstart hgen ⊢
  induction entries generalizing p with
  | nil => exact ⟨hstart, hgen⟩
  | cons e entries ih =>
    exact ih _ (hstart.handleUnit c e) (Nat.le_trans hgen (nextGeneration_handleUnit c p e))

/-- One turn of the loop keeps the windows in order, never reuses a generation, and sends every
item under its own key. -/
theorem handle_ok (h : s.Ok) (event : Event) :
    (handle c s event).1.Ok ∧ s.nextGeneration ≤ (handle c s event).1.nextGeneration ∧
      ∀ items, (handle c s event).2 = some (.items items) →
        KeyMap.All items fun k item => item.key = k := by
  cases event with
  | units upd order =>
    obtain ⟨hok, hgen⟩ := handleUnits_ok c s h upd order
    refine ⟨hok.state, hgen, ?_⟩
    intro items hitems
    simp only [handle] at hitems
    split at hitems
    · cases hitems
    · cases hitems
      exact hok.items
  | err text =>
    refine ⟨h, Nat.le_refl _, ?_⟩
    intro items hitems
    cases hitems
  | ready key generation =>
    simp only [handle]
    split
    · exact ⟨h, Nat.le_refl _, by intro items hitems; cases hitems⟩
    · rename_i pending hp
      split
      · exact ⟨h, Nat.le_refl _, by intro items hitems; cases hitems⟩
      · refine ⟨h.erase, Nat.le_refl _, ?_⟩
        intro items hitems
        cases hitems
        exact KeyMap.all_empty.insert (h key pending hp).1

end KeySteps

end Systemd
end Montray
