import Montray.Lib.Sequences
import Montray.Client.Keys
import Montray.Client.TwoPhase

/-!
# Montray.Client.Snapshot

What a snapshot shows, in terms of the state it is taken from.

A snapshot, the reducer's suppression and a tick test the same deadline, each in its own code:
`isSnoozed_iff_tick` says that they agree. Severity is a fold with its own precedence, which is an
order on `OverallState`; the fold computes its greatest element (`isGreatest_overallState`).

* `snapshot_partitions`: the incidents of every reachable state, split in two.
-/

namespace Montray
namespace Client

open Lib

/-! ## Severity -/

theorem rank_injective : Function.Injective rank := by
  intro a b h
  cases a <;> cases b <;> first | rfl | cases h

/-- The precedence of the tray: unknown, ok, internal error, warning, error. -/
instance : LinearOrder OverallState := LinearOrder.lift' rank rank_injective

theorem isGreatest_overallState (items : List Incident) :
    IsGreatest (insert .ok {o | ∃ i ∈ items, severity i = o}) (overallState items) :=
  isGreatest_foldl severity items .ok

theorem overallState_ne_unknown (items : List Incident) : overallState items ≠ .unknown := by
  intro h
  have hok := (isGreatest_overallState items).2 (Set.mem_insert _ _)
  rw [h] at hok
  exact absurd hok (by decide)

/-! ## Deadlines -/

/-- The snoozes that an event proposes; without a proposal they stay. -/
def Transition.proposal (t : Transition) (live : KeyMap OffsetDateTime) : KeyMap OffsetDateTime :=
  (t.effects.filterMap fun
    | .persistSnoozes snoozes _ => some snoozes
    | .notify _ _ => none).getLast?.getD live

section Deadlines

variable {s : AppState} {key : String} {now : OffsetDateTime}

/-- A tick keeps the entries of the keys that are snoozed when it comes. -/
theorem isSnoozed_iff_tick (formatIncidentTime : OffsetDateTime → String) :
    s.isSnoozed key now = true ↔
      key ∈ (reduce formatIncidentTime s (.tick now)).2.proposal s.snoozed := by
  rw [KeyMap.mem_iff_lookup, isSnoozed_iff]
  simp only [reduce]
  split
  · rename_i hnone
    -- Nothing has expired, so every entry there is stays and is later than `now`.
    constructor
    · rintro ⟨deadline, hlive, -⟩
      exact ⟨deadline, hlive⟩
    · rintro ⟨deadline, hlive⟩
      refine ⟨deadline, hlive, ?_⟩
      by_contra hle
      have hmem : key ∈ (s.snoozed.toList.filter fun p => p.2 ≤ now).map Prod.fst :=
        mem_expired.mpr ⟨deadline, hlive, not_lt.mp hle⟩
      rw [hnone] at hmem
      cases hmem
  · simp only [Transition.proposal, List.filterMap_cons, List.filterMap_nil,
      List.getLast?_singleton, Option.getD_some, lookup_unexpired, Option.filter_eq_some_iff,
      decide_eq_true_eq, gt_iff_lt]

end Deadlines

/-! ## The two lists -/

section Lists

variable (s : AppState) (now : OffsetDateTime)

theorem snapshot_snoozed :
    (s.snapshot now).snoozed.map (·.incident) =
      s.allIncidents.filter fun i => s.isSnoozed i.key now := by
  simp only [AppState.snapshot, AppState.isSnoozed]
  induction s.allIncidents with
  | nil => rfl
  | cons i items ih =>
    rw [List.filterMap_cons, List.filter_cons]
    cases s.snoozedUntil i.key now with
    | none => exact ih
    | some deadline => exact congrArg (i :: ·) ih

theorem snapshot_deadline {w : SnoozedIncident} (h : w ∈ (s.snapshot now).snoozed) :
    s.snoozed[w.incident.key]? = some w.until_ ∧ now < w.until_ := by
  simp only [AppState.snapshot, List.mem_filterMap, Option.map_eq_some_iff] at h
  obtain ⟨i, -, deadline, hdeadline, rfl⟩ := h
  simpa [AppState.snoozedUntil, Option.filter_eq_some_iff] using hdeadline

end Lists

section Severity

variable (s : AppState) (now : OffsetDateTime)

theorem snapshot_alertingState :
    (s.snapshot now).alertingState =
      if overallState (s.snapshot now).active = .ok ∧ 0 < (s.snapshot now).unknownServerCount
      then .unknown else overallState (s.snapshot now).active := rfl

theorem snapshot_snoozedState :
    (s.snapshot now).snoozedState =
      if (s.snapshot now).snoozed.isEmpty then none
      else some (overallState ((s.snapshot now).snoozed.map (·.incident))) := rfl

/-- OK is the only severity that is shown as unknown. -/
theorem alertingState_unknown :
    (s.snapshot now).alertingState = .unknown ↔
      overallState (s.snapshot now).active = .ok ∧ 0 < (s.snapshot now).unknownServerCount := by
  rw [snapshot_alertingState]
  split
  · rename_i h
    simp [h]
  · rename_i h
    exact iff_of_false (overallState_ne_unknown _) h

end Severity

/-! ## Reachable states -/

section Run

variable {ids : List String} {events : List Event} {s : AppState}

/-- The client's own incidents stand in the order of their keys. -/
theorem KeysInv.internal_sorted (h : KeysInv ids events s) :
    (s.internalIncidents.toList.map fun p => p.2.key).Pairwise (· < ·) := by
  have hkeys : s.internalIncidents.toList.map (fun p => p.2.key) =
      s.internalIncidents.toList.map Prod.fst := by
    refine List.map_congr_left ?_
    rintro ⟨k, i⟩ hmem
    exact (h.internal (KeyMap.mem_toList.mp hmem)).1
  rw [hkeys, Std.ExtTreeMap.map_fst_toList_eq_keys]
  exact Std.ExtTreeMap.ordered_keys.imp fun hlt => compare_lt_iff_lt.mp hlt

theorem KeysInv.cached_once (h : KeysInv ids events s) (hids : ids.Nodup) {id : String}
    {items : List Incident} (hitems : s.incidents[id]? = some items) : ids.count id = 1 :=
  List.count_eq_one_of_mem hids ((h.views id).incidents items hitems).1

theorem KeysInv.unknown (h : KeysInv ids events s) (horder : s.serverOrder = ids)
    (now : OffsetDateTime) :
    0 < (s.snapshot now).unknownServerCount ↔
      ∃ (id : String) (server : ServerStatus),
        s.servers[id]? = some server ∧ server.initialized = false := by
  simp only [AppState.snapshot, horder, List.countP_pos_iff, List.mem_filterMap]
  constructor
  · rintro ⟨server, ⟨id, -, hserver⟩, hinit⟩
    exact ⟨id, server, hserver, by simpa using hinit⟩
  · rintro ⟨id, server, hserver, hinit⟩
    have hid : id ∈ ids := (h.views id).known (by simp [AppState.view, hserver])
    exact ⟨server, ⟨id, hid, hserver⟩, by simpa using hinit⟩

end Run

/-- **The snapshot is a partition.** In every state reached from distinct servers, at every `now`:

* `active` and `snoozed` are what the client's own incidents in key order, followed by every
  server's cached incidents in configuration order, were split into; every cached list stands there
  once;
* an incident is snoozed if its key is, which is so just when a tick would keep the key's entry;
* the alerting state is the highest severity in `active`, with OK shown as unknown just when some
  server is not initialized, and the snoozed state the highest in `snoozed`, if there is any. -/
theorem snapshot_partitions (formatIncidentTime : OffsetDateTime → String) (ids : List String)
    (hids : ids.Nodup) (snoozes : KeyMap OffsetDateTime) (events : List Event)
    (now : OffsetDateTime) :
    let s := (start formatIncidentTime ids snoozes).run events
    let u := s.snapshot now
    Interleaving u.active (u.snoozed.map (·.incident))
      (s.internalIncidents.toList.map Prod.snd ++ ids.flatMap fun id => s.incidents[id]?.getD []) ∧
    (s.internalIncidents.toList.map fun p => p.2.key).Pairwise (· < ·) ∧
    (∀ (id : String) (items : List Incident), s.incidents[id]? = some items → ids.count id = 1) ∧
    (∀ i ∈ u.active, s.isSnoozed i.key now = false) ∧
    (∀ w ∈ u.snoozed, s.isSnoozed w.incident.key now = true ∧
      s.snoozed[w.incident.key]? = some w.until_) ∧
    (∀ key, s.isSnoozed key now = true ↔
      key ∈ (reduce formatIncidentTime s (.tick now)).2.proposal s.snoozed) ∧
    (∃ highest, IsGreatest (insert .ok {o | ∃ i ∈ u.active, severity i = o}) highest ∧
      (u.alertingState = .unknown ↔ highest = .ok ∧ ∃ (id : String) (server : ServerStatus),
        s.servers[id]? = some server ∧ server.initialized = false) ∧
      (u.alertingState ≠ .unknown → u.alertingState = highest)) ∧
    (u.snoozedState = none ↔ u.snoozed = []) ∧
    (∀ o, u.snoozedState = some o →
      IsGreatest (insert .ok {o | ∃ w ∈ u.snoozed, severity w.incident = o}) o) := by
  intro s u
  have hinv : KeysInv ids events s := keysInv_run formatIncidentTime ids snoozes events
  have horder : s.serverOrder = ids := serverOrder_run formatIncidentTime ids snoozes events
  refine ⟨?_, hinv.internal_sorted, fun id items => hinv.cached_once hids, ?_, ?_,
    fun key => isSnoozed_iff_tick formatIncidentTime, ⟨overallState u.active, ?_, ?_, ?_⟩, ?_, ?_⟩
  · have hall : s.allIncidents = s.internalIncidents.toList.map Prod.snd ++
        ids.flatMap fun id => s.incidents[id]?.getD [] := by rw [AppState.allIncidents, horder]
    rw [← hall, snapshot_active, snapshot_snoozed]
    exact interleaving_filter (fun i => s.isSnoozed i.key now) s.allIncidents
  · intro i hi
    rw [snapshot_active, List.mem_filter] at hi
    simpa using hi.2
  · intro w hw
    obtain ⟨hlive, hlater⟩ := snapshot_deadline s now hw
    exact ⟨isSnoozed_iff.mpr ⟨_, hlive, hlater⟩, hlive⟩
  · exact isGreatest_overallState u.active
  · rw [alertingState_unknown, hinv.unknown horder now]
  · intro hknown
    rw [ne_eq, alertingState_unknown] at hknown
    rw [snapshot_alertingState, if_neg hknown]
  · rw [snapshot_snoozedState]
    simp [u]
  · intro o ho
    rw [snapshot_snoozedState] at ho
    split at ho <;> cases ho
    simpa using isGreatest_overallState (u.snoozed.map (·.incident))

/-- Two servers: `db` has an incident that is snoozed and one that is not, and `web` was never
reached. -/
theorem snapshot_partitions_sample :
    let events := [Event.connected "db" 1, .notification "db"
      { total := [{ key := "disk", state := .warning, incidentStartedAt := "" },
          { key := "load", state := .error, incidentStartedAt := "" }],
        added := [], removed := [], updated := [], numItemsOk := 0 } 2]
    let s := (start (fun _ => "") ["db", "web"]
      ((∅ : KeyMap OffsetDateTime).insert "db.load" 9)).run events
    let u := s.snapshot 5
    u.active.map (·.key) = ["db.disk"] ∧ u.snoozed.map (·.incident.key) = ["db.load"] ∧
    u.alertingState = .warning ∧ u.snoozedState = some .error ∧
    Interleaving u.active (u.snoozed.map (·.incident))
      (s.internalIncidents.toList.map Prod.snd ++
        ["db", "web"].flatMap fun id => s.incidents[id]?.getD []) := by
  intro events s u
  exact ⟨by decide, by decide, by decide, by decide,
    (snapshot_partitions (fun _ => "") ["db", "web"] (by decide) _ events 5).1⟩

end Client
end Montray
