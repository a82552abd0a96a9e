import Montray.Client.TwoPhase

/-!
# Montray.Client.Publication

Whatever the reducer changes is published.

* `reduce_unchanged`: the flag that `reduce` returns is false only if the state is what it was. For a
  server's event it is enough to look at the server's part (`step_unchanged`).
* `PublishedInv`: along `run_async`, until a change is to be published, the last snapshot published
  is that of the state.
* `every_change_published`: the statement about events and runs.
-/

namespace Montray
namespace Client

open Lib

/-! ## The flag -/

section Reduce

variable {formatIncidentTime : OffsetDateTime → String} {z : String → OffsetDateTime → Bool}

theorem online_unchanged {server : ServerStatus} {now : OffsetDateTime}
    (h : (!server.initialized || !server.connected) = false) : server.online now = server := by
  simp only [Bool.or_eq_false_iff, Bool.not_eq_false'] at h
  obtain ⟨id, connected, initialized, changedAt, heartbeatAt⟩ := server
  obtain ⟨rfl, rfl⟩ := h
  rfl

theorem offline_unchanged {server : ServerStatus} {now : OffsetDateTime}
    (h : (!server.initialized || server.connected) = false) : server.offline now = server := by
  simp only [Bool.or_eq_false_iff, Bool.not_eq_false'] at h
  obtain ⟨id, connected, initialized, changedAt, heartbeatAt⟩ := server
  obtain ⟨rfl, rfl⟩ := h
  rfl

theorem markStale_unchanged {incidents : List Incident}
    (h : (incidents.any fun incident => !incident.stale) = false) :
    markStale incidents = incidents := by
  have hid : ∀ incident ∈ incidents, { incident with stale := true } = incident := by
    intro incident hmem
    have hstale := List.any_eq_false.mp h incident hmem
    obtain ⟨key, state, details, startedAt, stale⟩ := incident
    cases stale with
    | true => rfl
    | false => simp at hstale
  exact (List.map_congr_left hid).trans (List.map_id' incidents)

theorem failed_unchanged {key : String} {now : OffsetDateTime} {error : String} {snoozed : Bool}
    {o : Option Incident} (h : (failed formatIncidentTime key now error snoozed o).2.1 = false) :
    some (failed formatIncidentTime key now error snoozed o).1 = o := by
  unfold failed at h ⊢
  split at h
  · split at h
    · rename_i hdetails
      simp [hdetails]
    · cases h
  · cases h

theorem setOffline_unchanged {v : ServerView} {server : ServerStatus} {now : OffsetDateTime}
    (hs : v.status = some server)
    (h : ((!server.initialized || server.connected) || v.someFresh) = false) :
    v.setOffline server now = v := by
  obtain ⟨hstatus, hfresh⟩ := Bool.or_eq_false_iff.mp h
  obtain ⟨status, incidents, connection, tunnel⟩ := v
  obtain rfl : status = some server := hs
  have hincidents : incidents.map markStale = incidents := by
    cases incidents with
    | none => rfl
    | some incidents => exact congrArg some (markStale_unchanged hfresh)
  simp only [ServerView.setOffline, offline_unchanged hstatus, hincidents]

/-- An event of a server that changes nothing leaves its part as it was. -/
theorem step_unchanged (v : ServerView) (e : Event)
    (h : (v.step formatIncidentTime z e).2.changed = false) :
    (v.step formatIncidentTime z e).1 = v := by
  unfold ServerView.step at h ⊢
  split
  · rfl
  · rename_i server hs
    rw [hs] at h
    cases e with
    | connected id now =>
      obtain ⟨hstatus, hconn⟩ := Bool.or_eq_false_iff.mp h
      obtain ⟨status, incidents, connection, tunnel⟩ := v
      obtain rfl : status = some server := hs
      obtain rfl : connection = none := by simpa using hconn
      simp only [ServerView.stepKnown, online_unchanged hstatus]
    | disconnected id now error =>
      simp only [ServerView.stepKnown] at h ⊢
      split at h
      · rename_i herror
        obtain ⟨hoff, hconn⟩ := Bool.or_eq_false_iff.mp h
        rw [if_pos herror, setOffline_unchanged hs hoff]
        obtain ⟨status, incidents, connection, tunnel⟩ := v
        obtain rfl : connection = none := by simpa using hconn
        rfl
      · rename_i herror
        obtain ⟨hoff, hfailed⟩ := Bool.or_eq_false_iff.mp h
        rw [if_neg herror, setOffline_unchanged hs hoff, failed_unchanged hfailed]
    | tunnelReady id now =>
      obtain ⟨status, incidents, connection, tunnel⟩ := v
      obtain rfl : tunnel = none := by simpa [ServerView.stepKnown] using h
      rfl
    | tunnelFailed id now error =>
      obtain ⟨hoff, hfailed⟩ := Bool.or_eq_false_iff.mp h
      obtain ⟨hoff, hconn⟩ := Bool.or_eq_false_iff.mp hoff
      simp only [ServerView.stepKnown]
      rw [setOffline_unchanged hs hoff, failed_unchanged hfailed]
      obtain ⟨status, incidents, connection, tunnel⟩ := v
      obtain rfl : connection = none := by simpa using hconn
      rfl
    | heartbeat id now =>
      have hbeat : server.lastHeartbeatAt = some now := by simpa [ServerView.stepKnown] using h
      obtain ⟨status, incidents, connection, tunnel⟩ := v
      obtain rfl : status = some server := hs
      simp only [ServerView.stepKnown, ← hbeat]
    | notification id data now => cases h
    | _ => rfl

theorem forget_unchanged {incidents : KeyMap (List Incident)} {key : String}
    (h : (incidents.toList.any fun (_, incidents) =>
      (forget key incidents).length ≠ incidents.length) = false) :
    (incidents.map fun _ incidents => forget key incidents) = incidents := by
  refine Std.ExtTreeMap.ext_getElem? fun id => ?_
  rw [Std.ExtTreeMap.getElem?_map]
  cases hl : incidents[id]? with
  | none => rfl
  | some items =>
    have hlen := List.any_eq_false.mp h (id, items) (KeyMap.mem_toList.mpr hl)
    simp only [ne_eq, decide_not, Bool.not_eq_true', decide_eq_false_iff_not, not_not] at hlen
    exact congrArg some (List.filter_eq_self.mpr (List.length_filter_eq_length_iff.mp hlen))

/-- **The publication flag.** An event that is not to be published has not changed the state. -/
theorem reduce_unchanged (s : AppState) (e : Event)
    (h : (reduce formatIncidentTime s e).2.changed = false) :
    (reduce formatIncidentTime s e).1 = s := by
  cases he : e.server? with
  | some id =>
    rw [reduce_server formatIncidentTime he] at h ⊢
    dsimp only at h ⊢
    rw [step_unchanged _ e h, setView_view]
  | none =>
    cases e with
    | snooze key deadline =>
      simp only [reduce]
      split <;> rfl
    | unsnooze key =>
      simp only [reduce]
      split <;> rfl
    | snoozesPersisted snoozes =>
      have heq : s.snoozed = snoozes := by simpa [reduce] using h
      rw [reduce, ← heq]
    | forgetStale key =>
      simp only [reduce] at h ⊢
      rw [forget_unchanged h]
    | tick now =>
      simp only [reduce]
      split <;> rfl
    | _ => cases he

end Reduce

/-! ## Runs -/

/-- Whether something is still to be published in this iteration. -/
def RuntimePc.changed : RuntimePc → Bool
  | .effects _ changed _ => changed
  | .persist _ _ _ changed _ => changed
  | .written _ _ _ _ changed _ => changed
  | .head => false
  | .stopped => false

/-- A publication, with the instant at which the snapshot was taken. -/
def publication : RuntimeAction × RuntimeOutput → Option (OffsetDateTime × UiSnapshot)
  | (.publish now, .publish snapshot) => some (now, snapshot)
  | _ => none

def lastPublication (os : List (RuntimeAction × RuntimeOutput)) :
    Option (OffsetDateTime × UiSnapshot) :=
  (os.filterMap publication).getLast?

theorem lastPublication_append {os out : List (RuntimeAction × RuntimeOutput)}
    (h : ∀ p ∈ out, publication p = none) : lastPublication (os ++ out) = lastPublication os := by
  simp [lastPublication, List.filterMap_eq_nil_iff.mpr h]

/-- Unless a change is still to be published, the last snapshot published is that of the state. -/
def PublishedInv (os : List (RuntimeAction × RuntimeOutput)) (s : Runtime) : Prop :=
  s.pc.changed = false → ∃ t, lastPublication os = some (t, s.state.snapshot t)

section Loop

variable {formatIncidentTime : OffsetDateTime → String} {rfc3339 : Rfc3339} {store : Store}
  {os : List (RuntimeAction × RuntimeOutput)} {s s' : Runtime} {out : List RuntimeOutput}

/-- How one step of the loop treats the state and what is to be published. -/
inductive PublishMove (s s' : Runtime) (a : RuntimeAction) (out : List RuntimeOutput) : Prop where
  /-- A change of the state is remembered. -/
  | keep (hchanged : s'.pc.changed = false → s.pc.changed = false ∧ s'.state = s.state)
      (hout : ∀ snapshot, .publish snapshot ∉ out)
  | publish (now : OffsetDateTime) (ha : a = .publish now)
      (hout : out = [.publish (s'.state.snapshot now)])

theorem begin_publishMove {e : Event} (refresh : Bool) (a : RuntimeAction) (hpc : s.pc = .head) :
    PublishMove s (s.begin formatIncidentTime e refresh) a [] := by
  refine .keep (fun hchanged => ⟨by rw [hpc]; rfl, ?_⟩) (by simp)
  exact reduce_unchanged s.state e hchanged

theorem runtimeStep_publishMove {a : RuntimeAction}
    (h : runtimeStep formatIncidentTime rfc3339 store s a = some (s', out)) :
    PublishMove s s' a out := by
  obtain ⟨state, disk, retry, pc⟩ := s
  cases a with
  | write writer io =>
    cases pc <;> simp only [runtimeStep] at h <;> cases h <;>
      exact .keep (fun hc => ⟨hc, rfl⟩) (by simp)
  | network e =>
    cases pc <;> simp only [runtimeStep, reduceCtorEq, Option.ite_none_right_eq_some] at h
    obtain ⟨-, h⟩ := h
    cases h
    exact begin_publishMove false _ rfl
  | command command now =>
    cases pc <;> simp only [runtimeStep, reduceCtorEq] at h
    cases h
    exact begin_publishMove false _ rfl
  | tick now =>
    cases pc <;> simp only [runtimeStep, reduceCtorEq] at h
    cases h
    exact begin_publishMove true _ rfl
  | shutdown =>
    cases pc <;> simp only [runtimeStep, reduceCtorEq] at h
    cases h
    exact .keep (fun hc => ⟨hc, rfl⟩) (by simp)
  | effect now =>
    cases pc with
    | effects rest changed refresh =>
      cases rest with
      | nil => simp only [runtimeStep, reduceCtorEq] at h
      | cons effect rest =>
        cases effect with
        | notify title body =>
          cases h
          exact .keep (fun hc => ⟨hc, rfl⟩) (by simp)
        | persistSnoozes snoozes action =>
          simp only [runtimeStep] at h
          split at h <;> cases h <;> exact .keep (fun hc => ⟨hc, rfl⟩) (by simp)
    | _ => simp only [runtimeStep, reduceCtorEq] at h
  | work io =>
    cases pc <;> simp only [runtimeStep, reduceCtorEq] at h
    cases h
    exact .keep (fun hc => ⟨hc, rfl⟩) (by simp)
  | workerFailed e =>
    cases pc <;> simp only [runtimeStep, reduceCtorEq] at h
    cases h
    exact .keep (fun hc => ⟨hc, rfl⟩) (by simp)
  | resume now instant =>
    cases pc with
    | written snoozes action result rest changed refresh =>
      cases result with
      | ok _ =>
        -- the commit's flag is combined with the event's
        cases h
        refine .keep (fun hc => ?_) (by simp)
        obtain ⟨hold, hcommit⟩ := Bool.or_eq_false_iff.mp hc
        exact ⟨hold, reduce_unchanged state _ hcommit⟩
      | error details =>
        cases h
        exact .keep (fun hc => ⟨hc, rfl⟩) (by simp)
    | _ => simp only [runtimeStep, reduceCtorEq] at h
  | publish now =>
    cases pc with
    | effects rest changed refresh =>
      cases rest with
      | nil =>
        cases h
        by_cases hpub : (changed || refresh) = true
        · exact .publish now rfl (if_pos hpub)
        · rw [if_neg hpub]
          have hnot := Bool.eq_false_iff.mpr hpub
          exact .keep (fun _ => ⟨(Bool.or_eq_false_iff.mp hnot).1, rfl⟩) (by simp)
      | cons effect rest => cases effect <;> simp only [runtimeStep, reduceCtorEq] at h
    | _ => simp only [runtimeStep, reduceCtorEq] at h

theorem PublishedInv.move (h : PublishedInv os s) {a : RuntimeAction}
    (hm : PublishMove s s' a out) : PublishedInv (os ++ out.map fun o => (a, o)) s' := by
  intro hchanged
  cases hm with
  | keep hkeep hout =>
    obtain ⟨hold, hstate⟩ := hkeep hchanged
    rw [lastPublication_append, hstate]
    · exact h hold
    · intro p hp
      obtain ⟨o, ho, rfl⟩ := List.mem_map.mp hp
      cases o with
      | publish snapshot => exact absurd ho (hout snapshot)
      | notify title body => cases a <;> rfl
      | saved action => cases a <;> rfl
  | publish now ha hout =>
    subst ha hout
    exact ⟨now, by simp [lastPublication, publication]⟩

end Loop

/-- **Every change is published.** An event whose flag is false has not changed the state; and at the
head of the loop the last snapshot published, at the instant at which it was, is that of the state. -/
theorem every_change_published (formatIncidentTime : OffsetDateTime → String) (rfc3339 : Rfc3339)
    (store : Store) :
    (∀ s e, (reduce formatIncidentTime s e).2.changed = false →
      (reduce formatIncidentTime s e).1 = s) ∧
    ∀ serverIds snoozes disk os s,
      (runtime formatIncidentTime rfc3339 store serverIds snoozes disk).labelled.Path os s →
      s.pc = .head → ∃ t, lastPublication os = some (t, s.state.snapshot t) := by
  refine ⟨reduce_unchanged, fun serverIds snoozes disk os s hpath hpc => ?_⟩
  have hinv : PublishedInv os s := by
    refine hpath.history (I := PublishedInv) ?_ fun os s a s' out h hs => ?_
    · -- the first publication is still to come
      intro hchanged
      cases hchanged
    · obtain ⟨out', hstep, rfl⟩ := Guarded.labelled_step hs
      exact h.move (runtimeStep_publishMove hstep)
  exact hinv (by rw [hpc]; rfl)

/-- One write fails and one is committed, in two iterations. -/
theorem every_change_published_writes :
    ∃ os s, (runtime (fun _ => "") sampleRfc3339 sampleStore ["db"] ∅ ⟨none⟩).labelled.Path os s ∧
      s.pc = .head ∧ s.state.snoozed["db.disk"]? = some (60 * 10 ^ 9) ∧
      ∃ t, lastPublication os = some (t, s.state.snapshot t) := by
  have hexec : ∃ r, (runtime (fun _ => "") sampleRfc3339 sampleStore ["db"] ∅ ⟨none⟩).labelled.exec
      ([], (runtime (fun _ => "") sampleRfc3339 sampleStore ["db"] ∅ ⟨none⟩).init) sampleActions =
        some r ∧ r.2.pc = .head ∧ r.2.state.snoozed["db.disk"]? = some (60 * 10 ^ 9) :=
    ⟨_, rfl, rfl, rfl⟩
  obtain ⟨⟨os, s⟩, hr, hpc, hlive⟩ := hexec
  have hpath : Guarded.Path _ os s := Guarded.Path.exec .nil hr
  exact ⟨os, s, hpath, hpc, hlive, (every_change_published (fun _ => "") sampleRfc3339
    sampleStore).2 ["db"] ∅ ⟨none⟩ os s hpath hpc⟩

end Client
end Montray
