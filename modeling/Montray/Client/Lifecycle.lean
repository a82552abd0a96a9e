import Montray.Client.ServerView
import Montray.Client.Phase

/-!
# Montray.Client.Lifecycle

A client's stream together with the reducer: along any list of events in which the events of one
server are a run of the phase automaton, what the reducer records for that server follows the phase.

* `view_history`: the induction over such lists.
* `StatusIn`: the recorded status in each phase, and that incidents are fresh while `up` only.
-/

namespace Montray
namespace Client

open Lib

/-- The events of one server. -/
def ofServer (id : String) (events : List Event) : List Event :=
  events.filter fun e => e.server? = some id

theorem ofServer_append (id : String) (es es' : List Event) :
    ofServer id (es ++ es') = ofServer id es ++ ofServer id es' :=
  List.filter_append ..

section History

variable {formatIncidentTime : OffsetDateTime → String} {serverIds : List String}
  {snoozes : KeyMap OffsetDateTime} {id : String} {tunneled : Bool}

/-- Induction along the events, with the phase of the server and the view the reducer has of it.
`Q` is what is assumed of the server's events. -/
theorem view_history {I : List Event → Phase → ServerView → Prop} {Q : Event → Prop}
    (h0 : I [] .fresh ⟨if id ∈ serverIds then some { id := id } else none, none, none, none⟩)
    (hown : ∀ es p e p' v z, I es p v → e.server? = some id → Q e → p.next tunneled e = some p' →
      I (es ++ [e]) p' (v.step formatIncidentTime z e).1)
    (hother : ∀ es p e v, I es p v → e.server? ≠ some id → I (es ++ [e]) p (v.user e))
    (events : List Event) (hQ : ∀ e ∈ ofServer id events, Q e) {p : Phase}
    (hp : Phase.fresh.run tunneled (ofServer id events) = some p) :
    I events p (((start formatIncidentTime serverIds snoozes).run events).view id) := by
  induction events using List.reverseRecOn generalizing p with
  | nil =>
    cases hp
    rw [Mealy.run_nil]
    exact (view_new serverIds snoozes id).symm ▸ h0
  | append_singleton es e ih =>
    rw [Mealy.run_snoc]
    rw [ofServer_append] at hQ hp
    have hes := fun e he => hQ e (List.mem_append_left _ he)
    have hview := view_reduce formatIncidentTime (s := (start formatIncidentTime serverIds
      snoozes).run es) e id
    by_cases he : e.server? = some id
    · have hone : ofServer id [e] = [e] := by simp [ofServer, he]
      rw [if_pos he] at hview
      rw [hone] at hp
      obtain ⟨q, hq, hnext⟩ := Phase.run_snoc.mp hp
      exact hview.symm ▸ hown es q e p _ _ (ih hes hq) he (hQ e (by simp [hone])) hnext
    · have hnone : ofServer id [e] = [] := by simp [ofServer, he]
      rw [if_neg he] at hview
      rw [hnone, List.append_nil] at hp
      exact hview.symm ▸ hother es p e _ (ih hes hp) he

/-- What the reducer has recorded for a server whose stream is in phase `p`. -/
structure StatusIn (tunneled : Bool) (p : Phase) (v : ServerView) : Prop where
  unknown : v.status = none → v.incidents = none
  connected : ∀ server, v.status = some server → (server.connected = true ↔ p = .up)
  initialized : ∀ server, v.status = some server →
    if server.initialized then p ≠ .fresh else p = .fresh ∨ p = .ready
  stale : p ≠ .up → ∀ incidents, v.incidents = some incidents → ∀ i ∈ incidents, i.stale = true
  direct : tunneled = false → p ≠ .ready ∧ p ≠ .failed

theorem statusIn_init (id : String) (serverIds : List String) :
    StatusIn tunneled .fresh
      ⟨if id ∈ serverIds then some { id := id } else none, none, none, none⟩ := by
  refine ⟨by simp, ?_, ?_, by simp, by simp⟩
  · intro server hs
    split at hs <;> cases hs
    simp
  · intro server hs
    split at hs <;> cases hs
    simp

variable {z : String → OffsetDateTime → Bool} {p p' : Phase} {v : ServerView}

theorem StatusIn.user (h : StatusIn tunneled p v) (e : Event) : StatusIn tunneled p (v.user e) := by
  cases e with
  | forgetStale key =>
    refine ⟨?_, h.connected, h.initialized, ?_, h.direct⟩
    · intro hs
      simp [ServerView.user, h.unknown hs]
    · intro hp incidents hi i hmem
      obtain ⟨incidents', hi', rfl⟩ := Option.map_eq_some_iff.mp hi
      exact h.stale hp incidents' hi' i (List.mem_of_mem_filter hmem)
  | _ => exact h

theorem next_direct {e : Event} (h : p.next false e = some p') : p' ≠ .ready ∧ p' ≠ .failed := by
  cases e <;> simp only [Phase.next] at h <;> first | cases h | (split at h <;> cases h)
  all_goals first | contradiction | decide

theorem markStale_stale (incidents : List Incident) : ∀ i ∈ markStale incidents, i.stale = true := by
  intro i hi
  obtain ⟨j, -, rfl⟩ := List.mem_map.mp hi
  rfl

/-- A failure leaves the server offline and its incidents stale. -/
theorem statusIn_setOffline {server : ServerStatus} (now : OffsetDateTime)
    (c t : Option Incident) (hup : p' ≠ .up) (hfresh : p' ≠ .fresh)
    (hdirect : tunneled = false → p' ≠ .ready ∧ p' ≠ .failed) :
    StatusIn tunneled p' { v.setOffline server now with connection := c, tunnel := t } := by
  refine ⟨by simp [ServerView.setOffline], ?_, ?_, ?_, hdirect⟩
  · intro server' hs
    cases hs
    simp [ServerStatus.offline, hup]
  · intro server' hs
    cases hs
    simp [ServerStatus.offline, hfresh]
  · intro _ incidents hi
    obtain ⟨incidents', -, rfl⟩ := Option.map_eq_some_iff.mp hi
    exact markStale_stale incidents'

theorem StatusIn.step (h : StatusIn tunneled p v) {e : Event}
    (hp : p.next tunneled e = some p') :
    StatusIn tunneled p' (v.step formatIncidentTime z e).1 := by
  have hdirect : tunneled = false → p' ≠ .ready ∧ p' ≠ .failed := by
    rintro rfl
    exact next_direct hp
  unfold ServerView.step
  cases hs : v.status with
  | none =>
    refine ⟨h.unknown, ?_, ?_, ?_, hdirect⟩
    · simp [hs]
    · simp [hs]
    · simp [h.unknown hs]
  | some server =>
    cases e <;> simp only [Phase.next, Option.ite_none_right_eq_some, Option.some.injEq,
      reduceCtorEq] at hp <;> simp only [ServerView.stepKnown]
    case connected now =>
      obtain ⟨-, rfl⟩ := hp
      refine ⟨by simp, ?_, ?_, by simp, hdirect⟩
      · intro server' hs'
        cases hs'
        simp [ServerStatus.online]
      · intro server' hs'
        cases hs'
        simp [ServerStatus.online]
    case disconnected now error =>
      obtain ⟨-, rfl⟩ := hp
      split
      · exact statusIn_setOffline now none v.tunnel (by simp) (by simp) hdirect
      · exact statusIn_setOffline now _ v.tunnel (by simp) (by simp) hdirect
    case tunnelReady now =>
      obtain ⟨⟨-, hp⟩, rfl⟩ := hp
      have hup : p ≠ .up := by rcases hp with rfl | rfl <;> simp
      refine ⟨h.unknown, ?_, ?_, fun _ => h.stale hup, hdirect⟩
      · intro server' hs'
        simp [h.connected server' hs', hup]
      · simp
    case tunnelFailed now error =>
      obtain ⟨-, rfl⟩ := hp
      exact statusIn_setOffline now none _ (by simp) (by simp) hdirect
    case heartbeat now =>
      obtain ⟨rfl, rfl⟩ := hp
      refine ⟨by simp, ?_, ?_, by simp, hdirect⟩
      · intro server' hs'
        cases hs'
        exact h.connected server hs
      · intro server' hs'
        cases hs'
        exact h.initialized server hs
    case notification data now =>
      obtain ⟨rfl, rfl⟩ := hp
      exact ⟨by simp [hs], h.connected, h.initialized, by simp, hdirect⟩

theorem statusIn_run (formatIncidentTime : OffsetDateTime → String) (serverIds : List String)
    (snoozes : KeyMap OffsetDateTime) {events : List Event}
    (hp : Phase.fresh.run tunneled (ofServer id events) = some p) :
    StatusIn tunneled p (((start formatIncidentTime serverIds snoozes).run events).view id) := by
  refine view_history (I := fun _ p v => StatusIn tunneled p v) (Q := fun _ => True)
    (statusIn_init id serverIds) ?_ ?_ events (fun _ _ => trivial) hp
  · intro es p e p' v z hI _ _ hnext
    exact hI.step hnext
  · intro es p e v hI _
    exact hI.user e

end History

/-- A configured server has a status. -/
theorem status_run (formatIncidentTime : OffsetDateTime → String) {serverIds : List String}
    (snoozes : KeyMap OffsetDateTime) {id : String} (hid : id ∈ serverIds) (events : List Event) :
    ∃ status, ((start formatIncidentTime serverIds snoozes).run events).servers[id]? =
      some status := by
  rw [← Option.isSome_iff_exists]
  refine (start formatIncidentTime serverIds snoozes).invariant
    (I := fun s => (s.view id).status.isSome = true) ?_ ?_ events
  · show ((AppState.new serverIds snoozes).view id).status.isSome = true
    simp [view_new, hid]
  · intro s e h
    show ((reduce formatIncidentTime s e).1.view id).status.isSome = true
    rw [view_reduce]
    split
    · exact ServerView.step_status_isSome h
    · cases e <;> exact h

end Client
end Montray
