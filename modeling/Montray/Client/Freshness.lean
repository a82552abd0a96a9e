import Montray.Client.Lifecycle

/-!
# Montray.Client.Freshness

What is shown as fresh was received over the connection that is open.

* `SessionIn`: while a server is `up`, its fresh incidents and its heartbeat come from the events
  since its last `Connected`.
* `freshness_is_justified`: the statement about runs.
-/

namespace Montray
namespace Client

open Lib

/-- The events that carry data of an open connection. -/
def Event.isData : Event → Bool
  | .heartbeat _ _ => true
  | .notification _ _ _ => true
  | _ => false

/-- `since` are the events after the most recent `Connected` of a server. -/
def SinceConnected (id : String) (events since : List Event) : Prop :=
  ∃ before now, events = before ++ .connected id now :: since ∧
    ∀ now', Event.connected id now' ∉ since

/-- The notification that an incident was received in is among the events. -/
def Notified (id : String) (since : List Event) (i : Incident) : Prop :=
  ∃ data now, Event.notification id data now ∈ since ∧
    i ∈ data.total.map fun item => prefixedItem item id

theorem Notified.append {id : String} {since : List Event} {i : Incident}
    (h : Notified id since i) (es : List Event) : Notified id (since ++ es) i := by
  obtain ⟨data, now, hmem, hi⟩ := h
  exact ⟨data, now, List.mem_append_left _ hmem, hi⟩

/-- An open connection: since the last `Connected` the server has sent nothing but data, and its
fresh incidents and heartbeat are among it. -/
structure Session (id : String) (events since : List Event) (v : ServerView) : Prop where
  opened : SinceConnected id events since
  data : ∀ e ∈ since, e.server? = some id → e.isData = true
  fresh : ∀ incidents, v.incidents = some incidents →
    ∀ i ∈ incidents, i.stale = false → Notified id since i
  heartbeat : ∀ server t, v.status = some server → server.lastHeartbeatAt = some t →
    .heartbeat id t ∈ since

/-- While the server is up there is a session. -/
def SessionIn (id : String) (events : List Event) (p : Phase) (v : ServerView) : Prop :=
  p = .up → ∃ since, Session id events since v

section Step

variable {formatIncidentTime : OffsetDateTime → String} {z : String → OffsetDateTime → Bool}
  {id : String} {tunneled : Bool} {p p' : Phase} {v v' : ServerView} {es since : List Event}

theorem SinceConnected.snoc (h : SinceConnected id es since) {e : Event}
    (he : ∀ now, e ≠ .connected id now) : SinceConnected id (es ++ [e]) (since ++ [e]) := by
  obtain ⟨before, now, rfl, hnone⟩ := h
  refine ⟨before, now, by simp, ?_⟩
  intro now' hmem
  rcases List.mem_append.mp hmem with hmem | hmem
  · exact hnone now' hmem
  · exact he now' (List.mem_singleton.mp hmem).symm

/-- A session goes on with an event that is not the server's, or data of the server. -/
theorem Session.snoc (h : Session id es since v) {e : Event}
    (he : e.server? = some id → e.isData = true)
    (hfresh : ∀ incidents, v'.incidents = some incidents →
      ∀ i ∈ incidents, i.stale = false → Notified id (since ++ [e]) i)
    (hbeat : ∀ server t, v'.status = some server → server.lastHeartbeatAt = some t →
      .heartbeat id t ∈ since ++ [e]) :
    Session id (es ++ [e]) (since ++ [e]) v' := by
  refine ⟨h.opened.snoc ?_, ?_, hfresh, hbeat⟩
  · rintro now rfl
    cases he rfl
  · intro e' he' hs
    rcases List.mem_append.mp he' with hmem | hmem
    · exact h.data e' hmem hs
    · rw [List.mem_singleton.mp hmem] at hs ⊢
      exact he hs

theorem SessionIn.user (h : SessionIn id es p v) {e : Event} (he : e.server? ≠ some id) :
    SessionIn id (es ++ [e]) p (v.user e) := by
  intro hp
  obtain ⟨since, hsession⟩ := h hp
  refine ⟨since ++ [e], hsession.snoc (fun hs => absurd hs he) ?_ ?_⟩
  · intro incidents hi i hmem hstale
    refine Notified.append ?_ [e]
    cases e with
    | forgetStale key =>
      obtain ⟨incidents', hi', rfl⟩ := Option.map_eq_some_iff.mp hi
      exact hsession.fresh incidents' hi' i (List.mem_of_mem_filter hmem) hstale
    | _ => exact hsession.fresh incidents hi i hmem hstale
  · intro server t hs ht
    have hs' : v.status = some server := by cases e <;> exact hs
    exact List.mem_append_left _ (hsession.heartbeat server t hs' ht)

/-- A new connection starts a session: what is cached is stale, and the heartbeat is cleared. -/
theorem Session.opening {server : ServerStatus} (hs : v.status = some server)
    (h : StatusIn tunneled p v) (hp : p ≠ .up) (now : OffsetDateTime) :
    Session id (es ++ [.connected id now]) []
      { v with status := some (server.online now), connection := none } := by
  refine ⟨⟨es, now, rfl, by simp⟩, by simp, ?_, ?_⟩
  · intro incidents hi i hmem hstale
    rw [h.stale hp incidents hi i hmem] at hstale
    cases hstale
  · intro server' t hs' ht
    have hoff : server.connected = false := by
      simpa [hp] using h.connected server hs
    cases hs'
    simp [ServerStatus.online, hoff] at ht

theorem SessionIn.step (h : SessionIn id es p v) (hst : StatusIn tunneled p v) {e : Event}
    (he : e.server? = some id) (hp : p.next tunneled e = some p') :
    SessionIn id (es ++ [e]) p' (v.step formatIncidentTime z e).1 := by
  rintro rfl
  unfold ServerView.step
  -- Only a `Connected` and the data of an open connection lead to `up`.
  cases e <;> simp only [Phase.next, Option.ite_none_right_eq_some, Option.some.injEq,
    reduceCtorEq, and_false] at hp <;> simp only [Event.server?, Option.some.injEq] at he <;>
    subst he
  case connected now =>
    have hup : p ≠ .up := by
      rcases hp.1 with rfl | rfl
      · exact Phase.base_ne_up tunneled
      · simp
    cases hs : v.status with
    | none =>
      exact ⟨[], ⟨es, now, rfl, by simp⟩, by simp, by simp [hst.unknown hs], by simp [hs]⟩
    | some server => exact ⟨[], Session.opening hs hst hup now⟩
  case heartbeat now =>
    obtain ⟨since, hsession⟩ := h hp.1
    refine ⟨since ++ [.heartbeat _ now], hsession.snoc (fun _ => rfl) ?_ ?_⟩
    · intro incidents hi i hmem hstale
      refine (hsession.fresh incidents ?_ i hmem hstale).append _
      cases hs : v.status <;> simpa [hs, ServerView.stepKnown] using hi
    · intro server t hs' ht
      cases hs : v.status with
      | none =>
        simp [hs] at hs'
      | some server =>
        rw [hs] at hs'
        cases hs'
        cases ht
        simp
  case notification data now =>
    obtain ⟨since, hsession⟩ := h hp.1
    refine ⟨since ++ [.notification _ data now], hsession.snoc (fun _ => rfl) ?_ ?_⟩
    · intro incidents hi i hmem hstale
      cases hs : v.status with
      | none => simp [hs, hst.unknown hs] at hi
      | some server =>
        rw [hs] at hi
        cases hi
        exact ⟨data, now, by simp, hmem⟩
    · intro server t hs' ht
      refine List.mem_append_left _ (hsession.heartbeat server t ?_ ht)
      cases hs : v.status with
      | none => simp [hs] at hs'
      | some server' => simpa [hs, ServerView.stepKnown] using hs'

theorem sessionIn_run (formatIncidentTime : OffsetDateTime → String) (serverIds : List String)
    (snoozes : KeyMap OffsetDateTime) {events : List Event}
    (hp : Phase.fresh.run tunneled (ofServer id events) = some p) :
    SessionIn id events p (((start formatIncidentTime serverIds snoozes).run events).view id) := by
  -- The step of a session needs the recorded status as well.
  have hboth : StatusIn tunneled p (((start formatIncidentTime serverIds snoozes).run events).view
      id) ∧ SessionIn id events p (((start formatIncidentTime serverIds snoozes).run events).view
      id) := by
    refine view_history (I := fun es p v => StatusIn tunneled p v ∧ SessionIn id es p v)
      (Q := fun _ => True) ⟨statusIn_init id serverIds, fun h => by cases h⟩ ?_ ?_ events
      (fun _ _ => trivial) hp
    · intro es p e p' v z hI he _ hnext
      exact ⟨hI.1.step hnext, hI.2.step hI.1 he hnext⟩
    · intro es p e v hI he
      exact ⟨hI.1.user e, hI.2.user he⟩
  exact hboth.2

end Step

/-! ## Runs -/

theorem Phase.up_of_data {tunneled : Bool} {p p' : Phase} {e : Event} (he : e.isData = true)
    (h : p.next tunneled e = some p') : p = .up := by
  cases e <;> simp only [Event.isData, Bool.false_eq_true] at he <;>
    exact (Option.ite_none_right_eq_some.mp h).1

section Run

variable (formatIncidentTime : OffsetDateTime → String)
  (decodeTextMessage : String → Except Chain (Option NotificationData))
  (fromUtf8 : List UInt8 → Except String String) (options : ClientOptions)

/-- What is shown as fresh is justified. Along any events that contain a stream of the server's
client: a cached incident that is not stale belongs to a connected server and was received since
its most recent `Connected`; so was the heartbeat of a connected server; and data comes only
after a `Connected` with no failure of the server in between. -/
theorem freshness_is_justified (server : ServerConfig) (serverIds : List String)
    (snoozes : KeyMap OffsetDateTime) (events : List Event)
    (hemits : Emits decodeTextMessage fromUtf8 options server (ofServer server.id events)) :
    (∀ es, es <+: events →
      let s := (start formatIncidentTime serverIds snoozes).run es
      (∀ incidents, s.incidents[server.id]? = some incidents → ∀ i ∈ incidents, i.stale = false →
        (∃ status, s.servers[server.id]? = some status ∧ status.connected = true) ∧
        ∃ since, SinceConnected server.id es since ∧ Notified server.id since i) ∧
      (∀ status t, s.servers[server.id]? = some status → status.connected = true →
        status.lastHeartbeatAt = some t →
        ∃ since, SinceConnected server.id es since ∧ .heartbeat server.id t ∈ since)) ∧
    ∀ before e after, events = before ++ e :: after → e.server? = some server.id →
      e.isData = true →
      ∃ since, SinceConnected server.id before since ∧
        ∀ now error, Event.disconnected server.id now error ∉ since ∧
          Event.tunnelFailed server.id now error ∉ since := by
  obtain ⟨-, q, hq⟩ := emits_phase hemits
  refine ⟨?_, ?_⟩
  · rintro es ⟨rest, rfl⟩ s
    rw [ofServer_append] at hq
    obtain ⟨p, hp⟩ := Phase.run_of_append hq
    have hst := statusIn_run formatIncidentTime serverIds snoozes hp
    have hsession := sessionIn_run formatIncidentTime serverIds snoozes hp
    refine ⟨?_, ?_⟩
    · intro incidents hi i hmem hstale
      have hup : p = .up := by
        by_contra hne
        rw [hst.stale hne incidents hi i hmem] at hstale
        cases hstale
      obtain ⟨since, hs⟩ := hsession hup
      refine ⟨?_, since, hs.opened, hs.fresh incidents hi i hmem hstale⟩
      cases hstatus : s.servers[server.id]? with
      | none =>
        have hnone := hst.unknown hstatus
        rw [show (s.view server.id).incidents = some incidents from hi] at hnone
        cases hnone
      | some status => exact ⟨status, rfl, (hst.connected status hstatus).mpr hup⟩
    · intro status t hstatus hconn ht
      obtain ⟨since, hs⟩ := hsession ((hst.connected status hstatus).mp hconn)
      exact ⟨since, hs.opened, hs.heartbeat status t hstatus ht⟩
  · rintro before e after rfl he hdata
    have hproj : ofServer server.id (before ++ e :: after) =
        (ofServer server.id before ++ [e]) ++ ofServer server.id after := by
      simp [ofServer, he]
    rw [hproj] at hq
    obtain ⟨p', hp'⟩ := Phase.run_of_append hq
    obtain ⟨p, hp, hnext⟩ := Phase.run_snoc.mp hp'
    obtain ⟨since, hs⟩ := sessionIn_run formatIncidentTime serverIds snoozes hp
      (Phase.up_of_data hdata hnext)
    refine ⟨since, hs.opened, ?_⟩
    intro now error
    exact ⟨fun hmem => absurd (hs.data _ hmem rfl) (by simp [Event.isData]),
      fun hmem => absurd (hs.data _ hmem rfl) (by simp [Event.isData])⟩

def sampleServer : ServerConfig := { id := "db", addr := "db:443" }

def sampleData : NotificationData :=
  ⟨[{ key := "disk", state := .error, incidentStartedAt := "" }], [], [], [], 0⟩

def sampleStream : List Event :=
  [.connected "db" 1, .notification "db" sampleData 2, .heartbeat "db" 3]

theorem sampleStream_emitted :
    Emits (fun _ => .ok (some sampleData)) (fun _ => .ok "") {} sampleServer sampleStream :=
  emits_of_exec _ _ _ _
    [.connection (.prepared (.ok ()) 0), .connection .slept, .connection (.requested (.ok ()) 0),
      .connection (.connected .connected 1), .connection .sent,
      .connection (.received (.message (.text "m")) 2), .connection .sent,
      .connection (.received (.message (.binary [0])) 3), .connection .sent] rfl

theorem freshness_is_justified_sample :
    ∃ since, SinceConnected "db" sampleStream since ∧ .heartbeat "db" 3 ∈ since := by
  have h := freshness_is_justified (fun _ => "") _ _ _ sampleServer ["db"] ∅ sampleStream
    sampleStream_emitted
  exact (h.1 sampleStream (List.prefix_refl _)).2 _ 3 rfl rfl rfl

end Run

end Client
end Montray
