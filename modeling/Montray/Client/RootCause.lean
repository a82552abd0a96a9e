import Montray.Client.Lifecycle

/-!
# Montray.Client.RootCause

The incidents a client raises about its own connections, and the overall state they lead to.

* `InternalIn`: a server's connection incident is there in the phase `down` and its tunnel incident
  in the phase `failed`, and in no other.
* `root_cause_exclusive`: never both, neither while connected, and a direct server that is known to
  be offline has its connection incident.
* `ok_accounts_for_every_server`: when the overall state is OK, every server is connected, or has a
  snoozed internal incident, or waits for the first outcome over a tunnel that has just become ready.
-/

namespace Montray
namespace Client

open Lib

/-- The internal incidents of a server whose stream is in phase `p`. -/
structure InternalIn (id : String) (p : Phase) (v : ServerView) : Prop where
  unknown : v.status = none → v.connection = none ∧ v.tunnel = none
  connection : v.status ≠ none → (v.connection ≠ none ↔ p = .down)
  tunnel : v.status ≠ none → (v.tunnel ≠ none ↔ p = .failed)
  connectionError : ∀ i, v.connection = some i → i.key = connectionKey id ∧ i.state = .error
  tunnelError : ∀ i, v.tunnel = some i → i.key = tunnelKey id ∧ i.state = .error

section Step

variable {formatIncidentTime : OffsetDateTime → String} {z : String → OffsetDateTime → Bool}
  {id : String} {tunneled : Bool} {p p' : Phase} {v : ServerView}

theorem internalIn_init (id : String) (serverIds : List String) :
    InternalIn id .fresh
      ⟨if id ∈ serverIds then some { id := id } else none, none, none, none⟩ :=
  ⟨by simp, by simp, by simp, by simp, by simp⟩

theorem InternalIn.user (h : InternalIn id p v) (e : Event) : InternalIn id p (v.user e) := by
  cases e <;> exact ⟨h.unknown, h.connection, h.tunnel, h.connectionError, h.tunnelError⟩

/-- A new or updated incident is an error under its key. -/
theorem failed_error {key error : String} {now : OffsetDateTime} {snoozed : Bool}
    {o : Option Incident} (h : ∀ i, o = some i → i.key = key ∧ i.state = .error) :
    (failed formatIncidentTime key now error snoozed o).1.key = key ∧
      (failed formatIncidentTime key now error snoozed o).1.state = .error := by
  cases o with
  | none => exact ⟨rfl, rfl⟩
  | some i =>
    simp only [failed]
    split
    · exact h i rfl
    · exact h i rfl

theorem InternalIn.connection_none (h : InternalIn id p v) (hp : p ≠ .down) :
    v.connection = none := by
  by_cases hs : v.status = none
  · exact (h.unknown hs).1
  · by_contra hc
    exact hp ((h.connection hs).mp hc)

theorem InternalIn.tunnel_none (h : InternalIn id p v) (hp : p ≠ .failed) : v.tunnel = none := by
  by_cases hs : v.status = none
  · exact (h.unknown hs).2
  · by_contra ht
    exact hp ((h.tunnel hs).mp ht)

theorem InternalIn.step (h : InternalIn id p v) {e : Event} (he : e.server? = some id)
    (herror : ∀ now, e ≠ .disconnected id now "") (hp : p.next tunneled e = some p') :
    InternalIn id p' (v.step formatIncidentTime z e).1 := by
  unfold ServerView.step
  cases hs : v.status with
  | none =>
    obtain ⟨hc, ht⟩ := h.unknown hs
    exact ⟨fun _ => ⟨hc, ht⟩, by simp [hs], by simp [hs], by simp [hc], by simp [ht]⟩
  | some server =>
    cases e <;> simp only [Phase.next, Option.ite_none_right_eq_some, Option.some.injEq,
      reduceCtorEq] at hp <;> simp only [Event.server?, Option.some.injEq] at he <;> subst he <;>
      simp only [ServerView.stepKnown]
    case connected now =>
      obtain ⟨hp, rfl⟩ := hp
      have ht : v.tunnel = none := h.tunnel_none (by
        rcases hp with rfl | rfl
        · exact Phase.base_ne_failed tunneled
        · simp)
      exact ⟨by simp, by simp, by simp [ht], by simp, by simp [ht]⟩
    case disconnected now error =>
      obtain ⟨hp, rfl⟩ := hp
      have ht : v.tunnel = none := h.tunnel_none (by
        rcases hp with rfl | rfl | rfl
        · exact Phase.base_ne_failed tunneled
        · simp
        · simp)
      rw [if_neg fun hempty => herror now (by rw [hempty])]
      refine ⟨by simp [ServerView.setOffline], by simp, by simp [ServerView.setOffline, ht], ?_,
        by simp [ServerView.setOffline, ht]⟩
      intro i hi
      cases hi
      exact failed_error h.connectionError
    case tunnelReady now =>
      obtain ⟨⟨-, hp⟩, rfl⟩ := hp
      have hc : v.connection = none := h.connection_none (by rcases hp with rfl | rfl <;> simp)
      exact ⟨by simp [hc], by simp [hc], by simp, by simp [hc], by simp⟩
    case tunnelFailed now error =>
      obtain ⟨-, rfl⟩ := hp
      refine ⟨by simp [ServerView.setOffline], by simp, by simp, by simp, ?_⟩
      intro i hi
      cases hi
      exact failed_error h.tunnelError
    case heartbeat now =>
      obtain ⟨rfl, rfl⟩ := hp
      have hne : v.status ≠ none := by simp [hs]
      exact ⟨by simp, fun _ => h.connection hne, fun _ => h.tunnel hne, h.connectionError,
        h.tunnelError⟩
    case notification data now =>
      obtain ⟨rfl, rfl⟩ := hp
      exact ⟨h.unknown, h.connection, h.tunnel, h.connectionError, h.tunnelError⟩

/-- What is known of a server after any list of events that has its stream in it. -/
theorem internalIn_run (formatIncidentTime : OffsetDateTime → String) (serverIds : List String)
    (snoozes : KeyMap OffsetDateTime) {events : List Event}
    (herrors : ∀ now, Event.disconnected id now "" ∉ events)
    (hp : Phase.fresh.run tunneled (ofServer id events) = some p) :
    InternalIn id p (((start formatIncidentTime serverIds snoozes).run events).view id) := by
  refine view_history (I := fun _ p v => InternalIn id p v)
    (Q := fun e => ∀ now, e ≠ .disconnected id now "") (internalIn_init id serverIds) ?_ ?_ events
    ?_ hp
  · intro es p e p' v z hI he hQ hnext
    exact hI.step he hQ hnext
  · intro es p e v hI _
    exact hI.user e
  · rintro e he now rfl
    exact herrors now (List.mem_of_mem_filter he)

end Step

section Run

variable (formatIncidentTime : OffsetDateTime → String)
  (decodeTextMessage : String → Except Chain (Option NotificationData))
  (fromUtf8 : List UInt8 → Except String String) (options : ClientOptions)

/-- The internal incidents name one root cause. Along any events that contain a stream of the
server's client: its connection and tunnel incidents are never both present, neither is while it
is connected, and without a tunnel a server known to be offline has its connection incident. -/
theorem root_cause_exclusive (server : ServerConfig) (serverIds : List String)
    (snoozes : KeyMap OffsetDateTime) (events : List Event)
    (hemits : Emits decodeTextMessage fromUtf8 options server (ofServer server.id events))
    (herrors : ∀ now, Event.disconnected server.id now "" ∉ events) :
    ∀ es, es <+: events →
      let s := (start formatIncidentTime serverIds snoozes).run es
      ¬ (connectionKey server.id ∈ s.internalIncidents ∧
        tunnelKey server.id ∈ s.internalIncidents) ∧
      ∀ status, s.servers[server.id]? = some status →
        (status.connected = true → connectionKey server.id ∉ s.internalIncidents ∧
          tunnelKey server.id ∉ s.internalIncidents) ∧
        (server.tunnel = none → status.initialized = true → status.connected = false →
          connectionKey server.id ∈ s.internalIncidents) := by
  rintro es ⟨rest, rfl⟩ s
  obtain ⟨-, q, hq⟩ := emits_phase hemits
  rw [ofServer_append] at hq
  obtain ⟨p, hp⟩ := Phase.run_of_append hq
  have hst := statusIn_run formatIncidentTime serverIds snoozes hp
  have hin := internalIn_run formatIncidentTime serverIds snoozes
    (fun now hmem => herrors now (List.mem_append_left _ hmem)) hp
  have hconn : p ≠ .down → connectionKey server.id ∉ s.internalIncidents :=
    fun h => KeyMap.lookup_none_iff.mp (hin.connection_none h)
  have htun : p ≠ .failed → tunnelKey server.id ∉ s.internalIncidents :=
    fun h => KeyMap.lookup_none_iff.mp (hin.tunnel_none h)
  refine ⟨?_, ?_⟩
  · rintro ⟨hc, ht⟩
    have hdown : p = .down := by
      by_contra h
      exact hconn h hc
    exact htun (by simp [hdown]) ht
  · intro status hs
    refine ⟨?_, ?_⟩
    · intro hc
      have hup := (hst.connected status hs).mp hc
      exact ⟨hconn (by simp [hup]), htun (by simp [hup])⟩
    · intro hdirect hinit hoff
      have hknown : (s.view server.id).status ≠ none := by
        rw [show (s.view server.id).status = some status from hs]
        simp
      have hdown : p = .down := by
        have hnup : p ≠ .up := fun h => by simp [(hst.connected status hs).mpr h] at hoff
        have hnfresh : p ≠ .fresh := by simpa [hinit] using hst.initialized status hs
        have hnt := hst.direct (by simp [hdirect])
        cases p <;> simp_all
      obtain ⟨i, hi⟩ := Option.ne_none_iff_exists'.mp ((hin.connection hknown).mpr hdown)
      exact KeyMap.mem_iff_lookup.mpr ⟨i, hi⟩

def tunneledServer : ServerConfig :=
  { id := "web", addr := "localhost:8080",
    tunnel := some { customCommand := some { command := ["forward"] } } }

/-- The tunnel command could not be started at first, then it was, and nothing answers behind it. -/
def refusedStream : List Event :=
  [.tunnelFailed "web" 1 "Failed to start tunnel command: not found", .tunnelReady "web" 2,
    .disconnected "web" 3 "refused"]

theorem refusedStream_emitted :
    Emits (fun _ => .ok none) (fun _ => .ok "") {} tunneledServer refusedStream :=
  emits_of_exec _ _ _ _
    [.spawned (.error "not found") 1, .sent, .slept, .spawned (.ok ()) 2, .sent,
      .connection (.prepared (.ok ()) 2), .connection .slept, .connection (.requested (.ok ()) 2),
      .connection (.connected (.failed (.other "refused")) 2), .connection (.settled 3),
      .connection .sent] rfl

theorem root_cause_exclusive_sample :
    let s := (start (fun _ => "") ["web"] ∅).run refusedStream
    connectionKey "web" ∈ s.internalIncidents ∧ tunnelKey "web" ∉ s.internalIncidents := by
  intro s
  have hc : connectionKey "web" ∈ s.internalIncidents := by decide
  have h := root_cause_exclusive (fun _ => "") _ _ _ tunneledServer ["web"] ∅ refusedStream
    refusedStream_emitted (by simp [refusedStream]) refusedStream (List.prefix_refl _)
  exact ⟨hc, fun ht => h.1 ⟨hc, ht⟩⟩

/-! ## The overall state -/

/-- An incident with an error that is not snoozed keeps the overall state from being OK. -/
theorem snoozed_of_ok {s : AppState} {now : OffsetDateTime} {k : String} {i : Incident}
    (hok : (s.snapshot now).alertingState = .ok) (hi : s.internalIncidents[k]? = some i)
    (herror : i.state = .error) : s.isSnoozed i.key now = true := by
  by_contra hsnooze
  have hall : i ∈ s.allIncidents :=
    List.mem_append_left _ (List.mem_map.mpr ⟨(k, i), KeyMap.mem_toList.mpr hi, rfl⟩)
  have hactive : i ∈ s.allIncidents.filter
      fun incident => (s.snoozedUntil incident.key now).isNone := by
    refine List.mem_filter.mpr ⟨hall, ?_⟩
    simpa [AppState.isSnoozed] using hsnooze
  have hoverall : overallState (s.allIncidents.filter
      fun incident => (s.snoozedUntil incident.key now).isNone) = .ok := by
    simp only [AppState.snapshot] at hok
    split at hok
    · cases hok
    · exact hok
  rw [overallState_ok hoverall i hactive] at herror
  cases herror

/-- With an OK state no configured server is uninitialized. -/
theorem initialized_of_ok {s : AppState} {now : OffsetDateTime} {id : String}
    {status : ServerStatus} (hok : (s.snapshot now).alertingState = .ok) (hid : id ∈ s.serverOrder)
    (hs : s.servers[id]? = some status) : status.initialized = true := by
  by_contra hinit
  simp only [AppState.snapshot] at hok
  split at hok
  · cases hok
  · rename_i hcond
    refine hcond ⟨hok, ?_⟩
    rw [gt_iff_lt, List.countP_pos_iff]
    exact ⟨status, List.mem_filterMap.mpr ⟨id, hid, hs⟩, by simpa using hinit⟩

/-- What an OK state says about one server, from its stream. -/
theorem server_of_ok (server : ServerConfig) {serverIds : List String}
    (snoozes : KeyMap OffsetDateTime) {events : List Event} (hid : server.id ∈ serverIds)
    (hemits : Emits decodeTextMessage fromUtf8 options server (ofServer server.id events))
    (herrors : ∀ now, Event.disconnected server.id now "" ∉ events) {now : OffsetDateTime}
    (hok : (((start formatIncidentTime serverIds snoozes).run events).snapshot now).alertingState =
      .ok) :
    let s := (start formatIncidentTime serverIds snoozes).run events
    (∃ status, s.servers[server.id]? = some status ∧ status.connected = true) ∨
    (∃ key, (key = connectionKey server.id ∨ key = tunnelKey server.id) ∧
      key ∈ s.internalIncidents ∧ s.isSnoozed key now = true) ∨
    (server.tunnel.isSome = true ∧
      ∃ at_, (ofServer server.id events).getLast? = some (.tunnelReady server.id at_)) := by
  intro s
  obtain ⟨hserver, p, hp⟩ := emits_phase hemits
  have hst := statusIn_run formatIncidentTime serverIds snoozes hp
  have hin := internalIn_run formatIncidentTime serverIds snoozes herrors hp
  obtain ⟨status, hs⟩ := status_run formatIncidentTime snoozes hid events
  have hknown : (s.view server.id).status ≠ none := by
    rw [show (s.view server.id).status = some status from hs]
    simp
  have hinit : status.initialized = true := by
    refine initialized_of_ok hok ?_ hs
    rw [serverOrder_run]
    exact hid
  cases p with
  | fresh =>
    have hfresh := hst.initialized status hs
    simp [hinit] at hfresh
  | up => exact .inl ⟨status, hs, (hst.connected status hs).mpr rfl⟩
  | down =>
    obtain ⟨i, hi⟩ := Option.ne_none_iff_exists'.mp ((hin.connection hknown).mpr rfl)
    obtain ⟨hkey, herror⟩ := hin.connectionError i hi
    exact .inr (.inl ⟨connectionKey server.id, .inl rfl, KeyMap.mem_iff_lookup.mpr ⟨i, hi⟩,
      hkey ▸ snoozed_of_ok hok hi herror⟩)
  | failed =>
    obtain ⟨i, hi⟩ := Option.ne_none_iff_exists'.mp ((hin.tunnel hknown).mpr rfl)
    obtain ⟨hkey, herror⟩ := hin.tunnelError i hi
    exact .inr (.inl ⟨tunnelKey server.id, .inr rfl, KeyMap.mem_iff_lookup.mpr ⟨i, hi⟩,
      hkey ▸ snoozed_of_ok hok hi herror⟩)
  | ready =>
    obtain ⟨id, at_, hlast⟩ := Phase.ready_last hp
    have hown := hserver _ (List.mem_of_getLast? hlast)
    cases hown
    refine .inr (.inr ⟨?_, at_, hlast⟩)
    by_contra hdirect
    exact (hst.direct (by simpa using hdirect)).1 rfl

/-- An OK state accounts for every server: each one is connected, or has a snoozed internal
incident, or its tunnel has just become ready and the first outcome over it is pending. -/
theorem ok_accounts_for_every_server (config : Config) (snoozes : KeyMap OffsetDateTime)
    (events : List Event)
    (hemits : ∀ server ∈ config.servers,
      Emits decodeTextMessage fromUtf8 options server (ofServer server.id events))
    (herrors : ∀ id now, Event.disconnected id now "" ∉ events) (now : OffsetDateTime) :
    let s := (start formatIncidentTime (config.servers.map (·.id)) snoozes).run events
    (s.snapshot now).alertingState = .ok →
    ∀ server ∈ config.servers,
      (∃ status, s.servers[server.id]? = some status ∧ status.connected = true) ∨
      (∃ key, (key = connectionKey server.id ∨ key = tunnelKey server.id) ∧
        key ∈ s.internalIncidents ∧ s.isSnoozed key now = true) ∨
      (server.tunnel.isSome = true ∧
        ∃ at_, (ofServer server.id events).getLast? = some (.tunnelReady server.id at_)) :=
  fun hok server hs => server_of_ok formatIncidentTime decodeTextMessage fromUtf8 options server
    snoozes (List.mem_map.mpr ⟨server, hs, rfl⟩) (hemits server hs) (herrors server.id) hok

def tunneledConfig : Config := { servers := [tunneledServer] }

/-- The same as `refusedStream`, before the outcome over the new tunnel. -/
def pendingStream : List Event :=
  [.tunnelFailed "web" 1 "Failed to start tunnel command: not found", .tunnelReady "web" 2]

theorem pendingStream_emitted :
    Emits (fun _ => .ok none) (fun _ => .ok "") {} tunneledServer pendingStream :=
  emits_of_exec _ _ _ _
    [.spawned (.error "not found") 1, .sent, .slept, .spawned (.ok ()) 2, .sent] rfl

/-- The third case is a real one: the state is OK with the only server offline and no incident. -/
theorem ok_while_connection_pending :
    tunneledConfig.validate (fun _ => false) = .ok () ∧
    (∀ server ∈ tunneledConfig.servers,
      Emits (fun _ => .ok none) (fun _ => .ok "") {} server (ofServer server.id pendingStream)) ∧
    (∀ e ∈ pendingStream, ∀ id now, e ≠ .disconnected id now "" ∧ e ≠ .tunnelFailed id now "") ∧
    let s := (start (fun _ => "") (tunneledConfig.servers.map (·.id)) ∅).run pendingStream
    (s.snapshot 3).alertingState = .ok ∧
      s.servers["web"]?.map (·.connected) = some false ∧ s.internalIncidents = ∅ := by
  refine ⟨rfl, ?_, ?_, by decide, by decide, by decide⟩
  · intro server hs
    cases List.mem_singleton.mp hs
    exact pendingStream_emitted
  · simp [pendingStream]

theorem ok_accounts_for_every_server_sample :
    tunneledServer.tunnel.isSome = true ∧
      ∃ at_, (ofServer "web" pendingStream).getLast? = some (.tunnelReady "web" at_) := by
  have h := ok_accounts_for_every_server (fun _ => "") (fun _ => .ok none) (fun _ => .ok "") {}
    tunneledConfig ∅ pendingStream
    (fun server hs => by cases List.mem_singleton.mp hs; exact pendingStream_emitted)
    (by simp [pendingStream]) 3 (by decide) tunneledServer (List.mem_singleton.mpr rfl)
  rcases h with ⟨status, hs, hc⟩ | ⟨key, -, hmem, -⟩ | hready
  · have hoff : ((start (fun _ => "") ["web"] ∅).run pendingStream).servers["web"]?.map
        (·.connected) = some false := by decide
    rw [show ((start (fun _ => "") ["web"] ∅).run pendingStream).servers["web"]? = some status
      from hs] at hoff
    simp [hc] at hoff
  · have hempty : ((start (fun _ => "") ["web"] ∅).run pendingStream).internalIncidents = ∅ := by
      decide
    rw [show ((start (fun _ => "") (tunneledConfig.servers.map (·.id)) ∅).run
      pendingStream).internalIncidents = ∅ from hempty] at hmem
    simp at hmem
  · exact hready

end Run

end Client
end Montray
