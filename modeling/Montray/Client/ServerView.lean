import Montray.Lib.Dotted
import Montray.Client.Reducer

/-!
# Montray.Client.ServerView

The reducer's state as one part for each server, and what an event does to the parts.

* `ServerView`: a server's status, its cached incidents and its two internal incidents.
* `ServerView.step`: what an event of the server does to its part. Of the rest of the state it
  sees the snoozes only.
* `reduce_server`: the reducer does just that to the part of the event's server.
* `view_reduce`: what any event does to the part of any server.
-/

namespace Montray
namespace Client

open Lib

theorem connectionKey_inj {a b : String} : connectionKey a = connectionKey b ↔ a = b :=
  String.append_right_inj _

theorem tunnelKey_inj {a b : String} : tunnelKey a = tunnelKey b ↔ a = b :=
  String.append_right_inj _

theorem connectionKey_ne_tunnelKey (a b : String) : connectionKey a ≠ tunnelKey b :=
  append_ne_append (n := 10) (by decide) (by decide) (by decide) a b

theorem tunnelKey_ne_connectionKey (a b : String) : tunnelKey a ≠ connectionKey b :=
  (connectionKey_ne_tunnelKey b a).symm

/-- What the state says about one server. -/
structure ServerView where
  status : Option ServerStatus
  incidents : Option (List Incident)
  connection : Option Incident
  tunnel : Option Incident

def AppState.view (s : AppState) (id : String) : ServerView where
  status := s.servers[id]?
  incidents := s.incidents[id]?
  connection := s.internalIncidents[connectionKey id]?
  tunnel := s.internalIncidents[tunnelKey id]?

def AppState.setView (s : AppState) (id : String) (v : ServerView) : AppState :=
  { s with
    servers := KeyMap.put s.servers id v.status
    incidents := KeyMap.put s.incidents id v.incidents
    internalIncidents :=
      KeyMap.put (KeyMap.put s.internalIncidents (connectionKey id) v.connection)
        (tunnelKey id) v.tunnel }

theorem setView_view (s : AppState) (id : String) : s.setView id (s.view id) = s := by
  have hi : KeyMap.put (KeyMap.put s.internalIncidents (connectionKey id)
      s.internalIncidents[connectionKey id]?) (tunnelKey id) s.internalIncidents[tunnelKey id]? =
      s.internalIncidents := by
    rw [KeyMap.put_lookup rfl, KeyMap.put_lookup rfl]
  have hs : KeyMap.put s.servers id s.servers[id]? = s.servers := KeyMap.put_lookup rfl
  have hc : KeyMap.put s.incidents id s.incidents[id]? = s.incidents := KeyMap.put_lookup rfl
  simp only [AppState.setView, AppState.view, hi, hs, hc]

theorem view_setView_self (s : AppState) (id : String) (v : ServerView) :
    (s.setView id v).view id = v := by
  simp [AppState.setView, AppState.view, KeyMap.lookup_put,
    tunnelKey_ne_connectionKey]

theorem view_setView_ne (s : AppState) {a b : String} (v : ServerView) (h : a ≠ b) :
    (s.setView a v).view b = s.view b := by
  simp [AppState.setView, AppState.view, KeyMap.lookup_put, h, connectionKey_inj, tunnelKey_inj,
    connectionKey_ne_tunnelKey, tunnelKey_ne_connectionKey]

theorem internal_setView_ne (s : AppState) {id k : String} (v : ServerView)
    (hc : connectionKey id ≠ k) (ht : tunnelKey id ≠ k) :
    (s.setView id v).internalIncidents[k]? = s.internalIncidents[k]? := by
  simp [AppState.setView, KeyMap.lookup_put, hc, ht]

namespace ServerView

section Step

variable (formatIncidentTime : OffsetDateTime → String)
  (isSnoozed : String → OffsetDateTime → Bool)

def setOffline (v : ServerView) (server : ServerStatus) (now : OffsetDateTime) : ServerView :=
  { v with status := some (server.offline now), incidents := v.incidents.map markStale }

def someFresh (v : ServerView) : Bool :=
  (v.incidents.getD []).any fun incident => !incident.stale

/-- What an event of the server `server` does to the server's part. -/
def stepKnown (v : ServerView) (server : ServerStatus) : Event → ServerView × Transition
  | .connected id now =>
    ({ v with status := some (server.online now), connection := none },
      { changed := (!server.initialized || !server.connected) || v.connection.isSome
        effects := resolvedEffects v.connection.isSome (isSnoozed (connectionKey id) now)
          (connectionKey id) })
  | .disconnected id now error =>
    let changed := (!server.initialized || server.connected) || v.someFresh
    if error = "" then
      ({ v.setOffline server now with connection := none },
        { changed := changed || v.connection.isSome })
    else
      let r := failed formatIncidentTime (connectionKey id) now error
        (isSnoozed (connectionKey id) now) v.connection
      ({ v.setOffline server now with connection := some r.1 },
        { changed := changed || r.2.1, effects := r.2.2 })
  | .tunnelReady id now =>
    ({ v with tunnel := none },
      { changed := v.tunnel.isSome
        effects := resolvedEffects v.tunnel.isSome (isSnoozed (tunnelKey id) now) (tunnelKey id) })
  | .tunnelFailed id now error =>
    let changed := (!server.initialized || server.connected) || v.someFresh
    let r := failed formatIncidentTime (tunnelKey id) now error
      (isSnoozed (tunnelKey id) now) v.tunnel
    ({ v.setOffline server now with connection := none, tunnel := some r.1 },
      { changed := changed || v.connection.isSome || r.2.1, effects := r.2.2 })
  | .heartbeat _ now =>
    ({ v with status := some { server with lastHeartbeatAt := some now } },
      { changed := server.lastHeartbeatAt ≠ some now })
  | .notification id data now =>
    ({ v with incidents := some (data.total.map fun item => prefixedItem item id) },
      { changed := true, effects := notifyEffects (isSnoozed · now) id data })
  | _ => (v, {})

def step (v : ServerView) (e : Event) : ServerView × Transition :=
  match v.status with
  | none => (v, {})
  | some server => v.stepKnown formatIncidentTime isSnoozed server e

theorem step_status_isSome {formatIncidentTime : OffsetDateTime → String}
    {z : String → OffsetDateTime → Bool} {v : ServerView} {e : Event}
    (h : v.status.isSome = true) : (v.step formatIncidentTime z e).1.status.isSome = true := by
  obtain ⟨server, hs⟩ := Option.isSome_iff_exists.mp h
  simp only [step, hs]
  cases e <;> simp only [stepKnown] <;> first | exact h | rfl | (split <;> rfl)

end Step

/-- What an event that comes from no server does to a server's part. -/
def user (v : ServerView) : Event → ServerView
  | .forgetStale key => { v with incidents := v.incidents.map (forget key) }
  | _ => v

end ServerView

section Reduce

variable (formatIncidentTime : OffsetDateTime → String)

theorem put_connection (m : KeyMap Incident) (id : String) (c : Option Incident) :
    KeyMap.put (KeyMap.put m (connectionKey id) c) (tunnelKey id) m[tunnelKey id]? =
      KeyMap.put m (connectionKey id) c := by
  apply KeyMap.put_lookup
  rw [KeyMap.lookup_put, if_neg (connectionKey_ne_tunnelKey id id)]

variable {s : AppState} {server : ServerStatus} {id : String}

theorem connected_known (hk : s.servers[id]? = some server) (now : OffsetDateTime) :
    connected s id now =
      let r := (s.view id).stepKnown formatIncidentTime s.isSnoozed server (.connected id now)
      (s.setView id r.1, r.2) := by
  simp only [connected, hk, ServerView.stepKnown, AppState.setView, AppState.view, put_connection,
    KeyMap.put_lookup, Std.ExtTreeMap.contains_eq_isSome_getElem?]
  rfl

theorem disconnected_known (hk : s.servers[id]? = some server) (now : OffsetDateTime)
    (error : String) :
    disconnected formatIncidentTime s id now error =
      let r := (s.view id).stepKnown formatIncidentTime s.isSnoozed server
        (.disconnected id now error)
      (s.setView id r.1, r.2) := by
  simp only [disconnected, hk, ServerView.stepKnown]
  split
  all_goals
    simp only [ServerView.setOffline, ServerView.someFresh, AppState.setView, AppState.view,
      put_connection, KeyMap.modify_eq_put, Std.ExtTreeMap.contains_eq_isSome_getElem?]
    rfl

theorem tunnelReady_known (hk : s.servers[id]? = some server) (now : OffsetDateTime) :
    tunnelReady s id now =
      let r := (s.view id).stepKnown formatIncidentTime s.isSnoozed server (.tunnelReady id now)
      (s.setView id r.1, r.2) := by
  have hmem : id ∈ s.servers := KeyMap.mem_iff_lookup.mpr ⟨server, hk⟩
  simp only [tunnelReady, hmem, not_true, if_false, ServerView.stepKnown, AppState.setView,
    AppState.view, KeyMap.put_lookup, Std.ExtTreeMap.contains_eq_isSome_getElem?]
  rfl

theorem tunnelFailed_known (hk : s.servers[id]? = some server) (now : OffsetDateTime)
    (error : String) :
    tunnelFailed formatIncidentTime s id now error =
      let r := (s.view id).stepKnown formatIncidentTime s.isSnoozed server
        (.tunnelFailed id now error)
      (s.setView id r.1, r.2) := by
  simp only [tunnelFailed, hk, ServerView.stepKnown, ServerView.setOffline, ServerView.someFresh,
    AppState.setView, AppState.view, KeyMap.modify_eq_put, KeyMap.lookup_erase,
    connectionKey_ne_tunnelKey, if_false, Std.ExtTreeMap.contains_eq_isSome_getElem?]
  rfl

theorem heartbeat_known (hk : s.servers[id]? = some server) (now : OffsetDateTime) :
    heartbeat s id now =
      let r := (s.view id).stepKnown formatIncidentTime s.isSnoozed server (.heartbeat id now)
      (s.setView id r.1, r.2) := by
  simp only [heartbeat, hk, ServerView.stepKnown, AppState.setView, AppState.view,
    KeyMap.put_lookup]
  rfl

theorem notification_known (hk : s.servers[id]? = some server) (data : NotificationData)
    (now : OffsetDateTime) :
    notification s id data now =
      let r := (s.view id).stepKnown formatIncidentTime s.isSnoozed server
        (.notification id data now)
      (s.setView id r.1, r.2) := by
  have hmem : id ∈ s.servers := KeyMap.mem_iff_lookup.mpr ⟨server, hk⟩
  simp only [notification, hmem, not_true, if_false, ServerView.stepKnown, AppState.setView,
    AppState.view, KeyMap.put_lookup]
  rfl

/-- An event of a server changes that server's part, as `ServerView.step` says, and no other. -/
theorem reduce_server {e : Event} (he : e.server? = some id) :
    reduce formatIncidentTime s e =
      let r := (s.view id).step formatIncidentTime s.isSnoozed e
      (s.setView id r.1, r.2) := by
  cases hk : s.servers[id]? with
  | none =>
    have hv : (s.view id).status = none := hk
    have hmem : id ∉ s.servers := KeyMap.lookup_none_iff.mp hk
    simp only [ServerView.step, hv, setView_view]
    cases e <;> simp only [Event.server?, Option.some.injEq, reduceCtorEq] at he <;> subst he <;>
      simp [reduce, connected, disconnected, tunnelReady, tunnelFailed, heartbeat, notification,
        hmem]
  | some server =>
    have hv : (s.view id).status = some server := hk
    simp only [ServerView.step, hv]
    cases e <;> simp only [Event.server?, Option.some.injEq, reduceCtorEq] at he <;> subst he
    case connected now => exact connected_known formatIncidentTime hk now
    case disconnected now error => exact disconnected_known formatIncidentTime hk now error
    case tunnelReady now => exact tunnelReady_known formatIncidentTime hk now
    case tunnelFailed now error => exact tunnelFailed_known formatIncidentTime hk now error
    case heartbeat now => exact heartbeat_known formatIncidentTime hk now
    case notification data now => exact notification_known formatIncidentTime hk data now

/-! ## Events that come from no server -/

theorem view_reduce_user {e : Event} (he : e.server? = none) (b : String) :
    (reduce formatIncidentTime s e).1.view b = (s.view b).user e := by
  cases e <;> simp only [Event.server?, reduceCtorEq] at he
  case forgetStale key =>
    simp [reduce, AppState.view, ServerView.user]
  all_goals
    simp only [reduce, ServerView.user]
    first | rfl | (split <;> rfl)

theorem internal_reduce_user {e : Event} (he : e.server? = none) :
    (reduce formatIncidentTime s e).1.internalIncidents = s.internalIncidents := by
  cases e <;> simp only [Event.server?, reduceCtorEq] at he <;> simp only [reduce] <;>
    first | rfl | (split <;> rfl)

/-! ## Any event -/

theorem view_reduce (e : Event) (b : String) :
    (reduce formatIncidentTime s e).1.view b =
      if e.server? = some b then ((s.view b).step formatIncidentTime s.isSnoozed e).1
      else (s.view b).user e := by
  cases he : e.server? with
  | none => simp [view_reduce_user formatIncidentTime he b]
  | some a =>
    rw [reduce_server formatIncidentTime he]
    simp only [Option.some.injEq]
    split
    · rename_i h
      subst h
      exact view_setView_self _ _ _
    · rename_i h
      rw [view_setView_ne _ _ h]
      cases e <;> first | rfl | cases he

/-- The snoozes change when a write of them is acknowledged, and then only. -/
theorem snoozed_reduce (e : Event) :
    (reduce formatIncidentTime s e).1.snoozed =
      match e with
      | .snoozesPersisted snoozes => snoozes
      | _ => s.snoozed := by
  cases he : e.server? with
  | some a =>
    rw [reduce_server formatIncidentTime he]
    cases e <;> first | rfl | cases he
  | none =>
    cases e <;> simp only [Event.server?, reduceCtorEq] at he <;> simp only [reduce] <;>
      first | rfl | (split <;> rfl)

theorem serverOrder_reduce (e : Event) :
    (reduce formatIncidentTime s e).1.serverOrder = s.serverOrder := by
  cases he : e.server? with
  | some a =>
    rw [reduce_server formatIncidentTime he]
    rfl
  | none =>
    cases e <;> simp only [Event.server?, reduceCtorEq] at he <;> simp only [reduce] <;>
      first | rfl | (split <;> rfl)

/-- An internal incident is named after a server. -/
def InternalNamed (s : AppState) : Prop :=
  ∀ k : String, (∀ id, connectionKey id ≠ k ∧ tunnelKey id ≠ k) → s.internalIncidents[k]? = none

theorem InternalNamed.reduce (h : InternalNamed s) (e : Event) :
    InternalNamed (reduce formatIncidentTime s e).1 := by
  intro k hk
  cases he : e.server? with
  | none =>
    rw [internal_reduce_user formatIncidentTime he]
    exact h k hk
  | some a =>
    rw [reduce_server formatIncidentTime he]
    exact (internal_setView_ne s _ (hk a).1 (hk a).2).trans (h k hk)

end Reduce

/-! ## The initial state -/

theorem servers_new (serverIds : List String) (snoozed : KeyMap OffsetDateTime) (b : String) :
    (AppState.new serverIds snoozed).servers[b]? =
      if b ∈ serverIds then some { id := b } else none := by
  simp only [AppState.new]
  induction serverIds using List.reverseRecOn with
  | nil => simp
  | append_singleton ids a ih =>
    rw [List.foldl_append, List.foldl_cons, List.foldl_nil, KeyMap.lookup_insert, ih]
    by_cases hab : a = b
    · simp [hab]
    · simp [hab, Ne.symm hab]

theorem view_new (serverIds : List String) (snoozed : KeyMap OffsetDateTime) (b : String) :
    (AppState.new serverIds snoozed).view b =
      ⟨if b ∈ serverIds then some { id := b } else none, none, none, none⟩ := by
  simp only [AppState.view, servers_new]
  simp [AppState.new]

theorem internalNamed_new (serverIds : List String) (snoozed : KeyMap OffsetDateTime) :
    InternalNamed (AppState.new serverIds snoozed) := by
  intro k _
  simp [AppState.new]

section Start

variable (formatIncidentTime : OffsetDateTime → String) (serverIds : List String)
  (snoozes : KeyMap OffsetDateTime)

/-- The reducer as it starts. -/
def start : Mealy AppState Event Transition :=
  reducer formatIncidentTime (AppState.new serverIds snoozes)

theorem internalNamed_run (events : List Event) :
    InternalNamed ((start formatIncidentTime serverIds snoozes).run events) :=
  (start formatIncidentTime serverIds snoozes).invariant (I := InternalNamed)
    (internalNamed_new serverIds snoozes) (fun _ e h => h.reduce formatIncidentTime e) events

/-- The servers that the state knows are the configured ones. -/
theorem mem_servers_run (events : List Event) (id : String) :
    id ∈ ((start formatIncidentTime serverIds snoozes).run events).servers ↔ id ∈ serverIds := by
  refine (start formatIncidentTime serverIds snoozes).invariant
    (I := fun s => id ∈ s.servers ↔ id ∈ serverIds) ?_ ?_ events
  · show id ∈ (AppState.new serverIds snoozes).servers ↔ id ∈ serverIds
    rw [KeyMap.mem_iff_lookup, servers_new]
    by_cases hid : id ∈ serverIds <;> simp [hid]
  · intro s e h
    have hview := congrArg ServerView.status (view_reduce formatIncidentTime (s := s) e id)
    rw [← h, ← Std.ExtTreeMap.isSome_getElem?_iff_mem, ← Std.ExtTreeMap.isSome_getElem?_iff_mem]
    rw [show ((start formatIncidentTime serverIds snoozes).step s e).1.servers[id]? = _ from hview]
    split
    · cases hs : s.servers[id]? with
      | none => simp [ServerView.step, AppState.view, hs]
      | some server =>
        exact iff_of_true (ServerView.step_status_isSome (by simp [AppState.view, hs])) rfl
    · cases e <;> rfl

theorem serverOrder_run (events : List Event) :
    ((start formatIncidentTime serverIds snoozes).run events).serverOrder = serverIds :=
  (start formatIncidentTime serverIds snoozes).invariant (I := fun s => s.serverOrder = serverIds)
    rfl (fun _ e h => (serverOrder_reduce formatIncidentTime e).trans h) events

end Start

end Client
end Montray
