import Montray.Lib.Machine
import Montray.Client.Model

/-!
# Montray.Client.Reducer

`Reducer::reduce`. The text of an instant (RFC 3339) is a parameter.

* `reduce`: one event, with the publication flag and the effects.
* `reducer`: the machine that reduces event after event.
-/

namespace Montray
namespace Client

open Lib

def connectionKey (id : String) : String := "internal.connection." ++ id

def tunnelKey (id : String) : String := "internal.tunnel." ++ id

def AppState.isSnoozed (s : AppState) (key : String) (now : OffsetDateTime) : Bool :=
  (s.snoozedUntil key now).isSome

section Snoozed

variable {s : AppState} {key : String} {now : OffsetDateTime}

theorem isSnoozed_iff :
    s.isSnoozed key now = true ↔ ∃ deadline, s.snoozed[key]? = some deadline ∧ now < deadline := by
  rw [AppState.isSnoozed, AppState.snoozedUntil]
  cases s.snoozed[key]? with
  | none => simp
  | some deadline => simp [Option.isSome_filter]

theorem isSnoozed_eq : s.isSnoozed key now = !(s.snoozedUntil key now).isNone := by
  rw [AppState.isSnoozed, Option.not_isNone]

/-- A snapshot and the suppression of notifications test the same deadline. -/
theorem snapshot_active (s : AppState) (now : OffsetDateTime) :
    (s.snapshot now).active = s.allIncidents.filter fun i => !s.isSnoozed i.key now := by
  simp only [AppState.snapshot, isSnoozed_eq, Bool.not_not]

end Snoozed

/-- Qualifies a server-local key. -/
def prefixedItem (item : Incident) (id : String) : Incident :=
  { item with key := id ++ "." ++ item.key }

def stateName : IncidentState → String
  | .ok => "ok"
  | .warning => "warning"
  | .error => "error"

/-- The server is known to be connected, from `now` on if it was not already. -/
def ServerStatus.online (server : ServerStatus) (now : OffsetDateTime) : ServerStatus :=
  let changed := !server.initialized || !server.connected
  { server with
    initialized := true
    connected := true
    connectionChangedAt := if changed then some now else server.connectionChangedAt
    -- A heartbeat from the previous socket says nothing about this one.
    lastHeartbeatAt := if changed then none else server.lastHeartbeatAt }

/-- The server is known to be offline, from `now` on if it was not already. -/
def ServerStatus.offline (server : ServerStatus) (now : OffsetDateTime) : ServerStatus :=
  let changed := !server.initialized || server.connected
  { server with
    initialized := true
    connected := false
    connectionChangedAt := if changed then some now else server.connectionChangedAt }

def markStale (incidents : List Incident) : List Incident :=
  incidents.map fun incident => { incident with stale := true }

/-- The notification of a resolved incident, unless it is snoozed. -/
def resolvedEffects (removed snoozed : Bool) (key : String) : List Effect :=
  if removed && !snoozed then [.notify ("OK: " ++ key) ""] else []

section Reduce

variable (formatIncidentTime : OffsetDateTime → String)

/-- The incident `key` after a failure at `now`: a new one, or the old one with the new details.
With whether it changed and the notification of a new one. -/
def failed (key : String) (now : OffsetDateTime) (error : String) (snoozed : Bool) :
    Option Incident → Incident × Bool × List Effect
  | some incident =>
    if incident.details = error then (incident, false, [])
    else ({ incident with details := error }, true, [])
  | none =>
    ({ key := key, state := .error, details := error, incidentStartedAt := formatIncidentTime now },
      true, if snoozed then [] else [.notify ("error: " ++ key) error])

def connected (s : AppState) (id : String) (now : OffsetDateTime) : AppState × Transition :=
  let key := connectionKey id
  match s.servers[id]? with
  | none => (s, {})
  | some server =>
    let changed := !server.initialized || !server.connected
    let removed := s.internalIncidents.contains key
    ({ s with
        servers := s.servers.insert id (server.online now)
        internalIncidents := s.internalIncidents.erase key },
      { changed := changed || removed
        effects := resolvedEffects removed (s.isSnoozed key now) key })

def disconnected (s : AppState) (id : String) (now : OffsetDateTime) (error : String) :
    AppState × Transition :=
  let key := connectionKey id
  match s.servers[id]? with
  | none => (s, {})
  | some server =>
    let statusChanged := !server.initialized || server.connected
    let incidents := s.incidents[id]?.getD []
    let staleChanged := incidents.any fun incident => !incident.stale
    let s' : AppState :=
      { s with
        servers := s.servers.insert id (server.offline now)
        incidents := s.incidents.modify id markStale }
    if error = "" then
      -- The tunnel incident is the only visible internal failure.
      let removed := s.internalIncidents.contains key
      ({ s' with internalIncidents := s.internalIncidents.erase key },
        { changed := statusChanged || staleChanged || removed })
    else
      let (incident, changed, effects) :=
        failed formatIncidentTime key now error (s.isSnoozed key now) s.internalIncidents[key]?
      ({ s' with internalIncidents := s.internalIncidents.insert key incident },
        { changed := statusChanged || staleChanged || changed, effects := effects })

def tunnelReady (s : AppState) (id : String) (now : OffsetDateTime) : AppState × Transition :=
  if id ∉ s.servers then (s, {})
  else
    let key := tunnelKey id
    let removed := s.internalIncidents.contains key
    ({ s with internalIncidents := s.internalIncidents.erase key },
      { changed := removed, effects := resolvedEffects removed (s.isSnoozed key now) key })

def tunnelFailed (s : AppState) (id : String) (now : OffsetDateTime) (error : String) :
    AppState × Transition :=
  let key := tunnelKey id
  match s.servers[id]? with
  | none => (s, {})
  | some server =>
    let statusChanged := !server.initialized || server.connected
    let incidents := s.incidents[id]?.getD []
    let staleChanged := incidents.any fun incident => !incident.stale
    let connectionRemoved := s.internalIncidents.contains (connectionKey id)
    let internal := s.internalIncidents.erase (connectionKey id)
    let (incident, changed, effects) :=
      failed formatIncidentTime key now error (s.isSnoozed key now) internal[key]?
    ({ s with
        servers := s.servers.insert id (server.offline now)
        incidents := s.incidents.modify id markStale
        internalIncidents := internal.insert key incident },
      { changed := statusChanged || staleChanged || connectionRemoved || changed
        effects := effects })

def heartbeat (s : AppState) (id : String) (now : OffsetDateTime) : AppState × Transition :=
  match s.servers[id]? with
  | none => (s, {})
  | some server =>
    ({ s with servers := s.servers.insert id { server with lastHeartbeatAt := some now } },
      { changed := server.lastHeartbeatAt ≠ some now })

/-- The desktop notifications of a notification's deltas; `snoozed` tells which keys are. -/
def notifyEffects (snoozed : String → Bool) (id : String) (data : NotificationData) :
    List Effect :=
  let added := data.added.map fun item => prefixedItem item id
  let removed := data.removed.map fun item => prefixedItem item id
  (added.filter fun item => !snoozed item.key).map
      (fun item => .notify (stateName item.state ++ ": " ++ item.key) item.details) ++
    (removed.filter fun item => !snoozed item.key).map (fun item => .notify ("OK: " ++ item.key) "")

def notification (s : AppState) (id : String) (data : NotificationData) (now : OffsetDateTime) :
    AppState × Transition :=
  if id ∉ s.servers then (s, {})
  else
    ({ s with
        incidents := s.incidents.insert id (data.total.map fun item => prefixedItem item id) },
      { changed := true, effects := notifyEffects (s.isSnoozed · now) id data })

/-- What remains of a server's incidents once the stale ones with the key are forgotten. -/
def forget (key : String) (incidents : List Incident) : List Incident :=
  incidents.filter fun item => item.key ≠ key || !item.stale

def reduce (s : AppState) : Event → AppState × Transition
  | .connected id now => connected s id now
  | .disconnected id now error => disconnected formatIncidentTime s id now error
  | .tunnelReady id now => tunnelReady s id now
  | .tunnelFailed id now error => tunnelFailed formatIncidentTime s id now error
  | .heartbeat id now => heartbeat s id now
  | .notification id data now => notification s id data now
  | .snooze key deadline =>
    if s.snoozed[key]? = some deadline then (s, {})
    else
      (s, { effects := [.persistSnoozes (s.snoozed.insert key deadline) (.set key deadline)] })
  | .unsnooze key =>
    if key ∉ s.snoozed then (s, {})
    else (s, { effects := [.persistSnoozes (s.snoozed.erase key) (.remove key)] })
  | .snoozesPersisted snoozes => ({ s with snoozed := snoozes }, { changed := s.snoozed ≠ snoozes })
  | .forgetStale key =>
    ({ s with incidents := s.incidents.map fun _ incidents => forget key incidents },
      { changed := s.incidents.toList.any fun (_, incidents) =>
          (forget key incidents).length ≠ incidents.length })
  | .tick now =>
    let keys := (s.snoozed.toList.filter fun p => p.2 ≤ now).map Prod.fst
    if keys = [] then (s, {})
    else
      (s, { effects := [.persistSnoozes (s.snoozed.filter fun _ deadline => deadline > now)
              (.expire keys)] })

/-- The reducer, started in a given state. -/
def reducer (state : AppState) : Mealy AppState Event Transition where
  init := state
  step := reduce formatIncidentTime

end Reduce

end Client
end Montray
