import Montray.Lib.Keyed

/-!
# Montray.Client.Model

The client's state, the events that change it and the snapshot the window and the tray show.
Instants are nanoseconds of UTC; `HashMap` and `BTreeMap` are both extensional maps, since the code
only ever iterates over a `BTreeMap` in a way that depends on the order.

* `AppState.snapshot`: incidents split by their snoozes, and the severity of what is left.
* `overallState_ok`: the severity is OK only if nothing worse is among the incidents.
-/

namespace Montray
namespace Client

open Lib

abbrev OffsetDateTime := Int

inductive IncidentState where
  | ok
  | warning
  | error
  deriving DecidableEq, Repr

structure Incident where
  key : String
  state : IncidentState
  details : String := ""
  incidentStartedAt : String
  stale : Bool := false
  deriving DecidableEq, Repr

structure NotificationData where
  total : List Incident
  added : List Incident
  removed : List Incident
  updated : List Incident
  numItemsOk : Nat
  deriving DecidableEq, Repr

structure ServerStatus where
  id : String
  connected : Bool := false
  initialized : Bool := false
  connectionChangedAt : Option OffsetDateTime := none
  lastHeartbeatAt : Option OffsetDateTime := none
  deriving DecidableEq, Repr

inductive OverallState where
  | unknown
  | ok
  | internalError
  | warning
  | error
  deriving DecidableEq, Repr

structure SnoozedIncident where
  incident : Incident
  until_ : OffsetDateTime
  deriving DecidableEq, Repr

structure UiSnapshot where
  servers : List ServerStatus
  active : List Incident
  snoozed : List SnoozedIncident
  alertingState : OverallState
  snoozedState : Option OverallState
  unknownServerCount : Nat
  deriving DecidableEq, Repr

structure AppState where
  serverOrder : List String
  servers : KeyMap ServerStatus
  incidents : KeyMap (List Incident)
  internalIncidents : KeyMap Incident
  snoozed : KeyMap OffsetDateTime
  deriving DecidableEq

def AppState.new (serverIds : List String) (snoozed : KeyMap OffsetDateTime) : AppState where
  serverOrder := serverIds
  servers := serverIds.foldl (fun m id => m.insert id { id := id }) ∅
  incidents := ∅
  internalIncidents := ∅
  snoozed := snoozed

/-! ## Events and effects -/

inductive Event where
  | connected (serverId : String) (at_ : OffsetDateTime)
  | disconnected (serverId : String) (at_ : OffsetDateTime) (error : String)
  | tunnelReady (serverId : String) (at_ : OffsetDateTime)
  | tunnelFailed (serverId : String) (at_ : OffsetDateTime) (error : String)
  | heartbeat (serverId : String) (at_ : OffsetDateTime)
  | notification (serverId : String) (data : NotificationData) (at_ : OffsetDateTime)
  | snooze (key : String) (until_ : OffsetDateTime)
  | unsnooze (key : String)
  | snoozesPersisted (snoozes : KeyMap OffsetDateTime)
  | forgetStale (key : String)
  | tick (at_ : OffsetDateTime)
  deriving DecidableEq

/-- The server an event comes from; none for the user's actions, acknowledgements and ticks. -/
def Event.server? : Event → Option String
  | .connected id _ => some id
  | .disconnected id _ _ => some id
  | .tunnelReady id _ => some id
  | .tunnelFailed id _ _ => some id
  | .heartbeat id _ => some id
  | .notification id _ _ => some id
  | _ => none

inductive SnoozeAction where
  | set (key : String) (until_ : OffsetDateTime)
  | remove (key : String)
  | expire (keys : List String)
  deriving DecidableEq, Repr

inductive Effect where
  | notify (title body : String)
  | persistSnoozes (snoozes : KeyMap OffsetDateTime) (action : SnoozeAction)
  deriving DecidableEq

structure Transition where
  changed : Bool := false
  effects : List Effect := []
  deriving DecidableEq

/-! ## The snapshot -/

def rank : OverallState → Nat
  | .unknown => 0
  | .ok => 1
  | .internalError => 2
  | .warning => 3
  | .error => 4

def isInternalKey (key : String) : Bool := "internal.".toList.isPrefixOf key.toList

/-- The severity of one incident, as the tray shows it. -/
def severity (item : Incident) : OverallState :=
  if isInternalKey item.key ∧ item.state ≠ .ok then .internalError
  else
    match item.state with
    | .ok => .ok
    | .warning => .warning
    | .error => .error

def overallState (items : List Incident) : OverallState :=
  items.foldl (fun overall item =>
    if rank (severity item) > rank overall then severity item else overall) .ok

/-- The deadline of a key that is snoozed at `now`. -/
def AppState.snoozedUntil (s : AppState) (key : String) (now : OffsetDateTime) :
    Option OffsetDateTime :=
  s.snoozed[key]?.filter fun deadline => deadline > now

/-- All incidents: the client's own in key order, then the servers' in configuration order. -/
def AppState.allIncidents (s : AppState) : List Incident :=
  s.internalIncidents.toList.map Prod.snd ++ s.serverOrder.flatMap fun id => s.incidents[id]?.getD []

def AppState.snapshot (s : AppState) (now : OffsetDateTime) : UiSnapshot :=
  let active := s.allIncidents.filter fun incident => (s.snoozedUntil incident.key now).isNone
  let snoozed := s.allIncidents.filterMap fun incident =>
    (s.snoozedUntil incident.key now).map fun deadline => ⟨incident, deadline⟩
  let servers := s.serverOrder.filterMap fun id => s.servers[id]?
  let unknownServerCount := servers.countP fun server => !server.initialized
  let alerting := overallState active
  { servers := servers
    active := active
    snoozed := snoozed
    alertingState := if alerting = .ok ∧ unknownServerCount > 0 then .unknown else alerting
    snoozedState :=
      if snoozed.isEmpty then none else some (overallState (snoozed.map (·.incident)))
    unknownServerCount := unknownServerCount }

theorem overallState_foldl_rank (items : List Incident) (start : OverallState) :
    rank start ≤ rank (items.foldl (fun overall item =>
      if rank (severity item) > rank overall then severity item else overall) start) ∧
    ∀ item ∈ items, rank (severity item) ≤ rank (items.foldl (fun overall item =>
      if rank (severity item) > rank overall then severity item else overall) start) := by
  induction items generalizing start with
  | nil => simp
  | cons item items ih =>
    simp only [List.foldl_cons, List.mem_cons, forall_eq_or_imp]
    split
    · rename_i hgt
      obtain ⟨h1, h2⟩ := ih (severity item)
      exact ⟨by omega, h1, h2⟩
    · obtain ⟨h1, h2⟩ := ih start
      exact ⟨h1, by omega, h2⟩

/-- Nothing worse than OK is among the incidents if the overall state is OK. -/
theorem overallState_ok {items : List Incident} (h : overallState items = .ok) :
    ∀ item ∈ items, item.state = .ok := by
  intro item hitem
  have hle := (overallState_foldl_rank items .ok).2 item hitem
  rw [show items.foldl (fun overall item =>
    if rank (severity item) > rank overall then severity item else overall) .ok = .ok from h] at hle
  by_contra hne
  unfold severity at hle
  split at hle
  · simp [rank] at hle
  · cases hs : item.state with
    | ok => exact hne hs
    | warning => simp [hs, rank] at hle
    | error => simp [hs, rank] at hle

end Client
end Montray
