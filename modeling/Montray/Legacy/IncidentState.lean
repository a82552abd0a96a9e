import Montray.Lib.Machine
import Montray.Server.Item

/-!
# Montray.Legacy.IncidentState

How the legacy client publishes its incidents: `incidentState` with the persisted snoozes, and
`statusWebserver` with the queues of the connected status pages.

Every call is an `Op` that runs one critical section at a time: it changes its own locked data, then
takes a snapshot (the clock, the items, then the deadline of each item, each under its own lock),
stores it, builds the message, copies the set of clients and queues the message client by client.
Any number of calls are in flight at once. A write of the state file may fail.

Snapshots and messages carry the number they got when they were begun and when they were built;
`began`, `begun`, `stored`, `built`, `lastStart`, `lastCall` and the clients' `ticket` are
bookkeeping only. The tray and the desktop notifications read the same snapshots and are left out.

* `snapshotAt`: the classification of the items by the deadlines, at one instant.
* `publication`: the whole system.
-/

namespace Montray
namespace Legacy

open Lib

/-- A duration in nanoseconds. -/
abbrev Duration := Int

abbrev Snoozes := KeyMap Time

structure SnoozedIncident extends ItemWContext where
  snoozedUntil : Time
  deriving DecidableEq, Repr

structure IncidentSnapshot where
  alerting : List ItemWContext := []
  snoozed : List SnoozedIncident := []
  deriving DecidableEq, Repr

structure ServerStatus where
  id : String
  connected : Bool := false
  connectionChangedAt : Option Time := none
  lastHeartbeatTime : Option Time := none
  hasConnectedOrFailed : Bool := false
  deriving DecidableEq, Repr

structure StatusWebsocketMessage where
  ongoingIncidents : IncidentSnapshot
  servers : List ServerStatus
  deriving DecidableEq, Repr

def statusWebsocketQueueSize : Nat := 64

/-! ## Snoozes and snapshots -/

def snoozedUntil (snoozed : Snoozes) (key : String) (now : Time) : Option Time :=
  snoozed[key]?.filter fun deadline => now < deadline

def expiredKeys (snoozed : Snoozes) (now : Time) : List String :=
  (snoozed.toList.filter fun entry => ¬ now < entry.2).map Prod.fst

def unexpired (snoozed : Snoozes) (now : Time) : Snoozes :=
  snoozed.filter fun _ deadline => now < deadline

/-- One item of the loop in `snapshot`. -/
def IncidentSnapshot.add (acc : IncidentSnapshot) (item : ItemWContext) :
    Option Time → IncidentSnapshot
  | some deadline =>
    { acc with snoozed := acc.snoozed ++ [{ toItemWContext := item, snoozedUntil := deadline }] }
  | none => { acc with alerting := acc.alerting ++ [item] }

/-- The loop of `snapshot` with the deadlines as they are now. -/
def classify (snoozed : Snoozes) (now : Time) (acc : IncidentSnapshot) :
    List ItemWContext → IncidentSnapshot
  | [] => acc
  | item :: todo => classify snoozed now (acc.add item (snoozedUntil snoozed item.key now)) todo

/-- The incidents as they should be shown at `now`. -/
def snapshotAt (items : List ItemWContext) (snoozed : Snoozes) (now : Time) : IncidentSnapshot :=
  classify snoozed now {} items

/-! ## Calls -/

/-- A call before its own change. -/
inductive Change where
  | update (items : List (Option ItemWContext))
  | snooze (key : String) (duration : Duration)
  | snoozeUntil (key : String) (deadline : Time)
  | unsnooze (key : String)
  | expire
  | expireAt (now : Time)
  deriving DecidableEq, Repr

/-- What a call does next. -/
inductive Op where
  | change (c : Change)
  | snapshot
  | read (n : Nat) (now : Time)
  | classify (n : Nat) (now : Time) (todo : List ItemWContext) (acc : IncidentSnapshot)
  | store (n : Nat) (snapshot : IncidentSnapshot)
  | setServerStatuses (statuses : List ServerStatus)
  | message
  | broadcast (m : Nat) (message : StatusWebsocketMessage)
  | send (m : Nat) (message : StatusWebsocketMessage) (todo : List String)
  | evict (m : Nat) (message : StatusWebsocketMessage) (client : String) (todo : List String)
  | close (m : Nat) (message : StatusWebsocketMessage) (client : String) (todo : List String)
  deriving DecidableEq, Repr

/-- The calls that lead to a publication. `expire` is a tick of the expiry worker, `refresh` what
the core does when a server connects. -/
inductive Call where
  | update (items : List (Option ItemWContext))
  | snooze (key : String) (duration : Duration)
  | unsnooze (key : String)
  | expire
  | refresh
  | setServerStatuses (statuses : List ServerStatus)
  deriving DecidableEq, Repr

def Call.first : Call → Op
  | .update items => .change (.update items)
  | .snooze key duration => .change (.snooze key duration)
  | .unsnooze key => .change (.unsnooze key)
  | .expire => .change .expire
  | .refresh => .snapshot
  | .setServerStatuses statuses => .setServerStatuses statuses

/-- Whether a call publishes incidents. -/
def Call.publishes : Call → Bool
  | .setServerStatuses _ => false
  | _ => true

/-! ## The system -/

structure Client where
  registered : Bool := true
  done : Bool := false
  /-- Everything that was put into the queue, in order. -/
  queued : List StatusWebsocketMessage
  /-- How much of it the writer has taken out. -/
  taken : Nat := 0
  ticket : Nat
  deriving DecidableEq, Repr

def Client.connected (client : Client) : Bool := client.registered && !client.done

def Client.full (client : Client) : Bool :=
  statusWebsocketQueueSize ≤ client.queued.length - client.taken

structure Sys where
  clock : Time
  items : List ItemWContext := []
  snoozed : Snoozes
  snapshot : IncidentSnapshot := {}
  serverStatuses : List ServerStatus := []
  clients : KeyMap Client := ∅
  closing : Bool := false
  /-- The calls in flight. -/
  ops : KeyMap Op := ∅
  began : Time
  begun : Nat := 0
  stored : Nat := 0
  built : Nat := 0
  lastStart : Time
  lastCall : String := ""

def Sys.message (s : Sys) : StatusWebsocketMessage :=
  { ongoingIncidents := s.snapshot, servers := s.serverStatuses }

/-- The keys of `statusWebserver.clients`, in the order Go happens to take. -/
def Sys.registered (s : Sys) (order : RangeOrder Client) : List String :=
  ((order.visit s.clients).filter fun entry => entry.2.registered).map Prod.fst

/-- A section that changes the call's own data; `written` says whether a write succeeds. -/
def runChange (s : Sys) (written : Bool) : Change → Sys × Option Op
  | .update items => ({ s with items := items.filterMap id }, some .snapshot)
  | .snooze key duration => (s, some (.change (.snoozeUntil key (s.clock + duration))))
  | .snoozeUntil key deadline =>
    if written then ({ s with snoozed := s.snoozed.insert key deadline }, some .snapshot)
    else (s, none)
  | .unsnooze key =>
    if written then ({ s with snoozed := s.snoozed.erase key }, some .snapshot) else (s, none)
  | .expire => (s, some (.change (.expireAt s.clock)))
  | .expireAt now =>
    if expiredKeys s.snoozed now = [] then (s, none)
    else if written then ({ s with snoozed := unexpired s.snoozed now }, some .snapshot)
    else (s, none)

/-- One section of a call, and what the call does after it; it has returned if that is nothing. -/
def runOp (s : Sys) (written : Bool) (order : RangeOrder Client) : Op → Sys × Option Op
  | .change c => runChange s written c
  | .snapshot =>
    ({ s with begun := s.begun + 1, began := s.clock }, some (.read (s.begun + 1) s.clock))
  | .read n now => (s, some (.classify n now s.items {}))
  | .classify n _ [] acc => (s, some (.store n acc))
  | .classify n now (item :: todo) acc =>
    (s, some (.classify n now todo (acc.add item (snoozedUntil s.snoozed item.key now))))
  | .store n snapshot => ({ s with snapshot, stored := n }, some .message)
  | .setServerStatuses statuses => ({ s with serverStatuses := statuses }, some .message)
  | .message => ({ s with built := s.built + 1 }, some (.broadcast (s.built + 1) s.message))
  | .broadcast m message => (s, some (.send m message (s.registered order)))
  | .send _ _ [] => (s, none)
  | .send m message (c :: todo) =>
    match s.clients[c]? with
    | none => (s, some (.send m message todo))
    | some client =>
      if client.done then (s, some (.send m message todo))
      else if client.full then (s, some (.evict m message c todo))
      else
        ({ s with clients := s.clients.insert c
                    { client with queued := client.queued ++ [message], ticket := m } },
          some (.send m message todo))
  | .evict m message c todo =>
    ({ s with clients := s.clients.modify c fun client => { client with registered := false } },
      some (.close m message c todo))
  | .close m message c todo =>
    ({ s with clients := s.clients.modify c fun client => { client with done := true } },
      some (.send m message todo))

inductive Action where
  | tick (elapsed : Nat)
  | call (i : String) (c : Call)
  | run (i : String) (written : Bool) (order : RangeOrder Client)
  /-- `wsConnect` up to the registration. -/
  | connect (c : String)
  /-- The writer of a client takes a message. -/
  | take (c : String)
  /-- `client.close`: after a failed write, or because the connection has ended. -/
  | close (c : String)
  /-- The connection of a client has ended, and it is removed. -/
  | leave (c : String)
  | closeClients

def step (s : Sys) : Action → Option (Sys × List Empty)
  | .tick elapsed => some ({ s with clock := s.clock + elapsed }, [])
  | .call i c =>
    match s.ops[i]? with
    | some _ => none
    | none =>
      let s := if c.publishes then { s with lastStart := s.clock, lastCall := i } else s
      some ({ s with ops := s.ops.insert i c.first }, [])
  | .run i written order =>
    match s.ops[i]? with
    | none => none
    | some op =>
      let (t, next) := runOp s written order op
      some ({ t with ops := KeyMap.put s.ops i next }, [])
  | .connect c =>
    match s.clients[c]? with
    | some _ => none
    | none =>
      if s.closing then some (s, [])
      else
        some ({ s with clients := s.clients.insert c
                         { queued := [s.message], ticket := s.built } }, [])
  | .take c =>
    match s.clients[c]? with
    | none => none
    | some client =>
      if client.taken < client.queued.length then
        some ({ s with clients := s.clients.insert c { client with taken := client.taken + 1 } },
          [])
      else none
  | .close c =>
    some ({ s with clients := s.clients.modify c fun client => { client with done := true } }, [])
  | .leave c =>
    some ({ s with clients := s.clients.modify c fun client =>
                     { client with registered := false } }, [])
  | .closeClients =>
    some ({ s with closing := true,
                   clients := s.clients.map fun _ client => { client with registered := false } },
      [])

/-- `newIncidentState` at time `now`, with the snoozes found in the state file. -/
def publication (now : Time) (snoozed : Snoozes) : Guarded Sys Action Empty where
  init := { clock := now, snoozed, began := now, lastStart := now }
  step := step

end Legacy
end Montray
