import Montray.Lib.Machine
import Montray.Lib.Dotted
import Montray.Lib.Quote
import Montray.Server.Wire
import Montray.Server.Tracker

/-!
# Montray.WsClient.Combiner

The Go client's `Combiner`: the loop of every configured server, the tracker of the client's own
incidents behind `internalTrackerMtx`, and the cached totals behind `totalMtx`.

Handling an event is a list of critical sections (`applyServerEvent`), each taken as one step, so
the loops interleave between any two of them. In particular `applyInternalItem` feeds the tracker in
one section and publishes what it returned in another. What `ConnectionStatusHandler` is told
changes nothing here and is left out.

A notification of the internal tracker carries its number in order of production; `fed` and
`published` are bookkeeping only.

* `validateNotification`, `getPrefixedNotif`: what is accepted from a server, under its prefix.
* `combiner`: the whole system; it emits what `OngoingIncidentsHandler` is called with.
-/

namespace Montray
namespace WsClient

open Lib Tracker

def idInternal : String := "internal"

/-! ## Server ids -/

def isServerIDChar (c : Char) : Bool := c.isAlphanum || c == '_' || c == '-'

def validateServerID (id : String) : Except String PUnit :=
  if id = "" then .error "is required"
  else if ¬ id.toList.all isServerIDChar then
    .error (goQuote id ++ " must contain only letters, digits, underscores, or hyphens")
  else if id = idInternal then .error (goQuote id ++ " is reserved")
  else .ok ()

/-- What `Config.Validate` checks of the ids, server by server; `seen` holds those before. -/
def validateIDs (seen : List String) : List String → Except String PUnit
  | [] => .ok ()
  | id :: rest =>
    match validateServerID id with
    | .error e => .error (s!"wsClient.servers[{seen.length}].id " ++ e)
    | .ok () =>
      if id ∈ seen then
        .error (s!"wsClient.servers[{seen.length}].id " ++ goQuote id ++
          s!" duplicates wsClient.servers[{seen.idxOf id}].id")
      else validateIDs (seen ++ [id]) rest

/-- The ids of a configuration that `NewCombiner` accepts. -/
structure ServerIDs where
  ids : List String
  valid : validateIDs [] ids = .ok ()

theorem validateServerID_ok {id : String} (h : validateServerID id = .ok ()) :
    '.' ∉ id.toList ∧ id ≠ idInternal := by
  unfold validateServerID at h
  split at h
  · cases h
  · split at h
    · cases h
    · rename_i hchars
      split at h
      · cases h
      · rename_i hid
        refine ⟨fun hdot => ?_, hid⟩
        have hdot := List.all_eq_true.mp (not_not.mp hchars) '.' hdot
        revert hdot
        decide

theorem validateIDs_ok {seen ids : List String} (h : validateIDs seen ids = .ok ()) :
    ∀ id ∈ ids, validateServerID id = .ok () := by
  induction ids generalizing seen with
  | nil => simp
  | cons a rest ih =>
    simp only [validateIDs] at h
    split at h
    · cases h
    · rename_i hok
      split at h
      · cases h
      · intro id hid
        rcases List.mem_cons.mp hid with rfl | hid
        · exact hok
        · exact ih h id hid

/-! ## Notifications of a server -/

def validateItem (field : String) : Option ItemWContext → Except String ItemWContext
  | none => .error (field ++ " is null")
  | some item =>
    if item.key = "" then .error (field ++ ".key is empty")
    else if ¬ item.state.isItemStateValid then
      .error (field ++ ".state " ++ goQuote item.state.text ++ " is invalid")
    else .ok item

def validateItems (name : String) (i : Nat) : List (Option ItemWContext) →
    Except String (List ItemWContext)
  | [] => .ok []
  | item :: rest => do
    let item ← validateItem s!"ongoingIncidents.{name}[{i}]" item
    let rest ← validateItems name (i + 1) rest
    pure (item :: rest)

/-- The source returns the error only; here also the notification, whose pointers are now known not
to be nil. -/
def validateNotification : Option Wire.Notification → Except String Notification
  | none => .error "notification is null"
  | some notif =>
    if notif.ongoingIncidents.numItemsOK < 0 then
      .error "ongoingIncidents.numItemsOK is negative"
    else do
      let total ← validateItems "total" 0 notif.ongoingIncidents.total.range
      let added ← validateItems "added" 0 notif.ongoingIncidents.added.range
      let removed ← validateItems "removed" 0 notif.ongoingIncidents.removed.range
      let updated ← validateItems "updated" 0 notif.ongoingIncidents.updated.range
      pure { time := notif.time,
             ongoingIncidents :=
               { total, added, removed, updated,
                 numItemsOK := notif.ongoingIncidents.numItemsOK.toNat } }

def getPrefixedItem (item : ItemWContext) (id : String) : ItemWContext :=
  { item with key := dotted id item.key }

def getPrefixedItems (items : List ItemWContext) (id : String) : List ItemWContext :=
  items.map (getPrefixedItem · id)

def getPrefixedNotif (notif : Option Wire.Notification) (id : String) :
    Except String Notification := do
  let notif ← validateNotification notif
  pure { time := notif.time,
         ongoingIncidents :=
           { total := getPrefixedItems notif.ongoingIncidents.total id,
             added := getPrefixedItems notif.ongoingIncidents.added id,
             removed := getPrefixedItems notif.ongoingIncidents.removed id,
             updated := getPrefixedItems notif.ongoingIncidents.updated id,
             numItemsOK := notif.ongoingIncidents.numItemsOK } }

/-! ## Events -/

inductive EventKind where
  | connected
  | disconnected
  | heartbeat
  deriving DecidableEq, Repr

structure ConnectionEvent where
  eventKind : EventKind
  time : Time
  deriving DecidableEq, Repr

inductive TunnelEventKind where
  | ready
  | failed
  deriving DecidableEq, Repr

structure TunnelEvent where
  kind : TunnelEventKind
  time : Time
  error : String := ""
  deriving DecidableEq, Repr

/-- `ServerEvent`, with the payload its kind makes meaningful. -/
inductive ServerEvent where
  | ongoingIncidents (notif : Option Wire.Notification)
  | connectionError (error : String)
  | connection (event : ConnectionEvent)
  | tunnel (event : TunnelEvent)
  deriving DecidableEq, Repr

def connectionKey (id : String) : ItemKey := "internal.connection." ++ id

def tunnelKey (id : String) : ItemKey := "internal.tunnel." ++ id

/-- A critical section that the loop of a server has still to run. -/
inductive Section where
  | apply (notif : Notification)
  | markStale (eventTime : Time)
  /-- The first section of `applyInternalItem`. -/
  | feed (key : ItemKey) (err : String)
  /-- The second one, for the `n`-th notification of the tracker. -/
  | publish (n : Nat) (notif : Notification)
  deriving DecidableEq, Repr

def applyServerEvent (id : String) : ServerEvent → List Section
  | .connection event =>
    if event.eventKind = .disconnected then [.markStale event.time] else []
  | .ongoingIncidents notif =>
    match getPrefixedNotif notif id with
    | .error _ => []
    | .ok notif => [.apply notif]
  | .connectionError error => [.feed (connectionKey id) error]
  | .tunnel event =>
    match event.kind with
    | .ready => [.feed (tunnelKey id) ""]
    | .failed => [.markStale event.time, .feed (tunnelKey id) event.error]

/-! ## The cached totals -/

abbrev Totals := KeyMap (List ItemWContext)

def combinedTotal (totalByID : Totals) : List ItemWContext := totalByID.toList.flatMap Prod.snd

def applyNotification (totalByID : Totals) (id : String) (notif : Notification) :
    Totals × Notification :=
  let totalByID := totalByID.insert id notif.ongoingIncidents.total
  (totalByID,
    { notif with
      ongoingIncidents := { notif.ongoingIncidents with total := combinedTotal totalByID } })

def ItemWContext.asStale (item : ItemWContext) : ItemWContext := { item with stale := true }

def markServerIncidentsStale (totalByID : Totals) (id : String) (eventTime : Time) :
    Totals × List Notification :=
  let items := totalByID[id]?.getD []
  let changedItems := (items.filter (!·.stale)).map ItemWContext.asStale
  if changedItems = [] then (totalByID, [])
  else
    let totalByID := totalByID.insert id (items.map ItemWContext.asStale)
    (totalByID,
      [{ time := eventTime,
         ongoingIncidents :=
           { total := combinedTotal totalByID, added := [], removed := [],
             updated := changedItems, numItemsOK := 0 } }])

/-- The list without its first stale item of that key, if it has one. -/
def dropStale (key : ItemKey) : List ItemWContext → Option (List ItemWContext)
  | [] => none
  | item :: rest =>
    if item.key ≠ key ∨ ¬ item.stale then (dropStale key rest).map (item :: ·) else some rest

/-- The search through the servers in the order Go happens to take. -/
def findStale (key : ItemKey) : List (String × List ItemWContext) →
    Option (String × List ItemWContext)
  | [] => none
  | (id, items) :: rest =>
    match dropStale key items with
    | some updated => some (id, updated)
    | none => findStale key rest

def forgetStaleIncident (order : RangeOrder (List ItemWContext)) (now : Time)
    (totalByID : Totals) (key : ItemKey) : Totals × List Notification :=
  match findStale key (order.visit totalByID) with
  | none => (totalByID, [])
  | some (id, updated) =>
    let totalByID := totalByID.insert id updated
    (totalByID,
      [{ time := now,
         ongoingIncidents :=
           { total := combinedTotal totalByID, added := [], removed := [], updated := [],
             numItemsOK := 0 } }])

/-! ## The system -/

/-- The readings of the clock and the order of a map iteration during one call of `FeedItems`. -/
structure Reading where
  order : RangeOrder Item
  sliceOrder : RangeOrder ItemWContext
  clock : ItemKey → Time
  time : Time

def internalItem (key : ItemKey) (err : String) : Item :=
  { key, state := if err ≠ "" then .error else .ok, details := err }

/-- The call of `FeedItems` in `applyInternalItem`. -/
def internalCall (key : ItemKey) (err : String) (r : Reading) : Call where
  newItems := (∅ : KeyMap Item).insert key (internalItem key err)
  key_eq := by
    intro k item h
    rw [KeyMap.lookup_insert] at h
    split at h
    · rename_i hk
      cases h
      exact hk
    · simp at h
  order := r.order
  sliceOrder := r.sliceOrder
  clock := r.clock
  time := r.time

structure Sys where
  internalTracker : ItemStatesTracker := newItemStatesTracker
  totalByID : Totals := ∅
  /-- For every configured server, what its loop has still to do for the event it handles. -/
  loops : KeyMap (List Section)
  fed : Nat := 0
  published : Nat := 0

inductive Action where
  /-- The loop of a server takes the next event from its channel. -/
  | event (id : String) (event : ServerEvent)
  /-- The loop of a server runs its next critical section. -/
  | run (id : String) (r : Reading)
  | forget (key : ItemKey) (order : RangeOrder (List ItemWContext)) (now : Time)

/-- One critical section of the loop of `id`, which has `rest` to do after it. -/
def runSection (s : Sys) (id : String) (rest : List Section) (r : Reading) :
    Section → Sys × List Notification
  | .apply notif =>
    let (totalByID, out) := applyNotification s.totalByID id notif
    ({ s with totalByID, loops := s.loops.insert id rest }, [out])
  | .markStale eventTime =>
    let (totalByID, out) := markServerIncidentsStale s.totalByID id eventTime
    ({ s with totalByID, loops := s.loops.insert id rest }, out)
  | .feed key err =>
    match feedItems s.internalTracker (internalCall key err r) with
    | (internalTracker, none) =>
      ({ s with internalTracker, loops := s.loops.insert id rest }, [])
    | (internalTracker, some notif) =>
      ({ s with internalTracker, fed := s.fed + 1,
                loops := s.loops.insert id (.publish (s.fed + 1) notif :: rest) }, [])
  | .publish n notif =>
    let (totalByID, out) := applyNotification s.totalByID idInternal notif
    ({ s with totalByID, published := n, loops := s.loops.insert id rest }, [out])

def step (s : Sys) : Action → Option (Sys × List Notification)
  | .event id event =>
    match s.loops[id]? with
    | some [] => some ({ s with loops := s.loops.insert id (applyServerEvent id event) }, [])
    | _ => none
  | .run id r =>
    match s.loops[id]? with
    | some (sec :: rest) => some (runSection s id rest r sec)
    | _ => none
  | .forget key order now =>
    let (totalByID, out) := forgetStaleIncident order now s.totalByID key
    some ({ s with totalByID }, out)

/-- `NewCombiner` for the configured servers. -/
def combiner (config : ServerIDs) : Guarded Sys Action Notification where
  init := { loops := KeyMap.ofEntries (config.ids.map fun id => (id, [])) }
  step := step

end WsClient
end Montray
