import Montray.Lib.Json
import Montray.Server.Item

/-!
# Montray.Server.Wire

`Notification` as Go holds it: a slice may be nil, so may a pointer in it, and the count is an
`int`. `WsTxMsg` is the message it is sent in, and `toJson` the value that `encoding/json` writes.

How a time is written is a parameter; a time that RFC 3339 has no text for makes `WriteJSON` fail.

* `Notification.Sendable`: what the server sends.
-/

namespace Montray
namespace Wire

open Lib

/-- A slice of pointers to items. -/
abbrev Slice := Option (List (Option ItemWContext))

structure OngoingIncidentsWDelta where
  total : Slice := none
  added : Slice := none
  removed : Slice := none
  updated : Slice := none
  numItemsOK : Int := 0
  deriving DecidableEq, Repr

structure Notification where
  time : Time
  ongoingIncidents : OngoingIncidentsWDelta
  deriving DecidableEq, Repr

/-- `range` over a slice; a nil slice has no elements. -/
def Slice.range (slice : Slice) : List (Option ItemWContext) := slice.getD []

def Slice.of (items : List ItemWContext) : Slice := some (items.map some)

@[simp] theorem Slice.range_of (items : List ItemWContext) :
    (Slice.of items).range = items.map some := rfl

/-! ## Messages -/

inductive WsEvent where
  | ongoingIncidentsSnapshot
  | ongoingIncidentsUpdate
  deriving DecidableEq, Repr

def WsEvent.text : WsEvent → String
  | .ongoingIncidentsSnapshot => "OngoingIncidentsSnapshot"
  | .ongoingIncidentsUpdate => "OngoingIncidentsUpdate"

/-- `Data` is an interface: nil, or a pointer, which may be nil. -/
structure WsTxMsg where
  event : WsEvent
  data : Option (Option Notification)
  deriving DecidableEq, Repr

/-- The members of an item: the embedded `Item` is inlined, and `stale` is left out when it is
false. -/
def itemMembers (item : ItemWContext) (startedAt : String) : Json.Members :=
  [("key", .str item.key), ("state", .str item.state.text), ("details", .str item.details),
    ("incidentStartedAt", .str startedAt)] ++ if item.stale then [("stale", .bool true)] else []

section Encode

variable (marshalTime : Time → Option String)

def itemToJson (item : ItemWContext) : Option Json :=
  (marshalTime item.incidentStartedAt).map fun startedAt => .obj (itemMembers item startedAt)

def pointerToJson : Option ItemWContext → Option Json
  | none => some .null
  | some item => itemToJson marshalTime item

def Slice.toJson : Slice → Option Json
  | none => some .null
  | some items => (items.mapM (pointerToJson marshalTime)).map .arr

def OngoingIncidentsWDelta.toJson (incidents : OngoingIncidentsWDelta) : Option Json := do
  let total ← Slice.toJson marshalTime incidents.total
  let added ← Slice.toJson marshalTime incidents.added
  let removed ← Slice.toJson marshalTime incidents.removed
  let updated ← Slice.toJson marshalTime incidents.updated
  pure (.obj [("total", total), ("added", added), ("removed", removed), ("updated", updated),
    ("numItemsOK", .int incidents.numItemsOK)])

def Notification.toJson (n : Notification) : Option Json := do
  let time ← marshalTime n.time
  let incidents ← n.ongoingIncidents.toJson marshalTime
  pure (.obj [("time", .str time), ("ongoingIncidents", incidents)])

def WsTxMsg.toJson (msg : WsTxMsg) : Option Json :=
  match msg.data with
  | none => some (.obj [("event", .str msg.event.text)])
  | some none => some (.obj [("event", .str msg.event.text), ("data", .null)])
  | some (some n) =>
    (n.toJson marshalTime).map fun data =>
      .obj [("event", .str msg.event.text), ("data", data)]

/-! ## What is sent -/

structure ItemSendable (item : ItemWContext) : Prop where
  key : item.key ≠ ""
  state : item.state.isItemStateValid = true
  startedAt : (marshalTime item.incidentStartedAt).isSome = true

/-- No pointer of the slice is nil, and its items can be sent. -/
def Slice.Sendable (slice : Slice) : Prop :=
  ∀ p ∈ slice.range, ∃ item, p = some item ∧ ItemSendable marshalTime item

structure Notification.Sendable (n : Notification) : Prop where
  time : (marshalTime n.time).isSome = true
  total : Slice.Sendable marshalTime n.ongoingIncidents.total
  added : Slice.Sendable marshalTime n.ongoingIncidents.added
  removed : Slice.Sendable marshalTime n.ongoingIncidents.removed
  updated : Slice.Sendable marshalTime n.ongoingIncidents.updated
  /-- The upper bound is that of Go's `int`. -/
  numItemsOK : 0 ≤ n.ongoingIncidents.numItemsOK ∧ n.ongoingIncidents.numItemsOK.toNat < 2 ^ 63

end Encode

end Wire
end Montray
