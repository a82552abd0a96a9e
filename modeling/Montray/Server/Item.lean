import Montray.Lib.Keyed

/-!
# Montray.Server.Item

Items and notifications, as the server's packages exchange them. Times are nanoseconds after the
zero `time.Time`.
-/

namespace Montray

open Lib

abbrev Time := Int

abbrev ItemKey := String

/-- `ItemState` is a string type with three defined values; every other text is `other`. -/
inductive ItemState where
  | ok
  | warning
  | error
  | other (text : String)
  deriving DecidableEq, Repr

namespace ItemState

def text : ItemState → String
  | .ok => "ok"
  | .warning => "warning"
  | .error => "error"
  | .other text => text

def isItemStateValid : ItemState → Bool
  | .other _ => false
  | _ => true

end ItemState

structure Item where
  key : ItemKey
  state : ItemState
  details : String
  deriving DecidableEq, Repr

def Item.equals (item other : Item) : Bool :=
  item.key == other.key && item.state == other.state && item.details == other.details

theorem Item.equals_iff {item other : Item} : item.equals other = true ↔ item = other := by
  cases item
  cases other
  simp [Item.equals, and_assoc]

structure ItemWContext extends Item where
  incidentStartedAt : Time := 0
  stale : Bool := false
  deriving DecidableEq, Repr

structure OngoingIncidentsWDelta where
  total : List ItemWContext
  added : List ItemWContext
  removed : List ItemWContext
  updated : List ItemWContext
  numItemsOK : Nat
  deriving DecidableEq, Repr

structure Notification where
  time : Time
  ongoingIncidents : OngoingIncidentsWDelta
  deriving DecidableEq, Repr

/-- What a collector sends to the core: items, or an error. -/
inductive Update where
  | items (items : KeyMap Item)
  | err (text : String)

end Montray
