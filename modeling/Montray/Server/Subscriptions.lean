import Montray.Lib.Machine

/-!
# Montray.Server.Subscriptions

The WebSocket subscriptions of the webserver: `wsConnect`, `subscribe` and `unsubscribe`, the ends of
the receive and the send loops, the fan-out with its eviction of full subscribers, and shutdown.

Connections are numbered in the order in which they were upgraded, and a subscription's channel has
the number of the subscription. `unsubscribe` is called by three kinds of goroutines; a call is a
section under `subsMtx`, then `ctxCancel`, then `Close`, and the goroutines interleave between them.
A loop may end at any time. What is written to a connection is left out, and of a channel only the
number of notifications in it is kept. `nextSubID` is a natural number where the source counts with
an `int`: there are fewer than 2^63 subscriptions.

* `Registry`: what `subsMtx` guards.
* `unsubscribe`: the sections of one call.
* `webserver`: the whole system; it emits what happens to connections and subscriptions.
-/

namespace Montray
namespace Subscriptions

open Lib

abbrev IdMap (ν : Type) := Std.ExtTreeMap Nat ν compare

def websocketSubscriptionQueueSize : Nat := 64

inductive Side where
  | rx
  | tx
  deriving DecidableEq, Repr

/-- The goroutines that call `unsubscribe`. -/
inductive Thread where
  | loop (side : Side) (conn : Nat)
  | run
  deriving DecidableEq, Repr

inductive Event where
  | registered (subID conn : Nat)
  | removed (subID conn : Nat) (thread : Thread)
  | cancelled (subID conn : Nat) (thread : Thread)
  | closed (subID conn : Nat) (thread : Thread)
  | refused (conn : Nat)
  | refusedCancelled (conn : Nat)
  | refusedClosed (conn : Nat)
  /-- A nil `*wsConn` is dereferenced. -/
  | nilConn (thread : Thread)
  deriving DecidableEq, Repr

/-! ## Under the lock -/

structure Registry where
  subs : IdMap Nat := ∅
  wsConns : IdMap Nat := ∅
  nextSubID : Nat := 0
  closing : Bool := false

def Registry.subscribe (r : Registry) (conn : Nat) : Option (Registry × Nat) :=
  if r.closing then none
  else
    let subID := r.nextSubID
    some ({ r with nextSubID := subID + 1,
                   subs := r.subs.insert subID subID,
                   wsConns := r.wsConns.insert subID conn }, subID)

/-- A call of `unsubscribe`, by what it does next. -/
inductive Call where
  | lock (subID : Nat)
  | cancel (subID : Nat) (conn : Option Nat)
  | close (subID conn : Nat)
  deriving DecidableEq, Repr

/-- The next part of a call: the registry after it, the connection whose context it cancels, the rest
of the call if it has not returned, and what happened. -/
def unsubscribe (r : Registry) (thread : Thread) :
    Call → Registry × Option Nat × Option Call × List Event
  | .lock subID =>
    let conn := r.wsConns[subID]?
    if subID ∈ r.subs then
      ({ r with subs := r.subs.erase subID, wsConns := r.wsConns.erase subID }, none,
        some (.cancel subID conn), (conn.map (.removed subID · thread)).toList)
    else (r, none, none, [])
  | .cancel _ none => (r, none, none, [.nilConn thread])
  | .cancel subID (some conn) =>
    (r, some conn, some (.close subID conn), [.cancelled subID conn thread])
  | .close subID conn => (r, none, none, [.closed subID conn thread])

/-! ## The goroutines -/

/-- `wsConnect`, after the upgrade. -/
inductive HandlerPc where
  | notUpgraded
  | subscribe
  | start (subID : Nat)
  | refused
  | refusedClose
  | returned
  deriving DecidableEq, Repr

/-- `wsRxLoop` and `wsTxLoop` -/
inductive LoopPc where
  | notStarted
  | running
  | unsubscribing (call : Call)
  | returned
  deriving DecidableEq, Repr

/-- A loop in what is left of its call of `unsubscribe`. -/
def LoopPc.rest : Option Call → LoopPc
  | none => .returned
  | some call => .unsubscribing call

structure WebsocketSubscription where
  id : Nat
  ch : Nat
  conn : Option Nat
  deriving DecidableEq, Repr

/-- `Webserver.run`, with `closeWebsocketConnections` at its end. -/
inductive RunPc where
  | receive
  | fanout (subscriptions : List WebsocketSubscription)
  | evict (call : Call) (subscriptions : List WebsocketSubscription)
  | beginClose
  | closing (ids : List Nat)
  | unsubscribing (call : Call) (ids : List Nat)
  /-- `closeWebsocketConnections` has returned. -/
  | closed
  | panicked
  deriving DecidableEq, Repr

def RunPc.evictRest (subscriptions : List WebsocketSubscription) : Option Call → RunPc
  | none => .fanout subscriptions
  | some call => .evict call subscriptions

def RunPc.closeRest (ids : List Nat) : Option Call → RunPc
  | none => .closing ids
  | some call => .unsubscribing call ids

structure Sys where
  registry : Registry := {}
  upgrades : Nat := 0
  handlers : Nat → HandlerPc := fun _ => .notUpgraded
  subIDs : Nat → Nat := fun _ => 0
  ctxDone : Nat → Bool := fun _ => false
  queues : Nat → Nat := fun _ => 0
  loops : Side → Nat → LoopPc := fun _ _ => .notStarted
  run : RunPc := .receive

def Sys.setHandler (s : Sys) (conn : Nat) (pc : HandlerPc) : Sys :=
  { s with handlers := Function.update s.handlers conn pc }

def Sys.setLoop (s : Sys) (side : Side) (conn : Nat) (pc : LoopPc) : Sys :=
  { s with loops := Function.update s.loops side (Function.update (s.loops side) conn pc) }

def Sys.ctxCancel (s : Sys) (conn : Nat) : Sys :=
  { s with ctxDone := Function.update s.ctxDone conn true }

/-- A part of a call of `unsubscribe`; the caller goes on as `goto` says. -/
def Sys.unsubscribe (s : Sys) (thread : Thread) (call : Call) (goto : Option Call → Sys → Sys) :
    Sys × List Event :=
  let (registry, cancelled, call, out) := Subscriptions.unsubscribe s.registry thread call
  let s := { s with registry }
  let s := match cancelled with
    | none => s
    | some conn => s.ctxCancel conn
  (goto call s, out)

inductive Action where
  | upgrade
  | handler (conn : Nat)
  | loop (side : Side) (conn : Nat)
  /-- The send loop takes a notification from its channel. -/
  | take (conn : Nat)
  /-- A notification arrives; the map is visited in the order `ids`. -/
  | notify (ids : List Nat)
  /-- `NotificationsChan` is closed. -/
  | stop
  | close (ids : List Nat)
  | run
  deriving DecidableEq, Repr

def Sys.handler (s : Sys) (conn : Nat) : Option (Sys × List Event) :=
  match s.handlers conn with
  | .subscribe =>
    match s.registry.subscribe conn with
    | none => some (s.setHandler conn .refused, [.refused conn])
    | some (registry, subID) =>
      some ({ s with registry }.setHandler conn (.start subID), [.registered subID conn])
  | .start subID =>
    let s := { s with subIDs := Function.update s.subIDs conn subID }
    let s := (s.setLoop .rx conn .running).setLoop .tx conn .running
    some (s.setHandler conn .returned, [])
  | .refused =>
    some ((s.ctxCancel conn).setHandler conn .refusedClose, [.refusedCancelled conn])
  | .refusedClose => some (s.setHandler conn .returned, [.refusedClosed conn])
  | _ => none

def Sys.loop (s : Sys) (side : Side) (conn : Nat) : Option (Sys × List Event) :=
  match s.loops side conn with
  | .running => some (s.setLoop side conn (.unsubscribing (.lock (s.subIDs conn))), [])
  | .unsubscribing call =>
    some (s.unsubscribe (.loop side conn) call fun rest s => s.setLoop side conn (.rest rest))
  | _ => none

def Sys.runStep (s : Sys) : Option (Sys × List Event) :=
  match s.run with
  | .fanout [] => some ({ s with run := .receive }, [])
  | .fanout (sub :: rest) =>
    match sub.conn with
    | none => some ({ s with run := .panicked }, [.nilConn .run])
    | some conn =>
      if s.ctxDone conn then some ({ s with run := .fanout rest }, [])
      else if s.queues sub.ch < websocketSubscriptionQueueSize then
        some ({ s with queues := Function.update s.queues sub.ch (s.queues sub.ch + 1),
                       run := .fanout rest }, [])
      else some ({ s with run := .evict (.lock sub.id) rest }, [])
  | .evict call rest =>
    some (s.unsubscribe .run call fun call s => { s with run := .evictRest rest call })
  | .closing [] => some ({ s with run := .closed }, [])
  | .closing (id :: ids) => some ({ s with run := .unsubscribing (.lock id) ids }, [])
  | .unsubscribing call ids =>
    some (s.unsubscribe .run call fun call s => { s with run := .closeRest ids call })
  | _ => none

def step (s : Sys) : Action → Option (Sys × List Event)
  | .upgrade => some ({ s.setHandler s.upgrades .subscribe with upgrades := s.upgrades + 1 }, [])
  | .handler conn => s.handler conn
  | .loop side conn => s.loop side conn
  | .take conn =>
    let ch := s.subIDs conn
    if s.loops .tx conn = .running ∧ 0 < s.queues ch then
      some ({ s with queues := Function.update s.queues ch (s.queues ch - 1) }, [])
    else none
  | .notify ids =>
    if s.run = .receive ∧ ids.Perm s.registry.subs.keys then
      some ({ s with run := .fanout (ids.map fun id =>
        ⟨id, s.registry.subs[id]?.getD 0, s.registry.wsConns[id]?⟩) }, [])
    else none
  | .stop => if s.run = .receive then some ({ s with run := .beginClose }, []) else none
  | .close ids =>
    if s.run = .beginClose ∧ ids.Perm s.registry.wsConns.keys then
      some ({ s with registry := { s.registry with closing := true }, run := .closing ids }, [])
    else none
  | .run => s.runStep

def webserver : Guarded Sys Action Event where
  init := {}
  step := step

end Subscriptions
end Montray
