import Montray.Lib.Machine
import Montray.Server.Item

/-!
# Montray.Server.Fanout

How notifications travel from the core to the WebSocket clients, before shutdown begins:
`Core.run` with the items board, `Webserver.run` with `subscribe` and `unsubscribe`, and the two
loops of every client. Every action below is one step of one goroutine; the goroutines interleave
freely.

A notification carries its number in order of production. `unsubscribe` takes two steps, since it
releases the lock between removing the subscription and cancelling the connection. A write may
fail at any time, and always fails on a closed connection. `nextSubID` is a natural number where the
source counts with an `int`: there are fewer than 2^63 subscriptions.

* `Client.step`: the receive loop and the send loop of one client.
* `fanout`: the whole system; it emits what is written to the clients.
-/

namespace Montray
namespace Fanout

open Lib

structure Numbered where
  seq : Nat
  notif : Notification
  deriving DecidableEq, Repr

/-- What is written to a client. A snapshot is labelled with the number of the notification whose
total was on the board. -/
inductive Message where
  | snapshot (i : Nat) (total : List ItemWContext)
  | update (u : Numbered)
  | heartbeat
  deriving DecidableEq, Repr

/-! ## One client -/

/-- `wsTxLoop`. From `removing` on the loop has ended; `lost` is the notification whose write
failed, if that ended it. -/
inductive TxPc where
  | start
  | snapshot (i : Nat) (total : List ItemWContext)
  | select
  | writing (u : Numbered)
  | removing (lost : List Numbered)
  | cancelling (lost : List Numbered)
  | done (lost : List Numbered)
  deriving DecidableEq, Repr

/-- `wsRxLoop`. -/
inductive RxPc where
  | reading
  | removing
  | cancelling
  | done
  deriving DecidableEq, Repr

structure Client where
  subscribed : Bool := false
  ctxDone : Bool := false
  closed : Bool := false
  queue : List Numbered := []
  tx : TxPc := .start
  rx : RxPc := .reading
  /-- The number the board had when the snapshot was taken. -/
  taken : Option Nat := none
  /-- How many notifications had been copied to subscribers when the client subscribed. -/
  base : Nat := 0
  deriving DecidableEq, Repr

inductive ClientAction where
  | rxEnd
  | rxRemove
  | rxCancel
  | txGet
  | txSnapshot (success : Bool)
  | txDone
  | txTake
  | txWrite (success : Bool)
  | txHeartbeat (success : Bool)
  | txRemove
  | txCancel
  deriving DecidableEq, Repr

/-- The part of `unsubscribe` after the lock, for the call that removed the subscription. -/
def Client.cancel (c : Client) : Client := { c with ctxDone := true, closed := true }

/-- A write reports success only on an open connection. -/
def Client.writes (c : Client) (success : Bool) : Bool := success && !c.closed

/-- One step of a loop of the client; `seq` and `board` are what the items board holds. -/
def Client.step (seq : Nat) (board : List ItemWContext) (c : Client) :
    ClientAction → Option (Client × List Message)
  | .rxEnd =>
    -- a read error, a message of the client, or a closed connection
    match c.rx with
    | .reading => some ({ c with rx := .removing }, [])
    | _ => none
  | .rxRemove =>
    match c.rx with
    | .removing =>
      some ({ c with subscribed := false, rx := if c.subscribed then .cancelling else .done }, [])
    | _ => none
  | .rxCancel =>
    match c.rx with
    | .cancelling => some ({ c.cancel with rx := .done }, [])
    | _ => none
  | .txGet =>
    match c.tx with
    | .start => some ({ c with tx := .snapshot seq board, taken := some seq }, [])
    | _ => none
  | .txSnapshot success =>
    match c.tx with
    | .snapshot i total =>
      if c.writes success then some ({ c with tx := .select }, [.snapshot i total])
      else some ({ c with tx := .removing [] }, [])
    | _ => none
  | .txDone =>
    match c.tx with
    | .select => if c.ctxDone then some ({ c with tx := .removing [] }, []) else none
    | _ => none
  | .txTake =>
    match c.tx, c.queue with
    | .select, u :: rest => some ({ c with tx := .writing u, queue := rest }, [])
    | _, _ => none
  | .txWrite success =>
    match c.tx with
    | .writing u =>
      if c.writes success then some ({ c with tx := .select }, [.update u])
      else some ({ c with tx := .removing [u] }, [])
    | _ => none
  | .txHeartbeat success =>
    match c.tx with
    | .select =>
      if c.writes success then some (c, [.heartbeat])
      else some ({ c with tx := .removing [] }, [])
    | _ => none
  | .txRemove =>
    match c.tx with
    | .removing lost =>
      some ({ c with subscribed := false,
                     tx := if c.subscribed then .cancelling lost else .done lost }, [])
    | _ => none
  | .txCancel =>
    match c.tx with
    | .cancelling lost => some ({ c.cancel with tx := .done lost }, [])
    | _ => none

/-! ## The system -/

/-- `Core.run`. Between `sending` and `idle` the core waits for the other messengers. -/
inductive CorePc where
  | idle
  | fed (notif : Notification)
  | sending (u : Numbered)
  | waiting
  deriving DecidableEq, Repr

/-- `Webserver.run`: the notification it holds and the subscribers it has still to serve. -/
inductive WebPc where
  | idle
  | received (u : Numbered)
  | loop (u : Numbered) (todo : List Nat)
  | enqueue (u : Numbered) (id : Nat) (todo : List Nat)
  | full (u : Numbered) (id : Nat) (todo : List Nat)
  | cancel (u : Numbered) (id : Nat) (todo : List Nat)
  deriving DecidableEq, Repr

structure Sys where
  core : CorePc := .idle
  board : List ItemWContext := []
  produced : List Numbered := []
  notificationsChan : List Numbered := []
  web : WebPc := .idle
  received : Nat := 0
  nextSubID : Nat := 0
  clients : Nat → Client := fun _ => {}

def notificationsChanSize : Nat := 32

def websocketSubscriptionQueueSize : Nat := 64

inductive Action where
  | feed (notif : Notification)
  | boardSet
  | send
  | delivered
  | receive
  | copy (order : List Nat)
  | skip
  | check
  | enqueue
  | kick
  | kickCancel
  | finish
  | subscribe
  | client (id : Nat) (a : ClientAction)
  deriving DecidableEq, Repr

def Sys.setClient (s : Sys) (id : Nat) (c : Client) : Sys :=
  { s with clients := Function.update s.clients id c }

/-- The ids of the subscription map. -/
def Sys.subs (s : Sys) : List Nat :=
  (List.range s.nextSubID).filter fun id => (s.clients id).subscribed

/-- How many notifications have been copied to subscribers. -/
def Sys.copied (s : Sys) : Nat :=
  match s.web with
  | .received _ => s.received - 1
  | _ => s.received

/-- One step of `Core.run`. -/
def coreStep (s : Sys) : Action → Option Sys
  | .feed notif =>
    match s.core with
    | .idle => some { s with core := .fed notif }
    | _ => none
  | .boardSet =>
    match s.core with
    | .fed notif =>
      let u : Numbered := ⟨s.produced.length + 1, notif⟩
      some { s with core := .sending u, board := notif.ongoingIncidents.total,
                    produced := s.produced ++ [u] }
    | _ => none
  | .send =>
    match s.core with
    | .sending u =>
      if s.notificationsChan.length < notificationsChanSize then
        some { s with core := .waiting, notificationsChan := s.notificationsChan ++ [u] }
      else none
    | _ => none
  | .delivered =>
    match s.core with
    | .waiting => some { s with core := .idle }
    | _ => none
  | _ => none

/-- One step of `Webserver.run`. -/
def webStep (s : Sys) : Action → Option Sys
  | .receive =>
    match s.web, s.notificationsChan with
    | .idle, u :: rest =>
      some { s with web := .received u, notificationsChan := rest, received := s.received + 1 }
    | _, _ => none
  | .copy order =>
    match s.web with
    | .received u => if order.Perm s.subs then some { s with web := .loop u order } else none
    | _ => none
  | .skip =>
    match s.web with
    | .loop u (id :: todo) =>
      if (s.clients id).ctxDone then some { s with web := .loop u todo } else none
    | _ => none
  | .check =>
    match s.web with
    | .loop u (id :: todo) =>
      if (s.clients id).ctxDone then none else some { s with web := .enqueue u id todo }
    | _ => none
  | .enqueue =>
    match s.web with
    | .enqueue u id todo =>
      if (s.clients id).queue.length < websocketSubscriptionQueueSize then
        some { s.setClient id { s.clients id with queue := (s.clients id).queue ++ [u] } with
          web := .loop u todo }
      else some { s with web := .full u id todo }
    | _ => none
  | .kick =>
    match s.web with
    | .full u id todo =>
      some { s.setClient id { s.clients id with subscribed := false } with
        web := if (s.clients id).subscribed then .cancel u id todo else .loop u todo }
    | _ => none
  | .kickCancel =>
    match s.web with
    | .cancel u id todo =>
      some { s.setClient id (s.clients id).cancel with web := .loop u todo }
    | _ => none
  | .finish =>
    match s.web with
    | .loop _ [] => some { s with web := .idle }
    | _ => none
  | _ => none

def step (s : Sys) : Action → Option (Sys × List (Nat × Message))
  | .subscribe =>
    some ({ s.setClient s.nextSubID { subscribed := true, base := s.copied } with
      nextSubID := s.nextSubID + 1 }, [])
  | .client id a =>
    if id < s.nextSubID then
      ((s.clients id).step s.produced.length s.board a).map fun r =>
        (s.setClient id r.1, r.2.map fun m => (id, m))
    else none
  | a => ((coreStep s a).or (webStep s a)).map fun s' => (s', [])

def fanout : Guarded Sys Action (Nat × Message) := ⟨{}, step⟩

end Fanout
end Montray
