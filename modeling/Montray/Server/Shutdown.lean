import Montray.Server.Fanout

/-!
# Montray.Server.Shutdown

The goroutines of the server and how `Core.close` takes them down: the collectors of both kinds with
the systemd provider, `Core.run` with the senders of `sendMessengerNotifications`, the messengers of
both kinds, and `Core.close` itself. Every action is one step of one goroutine, and they interleave
freely.

What the collectors observe and what the tracker makes of it is left to the actions. A send on a
closed channel and a second `close` of a channel panic.

* `ExecCollector.step`, `SystemdCollector.step`: the loops of one collector.
* `Messenger.step`: the loops of one messenger.
* `Server.closeStep`: the statements of `Core.close`.
* `server`: the whole system. It emits the notifications that are produced, accepted by the channel
  of a messenger, and handled by it.
-/

namespace Montray
namespace Shutdown

open Lib

def updatesChanSize : Nat := 16

def providerChanSize : Nat := 16

/-! ## Collectors -/

/-- `run` of the exec collector. -/
inductive ExecPc where
  /-- In `runCommand`. -/
  | command
  | sending (u : Update)
  | waiting
  | done

structure ExecCollector where
  pc : ExecPc := .command
  teardown : Bool := false

inductive ExecAction where
  | ran (u : Update)
  | sent
  | ticked
  | tornDown

/-- A step, with the update it sends. -/
def ExecCollector.step (c : ExecCollector) : ExecAction → Option (ExecCollector × Option Update)
  | .ran u =>
    match c.pc with
    | .command => some ({ c with pc := .sending u }, none)
    | _ => none
  | .sent =>
    match c.pc with
    | .sending u => some ({ c with pc := .waiting }, some u)
    | _ => none
  | .ticked =>
    match c.pc with
    | .waiting => some ({ c with pc := .command }, none)
    | _ => none
  | .tornDown =>
    match c.pc with
    | .sending _ => if c.teardown then some ({ c with pc := .done }, none) else none
    | .waiting => if c.teardown then some ({ c with pc := .done }, none) else none
    | _ => none

/-- `runSubscription` of the provider. -/
inductive ProviderPc where
  | select
  | sending (text : String)
  /-- The deferred calls: the channel is closed, then `done`. -/
  | closing
  | closed
  | done
  deriving DecidableEq, Repr

/-- `run` of the systemd collector. An update of the provider is its text. -/
inductive LoopPc where
  | select
  | handling (text : String)
  | sending (u : Update)
  | done

structure SystemdCollector where
  provider : ProviderPc := .select
  stop : Bool := false
  providerUpdCh : List String := []
  providerUpdClosed : Bool := false
  loop : LoopPc := .select
  shuttingDown : Bool := false
  teardown : Bool := false

inductive SystemdAction where
  | polled (text : String)
  | providerSent
  | providerStopped
  | providerClosed
  | providerDone
  | received
  /-- A timer of a pending resolution; none if it is stale. -/
  | ready (u : Option Update)
  | handled (u : Option Update)
  | sent
  | refused
  | ended

/-- The loop has an update to send, or goes on. -/
def SystemdCollector.publish (c : SystemdCollector) : Option Update → SystemdCollector
  | some u => { c with loop := .sending u }
  | none => { c with loop := .select }

/-- A step; the outer `none` is a disabled action, `panic` a send on a closed channel. -/
def SystemdCollector.step (c : SystemdCollector) :
    SystemdAction → Option (SystemdCollector × Option Update × Bool)
  | .polled text =>
    match c.provider with
    | .select => some ({ c with provider := .sending text }, none, false)
    | _ => none
  | .providerSent =>
    match c.provider with
    | .sending text =>
      if c.providerUpdClosed then some (c, none, true)
      else if c.providerUpdCh.length < providerChanSize then
        some ({ c with provider := .select, providerUpdCh := c.providerUpdCh ++ [text] }, none,
          false)
      else none
    | _ => none
  | .providerStopped =>
    match c.provider with
    | .select => if c.stop then some ({ c with provider := .closing }, none, false) else none
    | .sending _ => if c.stop then some ({ c with provider := .closing }, none, false) else none
    | _ => none
  | .providerClosed =>
    match c.provider with
    | .closing =>
      some ({ c with provider := .closed, providerUpdClosed := true }, none, c.providerUpdClosed)
    | _ => none
  | .providerDone =>
    match c.provider with
    | .closed => some ({ c with provider := .done }, none, false)
    | _ => none
  | .received =>
    match c.loop, c.providerUpdCh with
    | .select, text :: rest =>
      some ({ c with loop := .handling text, providerUpdCh := rest }, none, false)
    | _, _ => none
  | .ready u =>
    -- Looked at even while the loop is draining.
    match c.loop with
    | .select => some (c.publish u, none, false)
    | _ => none
  | .handled u =>
    match c.loop with
    | .handling _ =>
      if c.shuttingDown || c.teardown then
        some ({ c with loop := .select, shuttingDown := true }, none, false)
      else some (c.publish u, none, false)
    | _ => none
  | .sent =>
    match c.loop with
    | .sending u => some ({ c with loop := .select }, some u, false)
    | _ => none
  | .refused =>
    match c.loop with
    | .sending _ =>
      if c.teardown then some ({ c with loop := .select, shuttingDown := true }, none, false)
      else none
    | _ => none
  | .ended =>
    match c.loop, c.providerUpdCh with
    | .select, [] =>
      if c.providerUpdClosed then some ({ c with loop := .done }, none, false) else none
    | _, _ => none

inductive Collector where
  | exec (c : ExecCollector)
  | systemd (c : SystemdCollector)

def ExecPc.isDone : ExecPc → Bool
  | .done => true
  | _ => false

def LoopPc.isDone : LoopPc → Bool
  | .done => true
  | _ => false

/-- `torndown` of the collector is closed. -/
def Collector.isDone : Collector → Bool
  | .exec c => c.pc.isDone
  | .systemd c => c.loop.isDone

def Collector.teardown : Collector → Bool
  | .exec c => c.teardown
  | .systemd c => c.teardown

def Collector.stop : Collector → Bool
  | .exec _ => false
  | .systemd c => c.stop

def Collector.setTeardown : Collector → Collector
  | .exec c => .exec { c with teardown := true }
  | .systemd c => .systemd { c with teardown := true }

def Collector.setStop : Collector → Collector
  | .exec c => .exec c
  | .systemd c => .systemd { c with stop := true }

inductive CollectorAction where
  | exec (a : ExecAction)
  | systemd (a : SystemdAction)

def Collector.step : Collector → CollectorAction → Option (Collector × Option Update × Bool)
  | .exec c, .exec a => (c.step a).map fun r => (.exec r.1, r.2, false)
  | .systemd c, .systemd a => (c.step a).map fun r => (.systemd r.1, r.2)
  | _, _ => none

/-! ## Messengers -/

/-- The loop over the channel, of either kind of messenger. -/
inductive RangePc where
  | recv
  | handling (n : Notification)
  /-- The channel was closed: the file is closed, or the connections. -/
  | leaving
  | done
  deriving DecidableEq

/-- `Serve` of the webserver, which returns by itself or once the server was closed. -/
inductive ServePc where
  | serving
  | failed
  | ended
  deriving DecidableEq

inductive MessengerKind where
  | fileLogger
  | webserver (serve : ServePc)
  deriving DecidableEq

structure Messenger where
  kind : MessengerKind
  notificationsChan : List Notification := []
  closed : Bool := false
  pc : RangePc := .recv

/-- `TornDown` is closed. -/
def Messenger.tornDown (x : Messenger) : Bool :=
  match x.kind with
  | .fileLogger => x.pc = .done
  | .webserver serve => serve ≠ .serving

inductive MessengerAction where
  | take
  | handle
  | rangeEnd
  | leave
  /-- `Serve` returns by itself. -/
  | serveFail
  /-- `Serve` returns after `server.Close`. -/
  | serveEnd
  deriving DecidableEq

/-- A step, with the notification that has been handled. -/
def Messenger.step (x : Messenger) : MessengerAction → Option (Messenger × List Notification)
  | .take =>
    match x.pc, x.notificationsChan with
    | .recv, n :: rest => some ({ x with pc := .handling n, notificationsChan := rest }, [])
    | _, _ => none
  | .handle =>
    match x.pc with
    | .handling n => some ({ x with pc := .recv }, [n])
    | _ => none
  | .rangeEnd =>
    match x.pc, x.notificationsChan with
    | .recv, [] => if x.closed then some ({ x with pc := .leaving }, []) else none
    | _, _ => none
  | .leave =>
    match x.pc with
    | .leaving => some ({ x with pc := .done }, [])
    | _ => none
  | .serveFail =>
    match x.kind with
    | .webserver .serving => some ({ x with kind := .webserver .failed }, [])
    | _ => none
  | .serveEnd =>
    match x.kind, x.pc with
    | .webserver .serving, .done => some ({ x with kind := .webserver .ended }, [])
    | _, _ => none

/-! ## The core -/

/-- `sendMessengerNotification`, one goroutine for each messenger. -/
inductive SendPc where
  | start
  /-- The first `select` has not seen the shutdown. -/
  | trying
  | blocked
  | done
  deriving DecidableEq, Repr

inductive CorePc where
  | recv
  | feed (u : Update)
  | send (n : Notification) (senders : Nat → SendPc)
  | done

/-- `Core.close`: what it does next, or waits for. -/
inductive Closer where
  | idle
  | teardown (i : Nat)
  | stop (i : Nat)
  | awaitProvider (i : Nat)
  | await (i : Nat)
  | shutdown
  | closeUpdates
  | awaitRun
  | closeMessenger (j : Nat)
  | awaitMessenger (j : Nat)
  | returned
  deriving DecidableEq, Repr

structure Server where
  collectors : Nat → Collector
  updCh : List Update := []
  updClosed : Bool := false
  core : CorePc := .recv
  shutdown : Bool := false
  messengers : Nat → Messenger
  closer : Closer := .idle
  panicked : Bool := false

inductive Action where
  | collector (i : Nat) (a : CollectorAction)
  | coreTake
  | coreFed (n : Option Notification)
  | coreJoined
  | coreEnd
  | sendCheck (j : Nat)
  | send (j : Nat)
  | sendBlock (j : Nat)
  | sendGiveUp (j : Nat)
  | messenger (j : Nat) (a : MessengerAction)
  | close

inductive Out where
  | produced (n : Notification)
  | accepted (j : Nat) (n : Notification)
  | handled (j : Nat) (n : Notification)
  deriving DecidableEq

section Step

-- The numbers of collectors and messengers.
variable (colls msgrs : Nat)

def Server.setCollector (s : Server) (i : Nat) (c : Collector) : Server :=
  { s with collectors := Function.update s.collectors i c }

def Server.setMessenger (s : Server) (j : Nat) (x : Messenger) : Server :=
  { s with messengers := Function.update s.messengers j x }

@[simp] theorem Server.setCollector_self (s : Server) (i : Nat) (c : Collector) :
    (s.setCollector i c).collectors i = c :=
  Function.update_self ..

@[simp] theorem Server.setCollector_ne (s : Server) {i k : Nat} (c : Collector) (h : k ≠ i) :
    (s.setCollector i c).collectors k = s.collectors k :=
  Function.update_of_ne h ..

@[simp] theorem Server.setMessenger_self (s : Server) (j : Nat) (x : Messenger) :
    (s.setMessenger j x).messengers j = x :=
  Function.update_self ..

@[simp] theorem Server.setMessenger_ne (s : Server) {j k : Nat} (x : Messenger) (h : k ≠ j) :
    (s.setMessenger j x).messengers k = s.messengers k :=
  Function.update_of_ne h ..

/-- A send to the updates channel, which all collectors share. -/
def Server.push (s : Server) : Option Update → Option Server
  | none => some s
  | some u =>
    if s.updClosed then some { s with panicked := true }
    else if s.updCh.length < updatesChanSize then some { s with updCh := s.updCh ++ [u] }
    else none

def Server.collectorStep (s : Server) (i : Nat) (a : CollectorAction) : Option Server :=
  if i < colls then
    ((s.collectors i).step a).bind fun r =>
      ((s.setCollector i r.1).push r.2.1).map fun s' =>
        { s' with panicked := s'.panicked || r.2.2 }
  else none

/-- A sender's step is one of the notification that the core is delivering. -/
def Server.senderStep (s : Server) (j : Nat)
    (f : Notification → SendPc → Option (Server × SendPc × List Out)) :
    Option (Server × List Out) :=
  match s.core with
  | .send n senders =>
    if j < msgrs then
      (f n (senders j)).map fun r =>
        ({ r.1 with core := .send n (Function.update senders j r.2.1) }, r.2.2)
    else none
  | _ => none

/-- The statements of `Core.close`. -/
def Closer.nextCollector (i : Nat) : Closer := if i < colls then .teardown i else .shutdown

def Closer.nextMessenger (j : Nat) : Closer := if j < msgrs then .closeMessenger j else .returned

/-- `Close` of the systemd collector stops its provider first. -/
def Closer.afterTeardown (i : Nat) : Collector → Closer
  | .exec _ => .await i
  | .systemd _ => .stop i

def Server.closeStep (s : Server) : Option Server :=
  match s.closer with
  | .idle => some { s with closer := .nextCollector colls 0 }
  | .teardown i =>
    some { s.setCollector i (s.collectors i).setTeardown with
      panicked := s.panicked || (s.collectors i).teardown
      closer := .afterTeardown i (s.collectors i) }
  | .stop i =>
    some { s.setCollector i (s.collectors i).setStop with
      panicked := s.panicked || (s.collectors i).stop
      closer := .awaitProvider i }
  | .awaitProvider i =>
    match s.collectors i with
    | .systemd c => if c.provider = .done then some { s with closer := .await i } else none
    | .exec _ => none
  | .await i =>
    if (s.collectors i).isDone then some { s with closer := .nextCollector colls (i + 1) }
    else none
  | .shutdown =>
    some { s with shutdown := true, panicked := s.panicked || s.shutdown, closer := .closeUpdates }
  | .closeUpdates =>
    some { s with updClosed := true, panicked := s.panicked || s.updClosed, closer := .awaitRun }
  | .awaitRun =>
    match s.core with
    | .done => some { s with closer := .nextMessenger msgrs 0 }
    | _ => none
  | .closeMessenger j =>
    some { s.setMessenger j { s.messengers j with closed := true } with
      panicked := s.panicked || (s.messengers j).closed
      closer := .awaitMessenger j }
  | .awaitMessenger j =>
    if (s.messengers j).tornDown then some { s with closer := .nextMessenger msgrs (j + 1) }
    else none
  | .returned => none

def Server.step (s : Server) : Action → Option (Server × List Out)
  | .collector i a => (s.collectorStep colls i a).map fun s' => (s', [])
  | .coreTake =>
    match s.core, s.updCh with
    | .recv, u :: rest => some ({ s with core := .feed u, updCh := rest }, [])
    | _, _ => none
  | .coreFed n =>
    match s.core, n with
    -- A failed update is logged.
    | .feed (.err _), _ => some ({ s with core := .recv }, [])
    | .feed (.items _), none => some ({ s with core := .recv }, [])
    | .feed (.items _), some n => some ({ s with core := .send n fun _ => .start }, [.produced n])
    | _, _ => none
  | .coreJoined =>
    match s.core with
    | .send _ senders =>
      if ∀ j < msgrs, senders j = .done then some ({ s with core := .recv }, []) else none
    | _ => none
  | .coreEnd =>
    match s.core, s.updCh with
    | .recv, [] => if s.updClosed then some ({ s with core := .done }, []) else none
    | _, _ => none
  | .sendCheck j =>
    s.senderStep msgrs j fun _ pc =>
      if pc = .start then some (s, if s.shutdown then .done else .trying, []) else none
  | .send j =>
    s.senderStep msgrs j fun n pc =>
      if pc = .trying ∨ pc = .blocked then
        let x := s.messengers j
        if x.closed then some ({ s with panicked := true }, .done, [])
        else if x.notificationsChan.length < Fanout.notificationsChanSize then
          some (s.setMessenger j { x with notificationsChan := x.notificationsChan ++ [n] }, .done,
            [.accepted j n])
        else none
      else none
  | .sendBlock j =>
    s.senderStep msgrs j fun _ pc =>
      let x := s.messengers j
      if pc = .trying ∧ s.shutdown = false ∧ x.closed = false ∧
          Fanout.notificationsChanSize ≤ x.notificationsChan.length then some (s, .blocked, [])
      else none
  | .sendGiveUp j =>
    s.senderStep msgrs j fun _ pc =>
      if (pc = .trying ∨ pc = .blocked) ∧ s.shutdown then some (s, .done, []) else none
  | .messenger j a =>
    if j < msgrs then
      ((s.messengers j).step a).map fun r => (s.setMessenger j r.1, r.2.map fun n => .handled j n)
    else none
  | .close => (s.closeStep colls msgrs).map fun s' => (s', [])

/-- The server as `NewCore` leaves it; what kind the collectors and messengers are is the
configuration's. -/
def server (collectors : Nat → Bool) (messengers : Nat → Bool) : Guarded Server Action Out where
  init :=
    { collectors := fun i => if collectors i then .systemd {} else .exec {}
      messengers := fun j => { kind := if messengers j then .webserver .serving else .fileLogger } }
  step := Server.step colls msgrs

end Step

end Shutdown
end Montray
