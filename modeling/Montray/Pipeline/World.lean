import Montray.Lib.Sequences
import Montray.Server.FanoutProofs
import Montray.Server.TrackerDeltas
import Montray.Client.Lifecycle
import Montray.Client.Protocol
import Montray.Client.Snapshot

/-!
# Montray.Pipeline.World

A server and one desktop client of it, as one machine: `Core.run` feeds the updates of the
collectors to the tracker, the fan-out carries the notifications to the WebSocket connections, a
connection carries frames to the client's task, the task sends events to `run_async`, and that
reduces them.

The other clients of the server, the other servers of the client, the user and the clock are there
as actions of their own. A connection loses nothing and keeps the order; it may fail at any time.
The receiver of the events is kept until the task has ended.

* `frame`: what a message of the fan-out is on the wire.
* `World.step`, `world`: the composed machine. It emits the calls, the messages that were written
  and the values of the texts on the connection.
* `clientStep_handed`: what a step of the task does while it has its connection.
-/

namespace Montray

open Lib

/-! ## The client's task -/

namespace Client

/-- The connection task inside the supervisor. -/
def TunnelPc.connection? : TunnelPc → Option ConnectionPc
  | .ready c => some c
  | .join c _ => some c
  | .leave c => some c
  | _ => none

/-- The connection task, alone or inside the supervisor. -/
def ClientState.connection? (s : ClientState) : Option ConnectionPc :=
  match s.task with
  | .direct c => some c
  | .tunneled t => t.connection?

/-- The points of the connection task at which a handshake or a connection is under way. -/
def ConnectionPc.attached : ConnectionPc → Bool
  | .connect _ => true
  | .send _ .read => true
  | .read => true
  | _ => false

/-- The event that is being sent. -/
def ConnectionPc.hand : ConnectionPc → List Event
  | .send e _ => [e]
  | _ => []

def ClientState.attached (s : ClientState) : Bool := s.connection?.any (·.attached)

def ClientState.hand (s : ClientState) : List Event := (s.connection?.map (·.hand)).getD []

section Attached

variable {decodeTextMessage : String → Except Chain (Option NotificationData)}
  {fromUtf8 : List UInt8 → Except String String} {options : ClientOptions} {server : ServerConfig}

/-- What becomes of the event in hand: it is kept or sent, or a `Connected` or what the task makes
of a frame is taken in hand. -/
inductive Handed (receive : OffsetDateTime → ReadResult → Received) (id : String)
    (hand hand' : List Event) (a : ClientAction) (out : List Event) : Prop where
  | kept (ha : ∀ result now, a ≠ .connection (.received result now)) (h : out ++ hand' = hand)
  | connected (now : OffsetDateTime) (ha : ∀ result now, a ≠ .connection (.received result now))
      (h : out ++ hand' = hand ++ [.connected id now])
  | received (result : ReadResult) (now : OffsetDateTime)
      (ha : a = .connection (.received result now)) (hand_nil : hand = []) (out_nil : out = [])
      (h : (∃ e, receive now result = .send e ∧ hand' = [e]) ∨
        receive now result = .ignore ∧ hand' = [])

theorem connectionLost_not_attached (tunneled : Bool) (delay : Nat) (error : String)
    (now : OffsetDateTime) :
    (connectionLost options server tunneled delay error now).attached = false := by
  unfold connectionLost
  split <;> rfl

theorem connectionStep_handed {tunneled stop alive : Bool} {c c' : ConnectionPc}
    {a : ConnectionAction} {out : List Event}
    (h : connectionStep decodeTextMessage fromUtf8 options server tunneled stop alive c a =
      some (c', out)) (hc : c.attached = true) (hc' : c'.attached = true) :
    Handed (receive decodeTextMessage fromUtf8 options server) server.id c.hand c'.hand
      (.connection a) out := by
  cases c with
  | connect delay =>
    cases a <;> simp only [connectionStep, reduceCtorEq] at h
    case connected result now =>
      split at h <;> cases h
      · exact .connected now (by simp) rfl
      · rw [connectionLost_not_attached] at hc'
        cases hc'
    case shutdown =>
      split at h <;> cases h
      cases hc'
  | read =>
    cases a <;> simp only [connectionStep, reduceCtorEq] at h
    case received result now =>
      split at h <;> cases h
      · rename_i e he
        exact .received result now rfl rfl rfl (.inl ⟨e, he, rfl⟩)
      · rename_i hr
        exact .received result now rfl rfl rfl (.inr ⟨hr, rfl⟩)
      · rw [connectionLost_not_attached] at hc'
        cases hc'
    case shutdown =>
      split at h <;> cases h
      cases hc'
  | send e next =>
    cases next <;> cases hc
    cases a <;> simp only [connectionStep, reduceCtorEq] at h
    case sent =>
      split at h <;> cases h
      exact .kept (by simp) rfl
    case sendFailed =>
      split at h <;> cases h
      cases hc'
  | _ => cases hc

/-- What a step of the task has done to the connection task that is there after it: nothing, its
own step, or its start. -/
inductive Moved (step : ConnectionPc → ConnectionAction → Option (ConnectionPc × List Event))
    (before : Option ConnectionPc) (c' : ConnectionPc) (a : ClientAction) (out : List Event) :
    Prop where
  | rest (ha : ∀ action, a ≠ .connection action) (h : before = some c') (ho : out = [])
  | started (h : c' = .prepare)
  | moved (action : ConnectionAction) (c : ConnectionPc) (ha : a = .connection action)
      (hc : before = some c) (h : step c action = some (c', out))

theorem tunnelStep_moved {probe : Option String} {shutdown alive : Bool} {t t' : TunnelPc}
    {a : ClientAction} {out : List Event} {c' : ConnectionPc}
    (h : tunnelStep decodeTextMessage fromUtf8 options server probe shutdown alive t a =
      some (t', out)) (hc' : t'.connection? = some c') :
    ∃ stop, Moved (connectionStep decodeTextMessage fromUtf8 options server true stop alive)
      t.connection? c' a out := by
  have hnested {stop : Bool} {c : ConnectionPc} {action : ConnectionAction}
      {f : ConnectionPc → TunnelPc} (hf : ∀ d, (f d).connection? = some d)
      (hs : (nestedStep decodeTextMessage fromUtf8 options server stop alive c action).map
        (fun r => (f r.1, r.2)) = some (t', out)) :
      connectionStep decodeTextMessage fromUtf8 options server true stop alive c action =
        some (c', out) := by
    obtain ⟨⟨d, out'⟩, hstep, heq⟩ := Option.map_eq_some_iff.mp hs
    cases heq
    rw [hf d] at hc'
    cases hc'
    exact hstep
  cases t with
  | ready c =>
    cases a <;> try simp only [tunnelStep, reduceCtorEq] at h
    case connection action => exact ⟨_, .moved action c rfl rfl (hnested (fun _ => rfl) h)⟩
    case exited status =>
      cases h
      exact ⟨false, .rest (by simp) hc' rfl⟩
    case joined => cases c <;> cases h; cases hc'
    case shutdown =>
      split at h <;> cases h
      exact ⟨false, .rest (by simp) hc' rfl⟩
  | join c status =>
    cases a <;> try simp only [tunnelStep, reduceCtorEq] at h
    case connection action =>
      exact ⟨_, .moved action c rfl rfl (hnested (f := fun c => .join c status) (fun _ => rfl) h)⟩
    case joined => cases c <;> cases h; cases hc'
  | leave c =>
    cases a <;> try simp only [tunnelStep, reduceCtorEq] at h
    case connection action => exact ⟨_, .moved action c rfl rfl (hnested (fun _ => rfl) h)⟩
    case joined => cases c <;> cases h; cases hc'
  | sendReady now =>
    cases a <;> simp only [tunnelStep, reduceCtorEq] at h
    case sent =>
      split at h <;> cases h
      cases hc'
      exact ⟨false, .started rfl⟩
    case sendFailed =>
      split at h <;> cases h
      cases hc'
  | top =>
    cases a <;> simp only [tunnelStep, reduceCtorEq] at h
    case spawned result now =>
      cases result <;> simp only at h <;> (repeat' split at h) <;> cases h <;> cases hc'
    case shutdown => split at h <;> cases h; cases hc'
  | starting =>
    cases a <;> simp only [tunnelStep, reduceCtorEq] at h
    case marker found now => cases found <;> cases h <;> cases hc'
    case exited status => cases h; cases hc'
    case shutdown => split at h <;> cases h; cases hc'
  | waitToRestart =>
    cases a <;> simp only [tunnelStep, reduceCtorEq] at h
    case slept => cases h; cases hc'
    case shutdown => split at h <;> cases h; cases hc'
  | sendFailure now details =>
    cases a <;> simp only [tunnelStep, reduceCtorEq] at h
    all_goals
      split at h <;> cases h
      cases hc'
  | _ =>
    cases a <;> simp only [tunnelStep, reduceCtorEq] at h
    all_goals
      cases h
      cases hc'

theorem clientStep_moved {s s' : ClientState} {a : ClientAction} {out : List Event}
    {c' : ConnectionPc}
    (h : clientStep decodeTextMessage fromUtf8 options server s a = some (s', out))
    (hc' : s'.connection? = some c') :
    ∃ tunneled stop, Moved
      (connectionStep decodeTextMessage fromUtf8 options server tunneled stop s.alive)
      s.connection? c' a out := by
  unfold clientStep at h
  split at h
  · cases h
    exact ⟨false, false, .rest (by simp) hc' rfl⟩
  · cases h
    exact ⟨false, false, .rest (by simp) hc' rfl⟩
  · split at h
    · rename_i c action htask _ _
      obtain ⟨⟨d, out'⟩, hstep, heq⟩ := Option.map_eq_some_iff.mp h
      cases heq
      cases hc'
      refine ⟨false, s.shutdown, .moved action c rfl ?_ hstep⟩
      rw [ClientState.connection?, htask]
    · cases h
    · rename_i t htask _ _
      obtain ⟨⟨t', out'⟩, hstep, heq⟩ := Option.map_eq_some_iff.mp h
      cases heq
      obtain ⟨stop, hmoved⟩ := tunnelStep_moved hstep hc'
      refine ⟨true, stop, ?_⟩
      rw [ClientState.connection?, htask]
      exact hmoved

/-- While the task has its connection, its steps say what becomes of the event in hand. -/
theorem clientStep_handed {s s' : ClientState} {a : ClientAction} {out : List Event}
    (h : clientStep decodeTextMessage fromUtf8 options server s a = some (s', out))
    (hs : s.attached = true) (hs' : s'.attached = true) :
    Handed (receive decodeTextMessage fromUtf8 options server) server.id s.hand s'.hand a out := by
  obtain ⟨c', hc', hat'⟩ := (Option.any_eq_true _ _).mp hs'
  have hhand' : s'.hand = c'.hand := by simp [ClientState.hand, hc']
  obtain ⟨tunneled, stop, hmoved⟩ := clientStep_moved h hc'
  cases hmoved with
  | rest ha hc ho =>
    refine .kept (fun result now => ha _) ?_
    rw [hhand', ho]
    simp [ClientState.hand, hc]
  | started hc =>
    rw [hc] at hat'
    cases hat'
  | moved action c ha hc hstep =>
    have hat : c.attached = true := by simpa [ClientState.attached, hc] using hs
    have hhand : s.hand = c.hand := by simp [ClientState.hand, hc]
    rw [hhand, hhand', ha]
    exact connectionStep_handed hstep hat hat'

end Attached

end Client

namespace Pipeline

/-! ## Frames -/

section Frames

variable (marshalTime : Time → Option String) (text : Json → String)

/-- A notification of the tracker: its slices are made by `make`, so none is nil. -/
def wire (n : Notification) : Wire.Notification where
  time := n.time
  ongoingIncidents :=
    { total := .of n.ongoingIncidents.total
      added := .of n.ongoingIncidents.added
      removed := .of n.ongoingIncidents.removed
      updated := .of n.ongoingIncidents.updated
      numItemsOK := n.ongoingIncidents.numItemsOK }

/-- The JSON message, for all but a heartbeat. `stamp` is the reading of `time.Now`. -/
def txMsg (stamp : Time) : Fanout.Message → Option Wire.WsTxMsg
  | .snapshot i total =>
    -- The board holds a nil slice until it is first set.
    some ⟨.ongoingIncidentsSnapshot, some (some ⟨stamp, {
      total := if i = 0 ∧ total = [] then none else .of total }⟩)⟩
  | .update u => some ⟨.ongoingIncidentsUpdate, some (some (wire u.notif))⟩
  | .heartbeat => none

/-- The frame of a message and the value of its text; none if the encoder fails. -/
def frame (stamp : Time) (m : Fanout.Message) : Option (Client.Message × List Json) :=
  match txMsg stamp m with
  | none => some (.binary [0], [])
  | some msg => (msg.toJson marshalTime).map fun j => (.text (text j), [j])

/-- A connection: its subscription, once the server has made one, and what is on its way. -/
structure Socket where
  sub : Option Nat := none
  pipe : List Client.Message := []
  deriving DecidableEq, Repr

/-- What the server has just written, as far as it was to this connection. -/
def Socket.write (socket : Socket) (stamp : Time) (out : List (Nat × Fanout.Message)) :
    Option (Socket × List Json) :=
  match socket.sub with
  | none => some (socket, [])
  | some id =>
    ((Fanout.sentTo out id).mapM (frame marshalTime text stamp)).map fun frames =>
      ({ socket with pipe := socket.pipe ++ frames.map Prod.fst }, frames.flatMap Prod.snd)

end Frames

/-! ## The machine -/

structure World where
  tracker : Tracker.ItemStatesTracker
  server : Fanout.Sys
  client : Client.ClientState
  socket : Option Socket
  /-- The channel of `run_async`. -/
  events : List Client.Event
  app : Client.AppState

inductive Action where
  /-- `Core.run` takes an update and feeds it. -/
  | feed (call : Tracker.Call)
  | server (a : Fanout.Action) (stamp : Time)
  /-- The server answers the handshake. -/
  | upgrade
  /-- The server subscribes the connection. -/
  | subscribe
  | client (a : Client.ClientAction)
  | connected (now : Client.OffsetDateTime)
  /-- The task reads the first frame of the connection. -/
  | read (now : Client.OffsetDateTime)
  /-- `run_async` takes the first event of the channel. -/
  | take
  /-- Another server's task sends an event. -/
  | post (e : Client.Event)
  /-- A command, a tick or the acknowledgement of a write. -/
  | command (e : Client.Event)

inductive Out where
  | fed (call : Tracker.Call)
  | wrote (id : Nat) (m : Fanout.Message)
  | encoded (j : Json)

def Out.call? : Out → Option Tracker.Call
  | .fed call => some call
  | _ => none

def Out.wrote? : Out → Option (Nat × Fanout.Message)
  | .wrote id m => some (id, m)
  | _ => none

/-- What `Core.run` has fed to the tracker. -/
def calls (os : List Out) : List Tracker.Call := os.filterMap Out.call?

/-- What the server has written to its clients. -/
def wrote (os : List Out) : List (Nat × Fanout.Message) := os.filterMap Out.wrote?

def eventsChannelSize : Nat := 64

/-- The actions of the task that need the server, or the end of `run_async`. -/
def reserved : Client.ClientAction → Bool
  | .dropReceiver => true
  | .connection (.connected .connected _) => true
  | .connection (.received (.message (.text _)) _) => true
  | .connection (.received (.message (.binary _)) _) => true
  | _ => false

def isFeed : Fanout.Action → Bool
  | .feed _ => true
  | _ => false

section Step

variable (marshalTime : Time → Option String) (text : Json → String)
  (decodeTextMessage : String → Except Client.Chain (Option Client.NotificationData))
  (fromUtf8 : List UInt8 → Except String String) (options : Client.ClientOptions)
  (config : Client.ServerConfig) (formatIncidentTime : Client.OffsetDateTime → String)

def World.feed (w : World) (call : Tracker.Call) : Option (World × List Out) :=
  if w.server.core = .idle then
    let r := Tracker.feedItems w.tracker call
    match r.2 with
    | none => some ({ w with tracker := r.1 }, [.fed call])
    | some n =>
      (Fanout.step w.server (.feed n)).map fun q =>
        ({ w with tracker := r.1, server := q.1 }, [.fed call])
  else none

def World.serverStep (w : World) (a : Fanout.Action) (stamp : Time) : Option (World × List Out) :=
  if isFeed a then none
  else
    (Fanout.step w.server a).bind fun r =>
      let out := r.2.map fun p => Out.wrote p.1 p.2
      match w.socket with
      | none => some ({ w with server := r.1 }, out)
      | some socket =>
        (socket.write marshalTime text stamp r.2).map fun q =>
          ({ w with server := r.1, socket := some q.1 }, out ++ q.2.map .encoded)

/-- A step of the task with the connection `socket`, which it gives up unless it goes on with
it. -/
def World.clientStep (w : World) (a : Client.ClientAction) (socket : Option Socket) :
    Option (World × List Out) :=
  (Client.clientStep decodeTextMessage fromUtf8 options config w.client a).bind fun r =>
    if w.events.length + r.2.length ≤ eventsChannelSize then
      some ({ w with client := r.1, events := w.events ++ r.2,
                     socket := if r.1.attached then socket else none }, [])
    else none

def World.step (w : World) : Action → Option (World × List Out)
  | .feed call => w.feed call
  | .server a stamp => w.serverStep marshalTime text a stamp
  | .upgrade =>
    match w.client.connection?, w.socket with
    | some (.connect _), none => some ({ w with socket := some {} }, [])
    | _, _ => none
  | .subscribe =>
    match w.socket with
    | some ⟨none, pipe⟩ =>
      (Fanout.step w.server .subscribe).map fun r =>
        ({ w with server := r.1, socket := some ⟨some w.server.nextSubID, pipe⟩ }, [])
    | _ => none
  | .client a =>
    if reserved a then none
    else w.clientStep decodeTextMessage fromUtf8 options config a w.socket
  | .connected now =>
    if w.socket.isSome then
      w.clientStep decodeTextMessage fromUtf8 options config
        (.connection (.connected .connected now)) w.socket
    else none
  | .read now =>
    match w.socket with
    | some ⟨sub, f :: pipe⟩ =>
      w.clientStep decodeTextMessage fromUtf8 options config
        (.connection (.received (.message f) now)) (some ⟨sub, pipe⟩)
    | _ => none
  | .take =>
    match w.events with
    | e :: rest =>
      some ({ w with events := rest, app := (Client.reduce formatIncidentTime w.app e).1 }, [])
    | [] => none
  | .post e =>
    if e.server? ≠ none ∧ e.server? ≠ some config.id ∧ w.events.length < eventsChannelSize then
      some ({ w with events := w.events ++ [e] }, [])
    else none
  | .command e =>
    if e.server? = none then
      some ({ w with app := (Client.reduce formatIncidentTime w.app e).1 }, [])
    else none

def world (serverIds : List String) (snoozes : KeyMap Client.OffsetDateTime) :
    Guarded World Action Out where
  init :=
    { tracker := Tracker.newItemStatesTracker
      server := {}
      client := (Client.runClient decodeTextMessage fromUtf8 options config).init
      socket := none
      events := []
      app := Client.AppState.new serverIds snoozes }
  step := World.step marshalTime text decodeTextMessage fromUtf8 options config formatIncidentTime

end Step

end Pipeline
end Montray
