import Montray.WsClient.Tunnel

/-!
# Montray.WsClient.EventLoop

The Go client's connection worker, and one tunneled server as a whole: its `TunnelSupervisor` and its
`WSClient` send to one channel, from which the combiner takes the server's events in order.

While the reader goroutine of a connection runs, `eventLoop` itself only waits for it, so the two
share one program counter. `connError` is the variable both write.

* `EventLoop.step`: `eventLoop` from one blocking operation to the next.
* `tunneled`: the whole system; it emits what `OngoingIncidentsHandler` is called with.
-/

namespace Montray
namespace WsClient

open Lib

/-! ## The event loop -/

def reconnectDelayStep : Int := 1000000000

def maxReconnectDelay : Int := 10 * reconnectDelayStep

def nextReconnectDelay (current : Int) : Int :=
  if current ≥ maxReconnectDelay - reconnectDelayStep then maxReconnectDelay
  else current + reconnectDelayStep

/-- What `websocketConnectionError` reads of a response. -/
structure Response where
  statusCode : Nat
  status : String
  deriving DecidableEq, Repr

def websocketConnectionError (err : String) (response : Option Response)
    (bearerTokenProvided : Bool) : String :=
  match response with
  | none => err
  | some response =>
    if response.statusCode = 401 then
      if bearerTokenProvided then "server rejected the configured bearer token"
      else "server requires authentication, but no bearer token is configured"
    else "WebSocket handshake failed: " ++ response.status

inductive DialResult where
  | connected
  | failed (err : String) (response : Option Response)
  deriving DecidableEq, Repr

/-- What the reader gets from `ReadMessage`: an error, or a message as far as it can be decoded. -/
inductive ReadResult where
  | failed (err : String)
  | heartbeat
  | undecodable (err : String)
  | incidents (event : String) (data : Except String (Option Wire.Notification))
  | unsupported (event : String)

/-- The notification to send on, or the error to disconnect with. -/
def decodeIncidents (event : String) :
    Except String (Option Wire.Notification) → Except String Wire.Notification
  | .error err => .error ("decoding " ++ event ++ " data: " ++ err)
  | .ok none => .error ("decoding " ++ event ++ " data: notification is null")
  | .ok (some notif) =>
    match validateNotification (some notif) with
    | .error err => .error ("validating " ++ event ++ " data: " ++ err)
    | .ok _ => .ok notif

inductive LoopPc where
  | top
  | waitReady (tunnelWasReady : Bool) (wait : WaitPc)
  | sendError (tunnelWasReady : Bool)
  | delay
  | dial
  /-- In `tunnelUnavailable`, after the dial failed. -/
  | dialFailed
  | dialDisconnected
  | connected
  | clearError
  | read
  | heartbeat
  | incidents (notif : Wire.Notification)
  /-- In `tunnelUnavailable`, after the connection failed. -/
  | readFailed (err : String)
  | disconnect
  | disconnected
  | stopped
  deriving DecidableEq, Repr

structure EventLoop where
  pc : LoopPc := .top
  connError : String := ""
  reconnectDelay : Int := 0
  interrupt : Bool := false
  deriving DecidableEq, Repr

/-- What the loop meets; `interrupted` is the case taken by the `select` it is in. -/
structure Sees where
  dial : DialResult := .connected
  read : ReadResult := .heartbeat
  interrupted : Bool := false
  now : Time := 0

namespace EventLoop

/-- `sendServerEvent`; whether the channel has room is up to the system. -/
def send (c : EventLoop) (x : Sees) (event : ServerEvent) (sent : EventLoop)
    (refused : LoopPc := .stopped) : Option (EventLoop × List ServerEvent) :=
  if x.interrupted then
    if c.interrupt then some ({ c with pc := refused }, []) else none
  else some (sent, [event])

def tunnelUnavailable (c : EventLoop) (tunnel : Option Supervisor) (x : Sees) : Option Bool :=
  match tunnel with
  | none => some false
  | some t =>
    if x.interrupted then if c.interrupt then some true else none
    else
      match t.gate.readyMtx with
      | some _ => none
      | none => some (!t.gate.ready)

/-- `WaitReady`, called by the loop. -/
def waitReady (c : EventLoop) (t : Supervisor) (tunnelWasReady : Bool) (x : Sees) :
    WaitPc → Option EventLoop
  | .top =>
    match t.gate.readyMtx with
    | some _ => none
    | none =>
      if t.gate.ready then
        some { c with pc := .sendError tunnelWasReady,
                      reconnectDelay := if tunnelWasReady then c.reconnectDelay else 0 }
      else some { c with pc := .waitReady tunnelWasReady (.select t.gate.readyCh) }
  | .select readyCh =>
    if x.interrupted then
      if c.interrupt ∨ t.run = .stopped then some { c with pc := .stopped } else none
    else if readyCh ∈ t.gate.closed then some { c with pc := .waitReady tunnelWasReady .top }
    else none

/-- The reader has got a message. -/
def receive (c : EventLoop) : ReadResult → EventLoop
  | .failed err => { c with pc := .readFailed err }
  | .heartbeat => { c with pc := .heartbeat }
  | .undecodable err =>
    { c with pc := .disconnect, connError := "decoding server message: " ++ err }
  | .incidents event data =>
    match decodeIncidents event data with
    | .error err => { c with pc := .disconnect, connError := err }
    | .ok notif => { c with pc := .incidents notif }
  | .unsupported _ => c

def step (bearerTokenProvided : Bool) (tunnel : Option Supervisor) (c : EventLoop) (x : Sees) :
    Option (EventLoop × List ServerEvent) :=
  match c.pc with
  | .top =>
    match tunnel with
    | none => some ({ c with pc := .sendError true }, [])
    | some t =>
      match t.gate.readyMtx with
      | some _ => none
      | none => some ({ c with pc := .waitReady t.gate.ready .top }, [])
  | .waitReady tunnelWasReady wait =>
    match tunnel with
    | none => none
    | some t => (c.waitReady t tunnelWasReady x wait).map (·, [])
  | .sendError tunnelWasReady =>
    c.send x (.connectionError c.connError)
      { c with pc := if 0 < c.reconnectDelay ∧ tunnelWasReady then .delay else .dial }
  | .delay =>
    if x.interrupted then
      if c.interrupt then some ({ c with pc := .stopped }, []) else none
    else some ({ c with pc := .dial }, [])
  | .dial =>
    match x.dial with
    | .connected => some ({ c with pc := .connected, reconnectDelay := 0 }, [])
    | .failed err response =>
      some ({ c with pc := .dialFailed,
                     connError := websocketConnectionError err response bearerTokenProvided }, [])
  | .dialFailed =>
    match c.tunnelUnavailable tunnel x with
    | none => none
    | some true => some ({ c with pc := .top, connError := "", reconnectDelay := 0 }, [])
    | some false =>
      some ({ c with pc := .dialDisconnected,
                     reconnectDelay := nextReconnectDelay c.reconnectDelay }, [])
  | .dialDisconnected =>
    c.send x (.connection ⟨.disconnected, x.now⟩) { c with pc := .top }
  | .connected =>
    c.send x (.connection ⟨.connected, x.now⟩) { c with pc := .clearError, connError := "" }
  | .clearError => c.send x (.connectionError c.connError) { c with pc := .read }
  | .read => some (c.receive x.read, [])
  | .heartbeat =>
    c.send x (.connection ⟨.heartbeat, x.now⟩) { c with pc := .read } .disconnected
  | .incidents notif =>
    c.send x (.ongoingIncidents (some notif)) { c with pc := .read } .disconnected
  | .readFailed err =>
    match c.tunnelUnavailable tunnel x with
    | none => none
    | some true => some ({ c with pc := .disconnected, connError := "" }, [])
    | some false => some ({ c with pc := .disconnect, connError := err }, [])
  | .disconnect =>
    c.send x (.connection ⟨.disconnected, x.now⟩) { c with pc := .disconnected } .disconnected
  | .disconnected =>
    if x.interrupted then
      if c.interrupt then some ({ c with pc := .stopped }, []) else none
    else
      some ({ c with pc := .top, reconnectDelay := nextReconnectDelay c.reconnectDelay }, [])
  | .stopped => none

end EventLoop

/-! ## One tunneled server -/

/-- `sent` is everything that was put into the channel, in order; bookkeeping only. -/
structure Tunneled where
  tunnel : Supervisor := {}
  client : EventLoop := {}
  serverEventCh : List ServerEvent := []
  combiner : Sys
  sent : List ServerEvent := []

def serverEventChCap : Nat := 32

inductive TunneledAction where
  | tunnel (a : TunnelAction)
  | client (x : Sees)
  /-- `WSClient.Close` -/
  | interrupt
  /-- The combiner's loop for this server takes the next event. -/
  | take
  /-- Anything else in the combiner. -/
  | combiner (a : Action)

def Trace.event? : Trace → Option ServerEvent
  | .event _ e => some (.tunnel e)
  | _ => none

/-- The events go into the channel, if it has room. -/
def Tunneled.put (s : Tunneled) (events : List ServerEvent) :
    Option (Tunneled × List Notification) :=
  if s.serverEventCh.length + events.length ≤ serverEventChCap then
    some ({ s with serverEventCh := s.serverEventCh ++ events, sent := s.sent ++ events }, [])
  else none

/-- A step of the combiner that leaves `serverEventCh` in the channel. -/
def Tunneled.combine (s : Tunneled) (serverEventCh : List ServerEvent) (a : Action) :
    Option (Tunneled × List Notification) :=
  (WsClient.step s.combiner a).map fun r => ({ s with combiner := r.1, serverEventCh }, r.2)

/-- Whether the action is the loop of `id` taking an event. -/
def Action.takes (id : String) : Action → Bool
  | .event id' _ => id' = id
  | _ => false

def Tunneled.step (probe : List UInt8) (bearerTokenProvided : Bool) (id : String) (s : Tunneled) :
    TunneledAction → Option (Tunneled × List Notification)
  | .tunnel a =>
    match s.tunnel.step probe a with
    | none => none
    | some (tunnel, out) => { s with tunnel }.put (out.filterMap Trace.event?)
  | .client x =>
    match s.client.step bearerTokenProvided (some s.tunnel) x with
    | none => none
    | some (client, events) => { s with client }.put events
  | .interrupt => some ({ s with client := { s.client with interrupt := true } }, [])
  | .take =>
    match s.serverEventCh with
    | [] => none
    | event :: rest => s.combine rest (.event id event)
  | .combiner a => if a.takes id then none else s.combine s.serverEventCh a

/-- The server `id` of a configuration; the other servers do what they like. -/
def tunneled (probe : List UInt8) (bearerTokenProvided : Bool) (config : ServerIDs) (id : String) :
    Guarded Tunneled TunneledAction Notification where
  init := { combiner := (combiner config).init }
  step := Tunneled.step probe bearerTokenProvided id

end WsClient
end Montray
