import Montray.Lib.Machine
import Montray.Client.Config
import Montray.Client.Model

/-!
# Montray.Client.Network

`run_client`: the reconnecting WebSocket loop of one server and, for a tunneled server, the
supervisor of the tunnel process that the loop is nested in.

The network, the process, the scheduler and the clock are the actions; each says what happened at
one `await`. A `select!` is a program point with several actions enabled. An event is emitted when
its send completes, which is how the reducer's channel orders them. Sends fail once the receiver is
gone, and only then.

* `connectionStep`: the loop of `run_connection_loop_with_options`.
* `clientStep`: `run_client`, with the supervisor's loop of `run_with_spec` around the former.
* `runClient`: the machine of a server. `Emits` holds of the streams it can send.
-/

namespace Montray
namespace Client

open Lib

structure ClientOptions where
  maxMessageBytes : Nat := 1 <<< 20
  connectTimeout : Nat := 30
  readTimeout : Nat := 30
  reconnectStep : Nat := 1
  maxReconnectDelay : Nat := 10
  deriving DecidableEq, Repr

/-! ## The tunnel command -/

structure CommandSpec where
  program : String
  args : List String
  readinessProbe : Option String
  deriving DecidableEq, Repr

def readyMarker : String := "MONTRAY_TUNNEL_READY"

def CommandSpec.forSsh (server : ServerConfig) (ssh : SshTunnelConfig) : CommandSpec where
  program := "ssh"
  args :=
    ["-N", "-T", "-o", "BatchMode=yes", "-o", "ExitOnForwardFailure=yes", "-o",
      "ConnectTimeout=15", "-o", "ServerAliveInterval=10", "-o", "ServerAliveCountMax=3", "-o",
      "PermitLocalCommand=yes", "-o", "LocalCommand=echo " ++ readyMarker, "-p",
      toString (if ssh.port = 0 then 22 else ssh.port), "-L",
      server.addr ++ ":" ++ ssh.remoteServerAddr] ++
    ssh.extraSshArgs ++ [ssh.user ++ "@" ++ ssh.host]
  readinessProbe := some readyMarker

/-- The command of a tunneled server. The error is the panic of an `expect`. -/
def CommandSpec.forServer (server : ServerConfig) : Except String (Option CommandSpec) :=
  match server.tunnel with
  | none => .ok none
  | some tunnel =>
    match tunnel.customCommand with
    | some custom =>
      match custom.command with
      | [] => .error "validated custom tunnel command has an executable"
      | program :: args =>
        .ok (some ⟨program, args, custom.readinessProbe.map (·.containsOutput)⟩)
    | none =>
      match tunnel.ssh with
      | none => .error "validated tunnel has exactly one command adapter"
      | some ssh => .ok (some (forSsh server ssh))

inductive ExitStatus where
  | success
  | failure (display : String)
  deriving DecidableEq, Repr

/-- The incident body of a tunnel that ended. `output` is what was captured of its output. -/
def failureDetails (status : Except String ExitStatus) (timedOut : Bool) (output : String) :
    String :=
  (match status with
    | .ok .success => "Tunnel command exited unexpectedly"
    | .ok (.failure display) => "Tunnel command exited: " ++ display
    | .error e => "Waiting for tunnel command failed: " ++ e) ++
  (if timedOut then "\n\nTunnel output pipes remained open after the command exited" else "") ++
  (if output = "" then "" else "\n\n" ++ output)

/-! ## Frames -/

inductive Message where
  | text (text : String)
  | binary (bytes : List UInt8)
  | close
  /-- A ping, a pong or a raw frame. -/
  | other
  deriving DecidableEq, Repr

/-- How one wait for the next frame ends. -/
inductive ReadResult where
  | silence
  | ended
  | failed (error : String)
  | message (message : Message)
  deriving DecidableEq, Repr

/-- What the loop does with it. -/
inductive Received where
  | send (e : Event)
  | ignore
  | lost (error : String)
  deriving DecidableEq

inductive WebSocketError where
  | http (unauthorized : Bool) (status : String)
  | other (display : String)
  deriving DecidableEq, Repr

def websocketConnectionError (error : WebSocketError) (bearerProvided : Bool) : String :=
  match error with
  | .http true _ =>
    if bearerProvided then "server rejected the configured bearer token"
    else "server requires authentication, but no bearer token is configured"
  | .http false status => "WebSocket handshake failed: " ++ status
  | .other display => display

section Loop

-- `decode_text_message` and `str::from_utf8`; nothing below depends on what they accept.
variable (decodeTextMessage : String → Except Chain (Option NotificationData))
  (fromUtf8 : List UInt8 → Except String String)
  (options : ClientOptions) (server : ServerConfig)

def receiveText (now : OffsetDateTime) (text : String) : Received :=
  match decodeTextMessage text with
  | .ok (some data) => .send (.notification server.id data now)
  | .ok none => .ignore
  | .error chain => .lost chain.display

def receive (now : OffsetDateTime) : ReadResult → Received
  | .silence => .lost s!"no server data received for {options.readTimeout} seconds; reconnecting"
  | .ended => .lost "WebSocket connection closed"
  | .failed error => .lost error
  | .message (.binary [0]) => .send (.heartbeat server.id now)
  | .message (.text text) =>
    if text.utf8ByteSize > options.maxMessageBytes then .lost "server message exceeds 1 MiB"
    else receiveText decodeTextMessage server now text
  | .message (.binary bytes) =>
    match fromUtf8 bytes with
    | .error e => .lost ("decoding server message: " ++ e)
    | .ok text => receiveText decodeTextMessage server now text
  | .message .close => .lost "WebSocket connection closed"
  | .message .other => .ignore

/-! ## The connection loop -/

inductive ConnectResult where
  | connected
  | failed (error : WebSocketError)
  | timedOut
  deriving DecidableEq, Repr

def ConnectResult.error? : ConnectResult → Option String
  | .connected => none
  | .failed error => some (websocketConnectionError error server.auth.isSome)
  | .timedOut => some s!"connection attempt timed out after {options.connectTimeout} seconds"

/-- Where the loop goes once a send has ended. -/
inductive AfterSend where
  | stop
  | retry (delay : Nat)
  | read
  deriving DecidableEq, Repr

inductive ConnectionPc where
  | prepare
  /-- At the head of the loop, with the delay to sleep first. -/
  | retry (delay : Nat)
  | request (delay : Nat)
  | connect (delay : Nat)
  /-- In `tunnel_stopped`. -/
  | settle (delay : Nat) (error : String)
  | send (e : Event) (next : AfterSend)
  | read
  | stopped
  deriving DecidableEq

inductive ConnectionAction where
  | prepared (result : Except Chain Unit) (now : OffsetDateTime)
  | slept
  | requested (result : Except Chain Unit) (now : OffsetDateTime)
  | connected (result : ConnectResult) (now : OffsetDateTime)
  | settled (now : OffsetDateTime)
  | received (result : ReadResult) (now : OffsetDateTime)
  | sent
  | sendFailed
  /-- `shutdown.changed()`. -/
  | shutdown

def nextDelay (delay : Nat) : Nat := min (delay + options.reconnectStep) options.maxReconnectDelay

/-- The connection failed or was lost: at once reported, or after `tunnel_stopped`. -/
def connectionLost (tunneled : Bool) (delay : Nat) (error : String) (now : OffsetDateTime) :
    ConnectionPc :=
  if tunneled then .settle delay error
  else .send (.disconnected server.id now error) (.retry (nextDelay options delay))

def preparingFailed (chain : Chain) (now : OffsetDateTime) : ConnectionPc :=
  .send (.disconnected server.id now ("preparing connection: " ++ chain.display)) .stop

def AfterSend.ok : AfterSend → ConnectionPc
  | .stop => .stopped
  | .retry delay => .retry delay
  | .read => .read

/-- Only the sends of a live connection stop the loop when they fail. -/
def AfterSend.failed : AfterSend → ConnectionPc
  | .stop => .stopped
  | .retry delay => .retry delay
  | .read => .stopped

/-- One step of `run_connection_loop_with_options`. `stop` is the value of its shutdown watch,
`alive` whether the receiver of the events is still there. -/
def connectionStep (tunneled stop alive : Bool) :
    ConnectionPc → ConnectionAction → Option (ConnectionPc × List Event)
  | .prepare, .prepared (.ok _) _ => some (.retry 0, [])
  | .prepare, .prepared (.error chain) now => some (preparingFailed server chain now, [])
  | .retry delay, .slept => some (.request delay, [])
  -- Without a delay there is no sleep, and the watch is not looked at.
  | .retry delay, .shutdown => if delay ≠ 0 ∧ stop then some (.stopped, []) else none
  | .request delay, .requested (.ok _) _ => some (.connect delay, [])
  | .request _, .requested (.error chain) now => some (preparingFailed server chain now, [])
  | .connect delay, .connected result now =>
    match result.error? options server with
    | none => some (.send (.connected server.id now) .read, [])
    | some error => some (connectionLost options server tunneled delay error now, [])
  | .connect _, .shutdown => if stop then some (.stopped, []) else none
  | .settle delay error, .settled now =>
    if stop then some (.stopped, [])
    else some (.send (.disconnected server.id now error) (.retry (nextDelay options delay)), [])
  | .settle _ _, .shutdown => if stop then some (.stopped, []) else none
  | .read, .received result now =>
    match receive decodeTextMessage fromUtf8 options server now result with
    | .send e => some (.send e .read, [])
    | .ignore => some (.read, [])
    -- The delay was reset when the connection was made.
    | .lost error => some (connectionLost options server tunneled 0 error now, [])
  | .read, .shutdown => if stop then some (.stopped, []) else none
  | .send e next, .sent => if alive then some (next.ok, [e]) else none
  | .send _ next, .sendFailed => if alive then none else some (next.failed, [])
  | _, _ => none

/-! ## The tunnel supervisor -/

inductive TunnelPc where
  | top
  /-- The process runs and has not been found ready. -/
  | starting
  /-- Its output ended without the marker. -/
  | reap
  | sendReady (now : OffsetDateTime)
  /-- The connection task runs, and its private watch is false. -/
  | ready (connection : ConnectionPc)
  /-- The process exited and the watch is set: waiting for the connection task. -/
  | join (connection : ConnectionPc) (status : Except String ExitStatus)
  /-- The same at shutdown. -/
  | leave (connection : ConnectionPc)
  | drain (status : Except String ExitStatus)
  | sendFailure (now : OffsetDateTime) (details : String)
  | waitToRestart
  | stopped

/-- The two forms of `run_client`. -/
inductive Task where
  | direct (connection : ConnectionPc)
  | tunneled (tunnel : TunnelPc)

structure ClientState where
  task : Task
  /-- The application's shutdown watch. -/
  shutdown : Bool := false
  /-- Whether the receiver of the events is still there. -/
  alive : Bool := true

inductive ClientAction where
  | requestShutdown
  | dropReceiver
  | connection (action : ConnectionAction)
  | spawned (result : Except String Unit) (now : OffsetDateTime)
  | marker (found : Bool) (now : OffsetDateTime)
  | exited (status : Except String ExitStatus)
  | joined
  | drained (timedOut : Bool) (output : String) (now : OffsetDateTime)
  | sent
  | sendFailed
  | slept
  | shutdown

/-- A step of the connection task inside the supervisor. -/
def nestedStep (stop alive : Bool) (connection : ConnectionPc) (action : ConnectionAction) :
    Option (ConnectionPc × List Event) :=
  connectionStep decodeTextMessage fromUtf8 options server true stop alive connection action

/-- One step of `run_with_spec`; `probe` is the command's readiness probe. -/
def tunnelStep (probe : Option String) (shutdown alive : Bool) :
    TunnelPc → ClientAction → Option (TunnelPc × List Event)
  | .top, .shutdown => if shutdown then some (.stopped, []) else none
  | .top, .spawned (.ok _) now =>
    if shutdown then none
    else if probe = none then some (.sendReady now, [])
    else some (.starting, [])
  | .top, .spawned (.error e) now =>
    if shutdown then none
    else some (.sendFailure now ("Failed to start tunnel command: " ++ e), [])
  | .starting, .marker true now => some (.sendReady now, [])
  | .starting, .marker false _ => some (.reap, [])
  | .starting, .exited status => some (.drain status, [])
  | .starting, .shutdown => if shutdown then some (.stopped, []) else none
  | .reap, .exited status => some (.drain status, [])
  | .sendReady now, .sent =>
    if alive then some (.ready .prepare, [.tunnelReady server.id now]) else none
  | .sendReady _, .sendFailed => if alive then none else some (.stopped, [])
  | .ready c, .connection action =>
    (nestedStep decodeTextMessage fromUtf8 options server false alive c action).map
      fun r => (.ready r.1, r.2)
  | .ready c, .exited status => some (.join c status, [])
  | .ready c, .shutdown => if shutdown then some (.leave c, []) else none
  -- The connection task ended by itself.
  | .ready .stopped, .joined => some (.stopped, [])
  | .join c status, .connection action =>
    (nestedStep decodeTextMessage fromUtf8 options server true alive c action).map
      fun r => (.join r.1 status, r.2)
  | .join .stopped status, .joined => some (.drain status, [])
  | .leave c, .connection action =>
    (nestedStep decodeTextMessage fromUtf8 options server true alive c action).map
      fun r => (.leave r.1, r.2)
  | .leave .stopped, .joined => some (.stopped, [])
  | .drain status, .drained timedOut output now =>
    some (.sendFailure now (failureDetails status timedOut output), [])
  | .sendFailure now details, .sent =>
    if alive then some (.waitToRestart, [.tunnelFailed server.id now details]) else none
  | .sendFailure _ _, .sendFailed => if alive then none else some (.stopped, [])
  | .waitToRestart, .slept => some (.top, [])
  | .waitToRestart, .shutdown => if shutdown then some (.stopped, []) else none
  | _, _ => none

/-! ## A client -/

def readinessProbe : Option String :=
  match CommandSpec.forServer server with
  | .ok (some spec) => spec.readinessProbe
  | _ => none

def clientStep (s : ClientState) : ClientAction → Option (ClientState × List Event)
  | .requestShutdown => some ({ s with shutdown := true }, [])
  | .dropReceiver => some ({ s with alive := false }, [])
  | action =>
    match s.task, action with
    | .direct c, .connection a =>
      (connectionStep decodeTextMessage fromUtf8 options server false s.shutdown s.alive c a).map
        fun r => ({ s with task := .direct r.1 }, r.2)
    | .direct _, _ => none
    | .tunneled t, action =>
      (tunnelStep decodeTextMessage fromUtf8 options server (readinessProbe server) s.shutdown
        s.alive t action).map fun r => ({ s with task := .tunneled r.1 }, r.2)

def runClient : Guarded ClientState ClientAction Event where
  init :=
    { task :=
        match CommandSpec.forServer server with
        | .ok none => .direct .prepare
        | .ok (some _) => .tunneled .top
        | .error _ => .tunneled .stopped }
  step := clientStep decodeTextMessage fromUtf8 options server

/-- The streams that a server's client can send. -/
def Emits (events : List Event) : Prop :=
  ∃ s, (runClient decodeTextMessage fromUtf8 options server).Path events s

/-- A stream is emitted if some list of actions can be taken and emits it. -/
theorem emits_of_exec (actions : List ClientAction) {events : List Event} {s : ClientState}
    (h : (runClient decodeTextMessage fromUtf8 options server).exec
      ([], (runClient decodeTextMessage fromUtf8 options server).init) actions =
        some (events, s)) :
    Emits decodeTextMessage fromUtf8 options server events :=
  ⟨s, Guarded.Path.exec .nil h⟩

end Loop

end Client
end Montray
