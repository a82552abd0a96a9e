import Montray.Lib.Quote

/-!
# Montray.Client.Config

The configuration of the Rust client and `Config::validate`.

An error is its chain of messages, the outermost context first. Whether a host parses as a loopback
IP address is left to a parameter: it is the standard library's `IpAddr`.

* `Config.validate`: all the checks, in their order.
* `validate_ok`: what an accepted configuration satisfies.
-/

namespace Montray
namespace Client

open Lib

/-- A chain of error messages. -/
abbrev Chain := List String

/-- An error chain on one line. -/
def Chain.display (chain : Chain) : String := ": ".intercalate chain

def bail {α : Type} (message : String) : Except Chain α := .error [message]

def withContext {α : Type} (context : String) : Except Chain α → Except Chain α
  | .error chain => .error (context :: chain)
  | .ok a => .ok a

structure TlsConfig where
  caFile : String := ""
  serverName : String := ""
  deriving DecidableEq, Repr

structure AuthConfig where
  bearerTokenFile : String
  deriving DecidableEq, Repr

structure TunnelReadinessProbeConfig where
  containsOutput : String
  deriving DecidableEq, Repr

structure CustomTunnelCommandConfig where
  command : List String := []
  readinessProbe : Option TunnelReadinessProbeConfig := none
  deriving DecidableEq, Repr

structure SshTunnelConfig where
  host : String
  user : String
  port : Nat := 0
  remoteServerAddr : String
  extraSshArgs : List String := []
  deriving DecidableEq, Repr

structure TunnelConfig where
  ssh : Option SshTunnelConfig := none
  customCommand : Option CustomTunnelCommandConfig := none
  deriving DecidableEq, Repr

structure ServerConfig where
  id : String
  addr : String := ""
  tls : Option TlsConfig := none
  auth : Option AuthConfig := none
  tunnel : Option TunnelConfig := none
  deriving DecidableEq, Repr

/-- `Config`, whose one field is `wsClient.servers`. -/
structure Config where
  servers : List ServerConfig
  deriving DecidableEq, Repr

/-! ## Parsing a host and a port -/

/-- `str::split_once`, at the first occurrence. -/
def splitOnce (sep : List Char) : List Char → Option (List Char × List Char)
  | [] => if sep = [] then some ([], []) else none
  | c :: cs =>
    if sep.isPrefixOf (c :: cs) then some ([], (c :: cs).drop sep.length)
    else (splitOnce sep cs).map fun p => (c :: p.1, p.2)

/-- `str::rsplit_once` for one character, at its last occurrence. -/
def rsplitOnce (sep : Char) : List Char → Option (List Char × List Char)
  | [] => none
  | c :: cs =>
    match rsplitOnce sep cs with
    | some p => some (c :: p.1, p.2)
    | none => if c = sep then some ([], cs) else none

def digitsValue (cs : List Char) : Nat :=
  cs.foldl (fun n c => n * 10 + (c.toNat - '0'.toNat)) 0

/-- The text of a number without a plus sign. -/
def unsigned (cs : List Char) : List Char :=
  match cs with
  | '+' :: rest => rest
  | _ => cs

/-- `u16::from_str`: decimal digits, after an optional plus sign. -/
def parseU16 (cs : List Char) : Option Nat :=
  let digits := unsigned cs
  if digits ≠ [] ∧ digits.all Char.isDigit ∧ digitsValue digits < 2 ^ 16 then
    some (digitsValue digits)
  else none

/-- The checks of `validate_host_port` on the two parts. -/
def checkParts (host port : List Char) : Except Chain (String × Nat) :=
  if host = [] then bail "host must not be empty"
  else
    match (parseU16 port).filter (· ≠ 0) with
    | none => bail "port must be between 1 and 65535"
    | some port => pure (String.ofList host, port)

def validateHostPort (address : String) : Except Chain (String × Nat) := do
  let (host, port) ← match address.toList with
    | '[' :: rest =>
      match splitOnce [']', ':'] rest with
      | none => bail "must be a valid host:port address"
      | some parts => pure parts
    | chars =>
      match rsplitOnce ':' chars with
      | none => bail "must be a valid host:port address"
      | some (host, port) =>
        if ':' ∈ host then bail "IPv6 addresses must be enclosed in brackets"
        else pure (host, port)
  checkParts host port

/-! ## Validation -/

def hasStructuredSshTunnel (server : ServerConfig) : Bool :=
  server.tunnel.any fun tunnel => tunnel.ssh.isSome && tunnel.customCommand.isNone

def isServerIdChar (c : Char) : Bool := c.isAlphanum || c == '_' || c == '-'

def validateServerId (id : String) : Except Chain PUnit :=
  if id = "" then bail "is required"
  else if ¬ id.toList.all isServerIdChar then
    bail (rustQuote id ++ " must contain only letters, digits, underscores, or hyphens")
  else if id = "internal" then bail (rustQuote id ++ " is reserved")
  else .ok ()

/-- A check that only refuses. -/
def refuse (condition : Prop) [Decidable condition] (message : String) : Except Chain PUnit :=
  if condition then bail message else .ok ()

section Validate

variable (isLoopbackIp : String → Bool)

def validateSshTunnel (server : ServerConfig) (ssh : SshTunnelConfig) (index : Nat) :
    Except Chain PUnit := do
  let place := s!"wsClient.servers[{index}].tunnel.ssh"
  refuse (ssh.host = "") (place ++ ".host is required")
  refuse (ssh.host.toList.head? = some '-') (place ++ ".host must not start with a hyphen")
  refuse (ssh.user = "") (place ++ ".user is required")
  refuse (ssh.user.toList.head? = some '-') (place ++ ".user must not start with a hyphen")
  let _ ← withContext (place ++ ".remoteServerAddr") (validateHostPort ssh.remoteServerAddr)
  if server.addr = "" then pure ()
  else
    let (localHost, _) ← withContext s!"wsClient.servers[{index}].addr for an SSH tunnel"
      (validateHostPort server.addr)
    refuse (¬ (localHost = "localhost" ∨ isLoopbackIp localHost))
      s!"wsClient.servers[{index}].addr must use a loopback host for an SSH tunnel"

def validateTunnel (server : ServerConfig) (tunnel : TunnelConfig) (index : Nat) :
    Except Chain PUnit :=
  let place := s!"wsClient.servers[{index}].tunnel"
  match tunnel.ssh, tunnel.customCommand with
  | some ssh, none => validateSshTunnel isLoopbackIp server ssh index
  | none, some custom => do
    refuse (custom.command.head?.all (· = ""))
      (place ++ ".customCommand.command must start with an executable")
    refuse (custom.readinessProbe.any (·.containsOutput = ""))
      (place ++ ".customCommand.readinessProbe.containsOutput must not be empty")
  | _, _ => bail (place ++ " must contain exactly one of ssh or customCommand")

/-- The checks of `validate` that come after the address. -/
def validateAuthAndTunnel (server : ServerConfig) (index : Nat) : Except Chain PUnit := do
  refuse (server.auth.any (·.bearerTokenFile = ""))
    s!"wsClient.servers[{index}].auth.bearerTokenFile is required"
  match server.tunnel with
  | none => pure ()
  | some tunnel => validateTunnel isLoopbackIp server tunnel index

/-- What is checked of one server after its id. -/
def validateServer (server : ServerConfig) (index : Nat) : Except Chain PUnit := do
  refuse (server.addr = "" ∧ ¬ hasStructuredSshTunnel server)
    s!"wsClient.servers[{index}].addr is required unless tunnel.ssh is configured"
  refuse (server.addr ≠ "" ∧ '/' ∈ server.addr.toList)
    s!"wsClient.servers[{index}].addr must be a host:port address, not a URL"
  if server.addr ≠ "" then
    let _ ← withContext s!"wsClient.servers[{index}].addr" (validateHostPort server.addr)
  validateAuthAndTunnel isLoopbackIp server index

/-- The loop of `validate`; `ids` are the ids it has seen. -/
def validateServers : List String → Nat → List ServerConfig → Except Chain PUnit
  | _, _, [] => pure ()
  | ids, index, server :: rest => do
    withContext s!"wsClient.servers[{index}].id" (validateServerId server.id)
    refuse (server.id ∈ ids)
      (s!"wsClient.servers[{index}].id " ++ rustQuote server.id ++ " is duplicated")
    validateServer isLoopbackIp server index
    validateServers (server.id :: ids) (index + 1) rest

def Config.validate (config : Config) : Except Chain PUnit := do
  refuse (config.servers = []) "wsClient.servers must contain at least one server"
  validateServers isLoopbackIp [] 0 config.servers

/-! ## What is accepted -/

theorem bind_ok {ε α β : Type} {x : Except ε α} {f : α → Except ε β} {b : β} :
    (x >>= f) = .ok b ↔ ∃ a, x = .ok a ∧ f a = .ok b := by
  cases x with
  | error e => simp [bind, Except.bind]
  | ok a => simp [bind, Except.bind]

theorem withContext_ok {α : Type} {context : String} {x : Except Chain α} {a : α} :
    withContext context x = .ok a ↔ x = .ok a := by
  cases x with
  | error chain => simp [withContext]
  | ok a => simp [withContext]

theorem refuse_ok {condition : Prop} [Decidable condition] {message : String} {u : PUnit} :
    refuse condition message = .ok u ↔ ¬ condition := by
  unfold refuse bail
  split
  · simp [*]
  · simp [*]

theorem validateServers_ok {ids : List String} {index : Nat} {servers : List ServerConfig}
    (h : validateServers isLoopbackIp ids index servers = .ok ()) :
    (∀ server ∈ servers, server.id ∉ ids ∧ validateServerId server.id = .ok ()) ∧
      (servers.map (·.id)).Nodup := by
  induction servers generalizing ids index with
  | nil => simp
  | cons server rest ih =>
    simp only [validateServers, bind_ok, withContext_ok, refuse_ok] at h
    obtain ⟨_, hid, _, hdup, _, _, hrest⟩ := h
    obtain ⟨hmem, hnd⟩ := ih hrest
    refine ⟨?_, ?_⟩
    · intro s hs
      rcases List.mem_cons.mp hs with rfl | hs
      · exact ⟨hdup, hid⟩
      · obtain ⟨h1, h2⟩ := hmem s hs
        exact ⟨fun hin => h1 (List.mem_cons_of_mem _ hin), h2⟩
    · rw [List.map_cons, List.nodup_cons]
      refine ⟨?_, hnd⟩
      intro hin
      obtain ⟨s, hs, heq⟩ := List.mem_map.mp hin
      exact (hmem s hs).1 (heq ▸ List.mem_cons_self)

/-- An accepted configuration has a server, and its ids are distinct and well formed. -/
theorem validate_ok {config : Config} (h : config.validate isLoopbackIp = .ok ()) :
    config.servers ≠ [] ∧ (config.servers.map (·.id)).Nodup ∧
      ∀ server ∈ config.servers, validateServerId server.id = .ok () := by
  simp only [Config.validate, bind_ok, refuse_ok] at h
  obtain ⟨_, hne, hservers⟩ := h
  obtain ⟨hmem, hnd⟩ := validateServers_ok isLoopbackIp hservers
  exact ⟨hne, hnd, fun server hs => (hmem server hs).2⟩

end Validate

end Client
end Montray
