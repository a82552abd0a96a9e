import Montray.Client.HostPort
import Montray.Client.Network

/-!
# Montray.Client.TunnelCommand

From an accepted configuration to the transport: `resolve_tunnel_addresses`, and what
`CommandSpec::for_server` and the connection rely on. The kernel gives a listener a port that is not
zero.

* `ServerChecked`: what the validation of one server establishes.
* `validated_transport_safe`: what the transport can rely on after the addresses are resolved.
-/

namespace Montray
namespace Client

/-! ## Resolving addresses -/

/-- A port that a listener was given. -/
abbrev LocalPort := { port : Nat // 0 < port ∧ port < 2 ^ 16 }

/-- What the kernel does for the server of each index. -/
structure ListenerIo where
  bind : Nat → Except Chain PUnit
  localAddr : Nat → Except Chain LocalPort

def resolveServer (io : ListenerIo) (index : Nat) (server : ServerConfig) :
    Except Chain ServerConfig :=
  if server.addr ≠ "" then .ok server
  else do
    withContext (s!"allocating local tunnel address #{index} (" ++ server.id ++ ")") (io.bind index)
    let port ← withContext "reading allocated local tunnel address" (io.localAddr index)
    pure { server with addr := "127.0.0.1:" ++ toString port.val }

def resolveServers (io : ListenerIo) : Nat → List ServerConfig → Except Chain (List ServerConfig)
  | _, [] => pure []
  | index, server :: rest => do
    let server ← resolveServer io index server
    let rest ← resolveServers io (index + 1) rest
    pure (server :: rest)

def Config.resolveTunnelAddresses (io : ListenerIo) (config : Config) : Except Chain Config := do
  let servers ← resolveServers io 0 config.servers
  pure { config with servers }

/-! ## What the validation establishes -/

section Checked

variable (isLoopbackIp : String → Bool)

/-- A listening address that nobody else can reach. -/
def LoopbackAddr (addr : String) : Prop :=
  ∃ host port, validateHostPort addr = .ok (host, port) ∧
    (host = "localhost" ∨ isLoopbackIp host = true)

structure SshChecked (server : ServerConfig) (ssh : SshTunnelConfig) : Prop where
  host : ssh.host ≠ ""
  user : ssh.user ≠ ""
  user_hyphen : ssh.user.toList.head? ≠ some '-'
  remote : ∃ r, validateHostPort ssh.remoteServerAddr = .ok r
  addr : server.addr ≠ "" → LoopbackAddr isLoopbackIp server.addr

inductive TunnelChecked (server : ServerConfig) : Option TunnelConfig → Prop where
  | none : TunnelChecked server none
  | ssh (ssh : SshTunnelConfig) (h : SshChecked isLoopbackIp server ssh) :
      TunnelChecked server (some ⟨some ssh, none⟩)
  | custom (program : String) (args : List String) (probe : Option TunnelReadinessProbeConfig)
      (h : ∀ p, probe = some p → p.containsOutput ≠ "") :
      TunnelChecked server (some ⟨none, some ⟨program :: args, probe⟩⟩)

structure ServerChecked (server : ServerConfig) : Prop where
  addr : server.addr ≠ "" → ∃ r, validateHostPort server.addr = .ok r
  omitted : server.addr = "" → hasStructuredSshTunnel server = true
  tunnel : TunnelChecked isLoopbackIp server server.tunnel

variable {isLoopbackIp} {server : ServerConfig} {index : Nat}

theorem validateSshTunnel_ok {ssh : SshTunnelConfig}
    (h : validateSshTunnel isLoopbackIp server ssh index = .ok ()) :
    SshChecked isLoopbackIp server ssh := by
  simp only [validateSshTunnel, bind_ok, refuse_ok, withContext_ok] at h
  obtain ⟨_, hhost, _, -, _, huser, _, hhyphen, remote, hremote, haddr⟩ := h
  refine ⟨hhost, huser, hhyphen, ⟨remote, hremote⟩, fun hne => ?_⟩
  rw [if_neg hne, bind_ok] at haddr
  obtain ⟨⟨host, port⟩, hsplit, hloopback⟩ := haddr
  exact ⟨host, port, withContext_ok.mp hsplit, not_not.mp (refuse_ok.mp hloopback)⟩

theorem validateTunnel_ok {tunnel : TunnelConfig}
    (h : validateTunnel isLoopbackIp server tunnel index = .ok ()) :
    TunnelChecked isLoopbackIp server (some tunnel) := by
  obtain ⟨ssh, custom⟩ := tunnel
  cases ssh with
  | some ssh =>
    cases custom with
    | none => exact .ssh ssh (validateSshTunnel_ok h)
    | some custom => cases h
  | none =>
    cases custom with
    | none => cases h
    | some custom =>
      simp only [validateTunnel, bind_ok, refuse_ok] at h
      obtain ⟨_, hcommand, hprobe⟩ := h
      obtain ⟨command, probe⟩ := custom
      cases command with
      | nil => exact absurd rfl hcommand
      | cons program args =>
        refine .custom program args probe ?_
        rintro p rfl hempty
        exact hprobe (by simp [hempty])

theorem validateAuthAndTunnel_ok (h : validateAuthAndTunnel isLoopbackIp server index = .ok ()) :
    TunnelChecked isLoopbackIp server server.tunnel := by
  obtain ⟨_, -, htunnel⟩ := bind_ok.mp h
  cases ht : server.tunnel with
  | none => exact .none
  | some tunnel =>
    simp only [ht] at htunnel
    exact validateTunnel_ok htunnel

theorem validateServer_ok (h : validateServer isLoopbackIp server index = .ok ()) :
    ServerChecked isLoopbackIp server := by
  simp only [validateServer, bind_ok, refuse_ok] at h
  obtain ⟨_, homitted, _, -, h⟩ := h
  by_cases haddr : server.addr = ""
  · rw [if_neg (not_not.mpr haddr)] at h
    refine ⟨fun hne => absurd haddr hne, fun _ => ?_, validateAuthAndTunnel_ok h⟩
    by_contra hno
    exact homitted ⟨haddr, hno⟩
  · rw [if_pos haddr] at h
    obtain ⟨r, hsplit, hrest⟩ := bind_ok.mp h
    exact ⟨fun _ => ⟨r, withContext_ok.mp hsplit⟩, fun hempty => absurd hempty haddr,
      validateAuthAndTunnel_ok hrest⟩

theorem validateServers_checked {ids : List String} {servers : List ServerConfig}
    (h : validateServers isLoopbackIp ids index servers = .ok ()) :
    ∀ server ∈ servers, ServerChecked isLoopbackIp server := by
  induction servers generalizing ids index with
  | nil => simp
  | cons server rest ih =>
    simp only [validateServers, bind_ok, withContext_ok, refuse_ok] at h
    obtain ⟨_, -, _, -, _, hserver, hrest⟩ := h
    intro s hs
    rcases List.mem_cons.mp hs with rfl | hs
    · exact validateServer_ok hserver
    · exact ih hrest s hs

end Checked

/-! ## After the addresses are resolved -/

/-- The server with the address that it is given, if it has none. -/
inductive Resolved (server : ServerConfig) : ServerConfig → Prop where
  | configured (h : server.addr ≠ "") : Resolved server server
  | allocated (h : server.addr = "") (port : LocalPort) :
      Resolved server { server with addr := "127.0.0.1:" ++ toString port.val }

theorem resolveServer_ok {io : ListenerIo} {index : Nat} {server server' : ServerConfig}
    (h : resolveServer io index server = .ok server') : Resolved server server' := by
  unfold resolveServer at h
  by_cases haddr : server.addr = ""
  · rw [if_neg (not_not.mpr haddr)] at h
    simp only [bind_ok] at h
    obtain ⟨_, -, port, -, h⟩ := h
    cases h
    exact .allocated haddr port
  · rw [if_pos haddr] at h
    cases h
    exact .configured haddr

theorem resolveServers_ok {io : ListenerIo} {index : Nat} {servers servers' : List ServerConfig}
    (h : resolveServers io index servers = .ok servers') :
    ∀ server' ∈ servers', ∃ server ∈ servers, Resolved server server' := by
  induction servers generalizing index servers' with
  | nil =>
    cases h
    simp
  | cons server rest ih =>
    simp only [resolveServers, bind_ok] at h
    obtain ⟨server', hserver, rest', hrest, h⟩ := h
    cases h
    intro s hs
    rcases List.mem_cons.mp hs with rfl | hs
    · exact ⟨server, List.mem_cons_self, resolveServer_ok hserver⟩
    · obtain ⟨s', hs', hr⟩ := ih hrest s hs
      exact ⟨s', List.mem_cons_of_mem _ hs', hr⟩

theorem validateHostPort_localhost (port : LocalPort) :
    validateHostPort ("127.0.0.1:" ++ toString port.val) = .ok ("127.0.0.1", port.val) := by
  obtain ⟨port, hpos, hlt⟩ := port
  have hdigits : (toString port).toList = Nat.toDigits 10 port := Nat.toList_repr
  refine validateHostPort_ok.mpr ⟨"127.0.0.1".toList, Nat.toDigits 10 port, .inr ?_, ?_⟩
  · rw [String.toList_append, hdigits]
    refine ⟨by simp, by simp, by decide, fun hcolon => ?_⟩
    exact absurd (Nat.isDigit_of_mem_toDigits (by decide) (by decide) hcolon) (by decide)
  · exact checkParts_ok.mpr ⟨by decide, parseU16_toDigits hlt, Nat.pos_iff_ne_zero.mp hpos, rfl⟩

section Resolved

variable {isLoopbackIp : String → Bool} {server server' : ServerConfig}

theorem ServerChecked.resolved_addr (h : ServerChecked isLoopbackIp server)
    (hr : Resolved server server') : ∃ r, validateHostPort server'.addr = .ok r := by
  cases hr with
  | configured hne => exact h.addr hne
  | allocated hempty port => exact ⟨_, validateHostPort_localhost port⟩

theorem ServerChecked.resolved_loopback (hlocal : isLoopbackIp "127.0.0.1" = true)
    {ssh : SshTunnelConfig} (h : SshChecked isLoopbackIp server ssh)
    (hr : Resolved server server') : LoopbackAddr isLoopbackIp server'.addr := by
  cases hr with
  | configured hne => exact h.addr hne
  | allocated hempty port =>
    exact ⟨"127.0.0.1", port.val, validateHostPort_localhost port, .inr hlocal⟩

/-- No `expect` fails, and no probe is empty. -/
theorem TunnelChecked.forServer_ok (h : TunnelChecked isLoopbackIp server server'.tunnel) :
    ∃ spec, CommandSpec.forServer server' = .ok spec ∧
      ∀ command, spec = some command → command.readinessProbe ≠ some "" := by
  unfold CommandSpec.forServer
  generalize server'.tunnel = tunnel at h
  cases h with
  | none => exact ⟨Option.none, rfl, by simp⟩
  | ssh ssh h =>
    refine ⟨_, rfl, ?_⟩
    rintro command ⟨⟩
    simp [CommandSpec.forSsh, readyMarker]
  | custom program args probe hprobe =>
    refine ⟨_, rfl, ?_⟩
    rintro command ⟨⟩ hempty
    obtain ⟨p, hp, houtput⟩ := Option.map_eq_some_iff.mp hempty
    exact hprobe p hp houtput

end Resolved

theorem toString_ne_forward (n : Nat) : toString n ≠ "-L" := by
  intro h
  have hdigits : (toString n).toList = Nat.toDigits 10 n := Nat.toList_repr
  have hmem : '-' ∈ Nat.toDigits 10 n := by
    rw [← hdigits, h]
    decide
  exact absurd (Nat.isDigit_of_mem_toDigits (by decide) (by decide) hmem) (by decide)

/-- The arguments of an SSH tunnel: options, the forwarded address, what the configuration adds, and
the destination. -/
theorem forSsh_args (server : ServerConfig) (ssh : SshTunnelConfig) :
    ∃ options, (CommandSpec.forSsh server ssh).args =
        options ++ ["-L", server.addr ++ ":" ++ ssh.remoteServerAddr] ++ ssh.extraSshArgs ++
          [ssh.user ++ "@" ++ ssh.host] ∧ "-L" ∉ options := by
  refine ⟨["-N", "-T", "-o", "BatchMode=yes", "-o", "ExitOnForwardFailure=yes", "-o",
    "ConnectTimeout=15", "-o", "ServerAliveInterval=10", "-o", "ServerAliveCountMax=3", "-o",
    "PermitLocalCommand=yes", "-o", "LocalCommand=echo " ++ readyMarker, "-p",
    toString (if ssh.port = 0 then 22 else ssh.port)], rfl, ?_⟩
  have hport := toString_ne_forward (if ssh.port = 0 then 22 else ssh.port)
  rw [Nat.toString_eq_repr] at hport
  simp [readyMarker, hport.symm]

theorem head?_destination {user host : String} (hne : user ≠ "")
    (hhyphen : user.toList.head? ≠ some '-') : (user ++ "@" ++ host).toList.head? ≠ some '-' := by
  cases hu : user.toList with
  | nil => exact absurd (String.toList_eq_nil_iff.mp hu) hne
  | cons c cs =>
    rw [hu] at hhyphen
    simpa [hu] using hhyphen

/-- The validation makes the transport safe. After the addresses are resolved, the command of every
server can be built, with a probe that is not empty; the connection reads from the address what was
validated; and an SSH tunnel listens on a loopback address, with its destination as the last
argument, which is no option. -/
theorem validated_transport_safe (isLoopbackIp : String → Bool)
    (hlocal : isLoopbackIp "127.0.0.1" = true) (parseIntError : List Char → String)
    (io : ListenerIo) (config resolved : Config) (hvalid : config.validate isLoopbackIp = .ok ())
    (hresolved : config.resolveTunnelAddresses io = .ok resolved) :
    ∀ server ∈ resolved.servers,
      (∃ spec, CommandSpec.forServer server = .ok spec ∧
        ∀ command, spec = some command → command.readinessProbe ≠ some "") ∧
      (∃ host port, validateHostPort server.addr = .ok (host, port) ∧
        splitHostPort parseIntError server.addr = .ok (host, port) ∧ port ≠ 0) ∧
      ∀ tunnel ssh, server.tunnel = some tunnel → tunnel.ssh = some ssh →
        ∃ command options, CommandSpec.forServer server = .ok (some command) ∧
          command.args = options ++ ["-L", server.addr ++ ":" ++ ssh.remoteServerAddr] ++
            ssh.extraSshArgs ++ [ssh.user ++ "@" ++ ssh.host] ∧
          "-L" ∉ options ∧ (ssh.user ++ "@" ++ ssh.host).toList.head? ≠ some '-' ∧
          LoopbackAddr isLoopbackIp server.addr := by
  intro server' hserver'
  simp only [Config.resolveTunnelAddresses, bind_ok] at hresolved
  obtain ⟨servers', hservers', hresolved⟩ := hresolved
  cases hresolved
  obtain ⟨server, hserver, hr⟩ := resolveServers_ok hservers' server' hserver'
  simp only [Config.validate, bind_ok] at hvalid
  obtain ⟨_, -, hvalid⟩ := hvalid
  have hchecked := validateServers_checked hvalid server hserver
  have htunnel : TunnelChecked isLoopbackIp server server'.tunnel := by
    cases hr <;> exact hchecked.tunnel
  refine ⟨htunnel.forServer_ok, ?_, ?_⟩
  · obtain ⟨⟨host, port⟩, haddr⟩ := hchecked.resolved_addr hr
    exact ⟨host, port, haddr, splitHostPort_of_validate parseIntError haddr⟩
  · intro tunnel ssh ht hssh
    rw [ht] at htunnel
    cases htunnel with
    | custom program args probe hprobe => cases hssh
    | ssh ssh' hsshChecked =>
      cases hssh
      obtain ⟨options, hargs, hno⟩ := forSsh_args server' ssh
      refine ⟨.forSsh server' ssh, options, ?_, hargs, hno, ?_, ?_⟩
      · simp only [CommandSpec.forServer, ht]
      · exact head?_destination hsshChecked.user hsshChecked.user_hyphen
      · exact ServerChecked.resolved_loopback hlocal hsshChecked hr

/-- One server behind SSH that leaves its address to the kernel. -/
def officeServer : ServerConfig where
  id := "office"
  tunnel := some { ssh := some { host := "gate", user := "ops", remoteServerAddr := "db:8080" } }

def officeListeners : ListenerIo := ⟨fun _ => .ok (), fun _ => .ok ⟨40000, by decide⟩⟩

theorem validated_transport_safe_office :
    let server := { officeServer with addr := "127.0.0.1:40000" }
    ∃ command, CommandSpec.forServer server = .ok (some command) ∧
      command.args.getLast? = some "ops@gate" ∧ LoopbackAddr (· == "127.0.0.1") server.addr := by
  intro server
  have h := validated_transport_safe (· == "127.0.0.1") rfl (fun _ => "") officeListeners
    ⟨[officeServer]⟩ ⟨[server]⟩ (by decide +kernel) (by decide +kernel) server
    (List.mem_singleton_self server)
  obtain ⟨command, options, hspec, hargs, -, -, hloopback⟩ := h.2.2 _ _ rfl rfl
  refine ⟨command, hspec, ?_, hloopback⟩
  rw [hargs, List.getLast?_concat]
  rfl

end Client
end Montray
