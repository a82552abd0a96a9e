import Montray.Lib.Files
import Montray.Lib.Requests

/-!
# Montray.Server.Setup

The setup commands of `montray-server`, as programs that ask the host for one thing after the other.

A path is clean. `systemctl`, `usermod`, `groupmod` and `systemd-sysusers` are other programs: what
they leave, on success and on failure, is a parameter (`World.command`). Any other request may fail
as well, unless it is in `World.reliable`.

* `Host`, `Host.done`, `Host.left`: the host, and what a request does or, when it fails, leaves.
* `Host.does`: every answer a request may get; `Host.respond` computes one of them.
* `ensureFile`, `replaceFile`, `installExecutable`: files are written beside their place and then
  linked or moved there.
* `installMontrayServerService`, `createMontrayUser`, …: the steps of the setup.
-/

namespace Montray
namespace ServerSetup

open Lib

/-! ## The host -/

structure Service where
  enabled : Bool := false
  running : Bool := false
  deriving DecidableEq, Repr

structure Host where
  files : Files
  /-- The numeric ids. -/
  users : String → Option Nat
  groups : String → Option Nat
  services : String → Service
  /-- The executable that is being run. -/
  executable : Path
  /-- Not of the host: `is-active` has answered for the new service. -/
  verified : Bool := false

inductive Stat where
  | missing
  | file
  | directory
  deriving DecidableEq, Repr

def lstat (files : Files) (path : Path) : Stat :=
  match files path with
  | none => .missing
  | some .dir => .directory
  | some _ => .file

/-- Links are followed. -/
def stat (files : Files) (path : Path) : Stat :=
  match files path with
  | none => .missing
  | some (.symlink .missing) => .missing
  | some .dir => .directory
  | some (.symlink .other) => .directory
  | some _ => .file

def contents? (files : Files) (path : Path) : Option (List UInt8) :=
  match files path with
  | some (.file contents) => some contents
  | some (.symlink (.file contents)) => some contents
  | _ => none

inductive Command where
  /-- `systemctl disable --now`. -/
  | disableNow (unit : String)
  | enable (unit : String)
  | restart (unit : String)
  /-- `systemctl is-active --quiet`. -/
  | isActive (unit : String)
  | daemonReload
  /-- `usermod --login`. -/
  | usermod (login name : String)
  /-- `groupmod --new-name`. -/
  | groupmod (newName name : String)
  | sysusers (path : Path)
  deriving DecidableEq, Repr

inductive Op where
  | lstat (path : Path)
  | stat (path : Path)
  | readFile (path : Path)
  | loadConfig (path : Path)
  /-- `os.Open`. -/
  | openFile (path : Path)
  | isRegular (path : Path)
  | mkdirAll (directory : Path)
  /-- `os.CreateTemp`. -/
  | createTemp (directory : Path) (pattern : String)
  | chmod (path : Path)
  | write (path : Path) (contents : List UInt8)
  /-- `io.Copy`, between open files. -/
  | copy (source path : Path)
  | close (path : Path)
  | link (path newPath : Path)
  | remove (path : Path)
  | rename (path newPath : Path)
  | lookupUser (name : String)
  | lookupGroup (name : String)
  | run (command : Command)
  | abs (path : Path)
  | executablePath
  | print (text : String)
  deriving DecidableEq, Repr

def Op.Result : Op → Type
  | .lstat _ => Stat
  | .stat _ => Stat
  | .readFile _ => List UInt8
  | .loadConfig _ => Unit
  | .openFile _ => Unit
  | .isRegular _ => Bool
  | .mkdirAll _ => Unit
  | .createTemp _ _ => Path
  | .chmod _ => Unit
  | .write _ _ => Unit
  | .copy _ _ => Unit
  | .close _ => Unit
  -- Whether nothing was there.
  | .link _ _ => Bool
  -- Whether it was there.
  | .remove _ => Bool
  | .rename _ _ => Unit
  | .lookupUser _ => Bool
  | .lookupGroup _ => Bool
  | .run _ => Unit
  | .abs _ => Path
  | .executablePath => Path
  | .print _ => Unit

abbrev Op.Answer (op : Op) : Type := Except String op.Result

abbrev Setup := ExceptT String (Prog Op Op.Answer)

/-! ## What the requests do -/

def montrayUserName : String := "_montray"

def montrayGroupName : String := "_montray"

def montrayUnitName : String := "montray-server.service"

def Host.setService (s : Host) (unit : String) (service : Service) : Host :=
  { s with services := Function.update s.services unit service }

/-- The entries under another name. -/
def renamed (ids : String → Option Nat) (newName name : String) : String → Option Nat :=
  Function.update (Function.update ids newName (ids name)) name none

/-- The user and the group of Montray, where they are missing. -/
def Host.sysusers (s : Host) (uid gid : Option Nat) : Host :=
  { s with
    users := Function.update s.users montrayUserName ((s.users montrayUserName).or uid)
    groups := Function.update s.groups montrayGroupName ((s.groups montrayGroupName).or gid) }

structure World where
  /-- Whether a text is a configuration of the server. -/
  valid : List UInt8 → Bool
  /-- The requests that do not fail. -/
  reliable : Op → Prop
  /-- What a command may leave, when it succeeds and when it fails. -/
  command : Host → Command → Bool → Host → Prop

section Does

variable (w : World)

def Host.done (s : Host) : (op : Op) → op.Result → Host → Prop
  | .lstat path, (st : Stat), s' => st = ServerSetup.lstat s.files path ∧ s' = s
  | .stat path, (st : Stat), s' => st = ServerSetup.stat s.files path ∧ s' = s
  | .readFile path, (data : List UInt8), s' => contents? s.files path = some data ∧ s' = s
  | .loadConfig path, _, s' => (contents? s.files path).any w.valid = true ∧ s' = s
  | .openFile path, _, s' => ServerSetup.stat s.files path ≠ .missing ∧ s' = s
  | .isRegular path, (regular : Bool), s' => regular = (contents? s.files path).isSome ∧ s' = s
  | .mkdirAll directory, _, s' =>
    (∀ q, q <+: directory → ServerSetup.stat s.files q = .directory ∨ s.files q = none) ∧
      s' = { s with files := s.files.makeDirs directory }
  | .createTemp directory pattern, (path : Path), s' =>
    ServerSetup.stat s.files directory = .directory ∧
    (∃ random, path = directory ++ [pattern ++ random]) ∧ s.files path = none ∧
      s' = { s with files := s.files.set path (some (.file [])) }
  | .chmod _, _, s' => s' = s
  | .write path contents, _, s' => s' = { s with files := s.files.set path (some (.file contents)) }
  | .copy source path, _, s' => ∃ contents, contents? s.files source = some contents ∧
      s' = { s with files := s.files.set path (some (.file contents)) }
  | .close _, _, s' => s' = s
  | .link path newPath, (linked : Bool), s' =>
    if linked then s.files path ≠ none ∧ s.files newPath = none ∧
      s' = { s with files := s.files.set newPath (s.files path) }
    else s.files newPath ≠ none ∧ s' = s
  | .remove path, (was : Bool), s' =>
    -- A directory has to be empty.
    (s.files path = some .dir → ∀ name below, s.files (path ++ name :: below) = none) ∧
      was = (s.files path).isSome ∧ s' = { s with files := s.files.set path none }
  | .rename path newPath, _, s' => s.files path ≠ none ∧ s.files newPath ≠ some .dir ∧
      s' = { s with files := (s.files.set newPath (s.files path)).set path none }
  | .lookupUser name, (found : Bool), s' => found = (s.users name).isSome ∧ s' = s
  | .lookupGroup name, (found : Bool), s' => found = (s.groups name).isSome ∧ s' = s
  | .run command, _, s' => ∃ t, w.command s command true t ∧
      s' = { t with verified := s.verified || decide (command = .isActive montrayUnitName) }
  | .abs path, (absolute : Path), s' => absolute = path ∧ s' = s
  | .executablePath, (path : Path), s' => path = s.executable ∧ s' = s
  | .print _, _, s' => s' = s

/-- What a failed request may have left. -/
def Host.left (s : Host) : Op → Host → Prop
  -- Some of the directories, some of the contents.
  | .mkdirAll directory, s' => s' = s ∨ ∃ path, path <+: directory ∧
      s' = { s with files := s.files.makeDirs path }
  | .write path _, s' => s' = s ∨ ∃ contents,
      s' = { s with files := s.files.set path (some (.file contents)) }
  | .copy _ path, s' => s' = s ∨ ∃ contents,
      s' = { s with files := s.files.set path (some (.file contents)) }
  | .run command, s' => ∃ t, w.command s command false t ∧ s' = { t with verified := s.verified }
  | _, s' => s' = s

def Host.does (s : Host) (op : Op) : op.Answer → Host → Prop
  | .ok r, s' => s.done w op r s'
  | .error _, s' => ¬ w.reliable op ∧ s.left w op s'

end Does

/-! ## A host that answers -/

section Respond

-- Commands that are done, or fail and leave the host as it is.
variable (valid : List UInt8 → Bool) (execute : Host → Command → Option Host)

/-- What a request does, computed. -/
def Host.perform (s : Host) : (op : Op) → Option (op.Result × Host)
  | .lstat path => some (ServerSetup.lstat s.files path, s)
  | .stat path => some (ServerSetup.stat s.files path, s)
  | .readFile path => (contents? s.files path).map fun data => (data, s)
  | .loadConfig path => if (contents? s.files path).any valid = true then some ((), s) else none
  | .openFile path => if ServerSetup.stat s.files path = .missing then none else some ((), s)
  | .isRegular path => some ((contents? s.files path).isSome, s)
  | .mkdirAll directory =>
    if ∀ q ∈ directory.inits, ServerSetup.stat s.files q = .directory ∨ s.files q = none then
      some ((), { s with files := s.files.makeDirs directory })
    else none
  | .createTemp directory pattern =>
    let path := directory ++ [pattern ++ "1"]
    if ServerSetup.stat s.files directory = .directory ∧ s.files path = none then
      some (path, { s with files := s.files.set path (some (.file [])) })
    else none
  | .chmod _ => some ((), s)
  | .write path contents =>
    some ((), { s with files := s.files.set path (some (.file contents)) })
  | .copy source path => (contents? s.files source).map fun contents =>
      ((), { s with files := s.files.set path (some (.file contents)) })
  | .close _ => some ((), s)
  | .link path newPath =>
    if s.files newPath ≠ none then some (false, s)
    else if s.files path = none then none
    else some (true, { s with files := s.files.set newPath (s.files path) })
  | .remove path =>
    if s.files path = some .dir then none
    else some ((s.files path).isSome, { s with files := s.files.set path none })
  | .rename path newPath =>
    if s.files path = none ∨ s.files newPath = some .dir then none
    else some ((), { s with files := (s.files.set newPath (s.files path)).set path none })
  | .lookupUser name => some ((s.users name).isSome, s)
  | .lookupGroup name => some ((s.groups name).isSome, s)
  | .run command => (execute s command).map fun t =>
      ((), { t with verified := s.verified || decide (command = .isActive montrayUnitName) })
  | .abs path => some (path, s)
  | .executablePath => some (s.executable, s)
  | .print _ => some ((), s)

/-- A host on which no request fails that can be done. -/
def Host.respond (s : Host) (op : Op) : op.Answer × Host :=
  match s.perform valid execute op with
  | some (r, t) => (.ok r, t)
  | none => (.error "failed", s)

/-- Only looking at a path never fails. -/
def World.ofCommands : World where
  valid := valid
  reliable op := ∃ path, op = .lstat path
  command s command ok t :=
    if ok then execute s command = some t else execute s command = none ∧ t = s

end Respond

/-! ## Requests in programs -/

/-- The request, with what is said when it fails. -/
def ask (op : Op) (context : String → String) : Setup op.Result :=
  ExceptT.mk (.ask op fun answer => .pure (answer.mapError context))

/-- The answer itself. -/
def answer (op : Op) : Setup op.Answer :=
  ExceptT.mk (.ask op fun answer => .pure (.ok answer))

def run (command : Command) (context : String → String) : Setup Unit := ask (.run command) context

/-- `_ = runCommand(…)`. -/
def tryRun (command : Command) : Setup Unit := do
  let _ ← answer (.run command)

def print (text : String) : Setup Unit := ask (.print text) id

def wrap (context : String) (err : String) : String := context ++ ": " ++ err

def pathText (path : Path) : String := "/" ++ "/".intercalate path

def pathExists (path : Path) : Setup Bool := do
  match ← answer (.lstat path) with
  | .ok (st : Stat) => pure (decide (st ≠ .missing))
  | .error _ => pure false

def loadConfig (path : Path) (context : String → String) : Setup Unit :=
  ask (.loadConfig path) context

/-! ## Files -/

/-- The second program is deferred until the first has ended. -/
def deferred {α β : Type} (x : Setup α) (cleanup : Setup β) : Setup α :=
  ExceptT.mk (x.run >>= fun r => cleanup.run >>= fun _ => .pure r)

/-- The program, with what is said when it fails. -/
def withContext {α : Type} (x : Setup α) (context : String → String) : Setup α :=
  ExceptT.mk (x.run >>= fun r => .pure (r.mapError context))

/-- What is done with a temporary file beside the path, which is removed in the end. -/
def withTemporary {α : Type} (path : Path) (context : String) (body : Path → Setup α) :
    Setup α := do
  let temporary : Path ←
    ask (.createTemp path.dropLast ("." ++ path.getLastD "" ++ ".tmp-")) (wrap context)
  deferred (body temporary) (answer (.remove temporary))

def writeTemporary (temporary : Path) (contents : List UInt8) : Setup Unit := do
  ask (.chmod temporary) (wrap "set file permissions")
  ask (.write temporary contents) (wrap "write file")
  ask (.close temporary) (wrap "close file")

/-- Whether the file was created. -/
def ensureFile (path : Path) (contents : List UInt8) : Setup Bool := do
  ask (.mkdirAll path.dropLast) (wrap "create parent directory")
  withTemporary path "create temporary file" fun temporary => do
    writeTemporary temporary contents
    ask (.link temporary path) (wrap "create file")

/-- Whether the file is new. -/
def replaceFile (path : Path) (contents : List UInt8) : Setup Bool := do
  ask (.mkdirAll path.dropLast) (wrap "create parent directory")
  let st : Stat ← ask (.stat path) (wrap "inspect file")
  withTemporary path "create temporary file" fun temporary => do
    writeTemporary temporary contents
    ask (.rename temporary path) (wrap "replace file")
    pure (decide (st = .missing))

def require (found : Bool) (err : String) : Setup Unit := if found then pure () else throw err

/-- The executable is put in its place: over what is there, or only where nothing is. -/
def placeExecutable (temporary destination : Path) (reinstall : Bool) : Setup Bool :=
  if reinstall then do
    ask (.rename temporary destination) (wrap ("install executable at " ++ pathText destination))
    pure true
  else ask (.link temporary destination) (wrap ("install executable at " ++ pathText destination))

def copyExecutable (source destination : Path) (reinstall : Bool) : Setup Bool := do
  ask (.openFile source) (wrap ("open executable " ++ pathText source))
  let regular : Bool ← ask (.isRegular source) (wrap ("inspect executable " ++ pathText source))
  require regular ("executable " ++ pathText source ++ " is not a regular file")
  ask (.mkdirAll destination.dropLast)
    (wrap ("create executable directory " ++ pathText destination.dropLast))
  withTemporary destination "create temporary executable" fun temporary => do
    ask (.chmod temporary) (wrap "set executable permissions")
    ask (.copy source temporary) (wrap "copy executable")
    ask (.close temporary) (wrap "close executable")
    placeExecutable temporary destination reinstall

/-- Whether the executable was created or replaced. -/
def installExecutable (source destination : Path) (reinstall : Bool) : Setup Bool :=
  if reinstall then copyExecutable source destination reinstall
  else do
    let st : Stat ← ask (.lstat destination)
      (wrap ("inspect executable " ++ pathText destination))
    if st ≠ .missing then pure false else copyExecutable source destination reinstall

/-! ## The setup commands -/

def montrayServerExecutablePath : Path := ["usr", "local", "bin", "montray-server"]

def montraySysusersPath : Path := ["usr", "local", "lib", "sysusers.d", "montray.conf"]

def montrayServerUnitPath : Path := ["etc", "systemd", "system", "montray-server.service"]

/-- The embedded files, and the unit as it is rendered for an executable and a configuration. -/
structure Assets where
  config : List UInt8
  sysusers : List UInt8
  unit : Path → Path → Except String (List UInt8)

/-- The description with its first letter raised. -/
def reportEnsureResult (description raised : String) (path : Path) (created : Bool) : Setup Unit :=
  if created then print ("Created " ++ description ++ " at " ++ pathText path ++ "\n")
  else print (raised ++ " already exists at " ++ pathText path ++ "; leaving it unchanged\n")

def rendered {α : Type} (x : Except String α) : Setup α := ExceptT.mk (.pure x)

section Commands

variable (assets : Assets)

def initializeMontrayServerConfig (configFilename : Path) : Setup Unit := do
  let created ← ensureFile configFilename assets.config
  reportEnsureResult "configuration" "Configuration" configFilename created

def createMontrayUser : Setup Unit := do
  let created ← ensureFile montraySysusersPath assets.sysusers
  reportEnsureResult "systemd sysusers configuration" "Systemd sysusers configuration"
    montraySysusersPath created
  run (.sysusers montraySysusersPath) (wrap "create Montray service user and group")

def accountMissing (kind name err : String) : String :=
  wrap ("service " ++ kind ++ " \"" ++ name ++
    "\" does not exist; run `sudo montray-server setup create-user`") err

def requireMontrayServiceAccount : Setup Unit := do
  let user : Bool ← ask (.lookupUser montrayUserName) (accountMissing "user" montrayUserName)
  require user (accountMissing "user" montrayUserName ("user: unknown user " ++ montrayUserName))
  let group : Bool ← ask (.lookupGroup montrayGroupName) (accountMissing "group" montrayGroupName)
  require group
    (accountMissing "group" montrayGroupName ("group: unknown group " ++ montrayGroupName))

def systemDirectories : List Path :=
  [["bin"], ["sbin"], ["usr", "bin"], ["usr", "sbin"], ["usr", "local", "bin"],
    ["usr", "local", "sbin"]]

def packageDirectories : List Path := [["nix", "store"], ["opt"], ["snap"]]

def isSystemExecutablePath (path : Path) : Bool :=
  systemDirectories.contains path.dropLast || packageDirectories.any (·.isPrefixOf path)

def reportExecutable (reinstall installed : Bool) : Setup Unit :=
  if installed then
    print ((if reinstall then "Reinstalled" else "Installed") ++ " executable at " ++
      pathText montrayServerExecutablePath ++ "\n")
  else reportEnsureResult "executable" "Executable" montrayServerExecutablePath false

/-- The executable the service is to run, and whether one was left where it is. -/
def installMontrayServerExecutable (source : Path) (reinstall : Bool) : Setup (Path × Bool) :=
  if isSystemExecutablePath source then pure (source, false)
  else do
    let installed ← installExecutable source montrayServerExecutablePath reinstall
    reportExecutable reinstall installed
    pure (montrayServerExecutablePath, !installed)

def accessUnitDirectory (unitDirectory : Path) : Setup Unit := do
  let access := "access systemd unit directory " ++ pathText unitDirectory
  match ← ask (.stat unitDirectory) (wrap access) with
  | Stat.missing => throw (wrap access "no such file or directory")
  | Stat.file =>
    throw ("systemd unit directory " ++ pathText unitDirectory ++ " is not a directory")
  | Stat.directory => pure ()

/-- `InstallSystemdService` and `ReinstallSystemdService`. -/
def installSystemdService (unitPath : Path) (unitName : String) (contents : List UInt8)
    (reinstall : Bool) : Setup Bool := do
  accessUnitDirectory unitPath.dropLast
  let created ← (if reinstall then replaceFile unitPath contents else ensureFile unitPath contents)
  run .daemonReload (wrap "reload systemd")
  run (.enable unitName) (wrap "enable service")
  pure created

def printMontrayReinstallHint : Setup Unit :=
  print ("\nRun this setup command again with --reinstall to replace installed files. " ++
    "The configuration will not be overwritten.\n")

/-- What is said of the unit and the executable. -/
def reportService (reinstall executablePreserved created : Bool) : Setup Unit :=
  if !created && reinstall then
    print ("Updated systemd service at " ++ pathText montrayServerUnitPath ++ "\n")
  else do
    reportEnsureResult "systemd service" "Systemd service" montrayServerUnitPath created
    if executablePreserved || !created then printMontrayReinstallHint else pure ()

def installMontrayServerService (configFilename : Path) (reinstall : Bool) : Setup Unit := do
  requireMontrayServiceAccount
  let absoluteConfigFilename : Path ← ask (.abs configFilename) (wrap "resolve config path")
  loadConfig absoluteConfigFilename
    (wrap ("validate config at " ++ pathText absoluteConfigFilename))
  let source : Path ← ask .executablePath id
  let executable ← installMontrayServerExecutable source reinstall
  let unit ← rendered (assets.unit executable.1 absoluteConfigFilename)
  let created ← installSystemdService montrayServerUnitPath montrayUnitName unit reinstall
  reportService reinstall executable.2 created

def restartMontrayServerService : Setup Unit := do
  run (.restart montrayUnitName) fun err =>
    wrap "start Montray Server service" err ++
      "\n\nView its status and recent logs with:\n\n" ++
      "    sudo systemctl status montray-server.service\n" ++
      "    sudo journalctl --no-pager -u montray-server.service -n 50"
  print "\nMontray Server is configured, installed, and running.\n"

end Commands

end ServerSetup
end Montray
