import Montray.Server.Setup

/-!
# Montray.Server.Migration

`montray-server setup migrate-from-salmon`: an installation of Salmon is replaced by one of Montray,
and rolled back if the new service does not come up.

* `migrateMontrayServerFromSalmon`: the whole command.
* `setupMontrayServer`: the ordinary setup, which refuses to run beside an installation of Salmon.
-/

namespace Montray
namespace ServerSetup

open Lib

def salmonUserName : String := "salmon"

def salmonGroupName : String := "salmon"

def salmonUnitName : String := "salmon.service"

structure SalmonServerInstallation where
  config : Path
  executable : Path
  unit : Path
  sysusers : Path

def defaultSalmonServerInstallation : SalmonServerInstallation where
  config := ["etc", "salmon.yml"]
  executable := ["usr", "local", "bin", "salmon"]
  unit := ["etc", "systemd", "system", "salmon.service"]
  sysusers := ["usr", "local", "lib", "sysusers.d", "salmon.conf"]

def SalmonServerInstallation.paths (i : SalmonServerInstallation) : List Path :=
  [i.config, i.executable, i.unit, i.sysusers]

/-- Where the former configuration is retained. -/
def SalmonServerInstallation.backup (i : SalmonServerInstallation) : Path :=
  i.config.dropLast ++ [i.config.getLastD "" ++ ".pre-montray"]

/-! ## Finding Salmon -/

def existingPaths : List Path → Setup (List Path)
  | [] => pure []
  | path :: paths => do
    let st : Stat ← ask (.lstat path)
      (wrap ("inspect former Salmon installation at " ++ pathText path))
    let existing ← existingPaths paths
    pure (if st = .missing then existing else path :: existing)

def existingInstallationPaths (installation : SalmonServerInstallation) : Setup (List Path) :=
  existingPaths installation.paths

def rejectSalmonServerInstallation (installation : SalmonServerInstallation) : Setup Unit := do
  let existing ← existingInstallationPaths installation
  if existing = [] then pure ()
  else
    throw ("a Salmon Server installation was detected:\n  " ++
      "\n  ".intercalate (existing.map pathText) ++
      "\n\nMigrate it explicitly with:\n\n    sudo montray-server setup migrate-from-salmon" ++
      "\n\nTo create a separate Montray Server installation, rerun setup with --ignore-salmon")

/-- `montray-server setup`, run as root. -/
def setupMontrayServer (assets : Assets) (configFilename : Path) (reinstall ignoreSalmon : Bool) :
    Setup Unit := do
  (if ignoreSalmon then pure ()
    else rejectSalmonServerInstallation defaultSalmonServerInstallation)
  initializeMontrayServerConfig assets configFilename
  createMontrayUser assets
  installMontrayServerService assets configFilename reinstall
  restartMontrayServerService

/-! ## The steps of the migration -/

def printSalmonServerMigrationPlan (configFilename : Path) (existing : List Path) : Setup Unit := do
  print ("Would migrate Salmon Server to Montray Server:\n  detected: " ++
    ", ".intercalate (existing.map pathText) ++ "\n  copy configuration to: " ++
    pathText configFilename ++ "\n  rename service account: " ++ salmonUserName ++ " -> " ++
    montrayUserName ++ "\n  install and start: montray-server.service\n")
  print ("  remove the former service, executable, and sysusers file; " ++
    "retain the old config as a backup\n")

def prepareMigratedServerConfig (source destination : Path) : Setup Unit := do
  let st : Stat ← ask (.stat destination)
    (wrap ("inspect Montray Server config at " ++ pathText destination))
  if st ≠ .missing then
    loadConfig destination
      (wrap ("validate existing Montray Server config at " ++ pathText destination))
  else do
    let data : List UInt8 ← ask (.readFile source)
      (wrap ("read Salmon Server config at " ++ pathText source))
    loadConfig source (wrap ("validate Salmon Server config at " ++ pathText source))
    let created ← withContext (ensureFile destination data)
      (wrap ("copy Salmon Server config to " ++ pathText destination))
    require created ("Montray Server config appeared during migration at " ++
      pathText destination ++ "; rerun migration")

def userExists (name : String) : Setup Bool :=
  ask (.lookupUser name) (wrap ("look up service user \"" ++ name ++ "\""))

def groupExists (name : String) : Setup Bool :=
  ask (.lookupGroup name) (wrap ("look up service group \"" ++ name ++ "\""))

/-- The two renames; a user that was renamed alone is renamed back. -/
def renameAccount : Setup Bool := do
  run (.usermod montrayUserName salmonUserName) (wrap "rename Salmon service user")
  match ← answer (.run (.groupmod montrayGroupName salmonGroupName)) with
  | .error err => do
    tryRun (.usermod salmonUserName montrayUserName)
    throw (wrap "rename Salmon service group" err)
  | .ok _ => pure true

def renameSalmonServiceAccount : Setup Bool := do
  let oldUserExists ← userExists salmonUserName
  let newUserExists ← userExists montrayUserName
  let oldGroupExists ← groupExists salmonGroupName
  let newGroupExists ← groupExists montrayGroupName
  if !oldUserExists && !oldGroupExists then pure false
  else if newUserExists || newGroupExists then
    throw ("cannot rename the Salmon service account because \"" ++ montrayUserName ++
      "\" already exists")
  else if !oldUserExists || !oldGroupExists then
    throw ("incomplete Salmon service account: user exists=" ++ toString oldUserExists ++
      ", group exists=" ++ toString oldGroupExists)
  else renameAccount

def stopFormerSalmonService (unitExists : Bool) : Setup Unit :=
  if unitExists then run (.disableNow salmonUnitName) (wrap "stop and disable Salmon service")
  else pure ()

def restartFormerSalmonService (unitExists : Bool) : Setup Unit :=
  if unitExists then do
    tryRun (.enable salmonUnitName)
    tryRun (.restart salmonUnitName)
  else pure ()

def renameAccountBack (accountRenamed : Bool) : Setup Unit :=
  if accountRenamed then do
    tryRun (.groupmod salmonGroupName montrayGroupName)
    tryRun (.usermod salmonUserName montrayUserName)
  else pure ()

/-- The closure `rollback`, without the error it returns. -/
def rollback (accountRenamed oldUnitExists : Bool) : Setup Unit := do
  tryRun (.disableNow montrayUnitName)
  renameAccountBack accountRenamed
  restartFormerSalmonService oldUnitExists

/-- An error is returned after `undo`. -/
def orElse {α : Type} (x : Setup α) (undo : Setup Unit) : Setup α :=
  ExceptT.mk (x.run >>= fun
    | .ok a => .pure (.ok a)
    | .error err => (undo >>= fun _ => throw err : Setup α).run)

def removeFiles : List Path → Setup Unit
  | [] => pure ()
  | path :: paths => do
    let _ ← ask (.remove path) (wrap ("remove former Salmon file " ++ pathText path))
    removeFiles paths

/-- The former configuration is renamed unless it is the one in use. -/
def retainFormerConfig (installation : SalmonServerInstallation) (configFilename : Path) :
    Setup Unit :=
  if installation.config = configFilename then pure ()
  else do
    let found ← pathExists installation.config
    if found then do
      let retained ← pathExists installation.backup
      if retained then
        throw ("cannot retain former Salmon config: both " ++ pathText installation.config ++
          " and backup " ++ pathText installation.backup ++ " exist")
      else
        ask (.rename installation.config installation.backup)
          (wrap ("retain former Salmon config at " ++ pathText installation.backup))
    else pure ()

def removeFormerSalmonServerFiles (installation : SalmonServerInstallation)
    (configFilename : Path) : Setup Unit := do
  removeFiles [installation.unit, installation.executable, installation.sysusers]
  retainFormerConfig installation configFilename
  run .daemonReload (wrap "reload systemd after removing Salmon service")
  print ("Migration complete. Former Salmon service files were removed; " ++
    "its configuration was retained with a .pre-montray suffix.\n")

/-! ## The migration -/

/-- The steps after which the former installation is rolled back if they fail. -/
def installMontray (assets : Assets) (configFilename : Path) : Setup Unit := do
  createMontrayUser assets
  installMontrayServerService assets configFilename true
  restartMontrayServerService
  run (.isActive montrayUnitName) (wrap "verify Montray Server service is active")

/-- The migration of an installation that was found. -/
def migrateInstallation (assets : Assets) (installation : SalmonServerInstallation)
    (configFilename : Path) : Setup Unit := do
  prepareMigratedServerConfig installation.config configFilename
  let oldUnitExists ← pathExists installation.unit
  stopFormerSalmonService oldUnitExists
  let accountRenamed ←
    orElse renameSalmonServiceAccount (restartFormerSalmonService oldUnitExists)
  orElse (installMontray assets configFilename) (rollback accountRenamed oldUnitExists)
  removeFormerSalmonServerFiles installation configFilename

/-- Nothing of Salmon is there. -/
def reportNoInstallation (configFilename : Path) : Setup Unit := do
  match ← answer (.stat configFilename) with
  | .ok (st : Stat) =>
    if st = .missing then throw "no Salmon Server installation was found"
    else print "No Salmon Server installation remains; Montray Server is already configured.\n"
  | .error _ => throw "no Salmon Server installation was found"

def migrateMontrayServerFromSalmon (assets : Assets) (configFilename : Path) (dryRun : Bool) :
    Setup Unit := do
  let installation := defaultSalmonServerInstallation
  let existing ← existingInstallationPaths installation
  if existing = [] then reportNoInstallation configFilename
  else if dryRun then printSalmonServerMigrationPlan configFilename existing
  else migrateInstallation assets installation configFilename

end ServerSetup
end Montray
