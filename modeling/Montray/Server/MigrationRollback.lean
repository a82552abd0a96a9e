import Montray.Server.MigrationFiles

/-!
# Montray.Server.MigrationRollback

A migration that fails before the new service was seen active leaves the account and the service of
Salmon as they were, if the commands of the rollback themselves succeed.

* `World.Lawful`: what is asked of the commands.
* `renameSalmonServiceAccount_safe`: the account is renamed as a whole, or not at all.
* `rollback_safe`: what the rollback makes of any state the installation of Montray has left.
* `migration_rolls_back`: a failed migration.
-/

namespace Montray
namespace ServerSetup

open Lib

/-! ## The commands -/

/-- The same accounts and services. -/
structure Alike (s t : Host) : Prop where
  users : s.users = t.users
  groups : s.groups = t.groups
  services : s.services = t.services

/-- `usermod` and `groupmod` rename at once or not at all, `systemctl` changes nothing but its unit,
and `systemd-sysusers` nothing but what is missing. -/
structure World.Lawful (w : World) : Prop where
  disableNow_ok : ∀ {s t unit}, w.command s (.disableNow unit) true t →
    Alike t (s.setService unit {})
  enable_ok : ∀ {s t unit}, w.command s (.enable unit) true t →
    Alike t (s.setService unit { s.services unit with enabled := true })
  restart_ok : ∀ {s t unit}, w.command s (.restart unit) true t →
    Alike t (s.setService unit { s.services unit with running := true })
  systemctl : ∀ {s t unit ok command},
    command ∈ [.disableNow unit, .enable unit, .restart unit, .isActive unit] →
      w.command s command ok t → ∃ service, Alike t (s.setService unit service)
  daemonReload : ∀ {s t ok}, w.command s .daemonReload ok t → Alike t s
  usermod_ok : ∀ {s t login name}, w.command s (.usermod login name) true t →
    s.users name ≠ none ∧ Alike t { s with users := renamed s.users login name }
  usermod_failed : ∀ {s t login name}, w.command s (.usermod login name) false t → Alike t s
  groupmod_ok : ∀ {s t newName name}, w.command s (.groupmod newName name) true t →
    s.groups name ≠ none ∧ Alike t { s with groups := renamed s.groups newName name }
  groupmod_failed : ∀ {s t newName name}, w.command s (.groupmod newName name) false t → Alike t s
  sysusers : ∀ {s t ok path}, w.command s (.sysusers path) ok t →
    ∃ uid gid, Alike t (s.sysusers uid gid)

/-- The commands that are run when something has failed, and the one that stops Salmon. -/
def rollbackCommands : List Command :=
  [.disableNow salmonUnitName, .disableNow montrayUnitName, .enable salmonUnitName,
    .restart salmonUnitName, .groupmod salmonGroupName montrayGroupName,
    .usermod salmonUserName montrayUserName]

/-- There is what is to be renamed, and nothing under the new name. -/
def Command.Possible (s : Host) : Command → Prop
  | .usermod login name => s.users name ≠ none ∧ s.users login = none
  | .groupmod newName name => s.groups name ≠ none ∧ s.groups newName = none
  | _ => True

/-- The account and the services compared with those of the start. -/
structure RolledBack (start s : Host) : Prop where
  users : s.users salmonUserName = start.users salmonUserName
  groups : s.groups salmonGroupName = start.groups salmonGroupName
  account : start.users salmonUserName ≠ none ∨ start.groups salmonGroupName ≠ none →
    s.users = start.users ∧ s.groups = start.groups
  former : s.services salmonUnitName = start.services salmonUnitName ∨
    s.services salmonUnitName = ⟨true, true⟩
  montray : s.services montrayUnitName = start.services montrayUnitName ∨
    s.services montrayUnitName = {}

theorem Alike.refl (s : Host) : Alike s s := ⟨rfl, rfl, rfl⟩

theorem Alike.trans {s t u : Host} (h : Alike s t) (h' : Alike t u) : Alike s u :=
  ⟨h.users.trans h'.users, h.groups.trans h'.groups, h.services.trans h'.services⟩

theorem renamed_old (ids : String → Option Nat) (newName name : String) :
    renamed ids newName name name = none :=
  Function.update_self ..

theorem renamed_new (ids : String → Option Nat) {newName name : String} (hne : newName ≠ name) :
    renamed ids newName name newName = ids name := by
  rw [renamed, Function.update_of_ne hne, Function.update_self]

/-- Renaming back undoes a renaming. -/
theorem renamed_back {ids : String → Option Nat} {newName name : String} (hne : newName ≠ name)
    (hnone : ids newName = none) : renamed (renamed ids newName name) name newName = ids := by
  funext x
  by_cases hx : x = newName
  · subst hx
    rw [hnone]
    exact Function.update_self ..
  · by_cases hx' : x = name
    · subst hx'
      simp [renamed, hne, Ne.symm hne]
    · simp [renamed, hx, hx']

section Rollback

variable {w : World} {start s t : Host}

theorem Alike.of_done {command : Command} {r : Unit}
    (hdone : s.done w (.run command) r t) : ∃ u, w.command s command true u ∧ Alike t u := by
  obtain ⟨u, hu, rfl⟩ := hdone
  exact ⟨u, hu, rfl, rfl, rfl⟩

theorem Alike.of_left {command : Command}
    (hleft : s.left w (.run command) t) : ∃ u, w.command s command false u ∧ Alike t u := by
  obtain ⟨u, hu, rfl⟩ := hleft
  exact ⟨u, hu, rfl, rfl, rfl⟩

theorem Alike.of_ran {command : Command} (hran : Ran w command s t) :
    ∃ ok u, w.command s command ok u ∧ Alike t u := by
  obtain ⟨ok, u, hu, rfl⟩ := hran
  exact ⟨ok, u, hu, rfl, rfl, rfl⟩

/-- A command that does not fail. -/
theorem Safely.tryRun_ok {I : Host → Prop} {Q : Except String Unit → Host → Prop}
    {command : Command} (hnever : ∀ t, ¬ w.command s command false t)
    (hok : ∀ t u, w.command s command true u → Alike t u → I t ∧ Q (.ok ()) t) :
    Safely w I Q (tryRun command) s := by
  refine Safely.bind (R := Outcome (fun _ t => Q (.ok ()) t) (fun _ => False)) ?_
    (fun _ _ h => h) (fun _ _ h => h.elim)
  refine Safely.answer (fun r t hdone => ?_) (fun e t _ hleft => ?_)
  · obtain ⟨u, hu, halike⟩ := Alike.of_done hdone
    exact hok t u hu halike
  · obtain ⟨u, hu, -⟩ := Alike.of_left hleft
    exact absurd hu (hnever u)

/-! ## The account -/

/-- After `renameSalmonServiceAccount` has answered. -/
def Renamed (start : Host) (accountRenamed : Bool) (s : Host) : Prop :=
  if accountRenamed then
    (start.users salmonUserName ≠ none ∧ start.users montrayUserName = none ∧
      s.users = renamed start.users montrayUserName salmonUserName) ∧
    start.groups salmonGroupName ≠ none ∧ start.groups montrayGroupName = none ∧
      s.groups = renamed start.groups montrayGroupName salmonGroupName
  else
    (start.users salmonUserName = none ∧ start.groups salmonGroupName = none) ∧
    s.users salmonUserName = none ∧ s.groups salmonGroupName = none

theorem Renamed.alike {accountRenamed : Bool} (h : Renamed start accountRenamed s)
    (halike : Alike t s) : Renamed start accountRenamed t := by
  unfold Renamed at h ⊢
  rwa [halike.users, halike.groups]

section Lawful

variable (hw : w.Lawful)
  (hrun : ∀ command ∈ rollbackCommands, ∀ s t, command.Possible s → ¬ w.command s command false t)
include hw hrun

theorem renameAccount_safe
    (hfree : start.users montrayUserName = none ∧ start.groups montrayGroupName = none) :
    Safely w (fun _ => True)
      (Outcome (fun b t => Renamed start b t ∧ t.services = start.services)
        (fun t => Alike t start)) renameAccount start := by
  have hne : montrayUserName ≠ salmonUserName := by decide
  refine Safely.bind (R := Outcome (fun _ t => start.users salmonUserName ≠ none ∧
      Alike t { start with users := renamed start.users montrayUserName salmonUserName })
    (fun t => Alike t start)) ?_ ?_ (fun _ _ h => h)
  · refine Safely.ask (fun _ t hdone => ⟨trivial, ?_⟩) (fun e t _ hleft => ⟨trivial, ?_⟩)
    · obtain ⟨u, hu, halike⟩ := Alike.of_done hdone
      exact ⟨(hw.usermod_ok hu).1, halike.trans (hw.usermod_ok hu).2⟩
    · obtain ⟨u, hu, halike⟩ := Alike.of_left hleft
      exact halike.trans (hw.usermod_failed hu)
  · rintro _ t ⟨huser, ht⟩
    refine Safely.bind (R := Outcome (fun answer u => if answer.isOk then
        (Renamed start true u ∧ u.services = start.services) else Alike u t)
      (fun _ => False)) ?_ ?_ (fun _ _ h => h.elim)
    · refine Safely.answer (fun _ u hdone => ⟨trivial, ?_⟩) (fun e u _ hleft => ⟨trivial, ?_⟩)
      · obtain ⟨v, hv, halike⟩ := Alike.of_done hdone
        obtain ⟨hgroup, hmod⟩ := hw.groupmod_ok hv
        have hu := halike.trans hmod
        rw [ht.groups] at hgroup
        refine ⟨⟨⟨huser, hfree.1, hu.users.trans ht.users⟩, hgroup, hfree.2, ?_⟩,
          hu.services.trans ht.services⟩
        rw [hu.groups]
        exact congrArg (fun ids => renamed ids montrayGroupName salmonGroupName) ht.groups
      · obtain ⟨v, hv, halike⟩ := Alike.of_left hleft
        exact halike.trans (hw.groupmod_failed hv)
    · intro answer u h
      cases answer with
      | ok _ => exact h
      | error e =>
        have hu : Alike u { start with
            users := renamed start.users montrayUserName salmonUserName } := h.trans ht
        refine Safely.bind (R := fun _ t => Alike t start) ?_ (fun _ _ h => h) (fun _ _ h => h)
        refine Safely.tryRun_ok (fun v => hrun _ (by decide) u v ⟨?_, ?_⟩) fun v x hx hv => ?_
        · rw [hu.users]
          exact (renamed_new _ hne).trans_ne huser
        · rw [hu.users]
          exact renamed_old start.users montrayUserName salmonUserName
        · have hback := hv.trans (hw.usermod_ok hx).2
          refine ⟨trivial, ?_, hback.groups.trans hu.groups, hback.services.trans hu.services⟩
          rw [hback.users]
          exact (congrArg (fun ids => renamed ids salmonUserName montrayUserName) hu.users).trans
            (renamed_back hne hfree.1)

omit hw hrun in
theorem userExists_safe (name : String) :
    Safely w (fun _ => True)
      (Outcome (fun b t => b = (s.users name).isSome ∧ t = s) (fun t => t = s))
      (userExists name) s :=
  Safely.look rfl trivial (fun _ h => h) (fun _ => rfl)

omit hw hrun in
theorem groupExists_safe (name : String) :
    Safely w (fun _ => True)
      (Outcome (fun b t => b = (s.groups name).isSome ∧ t = s) (fun t => t = s))
      (groupExists name) s :=
  Safely.look rfl trivial (fun _ h => h) (fun _ => rfl)

/-- The account is renamed as a whole, or not at all. -/
theorem renameSalmonServiceAccount_safe :
    Safely w (fun _ => True)
      (Outcome (fun b t => Renamed start b t ∧ t.services = start.services)
        (fun t => Alike t start)) renameSalmonServiceAccount start := by
  have hsame (e : String) (t : Host) (ht : t = start) : Alike t start := ht ▸ .refl t
  refine Safely.bind (userExists_safe _) ?_ hsame
  rintro oldUser t ⟨rfl, rfl⟩
  refine Safely.bind (userExists_safe _) ?_ hsame
  rintro newUser u ⟨rfl, rfl⟩
  refine Safely.bind (groupExists_safe _) ?_ hsame
  rintro oldGroup t ⟨rfl, rfl⟩
  refine Safely.bind (groupExists_safe _) ?_ hsame
  rintro newGroup u ⟨rfl, rfl⟩
  refine Safely.ite (fun hnone => ?_) (fun _ => ?_)
  · have hmissing : u.users salmonUserName = none ∧ u.groups salmonGroupName = none := by
      simpa using hnone
    exact ⟨⟨hmissing, hmissing⟩, rfl⟩
  refine Safely.ite (fun _ => .refl u) (fun hnew => ?_)
  refine Safely.ite (fun _ => .refl u) (fun _ => ?_)
  exact renameAccount_safe hw hrun (by simpa using hnew)

end Lawful

/-! ## The service -/

/-- Between the stop of Salmon and the new service. -/
structure Installing (start : Host) (accountRenamed unitExists : Bool) (s : Host) : Prop where
  account : Renamed start accountRenamed s
  former : s.services salmonUnitName = if unitExists then {} else start.services salmonUnitName

section Services

variable {unit other : String} {service : Service}

theorem Host.setService_same : (s.setService unit service).services unit = service :=
  Function.update_self ..

theorem Host.setService_other (h : other ≠ unit) :
    (s.setService unit service).services other = s.services other :=
  Function.update_of_ne h ..

end Services

theorem Host.sysusers_users {uid gid : Option Nat} {name : String}
    (h : name ≠ montrayUserName) : (s.sysusers uid gid).users name = s.users name :=
  Function.update_of_ne h ..

theorem Host.sysusers_groups {uid gid : Option Nat} {name : String}
    (h : name ≠ montrayGroupName) : (s.sysusers uid gid).groups name = s.groups name :=
  Function.update_of_ne h ..

section Installing

variable {accountRenamed unitExists : Bool}

theorem Installing.alike (h : Installing start accountRenamed unitExists s) (halike : Alike t s) :
    Installing start accountRenamed unitExists t :=
  ⟨h.account.alike halike, by rw [halike.services]; exact h.former⟩

theorem Installing.setService {service : Service}
    (h : Installing start accountRenamed unitExists s) :
    Installing start accountRenamed unitExists (s.setService montrayUnitName service) :=
  ⟨h.account, (Host.setService_other (by decide)).trans h.former⟩

theorem update_or_self {ids : String → Option Nat} {name : String} {id : Option Nat}
    (h : ids name ≠ none) : Function.update ids name ((ids name).or id) = ids := by
  obtain ⟨n, hn⟩ := Option.ne_none_iff_exists'.mp h
  rw [hn, Option.some_or, ← hn, Function.update_eq_self]

/-- `systemd-sysusers` leaves an account that was renamed. -/
theorem Renamed.sysusers (uid gid : Option Nat) (h : Renamed start accountRenamed s) :
    Renamed start accountRenamed (s.sysusers uid gid) := by
  have hne : montrayUserName ≠ salmonUserName := by decide
  cases accountRenamed with
  | true =>
    obtain ⟨⟨huser, hfree, husers⟩, hgroup, hfreeGroup, hgroups⟩ := h
    have hu : s.users montrayUserName ≠ none := by
      rw [husers]
      exact (renamed_new _ hne).trans_ne huser
    have hg : s.groups montrayGroupName ≠ none := by
      rw [hgroups]
      exact (renamed_new _ hne).trans_ne hgroup
    exact ⟨⟨huser, hfree, (update_or_self hu).trans husers⟩, hgroup, hfreeGroup,
      (update_or_self hg).trans hgroups⟩
  | false =>
    obtain ⟨hstart, huser, hgroup⟩ := h
    exact ⟨hstart, (Host.sysusers_users hne.symm).trans huser,
      (Host.sysusers_groups hne.symm).trans hgroup⟩

theorem Alike.of_writing {path : Path} {replace : Bool} {new : List UInt8 → Prop}
    (h : Writing path replace new s t) : Alike t s := by
  obtain ⟨files, rfl⟩ := h.rest
  exact ⟨rfl, rfl, rfl⟩

theorem Installing.installs (hw : w.Lawful) :
    Installs w true (Installing start accountRenamed unitExists) where
  sysusersFile h hwriting := h.alike (.of_writing hwriting)
  executable h hwriting := h.alike (.of_writing hwriting)
  unit h hwriting := h.alike (.of_writing hwriting)
  run := by
    intro command s t hcommand h hran
    obtain ⟨ok, u, hu, halike⟩ := Alike.of_ran hran
    have hunit (hmem : command ∈ [.disableNow montrayUnitName, .enable montrayUnitName,
        .restart montrayUnitName, .isActive montrayUnitName]) :
        Installing start accountRenamed unitExists t := by
      obtain ⟨service, hservice⟩ := hw.systemctl hmem hu
      exact h.setService.alike (halike.trans hservice)
    simp only [installCommands, List.mem_cons, List.not_mem_nil, or_false] at hcommand
    rcases hcommand with rfl | rfl | rfl | rfl | rfl
    · obtain ⟨uid, gid, hsysusers⟩ := hw.sysusers hu
      have hafter : Installing start accountRenamed unitExists (s.sysusers uid gid) :=
        ⟨h.account.sysusers uid gid, h.former⟩
      exact hafter.alike (halike.trans hsysusers)
    · exact h.alike (halike.trans (hw.daemonReload hu))
    · exact hunit (by simp)
    · exact hunit (by simp)
    · exact hunit (by simp)

end Installing

/-! ## The rollback -/

section Undo

variable (hw : w.Lawful)
  (hrun : ∀ command ∈ rollbackCommands, ∀ s t, command.Possible s → ¬ w.command s command false t)
include hw hrun

theorem restartFormerSalmonService_safe (unitExists : Bool) :
    Safely w (fun _ => True)
      (Outcome (fun _ t => t.users = s.users ∧ t.groups = s.groups ∧
        t.services montrayUnitName = s.services montrayUnitName ∧
        t.services salmonUnitName = if unitExists then ⟨true, true⟩ else s.services salmonUnitName)
        (fun _ => False))
      (restartFormerSalmonService unitExists) s := by
  cases unitExists with
  | false => exact ⟨rfl, rfl, rfl, rfl⟩
  | true =>
    refine Safely.bind (R := Outcome (fun _ t => Alike t (s.setService salmonUnitName
        { s.services salmonUnitName with enabled := true })) (fun _ => False)) ?_ ?_
      (fun _ _ h => h.elim)
    · exact Safely.tryRun_ok (fun t => hrun _ (by decide) s t trivial) fun t u hu ht =>
        ⟨trivial, ht.trans (hw.enable_ok hu)⟩
    · intro _ t ht
      refine Safely.tryRun_ok (fun u => hrun _ (by decide) t u trivial) fun u v hv hu => ?_
      have hrestart := hu.trans (hw.restart_ok hv)
      refine ⟨trivial, hrestart.users.trans ht.users, hrestart.groups.trans ht.groups, ?_, ?_⟩
      · rw [hrestart.services, Host.setService_other (by decide), ht.services,
          Host.setService_other (by decide)]
      · rw [hrestart.services, Host.setService_same, ht.services, Host.setService_same]
        rfl

theorem renameAccountBack_safe {accountRenamed : Bool} (h : Renamed start accountRenamed s) :
    Safely w (fun _ => True)
      (Outcome (fun _ t => t.services = s.services ∧
        t.users salmonUserName = start.users salmonUserName ∧
        t.groups salmonGroupName = start.groups salmonGroupName ∧
        (start.users salmonUserName ≠ none ∨ start.groups salmonGroupName ≠ none →
          t.users = start.users ∧ t.groups = start.groups)) (fun _ => False))
      (renameAccountBack accountRenamed) s := by
  have hne : montrayUserName ≠ salmonUserName := by decide
  cases accountRenamed with
  | false =>
    obtain ⟨⟨hstart, hstartGroup⟩, huser, hgroup⟩ := h
    refine ⟨rfl, huser.trans hstart.symm, hgroup.trans hstartGroup.symm, fun hthere => ?_⟩
    exact absurd hthere (by simp [hstart, hstartGroup])
  | true =>
    obtain ⟨⟨huser, hfree, husers⟩, hgroup, hfreeGroup, hgroups⟩ := h
    have hgroups' : renamed s.groups salmonGroupName montrayGroupName = start.groups := by
      rw [hgroups]
      exact renamed_back hne hfreeGroup
    have husers' : renamed s.users salmonUserName montrayUserName = start.users := by
      rw [husers]
      exact renamed_back hne hfree
    refine Safely.bind (R := Outcome (fun _ t => Alike t { s with groups := start.groups })
      (fun _ => False)) ?_ ?_ (fun _ _ h => h.elim)
    · refine Safely.tryRun_ok (fun t => hrun _ (by decide) s t ⟨?_, ?_⟩) fun t u hu ht => ?_
      · rw [hgroups]
        exact (renamed_new _ hne).trans_ne hgroup
      · rw [hgroups]
        exact renamed_old ..
      · have hback := ht.trans (hw.groupmod_ok hu).2
        exact ⟨trivial, hback.users, hback.groups.trans hgroups', hback.services⟩
    · intro _ t ht
      have htu : t.users = s.users := ht.users
      refine Safely.tryRun_ok (fun u => hrun _ (by decide) t u ⟨?_, ?_⟩) fun u v hv hu => ?_
      · rw [htu, husers]
        exact (renamed_new _ hne).trans_ne huser
      · rw [htu, husers]
        exact renamed_old ..
      · have hback := hu.trans (hw.usermod_ok hv).2
        have hbackUsers : u.users = start.users := by
          rw [hback.users, ← husers', ← htu]
        have hbackGroups : u.groups = start.groups := hback.groups.trans ht.groups
        exact ⟨trivial, hback.services.trans ht.services, by rw [hbackUsers], by rw [hbackGroups],
          fun _ => ⟨hbackUsers, hbackGroups⟩⟩

/-- Whatever the installation of Montray has left. -/
theorem rollback_safe {accountRenamed unitExists : Bool}
    (h : Installing start accountRenamed unitExists s) :
    Safely w (fun _ => True) (fun _ t => RolledBack start t)
      (rollback accountRenamed unitExists) s := by
  refine Safely.bind (R := Outcome (fun _ t => Alike t (s.setService montrayUnitName {}))
    (fun _ => False)) ?_ ?_ (fun _ _ h => h.elim)
  · exact Safely.tryRun_ok (fun t => hrun _ (by decide) s t trivial) fun t u hu ht =>
      ⟨trivial, ht.trans (hw.disableNow_ok hu)⟩
  intro _ t ht
  have hstopped : Installing start accountRenamed unitExists t := h.setService.alike ht
  refine Safely.bind (renameAccountBack_safe hw hrun hstopped.account) ?_ (fun _ _ h => h.elim)
  rintro _ u ⟨hservices, huser, hgroup, htables⟩
  refine Safely.mono (restartFormerSalmonService_safe hw hrun unitExists) (fun _ => id) ?_
  rintro (e | _) v hv
  · exact hv.elim
  obtain ⟨husers, hgroups, hmontray, hformer⟩ := hv
  refine ⟨by rw [husers, huser], by rw [hgroups, hgroup], by rwa [husers, hgroups], ?_, .inr ?_⟩
  · cases unitExists with
    | true => exact .inr hformer
    | false =>
      rw [hformer, hservices]
      exact .inl hstopped.former
  · rw [hmontray, hservices, ht.services]
    exact Host.setService_same

end Undo

/-! ## A failed migration -/

theorem RolledBack.of_alike (h : Alike t start) : RolledBack start t where
  users := by rw [h.users]
  groups := by rw [h.groups]
  account _ := ⟨h.users, h.groups⟩
  former := .inl (by rw [h.services])
  montray := .inl (by rw [h.services])

/-- The configuration of Montray is written and nothing else is done. -/
theorem prepare_alike (source destination : Path) :
    Safely w (fun _ => True) (fun _ t => Alike t start)
      (prepareMigratedServerConfig source destination) start := by
  have hkeeping : Keeping w (fun t => Alike t start)
      (prepareMigratedServerConfig source destination) :=
    Keeping.bind (Keeping.look rfl) fun _ => Keeping.ite (Keeping.look rfl)
      (Keeping.bind (Keeping.look rfl) fun _ => Keeping.bind (Keeping.look rfl) fun _ =>
        Keeping.bind (Keeping.withContext (Keeping.ensureFile fun _ _ hs hwriting =>
          (Alike.of_writing hwriting).trans hs)) fun _ => require_keeping _ _)
  exact Safely.mono (hkeeping start (.refl start)) (fun _ _ => trivial) (fun _ _ => id)

/-- What was seen stays seen. -/
theorem removeFormer_verified {installation : SalmonServerInstallation} {cfg : Path}
    (h : s.verified = true) :
    Safely w (fun t => t.verified = true) (fun _ t => t.verified = true)
      (removeFormerSalmonServerFiles installation cfg) s := by
  have hremove (paths : List Path) :
      Keeping w (fun t => t.verified = true) (removeFiles paths) := by
    induction paths with
    | nil => exact Keeping.pure _
    | cons path paths ih =>
      refine Keeping.bind (Keeping.ask fun s t hs hdone => ?_) fun _ => ih
      rcases hdone with ⟨was, -, -, rfl⟩ | rfl
      · exact hs
      · exact hs
  have hretain : Keeping w (fun t => t.verified = true) (retainFormerConfig installation cfg) := by
    refine Keeping.ite (Keeping.pure _) (Keeping.bind (pathExists_keeping _) fun _ =>
      Keeping.ite (Keeping.bind (pathExists_keeping _) fun _ =>
        Keeping.ite (Keeping.throw _) (Keeping.ask fun s t hs hdone => ?_)) (Keeping.pure _))
    rcases hdone with ⟨_, -, -, rfl⟩ | rfl
    · exact hs
    · exact hs
  have hall : Keeping w (fun t => t.verified = true)
      (removeFormerSalmonServerFiles installation cfg) := by
    refine Keeping.bind (hremove _) fun _ => Keeping.bind hretain fun _ =>
      Keeping.bind (Keeping.run fun s t hs hran => ?_) fun _ => print_keeping _
    obtain ⟨ok, u, -, rfl⟩ := hran
    simp [hs]
  exact hall s h

section Migration

variable (hw : w.Lawful)
  (hrun : ∀ command ∈ rollbackCommands, ∀ s t, command.Possible s → ¬ w.command s command false t)
include hw hrun

theorem stopFormerSalmonService_safe (unitExists : Bool) :
    Safely w (fun _ => True)
      (Outcome (fun _ t => Alike t (if unitExists then s.setService salmonUnitName {} else s))
        (fun _ => False)) (stopFormerSalmonService unitExists) s := by
  cases unitExists with
  | false => exact .refl s
  | true =>
    refine Safely.ask (fun _ t hdone => ⟨trivial, ?_⟩) (fun e t _ hleft => ?_)
    · obtain ⟨u, hu, halike⟩ := Alike.of_done hdone
      exact halike.trans (hw.disableNow_ok hu)
    · obtain ⟨u, hu, -⟩ := Alike.of_left hleft
      exact absurd hu (hrun _ (by decide) s u trivial)

theorem renamed_rolls_back {unitExists : Bool} {t : Host} (husers : t.users = start.users)
    (hgroups : t.groups = start.groups)
    (hmontray : t.services montrayUnitName = start.services montrayUnitName)
    (hformer : t.services salmonUnitName =
      if unitExists then {} else start.services salmonUnitName) :
    Safely w (fun _ => True)
      (Outcome (fun b u => Installing start b unitExists u) (RolledBack start))
      (orElse renameSalmonServiceAccount (restartFormerSalmonService unitExists)) t := by
  refine Safely.orElse (renameSalmonServiceAccount_safe hw hrun) ?_ ?_
  · rintro accountRenamed u ⟨hrenamed, hservices⟩
    refine ⟨?_, by rw [hservices, hformer]⟩
    unfold Renamed at hrenamed ⊢
    rwa [husers, hgroups] at hrenamed
  · intro e u hu
    refine Safely.mono (restartFormerSalmonService_safe hw hrun unitExists) (fun _ => id) ?_
    rintro (e' | _) v hv
    · exact hv.elim
    obtain ⟨hvu, hvg, hvm, hvf⟩ := hv
    have hallUsers : v.users = start.users := hvu.trans (hu.users.trans husers)
    have hallGroups : v.groups = start.groups := hvg.trans (hu.groups.trans hgroups)
    refine fun _ => ⟨by rw [hallUsers], by rw [hallGroups], fun _ => ⟨hallUsers, hallGroups⟩, ?_,
      .inl (hvm.trans (by rw [hu.services, hmontray]))⟩
    cases unitExists with
    | true => exact .inr hvf
    | false => exact .inl (hvf.trans (by rw [hu.services]; exact hformer))

theorem migrateInstallation_rolls_back (assets : Assets) (cfg : Path) :
    Safely w (fun _ => True)
      (Outcome (fun _ _ => True) (fun t => t.verified = true ∨ RolledBack start t))
      (migrateInstallation assets defaultSalmonServerInstallation cfg) start := by
  refine Safely.bind (prepare_alike _ _) (fun _ t ht => ?_)
    (fun _ _ ht => .inr (.of_alike ht))
  refine Safely.bind (R := fun _ u => Alike u start) (Safely.mono
    (pathExists_keeping (I := fun u => Alike u start) _ t ht) (fun _ _ => trivial) (fun _ _ => id))
    (fun unitExists u hu => ?_) (fun _ _ hu => .inr (.of_alike hu))
  refine Safely.bind (stopFormerSalmonService_safe hw hrun unitExists) ?_ (fun _ _ h => h.elim)
  intro _ v hv
  refine Safely.bind (R := Outcome (fun b x => Installing start b unitExists x)
    (RolledBack start)) (renamed_rolls_back hw hrun ?_ ?_ ?_ ?_) ?_ (fun _ _ h => .inr h)
  · rw [hv.users, ← hu.users]
    cases unitExists <;> rfl
  · rw [hv.groups, ← hu.groups]
    cases unitExists <;> rfl
  · rw [hv.services, ← hu.services]
    cases unitExists with
    | true => exact Host.setService_other (by decide)
    | false => rfl
  · rw [hv.services, ← hu.services]
    cases unitExists with
    | true => exact Host.setService_same
    | false => rfl
  intro accountRenamed x hx
  refine Safely.bind (R := Outcome (fun _ y => y.verified = true) (RolledBack start)) ?_ ?_
    (fun _ _ h => .inr h)
  · refine Safely.orElse (Safely.mono (installMontray_safe assets cfg (Installing.installs hw) hx)
      (fun _ _ => trivial) (fun _ _ => id)) (fun _ y hy => hy.2) (fun e y hy => ?_)
    exact Safely.mono (rollback_safe hw hrun hy) (fun _ => id) (fun _ _ hz _ => hz)
  · intro _ y hy
    refine Safely.mono (removeFormer_verified hy) (fun _ _ => trivial) ?_
    rintro (e | _) z hz
    · exact .inl hz
    · trivial

end Migration

/-- The new service cannot be started. -/
def brokenExecute (s : Host) (command : Command) : Option Host :=
  if command = .restart montrayUnitName then none else sampleExecute s command

theorem brokenExecute_lawful (valid : List UInt8 → Bool) :
    (World.ofCommands valid brokenExecute).Lawful := by
  have hleft {s t : Host} {command : Command}
      (h : (World.ofCommands valid brokenExecute).command s command false t) : Alike t s :=
    h.2 ▸ .refl s
  have hdone {s t : Host} {command : Command}
      (h : (World.ofCommands valid brokenExecute).command s command true t) :
      sampleExecute s command = some t :=
    (Option.ite_none_left_eq_some.mp h).2
  have hsame (s : Host) (unit : String) : Alike s (s.setService unit (s.services unit)) :=
    ⟨rfl, rfl, (Function.update_eq_self unit s.services).symm⟩
  constructor
  case disableNow_ok =>
    intro s t unit h
    cases hdone h
    exact .refl _
  case enable_ok =>
    intro s t unit h
    cases hdone h
    exact .refl _
  case restart_ok =>
    intro s t unit h
    cases hdone h
    exact .refl _
  case systemctl =>
    intro s t unit ok command hcommand h
    cases ok with
    | false => exact ⟨s.services unit, (hleft h).trans (hsame s unit)⟩
    | true =>
      have ht := hdone h
      simp only [List.mem_cons, List.not_mem_nil, or_false] at hcommand
      rcases hcommand with rfl | rfl | rfl | rfl
      · cases ht
        exact ⟨_, .refl _⟩
      · cases ht
        exact ⟨_, .refl _⟩
      · cases ht
        exact ⟨_, .refl _⟩
      · obtain ⟨-, heq⟩ := Option.ite_none_right_eq_some.mp ht
        cases heq
        exact ⟨_, hsame s unit⟩
  case daemonReload =>
    intro s t ok h
    cases ok with
    | false => exact hleft h
    | true =>
      cases hdone h
      exact .refl _
  case usermod_ok =>
    intro s t login name h
    obtain ⟨hpossible, heq⟩ := Option.ite_none_right_eq_some.mp (hdone h)
    cases heq
    exact ⟨hpossible.1, rfl, rfl, rfl⟩
  case groupmod_ok =>
    intro s t newName name h
    obtain ⟨hpossible, heq⟩ := Option.ite_none_right_eq_some.mp (hdone h)
    cases heq
    exact ⟨hpossible.1, rfl, rfl, rfl⟩
  case usermod_failed => exact hleft
  case groupmod_failed => exact hleft
  case sysusers =>
    intro s t ok path h
    cases ok with
    | false =>
      refine ⟨none, none, (hleft h).trans ⟨?_, ?_, rfl⟩⟩
      · simp [Host.sysusers]
      · simp [Host.sysusers]
    | true =>
      cases hdone h
      exact ⟨_, _, .refl _⟩

theorem brokenExecute_succeeds (valid : List UInt8 → Bool) : ∀ command ∈ rollbackCommands,
    ∀ s t, command.Possible s →
      ¬ (World.ofCommands valid brokenExecute).command s command false t := by
  intro command hcommand s t hpossible h
  have hnone : brokenExecute s command = none := h.1
  simp only [rollbackCommands, List.mem_cons, List.not_mem_nil, or_false] at hcommand
  rcases hcommand with rfl | rfl | rfl | rfl | rfl | rfl
  · cases hnone
  · cases hnone
  · cases hnone
  · cases hnone
  · exact Option.some_ne_none _ ((if_pos hpossible).symm.trans hnone)
  · exact Option.some_ne_none _ ((if_pos hpossible).symm.trans hnone)

def sampleFailed : Except String Unit × Host :=
  (migrateMontrayServerFromSalmon sampleAssets ["etc", "montray.yml"] false).run.execute
    (Host.respond (· = [1]) brokenExecute) sampleHost

theorem sampleFailed_reaches :
    Prog.Reaches (Host.does (World.ofCommands (· = [1]) brokenExecute))
      (sampleHost, (migrateMontrayServerFromSalmon sampleAssets ["etc", "montray.yml"] false).run)
      (sampleFailed.2, .pure sampleFailed.1) :=
  Prog.reaches_execute _ (Host.respond_does _ _) _ sampleHost

end Rollback

end ServerSetup
end Montray
