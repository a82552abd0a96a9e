import Montray.Server.SetupWriting

/-!
# Montray.Server.MigrationFiles

What the migration from Salmon leaves on the host, at every point at which it may be interrupted and
whatever fails. The commands it runs have files of their own, such as those of the accounts and the
links of enabled units; `World.Owns` says which.

* `Kept`: which files may have changed, and into what.
* `migration_keeps_salmon`: until the new service was seen active, Salmon's files are as they were;
  its configuration is never lost.
-/

namespace Montray
namespace ServerSetup

open Lib

/-! ## The files -/

/-- The commands leave all files but their own. -/
def World.Owns (w : World) (owned : Path → Prop) : Prop :=
  ∀ s command ok t, w.command s command ok t → ∀ q, ¬ owned q → t.files q = s.files q

theorem World.Owns.ran {w : World} {owned : Path → Prop} {command : Command} {s t : Host} {q : Path}
    (h : w.Owns owned) (hran : Ran w command s t) (hq : ¬ owned q) : t.files q = s.files q := by
  obtain ⟨ok, u, hu, rfl⟩ := hran
  exact h s command ok u hu q hq

/-- The files that the migration writes, besides the configuration. -/
def writtenPaths : List Path :=
  [montraySysusersPath, montrayServerUnitPath, montrayServerExecutablePath]

def reservedPaths : List Path :=
  [defaultSalmonServerInstallation.backup, defaultSalmonServerInstallation.executable,
    defaultSalmonServerInstallation.unit, defaultSalmonServerInstallation.sysusers] ++ writtenPaths

/-- The files compared with those of the start. -/
structure Kept (owned : Path → Prop) (start : Host) (cfg : Path) (s : Host) : Prop where
  before : s.verified = false → ∀ q, ¬ owned q → start.files q ≠ none →
    q ≠ montrayServerUnitPath → q ≠ montrayServerExecutablePath → s.files q = start.files q
  config : s.files defaultSalmonServerInstallation.config =
      start.files defaultSalmonServerInstallation.config ∨
    s.files defaultSalmonServerInstallation.config = none ∧
      s.files defaultSalmonServerInstallation.backup =
        start.files defaultSalmonServerInstallation.config
  backup : start.files defaultSalmonServerInstallation.backup ≠ none →
    s.files defaultSalmonServerInstallation.backup =
      start.files defaultSalmonServerInstallation.backup
  destination : s.files cfg = start.files cfg ∨ start.files cfg = none ∧
    ∃ data, contents? start.files defaultSalmonServerInstallation.config = some data ∧
      s.files cfg = some (.file data)
  others : ∀ q, ¬ owned q → start.files q ≠ none → q ≠ defaultSalmonServerInstallation.config →
    q ∉ reservedPaths → s.files q = start.files q
  added : ∀ q, ¬ owned q → start.files q = none → s.files q ≠ none →
    q = cfg ∨ q = defaultSalmonServerInstallation.backup ∨ q ∈ writtenPaths ∨
      ∃ path ∈ cfg :: writtenPaths,
        s.files q = some .dir ∧ q <+: path.dropLast ∨ Temporary path q

/-- The configuration of Montray is there. -/
def Prepared (owned : Path → Prop) (start : Host) (cfg : Path) (s : Host) : Prop :=
  Kept owned start cfg s ∧ s.files cfg ≠ none

section Kept

variable {owned : Path → Prop} {start s t : Host} {cfg : Path} {w : World}

theorem Kept.refl (owned : Path → Prop) (start : Host) (cfg : Path) :
    Kept owned start cfg start where
  before _ _ _ _ _ _ := rfl
  config := .inl rfl
  backup _ := rfl
  destination := .inl rfl
  others _ _ _ _ _ := rfl
  added _ _ hnone hsome := absurd hnone hsome

/-- What is there stays unless it is the path that is written. -/
theorem Writing.eq_of_there {path q : Path} {replace : Bool} {new : List UInt8 → Prop}
    (h : Writing path replace new s t) (hthere : s.files q ≠ none)
    (hq : q = path → replace = false) : t.files q = s.files q := by
  generalize he : t.files q = entry
  have hchange := h.files q
  rw [he] at hchange
  cases hchange with
  | same => rfl
  | directory _ hnone => exact absurd hnone hthere
  | temporary _ hnone => exact absurd hnone hthere
  | written hpath hnone _ => exact absurd (hnone (hq hpath)) hthere

theorem Temporary.hidden {path q : Path} (h : Temporary path q) :
    (q.getLastD "").toList.head? = some '.' := by
  obtain ⟨random, rfl⟩ := h
  simp

/-- A path that is neither written nor beside or on the way to one that is. -/
theorem Writing.eq_of_apart {path q : Path} {replace : Bool} {new : List UInt8 → Prop}
    (h : Writing path replace new s t) (hway : ¬ q <+: path.dropLast)
    (hname : (q.getLastD "").toList.head? ≠ some '.') (hq : q ≠ path) :
    t.files q = s.files q := by
  generalize he : t.files q = entry
  have hchange := h.files q
  rw [he] at hchange
  cases hchange with
  | same => rfl
  | directory hdir _ => exact absurd hdir hway
  | temporary htemporary _ => exact absurd htemporary.hidden hname
  | written hpath _ _ => exact absurd hpath hq

/-- What is new is on the way to the path, beside it, or the path. -/
theorem Writing.added {path q : Path} {replace : Bool} {new : List UInt8 → Prop}
    (h : Writing path replace new s t) (hne : t.files q ≠ s.files q) (hsome : t.files q ≠ none) :
    q = path ∨ t.files q = some .dir ∧ q <+: path.dropLast ∨ Temporary path q := by
  generalize he : t.files q = entry at hne hsome ⊢
  have hchange := h.files q
  rw [he] at hchange
  cases hchange with
  | same => exact absurd rfl hne
  | directory hdir _ => exact .inr (.inl ⟨rfl, hdir⟩)
  | temporary htemporary _ => exact .inr (.inr htemporary)
  | written hpath _ _ => exact .inl hpath

/-- The configuration of Salmon and its backup are not on the way to the files that are written. -/
theorem writtenPaths_apart : ∀ path ∈ writtenPaths,
    ∀ q ∈ [defaultSalmonServerInstallation.config, defaultSalmonServerInstallation.backup],
      ¬ q <+: path.dropLast ∧ (q.getLastD "").toList.head? ≠ some '.' ∧ q ≠ path := by
  decide

/-- A file of Montray is being written. -/
theorem Prepared.writing {path : Path} {replace : Bool} {new : List UInt8 → Prop}
    (h : Prepared owned start cfg s) (hcfg : cfg ∉ reservedPaths) (hpath : path ∈ writtenPaths)
    (hreplace : path = montraySysusersPath → replace = false)
    (hw : Writing path replace new s t) : Prepared owned start cfg t := by
  have hreserved : path ∈ reservedPaths := List.mem_append_right _ hpath
  have hcfgpath : cfg ≠ path := by
    rintro rfl
    exact hcfg hreserved
  have hdest : t.files cfg = s.files cfg := hw.eq_of_there h.2 fun heq => absurd heq hcfgpath
  have hapart (q : Path) (hq : q ∈ [defaultSalmonServerInstallation.config,
      defaultSalmonServerInstallation.backup]) : t.files q = s.files q := by
    obtain ⟨hway, hname, hne⟩ := writtenPaths_apart path hpath q hq
    exact hw.eq_of_apart hway hname hne
  have hconfig := hapart defaultSalmonServerInstallation.config (by simp)
  have hbackup := hapart defaultSalmonServerInstallation.backup (by simp)
  obtain ⟨files, ht⟩ := hw.rest
  have hverified : t.verified = s.verified := by rw [ht]
  refine ⟨⟨fun hv q hqo hq hunit hexe => ?_, ?_, fun hb => ?_, ?_, fun q hqo hq hqc hqr => ?_,
    fun q hqo hnone hsome => ?_⟩, hdest ▸ h.2⟩
  · have hs := h.1.before (hverified ▸ hv) q hqo hq hunit hexe
    rw [hw.eq_of_there (hs ▸ hq) ?_, hs]
    rintro rfl
    refine hreplace ?_
    simpa [writtenPaths, hunit, hexe] using hpath
  · rw [hconfig, hbackup]
    exact h.1.config
  · rw [hbackup]
    exact h.1.backup hb
  · rw [hdest]
    exact h.1.destination
  · have hs := h.1.others q hqo hq hqc hqr
    rw [hw.eq_of_there (hs ▸ hq) ?_, hs]
    rintro rfl
    exact absurd hreserved hqr
  · by_cases heq : t.files q = s.files q
    · rw [heq] at hsome ⊢
      exact h.1.added q hqo hnone hsome
    · rcases hw.added heq hsome with rfl | hnew
      · exact .inr (.inr (.inl hpath))
      · exact .inr (.inr (.inr ⟨path, List.mem_cons_of_mem _ hpath, hnew⟩))

/-- The copy of the configuration of Salmon is being written. -/
theorem Kept.copying {data : List UInt8} (hroot : cfg ≠ [])
    (hdata : contents? start.files defaultSalmonServerInstallation.config = some data)
    (hw : Writing cfg false (· = data) start t) : Kept owned start cfg t := by
  have hthere {q : Path} (hq : start.files q ≠ none) : t.files q = start.files q :=
    hw.eq_of_there hq fun _ => rfl
  refine ⟨fun _ q _ hq _ _ => hthere hq, .inl (hthere ?_), hthere, ?_,
    fun q _ hq _ _ => hthere hq, fun q _ hnone hsome => ?_⟩
  · intro hnone
    simp [contents?, hnone] at hdata
  · generalize he : t.files cfg = entry
    have hchange := hw.files cfg
    rw [he] at hchange
    cases hchange with
    | same => exact .inl rfl
    | directory hdir hnone =>
      have hlen := hdir.length_le
      have hpos := List.length_pos_of_ne_nil hroot
      rw [List.length_dropLast] at hlen
      omega
    | temporary htemporary _ => exact absurd rfl htemporary.ne
    | written _ hnone hnew => exact .inr ⟨hnone rfl, data, hdata, by rw [hnew]⟩
  · have hne : t.files q ≠ start.files q := fun heq => hsome (heq.trans hnone)
    rcases hw.added hne hsome with rfl | hnew
    · exact .inl rfl
    · exact .inr (.inr (.inr ⟨cfg, List.mem_cons_self, hnew⟩))

section Commands

variable (howns : w.Owns owned)
  (howned : ∀ q ∈ cfg :: defaultSalmonServerInstallation.config :: reservedPaths, ¬ owned q)
include howns howned

theorem Kept.ran {command : Command} (h : Kept owned start cfg s) (hran : Ran w command s t) :
    Kept owned start cfg t := by
  have hsame {q : Path} (hq : ¬ owned q) : t.files q = s.files q := howns.ran hran hq
  have hconfig := hsame (howned defaultSalmonServerInstallation.config (by simp))
  have hbackup := hsame (howned defaultSalmonServerInstallation.backup (by simp [reservedPaths]))
  refine ⟨fun hv q hq => ?_, ?_, ?_, ?_, fun q hq => ?_, fun q hq => ?_⟩
  · rw [hsame hq]
    exact h.before (hran.verified hv) q hq
  · rw [hconfig, hbackup]
    exact h.config
  · rw [hbackup]
    exact h.backup
  · rw [hsame (howned cfg (by simp))]
    exact h.destination
  · rw [hsame hq]
    exact h.others q hq
  · rw [hsame hq]
    exact h.added q hq

theorem Prepared.ran {command : Command} (h : Prepared owned start cfg s)
    (hran : Ran w command s t) : Prepared owned start cfg t :=
  ⟨h.1.ran howns howned hran, by rw [howns.ran hran (howned cfg (by simp))]; exact h.2⟩

theorem Prepared.installs (hcfg : cfg ∉ reservedPaths) :
    Installs w true (Prepared owned start cfg) where
  sysusersFile h hw := h.writing hcfg (by decide) (fun _ => rfl) hw
  executable h hw := h.writing hcfg (by decide) (by decide) hw
  unit h hw := h.writing hcfg (by decide) (by decide) hw
  run _ h hran := h.ran howns howned hran

end Commands

end Kept

/-! ## Up to the new service -/

section Steps

variable {w : World} {owned : Path → Prop} {start s : Host} {cfg : Path}

/-- In the end there is a configuration of Montray. -/
theorem prepare_safe (hroot : cfg ≠ []) :
    Safely w (Kept owned start cfg)
      (Outcome (fun _ => Prepared owned start cfg) (Kept owned start cfg))
      (prepareMigratedServerConfig defaultSalmonServerInstallation.config cfg) start := by
  have hrefl := Kept.refl owned start cfg
  refine Safely.bind (R := Outcome (fun st t => st = stat start.files cfg ∧ t = start)
    (fun t => t = start)) ?_ ?_ ?_
  · exact Safely.look rfl hrefl (fun _ hdone => hdone) (fun _ => rfl)
  · rintro st t ⟨rfl, rfl⟩
    refine Safely.ite (fun hthere => ?_) (fun _ => ?_)
    · have hsome : t.files cfg ≠ none := by
        intro hnone
        simp [stat, hnone] at hthere
      exact Safely.look rfl hrefl (fun _ _ => ⟨hrefl, hsome⟩) (fun _ => hrefl)
    refine Safely.bind (R := Outcome (fun data u => u = t ∧
        contents? t.files defaultSalmonServerInstallation.config = some data) (fun u => u = t))
      ?_ ?_ ?_
    · exact Safely.look rfl hrefl (fun data h => ⟨rfl, h.1⟩) (fun e => rfl)
    · rintro data u ⟨rfl, hdata⟩
      refine Safely.bind (R := fun _ u' => u' = u) ?_ ?_ ?_
      · exact Safely.look rfl hrefl (fun _ _ => rfl) (fun _ => rfl)
      · rintro _ u' rfl
        refine Safely.bind (Safely.mono (Safely.withContext (ensureFile_safe cfg data u'))
          (fun _ => Kept.copying hroot hdata) (fun _ _ => id)) ?_
          (fun _ _ hv => Kept.copying hroot hdata hv)
        rintro created v ⟨hv, hsome⟩
        have hkept : Kept owned u' cfg v := Kept.copying hroot hdata hv
        exact Safely.ite (fun _ => ⟨hkept, hsome⟩) (fun _ => hkept)
      · rintro e u' rfl
        exact hrefl
    · rintro e u rfl
      exact hrefl
  · rintro e t rfl
    exact hrefl

section Commands

variable {I : Host → Prop} (hI : ∀ command s t, I s → Ran w command s t → I t)
include hI

theorem stopFormerSalmonService_keeping (unitExists : Bool) :
    Keeping w I (stopFormerSalmonService unitExists) :=
  Keeping.ite (Keeping.run (hI _)) (Keeping.pure _)

theorem restartFormerSalmonService_keeping (unitExists : Bool) :
    Keeping w I (restartFormerSalmonService unitExists) :=
  Keeping.ite (Keeping.bind (Keeping.tryRun (hI _)) fun _ => Keeping.tryRun (hI _)) (Keeping.pure _)

theorem renameAccountBack_keeping (accountRenamed : Bool) :
    Keeping w I (renameAccountBack accountRenamed) :=
  Keeping.ite (Keeping.bind (Keeping.tryRun (hI _)) fun _ => Keeping.tryRun (hI _)) (Keeping.pure _)

theorem rollback_keeping (accountRenamed oldUnitExists : Bool) :
    Keeping w I (rollback accountRenamed oldUnitExists) :=
  Keeping.bind (Keeping.tryRun (hI _)) fun _ =>
    Keeping.bind (renameAccountBack_keeping hI _) fun _ => restartFormerSalmonService_keeping hI _

theorem renameAccount_keeping : Keeping w I renameAccount := by
  refine Keeping.bind (Keeping.run (hI _)) fun _ => Keeping.bind
    (Keeping.answer fun s t hs hdone => hI _ s t hs (.of_does hdone)) fun answer => ?_
  cases answer with
  | ok _ => exact Keeping.pure _
  | error e => exact Keeping.bind (Keeping.tryRun (hI _)) fun _ => Keeping.throw _

theorem renameSalmonServiceAccount_keeping : Keeping w I renameSalmonServiceAccount :=
  Keeping.bind (Keeping.look rfl) fun _ => Keeping.bind (Keeping.look rfl) fun _ =>
    Keeping.bind (Keeping.look rfl) fun _ => Keeping.bind (Keeping.look rfl) fun _ =>
      Keeping.ite (Keeping.pure _) (Keeping.ite (Keeping.throw _)
        (Keeping.ite (Keeping.throw _) (renameAccount_keeping hI)))

end Commands

/-! ## The removal of the former files -/

/-- The former installation is no longer needed. -/
def Removing (owned : Path → Prop) (start : Host) (cfg : Path) (s : Host) : Prop :=
  Prepared owned start cfg s ∧ s.verified = true

/-- The files of Salmon that are removed. -/
def formerPaths : List Path :=
  [defaultSalmonServerInstallation.unit, defaultSalmonServerInstallation.executable,
    defaultSalmonServerInstallation.sysusers]

theorem formerPaths_apart : ∀ path ∈ formerPaths, path ∈ reservedPaths ∧
    defaultSalmonServerInstallation.config ≠ path ∧
      defaultSalmonServerInstallation.backup ≠ path := by
  decide

theorem Removing.remove {path : Path} (h : Removing owned start cfg s)
    (hcfg : cfg ∉ reservedPaths) (hpath : path ∈ formerPaths) :
    Removing owned start cfg { s with files := s.files.set path none } := by
  obtain ⟨⟨hkept, hthere⟩, hverified⟩ := h
  obtain ⟨hreserved, hconfig, hbackup⟩ := formerPaths_apart path hpath
  have hdest : cfg ≠ path := by
    rintro rfl
    exact hcfg hreserved
  refine ⟨⟨⟨fun hv => ?_, ?_, fun hb => ?_, ?_, fun q hqo hq hqc hqr => ?_,
    fun q hqo hnone hsome => ?_⟩, ?_⟩, hverified⟩
  · exact absurd (hverified.symm.trans hv) (by simp)
  · simp only [Files.set_other _ _ hconfig, Files.set_other _ _ hbackup]
    exact hkept.config
  · simp only [Files.set_other _ _ hbackup]
    exact hkept.backup hb
  · simp only [Files.set_other _ _ hdest]
    exact hkept.destination
  · have hne : q ≠ path := by
      rintro rfl
      exact hqr hreserved
    simp only [Files.set_other _ _ hne]
    exact hkept.others q hqo hq hqc hqr
  · have hne : q ≠ path := by
      rintro rfl
      simp at hsome
    simp only [Files.set_other _ _ hne] at hsome ⊢
    exact hkept.added q hqo hnone hsome
  · simpa only [Files.set_other _ _ hdest] using hthere

theorem removeFiles_keeping (hcfg : cfg ∉ reservedPaths) {paths : List Path}
    (hpaths : ∀ path ∈ paths, path ∈ formerPaths) :
    Keeping w (Removing owned start cfg) (removeFiles paths) := by
  induction paths with
  | nil => exact Keeping.pure _
  | cons path paths ih =>
    refine Keeping.bind (Keeping.ask fun s t hs hdone => ?_) fun _ =>
      ih fun p hp => hpaths p (List.mem_cons_of_mem _ hp)
    rcases hdone with ⟨was, -, -, rfl⟩ | rfl
    · exact hs.remove hcfg (hpaths path List.mem_cons_self)
    · exact hs

/-- The former configuration is put where there is nothing. -/
theorem Removing.retain {t : Host} (h : Removing owned start cfg s) (hcfg : cfg ∉ reservedPaths)
    (hne : defaultSalmonServerInstallation.config ≠ cfg)
    (hfound : s.files defaultSalmonServerInstallation.config ≠ none)
    (hfree : s.files defaultSalmonServerInstallation.backup = none)
    (hfiles : t.files = (s.files.set defaultSalmonServerInstallation.backup
      (s.files defaultSalmonServerInstallation.config)).set
        defaultSalmonServerInstallation.config none)
    (hverified : t.verified = s.verified) : Removing owned start cfg t := by
  obtain ⟨⟨hkept, hthere⟩, hv⟩ := h
  have hdiffer : defaultSalmonServerInstallation.backup ≠ defaultSalmonServerInstallation.config :=
    by decide
  have hcfgb : cfg ≠ defaultSalmonServerInstallation.backup := by
    rintro rfl
    exact hcfg (by decide)
  have hother {q : Path} (hqc : q ≠ defaultSalmonServerInstallation.config)
      (hqb : q ≠ defaultSalmonServerInstallation.backup) : t.files q = s.files q := by
    rw [hfiles, Files.set_other _ _ hqc, Files.set_other _ _ hqb]
  have hbackup : t.files defaultSalmonServerInstallation.backup =
      s.files defaultSalmonServerInstallation.config := by
    rw [hfiles, Files.set_other _ _ hdiffer, Files.set_same]
  have hconfig : t.files defaultSalmonServerInstallation.config = none := by
    rw [hfiles, Files.set_same]
  refine ⟨⟨⟨fun hv' => ?_, .inr ⟨hconfig, ?_⟩, fun hb => ?_, ?_, fun q hqo hq hqc hqr => ?_,
    fun q hqo hnone hsome => ?_⟩, ?_⟩, hverified.trans hv⟩
  · exact absurd (hv'.symm.trans (hverified.trans hv)) (by simp)
  · rw [hbackup]
    rcases hkept.config with heq | ⟨hnone, -⟩
    · exact heq
    · exact absurd hnone hfound
  · exact absurd (hfree.symm.trans (hkept.backup hb)).symm hb
  · rw [hother hne.symm hcfgb]
    exact hkept.destination
  · have hqb : q ≠ defaultSalmonServerInstallation.backup := by
      rintro rfl
      exact hqr (by decide)
    rw [hother hqc hqb]
    exact hkept.others q hqo hq hqc hqr
  · by_cases hqb : q = defaultSalmonServerInstallation.backup
    · exact .inr (.inl hqb)
    · have hqc : q ≠ defaultSalmonServerInstallation.config := by
        rintro rfl
        exact hsome hconfig
      rw [hother hqc hqb] at hsome ⊢
      exact hkept.added q hqo hnone hsome
  · rw [hother hne.symm hcfgb]
    exact hthere

theorem retainFormerConfig_keeping (hcfg : cfg ∉ reservedPaths)
    (hlstat : w.reliable (.lstat defaultSalmonServerInstallation.backup)) :
    Keeping w (Removing owned start cfg)
      (retainFormerConfig defaultSalmonServerInstallation cfg) := by
  intro s h
  refine Safely.ite (fun _ => h) (fun hne => ?_)
  refine Safely.bind (pathExists_keeping _ s h) (fun found t ht => ?_) (fun _ _ ht => ht)
  refine Safely.ite (fun _ => ?_) (fun _ => ht)
  refine Safely.bind (Safely.mono (pathExists_safe hlstat) (fun _ hu => hu ▸ ht) (fun _ _ => id))
    ?_ (fun _ _ hu => hu.elim)
  rintro retained u ⟨rfl, rfl⟩
  refine Safely.ite (fun _ => ht) (fun hno => ?_)
  have hfree : u.files defaultSalmonServerInstallation.backup = none := by
    simpa using hno
  refine Safely.ask (fun r w hdone => ?_) (fun e w _ hleft => ?_)
  · obtain ⟨hfound, -, hw⟩ := hdone
    have hretain : Removing owned start cfg w :=
      ht.retain hcfg hne hfound hfree (by rw [hw]) (by rw [hw])
    exact ⟨hretain, hretain⟩
  · obtain rfl : w = u := hleft
    exact ⟨ht, ht⟩

/-! ## The migration -/

section Migration

variable (howns : w.Owns owned)
  (howned : ∀ q ∈ cfg :: defaultSalmonServerInstallation.config :: reservedPaths, ¬ owned q)
  (hcfg : cfg ∉ reservedPaths)
  (hlstat : w.reliable (.lstat defaultSalmonServerInstallation.backup))
include howns howned hcfg hlstat

theorem removeFormer_keeping :
    Keeping w (Removing owned start cfg)
      (removeFormerSalmonServerFiles defaultSalmonServerInstallation cfg) := by
  refine Keeping.bind (removeFiles_keeping hcfg fun _ h => h) fun _ =>
    Keeping.bind (retainFormerConfig_keeping hcfg hlstat) fun _ =>
      Keeping.bind (Keeping.run ?_) fun _ => print_keeping _
  intro s t hs hran
  refine ⟨hs.1.ran howns howned hran, ?_⟩
  obtain ⟨ok, u, -, rfl⟩ := hran
  simp [hs.2]

theorem migrateInstallation_kept (assets : Assets) (hroot : cfg ≠ []) :
    Safely w (Kept owned start cfg) (fun _ t => Kept owned start cfg t)
      (migrateInstallation assets defaultSalmonServerInstallation cfg) start := by
  have hI (command : Command) (s t : Host) (hs : Prepared owned start cfg s)
      (hran : Ran w command s t) : Prepared owned start cfg t := hs.ran howns howned hran
  -- From the configuration on, what is shown of the steps is that they keep `Prepared`.
  refine Safely.bind (prepare_safe hroot) (fun _ t ht => ?_) (fun _ _ ht => ht)
  refine Safely.mono (I := Prepared owned start cfg)
    (Q := Outcome (fun _ => Prepared owned start cfg) (Prepared owned start cfg)) ?_
    (fun _ hu => hu.1) ?_
  · refine Safely.bind (pathExists_keeping _ t ht) (fun unitExists t ht => ?_) (fun _ _ ht => ht)
    refine Safely.bind (stopFormerSalmonService_keeping hI unitExists t ht)
      (fun _ t ht => ?_) (fun _ _ ht => ht)
    refine Safely.bind (Keeping.orElse (renameSalmonServiceAccount_keeping hI)
      (restartFormerSalmonService_keeping hI unitExists) t ht) (fun renamed t ht => ?_)
      (fun _ _ ht => ht)
    refine Safely.bind (R := Outcome (fun _ => Removing owned start cfg)
      (Prepared owned start cfg)) ?_ (fun _ u hu => ?_) (fun _ _ hu => hu)
    · refine Safely.orElse (installMontray_safe assets cfg (Prepared.installs howns howned hcfg) ht)
        (fun _ _ hu => hu) (fun e u hu => ?_)
      exact Safely.mono (rollback_keeping hI _ _ u hu) (fun _ => id) (fun _ _ hv _ => hv)
    · refine Safely.mono (removeFormer_keeping howns howned hcfg hlstat u hu)
        (fun _ hv => hv.1) ?_
      rintro (e | _) v hv
      · exact hv.1
      · exact hv.1
  · rintro (e | _) u hu
    · exact hu.1
    · exact hu.1

end Migration

theorem reportNoInstallation_keeping {I : Host → Prop} (cfg : Path) :
    Keeping w I (reportNoInstallation cfg) := by
  refine Keeping.bind (Keeping.lookAnswer rfl) fun answer => ?_
  cases answer with
  | ok st =>
    cases st with
    | missing => exact Keeping.throw _
    | file => exact print_keeping _
    | directory => exact print_keeping _
  | error e => exact Keeping.throw _

/-- What is done before an installation of Salmon is touched. -/
theorem migration_safe {I : Host → Prop} {Q : Except String Unit → Host → Prop} (assets : Assets)
    (hI : I start) (hQ : ∀ r, Q r start)
    (h : Safely w I Q (migrateInstallation assets defaultSalmonServerInstallation cfg) start) :
    Safely w I Q (migrateMontrayServerFromSalmon assets cfg false) start := by
  have hlook {α : Type} {x : Setup α} (hx : Keeping w (fun t => t = start) x) :
      Safely w I (fun _ t => t = start) x start :=
    Safely.mono (hx start rfl) (fun _ ht => ht ▸ hI) (fun _ _ => id)
  refine Safely.bind (hlook (existingPaths_keeping _)) ?_ ?_
  · rintro existing t rfl
    refine Safely.ite (fun _ => ?_) (fun _ => h)
    refine Safely.mono (hlook (reportNoInstallation_keeping cfg)) (fun _ => id) ?_
    rintro r u rfl
    exact hQ r
  · rintro e t rfl
    exact hQ _

theorem dryRun_keeping {I : Host → Prop} (assets : Assets) (cfg : Path) :
    Keeping w I (migrateMontrayServerFromSalmon assets cfg true) :=
  Keeping.bind (existingPaths_keeping _) fun _ => Keeping.ite (reportNoInstallation_keeping cfg)
    (Keeping.bind (print_keeping _) fun _ => print_keeping _)

/-- A host with Salmon. -/
def sampleHost : Host where
  files path :=
    if path = defaultSalmonServerInstallation.config then some (.file [1])
    else if path = defaultSalmonServerInstallation.unit then some (.file [2])
    else if path = ["etc", "passwd"] then some (.file [4])
    else if path <+: ["etc", "systemd", "system"] then some .dir
    else none
  users name := if name = salmonUserName then some 42 else none
  groups name := if name = salmonGroupName then some 43 else none
  services name := if name = salmonUnitName then ⟨true, true⟩ else {}
  executable := ["usr", "bin", "montray-server"]

def sampleAssets : Assets where
  config := []
  sysusers := []
  unit _ _ := .ok [3]

/-- Commands that fail only where they must. -/
def sampleExecute (s : Host) : Command → Option Host
  | .disableNow unit => some (s.setService unit {})
  | .enable unit => some (s.setService unit { s.services unit with enabled := true })
  | .restart unit => some (s.setService unit { s.services unit with running := true })
  | .isActive unit => if (s.services unit).running = true then some s else none
  | .daemonReload => some s
  | .usermod login name =>
    if s.users name ≠ none ∧ s.users login = none then
      some { s with
        files := s.files.set ["etc", "passwd"] (some (.file [5]))
        users := renamed s.users login name }
    else none
  | .groupmod newName name =>
    if s.groups name ≠ none ∧ s.groups newName = none then
      some { s with groups := renamed s.groups newName name }
    else none
  | .sysusers _ => some (s.sysusers (some 999) (some 999))

theorem sampleExecute_owns (valid : List UInt8 → Bool) :
    (World.ofCommands valid sampleExecute).Owns (· = ["etc", "passwd"]) := by
  intro s command ok t h q hq
  cases ok with
  | false => rw [h.2]
  | true =>
    replace h : sampleExecute s command = some t := h
    cases command with
    | usermod login name =>
      obtain ⟨-, heq⟩ := Option.ite_none_right_eq_some.mp h
      cases heq
      exact Files.set_other _ _ hq
    | groupmod newName name =>
      obtain ⟨-, heq⟩ := Option.ite_none_right_eq_some.mp h
      cases heq
      rfl
    | isActive unit =>
      obtain ⟨-, heq⟩ := Option.ite_none_right_eq_some.mp h
      cases heq
      rfl
    | _ =>
      cases h
      rfl

def sampleMigration : Except String Unit × Host :=
  (migrateMontrayServerFromSalmon sampleAssets ["etc", "montray.yml"] false).run.execute
    (Host.respond (· = [1]) sampleExecute) sampleHost

theorem sampleMigration_reaches :
    Prog.Reaches (Host.does (World.ofCommands (· = [1]) sampleExecute))
      (sampleHost, (migrateMontrayServerFromSalmon sampleAssets ["etc", "montray.yml"] false).run)
      (sampleMigration.2, .pure sampleMigration.1) :=
  Prog.reaches_execute _ (Host.respond_does _ _) _ sampleHost

end Steps

end ServerSetup
end Montray
