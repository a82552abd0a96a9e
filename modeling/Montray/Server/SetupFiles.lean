import Montray.Server.MigrationFiles

/-!
# Montray.Server.SetupFiles

The ordinary setup, `montray-server setup`: it replaces nothing it was not told to replace, and does
nothing at all beside an installation of Salmon.

* `Preserved`: the files that were there are as they were, those of the commands apart.
* `setup_replaces_nothing`: at every point of a setup, whatever fails.
-/

namespace Montray
namespace ServerSetup

open Lib

/-- The files that are there, but for those that are to be installed again and those of the
commands. -/
def Preserved (owned : Path → Prop) (reinstall : Bool) (start s : Host) : Prop :=
  ∀ q, ¬ owned q → start.files q ≠ none →
    (reinstall = true → q ≠ montrayServerUnitPath ∧ q ≠ montrayServerExecutablePath) →
    s.files q = start.files q

section Setup

variable {w : World} {owned : Path → Prop} {reinstall : Bool} {start s t : Host}

theorem Preserved.refl (start : Host) : Preserved owned reinstall start start :=
  fun _ _ _ _ => rfl

theorem Preserved.writing {path : Path} {replace : Bool} {new : List UInt8 → Prop}
    (h : Preserved owned reinstall start s) (hw : Writing path replace new s t)
    (hpath : replace = false ∨ replace = reinstall ∧
      (path = montrayServerUnitPath ∨ path = montrayServerExecutablePath)) :
    Preserved owned reinstall start t := by
  intro q hqo hq hnot
  have hs := h q hqo hq hnot
  rw [hw.eq_of_there (hs ▸ hq) ?_, hs]
  rintro rfl
  rcases hpath with hfalse | ⟨hreplace, hinstalled⟩
  · exact hfalse
  · by_contra hre
    have hnot' := hnot (hreplace.symm.trans (by simpa using hre))
    rcases hinstalled with hunit | hexe
    · exact hnot'.1 hunit
    · exact hnot'.2 hexe

theorem Preserved.installs (howns : w.Owns owned) :
    Installs w reinstall (Preserved owned reinstall start) where
  sysusersFile h hw := h.writing hw (.inl rfl)
  executable h hw := h.writing hw (.inr ⟨rfl, .inr rfl⟩)
  unit h hw := h.writing hw (.inr ⟨rfl, .inl rfl⟩)
  run _ h hran := fun q hqo hq hnot => (howns.ran hran hqo).trans (h q hqo hq hnot)

/-! ## The whole setup -/

theorem setupMontrayServer_keeping (howns : w.Owns owned) (assets : Assets) (cfg : Path)
    (ignoreSalmon : Bool) :
    Keeping w (Preserved owned reinstall start)
      (setupMontrayServer assets cfg reinstall ignoreSalmon) := by
  have hinstalls : Installs w reinstall (Preserved owned reinstall start) :=
    Preserved.installs howns
  have hreject : Keeping w (Preserved owned reinstall start)
      (rejectSalmonServerInstallation defaultSalmonServerInstallation) :=
    Keeping.bind (existingPaths_keeping _) fun _ => Keeping.ite (Keeping.pure _) (Keeping.throw _)
  have hconfig : Keeping w (Preserved owned reinstall start)
      (initializeMontrayServerConfig assets cfg) :=
    Keeping.bind (Keeping.ensureFile fun _ _ hs hw => hs.writing hw (.inl rfl)) fun _ =>
      reportEnsureResult_keeping _ _ _ _
  exact Keeping.bind (Keeping.ite (Keeping.pure _) hreject) fun _ => Keeping.bind hconfig fun _ =>
    Keeping.bind (createMontrayUser_keeping hinstalls assets) fun _ =>
      Keeping.bind (installMontrayServerService_keeping hinstalls assets cfg) fun _ =>
        restartMontrayServerService_keeping hinstalls

theorem lstat_ne_missing {files : Files} {path : Path} (h : files path ≠ none) :
    lstat files path ≠ .missing := by
  unfold lstat
  split
  · exact absurd ‹_› h
  · simp
  · simp

/-- What is there is found, or the search fails. -/
theorem existingPaths_safe (paths : List Path) :
    Safely w (fun t => t = s)
      (Outcome (fun existing t => t = s ∧ ∀ path ∈ paths, s.files path ≠ none → path ∈ existing)
        (fun t => t = s)) (existingPaths paths) s := by
  induction paths with
  | nil => exact ⟨rfl, by simp⟩
  | cons path paths ih =>
    refine Safely.bind (R := Outcome (fun st t => st = lstat s.files path ∧ t = s) (fun t => t = s))
      (Safely.look rfl rfl (fun _ hdone => hdone) (fun _ => rfl)) ?_ (fun _ _ ht => ht)
    rintro st t ⟨rfl, rfl⟩
    refine Safely.bind ih ?_ (fun _ _ ht => ht)
    rintro existing u ⟨rfl, hrest⟩
    refine Safely.pure ⟨rfl, fun q hq hfound => ?_⟩
    rcases List.mem_cons.mp hq with rfl | hq
    · rw [if_neg (lstat_ne_missing hfound)]
      exact List.mem_cons_self
    · have hmem := hrest q hq hfound
      split
      · exact hmem
      · exact List.mem_cons_of_mem _ hmem

/-- Beside an installation of Salmon the setup is refused. -/
theorem rejectSalmonServerInstallation_safe
    (hfound : ∃ path ∈ defaultSalmonServerInstallation.paths, s.files path ≠ none) :
    Safely w (fun t => t = s) (Outcome (fun _ _ => False) (fun t => t = s))
      (rejectSalmonServerInstallation defaultSalmonServerInstallation) s := by
  refine Safely.bind (existingPaths_safe _) ?_ (fun _ _ ht => ht)
  rintro existing t ⟨rfl, hall⟩
  refine Safely.ite (fun hnone => ?_) (fun _ => rfl)
  obtain ⟨path, hpath, hthere⟩ := hfound
  have hmem := hall path hpath hthere
  rw [hnone] at hmem
  cases hmem

/-- At every point, whatever has failed: a file that was there, and is not one of the commands' own,
is as it was, unless it is the unit or the executable and they are to be installed again; and beside
an installation of Salmon, which is not to be ignored, nothing is done. -/
theorem setup_replaces_nothing (assets : Assets) (cfg : Path) (ignoreSalmon : Bool)
    (howns : w.Owns owned) {p : Prog Op Op.Answer (Except String Unit)}
    (hr : Prog.Reaches (Host.does w)
      (start, (setupMontrayServer assets cfg reinstall ignoreSalmon).run) (s, p)) :
    Preserved owned reinstall start s ∧ (ignoreSalmon = false →
      (∃ path ∈ defaultSalmonServerInstallation.paths, start.files path ≠ none) → s = start) := by
  constructor
  · have hsafe : Safely w (Preserved owned reinstall start)
        (fun _ t => Preserved owned reinstall start t)
        (setupMontrayServer assets cfg reinstall ignoreSalmon) start :=
      setupMontrayServer_keeping howns assets cfg ignoreSalmon start (.refl start)
    exact (Prog.Safe.reaches hsafe (.refl start) hr).1
  · rintro rfl hfound
    have hsafe : Safely w (fun t => t = start) (fun _ t => t = start)
        (setupMontrayServer assets cfg reinstall false) start :=
      Safely.bind (rejectSalmonServerInstallation_safe hfound) (fun _ _ ht => ht.elim)
        (fun _ _ ht => ht)
    exact (Prog.Safe.reaches hsafe rfl hr).1

/-- A setup beside Salmon, which is to be ignored. -/
def sampleSetup : Except String Unit × Host :=
  (setupMontrayServer sampleAssets ["etc", "montray.yml"] false true).run.execute
    (Host.respond (· = []) sampleExecute) sampleHost

theorem sampleSetup_reaches :
    Prog.Reaches (Host.does (World.ofCommands (· = []) sampleExecute))
      (sampleHost, (setupMontrayServer sampleAssets ["etc", "montray.yml"] false true).run)
      (sampleSetup.2, .pure sampleSetup.1) :=
  Prog.reaches_execute _ (Host.respond_does _ _) _ sampleHost

theorem setup_replaces_nothing_sample : sampleSetup.1 = .ok () ∧
    sampleSetup.2.files montrayServerUnitPath = some (.file [3]) ∧
    Preserved (· = ["etc", "passwd"]) false sampleHost sampleSetup.2 :=
  ⟨rfl, rfl, (setup_replaces_nothing sampleAssets ["etc", "montray.yml"] true
    (sampleExecute_owns _) sampleSetup_reaches).1⟩

end Setup

end ServerSetup
end Montray
