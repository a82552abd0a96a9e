import Montray.Server.SetupRules

/-!
# Montray.Server.SetupWriting

How the setup writes a file: what may be found on the host at every point, whatever fails and
wherever it is killed, compared with the host before.

* `Change`, `Writing`: directories on the way to the path, temporary files beside it, and the path
  itself, which is replaced at once.
* `ensureFile_safe`, `replaceFile_safe`, `installExecutable_safe`: the three ways to write a file.
* `Installs`: what an invariant has to withstand to be kept by the steps of the setup.
* `installMontray_safe`: the installation by the migration.
-/

namespace Montray
namespace ServerSetup

open Lib

/-! ## The files on the way -/

/-- A temporary file for the path. -/
def Temporary (path q : Path) : Prop :=
  ∃ random, q = path.dropLast ++ ["." ++ path.getLastD "" ++ ".tmp-" ++ random]

theorem Temporary.ne {path q : Path} (h : Temporary path q) : q ≠ path := by
  obtain ⟨random, rfl⟩ := h
  intro heq
  have hlast := congrArg (fun p => (List.getLastD p "").length) heq
  simp only [List.getLastD_concat, String.length_append] at hlast
  have hdot : ".".length = 1 := rfl
  omega

/-- What may become of the path `q` while `path` is written. -/
inductive Change (path : Path) (replace : Bool) (new : List UInt8 → Prop) (q : Path)
    (old : Option Node) : Option Node → Prop where
  | same : Change path replace new q old old
  | directory (h : q <+: path.dropLast) (hold : old = none) :
      Change path replace new q old (some .dir)
  | temporary {entry : Option Node} (h : Temporary path q) (hold : old = none) :
      Change path replace new q old entry
  | written {contents : List UInt8} (h : q = path) (hold : replace = false → old = none)
      (hnew : new contents) : Change path replace new q old (some (.file contents))

/-- The host while the path is written, compared with the host before. -/
structure Writing (path : Path) (replace : Bool) (new : List UInt8 → Prop) (s t : Host) :
    Prop where
  rest : ∃ files, t = { s with files := files }
  files : ∀ q, Change path replace new q (s.files q) (t.files q)

section Writing

variable {path : Path} {replace : Bool} {new : List UInt8 → Prop} {s t : Host}

theorem Change.none_of_none {q : Path} {old : Option Node}
    (h : Change path replace new q old none) : old = none := by
  cases h with
  | same => rfl
  | temporary h hold => exact hold

theorem Writing.refl (s : Host) : Writing path replace new s s :=
  ⟨⟨_, rfl⟩, fun _ => .same⟩

/-- What is not there was not there. -/
theorem Writing.none_of_none {q : Path} (h : Writing path replace new s t)
    (hnone : t.files q = none) : s.files q = none := by
  have hq := h.files q
  rw [hnone] at hq
  exact hq.none_of_none

theorem Writing.set {q : Path} {entry : Option Node} (h : Writing path replace new s t)
    (hq : Change path replace new q (s.files q) entry) :
    Writing path replace new s { t with files := t.files.set q entry } := by
  obtain ⟨⟨files, rfl⟩, hfiles⟩ := h
  refine ⟨⟨_, rfl⟩, fun p => ?_⟩
  by_cases hp : p = q
  · subst hp
    simpa using hq
  · simpa [Files.set_other _ _ hp] using hfiles p

theorem Writing.makeDirs {directory : Path} (h : Writing path replace new s t)
    (hdirectory : directory <+: path.dropLast) :
    Writing path replace new s { t with files := t.files.makeDirs directory } := by
  refine ⟨?_, fun q => ?_⟩
  · obtain ⟨files, rfl⟩ := h.rest
    exact ⟨_, rfl⟩
  show Change path replace new q (s.files q) (t.files.makeDirs directory q)
  unfold Files.makeDirs
  split_ifs with hmade
  · exact .directory (hmade.2.trans hdirectory) (h.none_of_none hmade.1)
  · exact h.files q

/-- A temporary file that was not there before. -/
structure Fresh (path : Path) (s : Host) (temporary : Path) : Prop where
  name : Temporary path temporary
  free : s.files temporary = none

theorem Writing.setTemporary {temporary : Path} (h : Writing path replace new s t)
    (hfresh : Fresh path s temporary) (entry : Option Node) :
    Writing path replace new s { t with files := t.files.set temporary entry } :=
  h.set (.temporary hfresh.name hfresh.free)

end Writing

section Programs

variable {w : World} {path : Path} {replace : Bool} {new : List UInt8 → Prop} {s t : Host}

theorem mkdirAll_safe {context : String → String} (h : Writing path replace new s t) :
    Safely w (Writing path replace new s) (fun _ u => Writing path replace new s u)
      (ask (.mkdirAll path.dropLast) context) t := by
  refine Safely.ask (fun _ u hdone => ?_) (fun e u _ hleft => ?_)
  · obtain ⟨-, rfl⟩ := hdone
    have hmade := h.makeDirs (List.prefix_refl path.dropLast)
    exact ⟨hmade, hmade⟩
  · rcases hleft with rfl | ⟨directory, hdirectory, rfl⟩
    · exact ⟨h, h⟩
    · exact ⟨h.makeDirs hdirectory, h.makeDirs hdirectory⟩

/-- The temporary file was not there before, and is removed whatever becomes of the rest. -/
theorem withTemporary_safe {α : Type} {context : String} {body : Path → Setup α}
    {P : α → Option Node → Prop} (h : Writing path replace new s t)
    (hbody : ∀ temporary u, Fresh path s temporary → Writing path replace new s u →
      Safely w (Writing path replace new s)
        (Outcome (fun a v => Writing path replace new s v ∧ P a (v.files path))
          (Writing path replace new s)) (body temporary) u) :
    Safely w (Writing path replace new s)
      (Outcome (fun a v => Writing path replace new s v ∧ P a (v.files path))
        (Writing path replace new s)) (withTemporary path context body) t := by
  refine Safely.bind (R := Outcome (fun temporary u => Fresh path s temporary ∧
      Writing path replace new s u) (Writing path replace new s)) ?_ ?_ (fun _ _ hu => hu)
  · refine Safely.ask (fun temporary u hdone => ?_) (fun e u _ hleft => ?_)
    · obtain ⟨-, hname, hnone, rfl⟩ := hdone
      have hfresh : Fresh path s temporary := ⟨hname, h.none_of_none hnone⟩
      have hcreated := h.setTemporary hfresh (some (.file []))
      exact ⟨hcreated, hfresh, hcreated⟩
    · obtain rfl : u = t := hleft
      exact ⟨h, h⟩
  rintro temporary u ⟨hfresh, hu⟩
  refine Safely.deferred (hbody temporary u hfresh hu) fun r v hr => ?_
  have hv : Writing path replace new s v := by
    cases r with
    | ok a => exact hr.1
    | error e => exact hr
  refine Safely.answer (fun was u' hdone => ?_) (fun e u' _ hleft => ?_)
  · obtain ⟨-, -, rfl⟩ := hdone
    have hremoved := hv.setTemporary hfresh none
    refine ⟨hremoved, ?_⟩
    cases r with
    | ok a => exact ⟨hremoved, by simpa [Files.set_other _ _ hfresh.name.ne.symm] using hr.2⟩
    | error e => exact hremoved
  · obtain rfl : u' = v := hleft
    exact ⟨hv, hr⟩

/-! ## The three ways to write a file -/

section Temporary

variable {temporary : Path} {contents : List UInt8}

theorem writeTemporary_safe (hfresh : Fresh path s temporary) (h : Writing path replace new s t) :
    Safely w (Writing path replace new s)
      (Outcome (fun _ u => Writing path replace new s u ∧
        u.files temporary = some (.file contents)) (Writing path replace new s))
      (writeTemporary temporary contents) t := by
  refine Safely.bind (Keeping.look rfl t h) (fun _ u hu => ?_) (fun _ _ hu => hu)
  refine Safely.bind (R := Outcome (fun _ v => Writing path replace new s v ∧
    v.files temporary = some (.file contents)) (Writing path replace new s)) ?_
    (fun _ v hv => Safely.look rfl hv.1 (fun _ _ => hv) (fun _ => hv.1)) (fun _ _ hv => hv)
  refine Safely.ask (fun _ v hdone => ?_) (fun e v _ hleft => ?_)
  · obtain rfl : v = _ := hdone
    have hwritten := hu.setTemporary hfresh (some (.file contents))
    exact ⟨hwritten, hwritten, Files.set_same ..⟩
  · rcases hleft with rfl | ⟨written, rfl⟩
    · exact ⟨hu, hu⟩
    · exact ⟨hu.setTemporary hfresh _, hu.setTemporary hfresh _⟩

/-- The link is made where nothing is. -/
theorem link_safe {context : String → String} (h : Writing path replace new s t)
    (hnew : new contents) (hcontents : t.files temporary = some (.file contents)) :
    Safely w (Writing path replace new s)
      (Outcome (fun _ u => Writing path replace new s u ∧ u.files path ≠ none)
        (Writing path replace new s)) (ask (.link temporary path) context) t := by
  refine Safely.ask (fun (linked : Bool) u hdone => ?_) (fun e u _ hleft => ?_)
  · cases linked with
    | true =>
      obtain ⟨-, hfree, rfl⟩ := hdone
      rw [hcontents]
      have hlinked := h.set (.written rfl (fun _ => h.none_of_none hfree) hnew)
      exact ⟨hlinked, hlinked, by simp⟩
    | false =>
      obtain ⟨hthere, rfl⟩ := hdone
      exact ⟨h, h, hthere⟩
  · obtain rfl : u = t := hleft
    exact ⟨h, h⟩

/-- The temporary file takes the place of what is there. -/
theorem rename_safe {context : String → String} (hfresh : Fresh path s temporary)
    (h : Writing path true new s t) (hnew : new contents)
    (hcontents : t.files temporary = some (.file contents)) :
    Safely w (Writing path true new s) (fun _ u => Writing path true new s u)
      (ask (.rename temporary path) context) t := by
  refine Safely.ask (fun _ u hdone => ?_) (fun e u _ hleft => ?_)
  · obtain ⟨-, -, rfl⟩ := hdone
    rw [hcontents]
    have hmoved := (h.set (.written rfl (by simp) hnew)).setTemporary hfresh none
    exact ⟨hmoved, hmoved⟩
  · obtain rfl : u = t := hleft
    exact ⟨h, h⟩

end Temporary

/-- A file that is created where nothing is; in the end something is there. -/
theorem ensureFile_safe (path : Path) (contents : List UInt8) (s : Host) :
    Safely w (Writing path false (· = contents) s)
      (Outcome (fun _ t => Writing path false (· = contents) s t ∧ t.files path ≠ none)
        (Writing path false (· = contents) s)) (ensureFile path contents) s := by
  refine Safely.bind (mkdirAll_safe (.refl s)) (fun _ t ht => ?_) (fun _ _ ht => ht)
  refine withTemporary_safe (P := fun _ entry => entry ≠ none) ht fun temporary u hfresh hu => ?_
  refine Safely.bind (writeTemporary_safe hfresh hu) ?_ (fun _ _ hv => hv)
  rintro _ v ⟨hv, hcontents⟩
  exact link_safe hv rfl hcontents

theorem replaceFile_safe (path : Path) (contents : List UInt8) (s : Host) :
    Safely w (Writing path true (· = contents) s) (fun _ t => Writing path true (· = contents) s t)
      (replaceFile path contents) s := by
  refine Safely.bind (mkdirAll_safe (.refl s)) (fun _ t ht => ?_) (fun _ _ ht => ht)
  refine Safely.bind (Keeping.look rfl t ht) (fun st u hu => ?_) (fun _ _ hu => hu)
  refine Safely.either (withTemporary_safe (P := fun _ _ => True) hu
    fun temporary v hfresh hv => ?_)
  refine Safely.bind (writeTemporary_safe hfresh hv) ?_ (fun _ _ hx => hx)
  rintro _ x ⟨hx, hcontents⟩
  refine Safely.bind (rename_safe hfresh hx rfl hcontents) (fun _ y hy => ?_) (fun _ _ hy => hy)
  exact ⟨hy, trivial⟩

theorem placeExecutable_safe {temporary : Path} {reinstall : Bool} {contents : List UInt8}
    (hfresh : Fresh path s temporary) (h : Writing path reinstall (fun _ => True) s t)
    (hcontents : t.files temporary = some (.file contents)) :
    Safely w (Writing path reinstall (fun _ => True) s)
      (fun _ u => Writing path reinstall (fun _ => True) s u)
      (placeExecutable temporary path reinstall) t := by
  cases reinstall with
  | true =>
    exact Safely.bind (rename_safe hfresh h trivial hcontents) (fun _ _ hu => hu) (fun _ _ hu => hu)
  | false => exact Safely.either (link_safe h trivial hcontents)

theorem copyExecutable_safe (source path : Path) (reinstall : Bool) (s : Host) :
    Safely w (Writing path reinstall (fun _ => True) s)
      (fun _ t => Writing path reinstall (fun _ => True) s t)
      (copyExecutable source path reinstall) s := by
  refine Safely.bind (Keeping.look rfl s (.refl s)) (fun _ t ht => ?_) (fun _ _ ht => ht)
  refine Safely.bind (Keeping.look rfl t ht) (fun _ t ht => ?_) (fun _ _ ht => ht)
  refine Safely.bind (require_keeping _ _ t ht) (fun _ t ht => ?_) (fun _ _ ht => ht)
  refine Safely.bind (mkdirAll_safe ht) (fun _ t ht => ?_) (fun _ _ ht => ht)
  refine Safely.either (withTemporary_safe (P := fun _ _ => True) ht
    fun temporary u hfresh hu => ?_)
  refine Safely.bind (Keeping.look rfl u hu) (fun _ u hu => ?_) (fun _ _ hu => hu)
  refine Safely.bind (R := Outcome (fun _ v => Writing path reinstall (fun _ => True) s v ∧
    FileAt (v.files temporary)) (Writing path reinstall (fun _ => True) s)) ?_ ?_
    (fun _ _ hv => hv)
  · refine Safely.ask (fun _ v hdone => ?_) (fun e v _ hleft => ?_)
    · obtain ⟨contents, -, rfl⟩ := hdone
      have hcopied := hu.setTemporary hfresh (some (.file contents))
      exact ⟨hcopied, hcopied, contents, Files.set_same ..⟩
    · rcases hleft with rfl | ⟨written, rfl⟩
      · exact ⟨hu, hu⟩
      · exact ⟨hu.setTemporary hfresh _, hu.setTemporary hfresh _⟩
  rintro _ v ⟨hv, contents, hcontents⟩
  refine Safely.bind (R := Outcome (fun _ x => x = v) (Writing path reinstall (fun _ => True) s))
    (Safely.look rfl hv (fun _ _ => rfl) (fun _ => hv)) ?_ (fun _ _ hx => hx)
  rintro _ x rfl
  refine Safely.mono (placeExecutable_safe hfresh hv hcontents) (fun _ => id) ?_
  rintro (e | placed) y hy
  · exact hy
  · exact ⟨hy, trivial⟩

theorem installExecutable_safe (source path : Path) (reinstall : Bool) (s : Host) :
    Safely w (Writing path reinstall (fun _ => True) s)
      (fun _ t => Writing path reinstall (fun _ => True) s t)
      (installExecutable source path reinstall) s := by
  have hcopy := copyExecutable_safe (w := w) source path reinstall s
  refine Safely.ite (fun _ => hcopy) (fun _ => ?_)
  refine Safely.bind (R := fun _ t => t = s) (Safely.look rfl (.refl s) (fun _ _ => rfl)
    (fun _ => rfl)) ?_ ?_
  · rintro st t rfl
    exact Safely.ite (fun _ => Safely.pure (.refl t)) (fun _ => hcopy)
  · rintro e t rfl
    exact .refl t

end Programs

/-! ## Commands -/

/-- A command has been run, with success or not. -/
def Ran (w : World) (command : Command) (s t : Host) : Prop :=
  ∃ ok u, w.command s command ok u ∧
    t = { u with verified := s.verified || (ok && decide (command = .isActive montrayUnitName)) }

section Ran

variable {w : World} {command : Command} {s t : Host} {I : Host → Prop}

theorem Ran.of_does (h : (∃ r, s.done w (.run command) r t) ∨ s.left w (.run command) t) :
    Ran w command s t := by
  rcases h with ⟨-, u, hu, rfl⟩ | ⟨u, hu, rfl⟩
  · exact ⟨true, u, hu, rfl⟩
  · exact ⟨false, u, hu, by simp⟩

theorem Ran.verified (h : Ran w command s t) (ht : t.verified = false) : s.verified = false := by
  obtain ⟨ok, u, -, rfl⟩ := h
  exact (Bool.or_eq_false_iff.mp ht).1

theorem Keeping.run {context : String → String} (h : ∀ s t, I s → Ran w command s t → I t) :
    Keeping w I (ServerSetup.run command context) :=
  Keeping.ask fun s t hs hdone => h s t hs (.of_does hdone)

theorem Keeping.tryRun (h : ∀ s t, I s → Ran w command s t → I t) :
    Keeping w I (ServerSetup.tryRun command) :=
  Keeping.bind (Keeping.answer fun s t hs hdone => h s t hs (.of_does hdone)) fun _ =>
    Keeping.pure _

end Ran

/-! ## The steps of the setup -/

/-- The commands that the installation of Montray runs. -/
def installCommands : List Command :=
  [.sysusers montraySysusersPath, .daemonReload, .enable montrayUnitName, .restart montrayUnitName,
    .isActive montrayUnitName]

/-- What an invariant has to withstand to be kept by the steps of the setup. -/
structure Installs (w : World) (reinstall : Bool) (I : Host → Prop) : Prop where
  sysusersFile : ∀ {new s t}, I s → Writing montraySysusersPath false new s t → I t
  executable : ∀ {new s t}, I s → Writing montrayServerExecutablePath reinstall new s t → I t
  unit : ∀ {new s t}, I s → Writing montrayServerUnitPath reinstall new s t → I t
  run : ∀ {command s t}, command ∈ installCommands → I s → Ran w command s t → I t

section Steps

variable {w : World} {I : Host → Prop} {reinstall : Bool}

theorem reportEnsureResult_keeping (description raised : String) (path : Path) (created : Bool) :
    Keeping w I (reportEnsureResult description raised path created) :=
  Keeping.ite (print_keeping _) (print_keeping _)

/-- What withstands the writing of a file is kept by a program that writes it. -/
theorem Keeping.ensureFile {path : Path} {contents : List UInt8}
    (h : ∀ s t, I s → Writing path false (· = contents) s t → I t) :
    Keeping w I (ServerSetup.ensureFile path contents) := by
  intro s hs
  exact Safely.mono (Safely.either (ensureFile_safe path contents s)) (fun t => h s t hs)
    (fun _ t => h s t hs)

theorem requireMontrayServiceAccount_keeping : Keeping w I requireMontrayServiceAccount :=
  Keeping.bind (Keeping.look rfl) fun _ => Keeping.bind (require_keeping _ _) fun _ =>
    Keeping.bind (Keeping.look rfl) fun _ => require_keeping _ _

theorem accessUnitDirectory_keeping (unitDirectory : Path) :
    Keeping w I (accessUnitDirectory unitDirectory) := by
  refine Keeping.bind (Keeping.look rfl) fun st => ?_
  cases st with
  | missing => exact Keeping.throw _
  | file => exact Keeping.throw _
  | directory => exact Keeping.pure _

theorem reportService_keeping (executablePreserved created : Bool) :
    Keeping w I (reportService reinstall executablePreserved created) :=
  Keeping.ite (print_keeping _) (Keeping.bind (reportEnsureResult_keeping _ _ _ _) fun _ =>
    Keeping.ite (print_keeping _) (Keeping.pure _))

theorem rendered_keeping {α : Type} (x : Except String α) : Keeping w I (rendered x) :=
  fun _ hs => hs

section Installs

variable (h : Installs w reinstall I)
include h

theorem createMontrayUser_keeping (assets : Assets) : Keeping w I (createMontrayUser assets) :=
  Keeping.bind (Keeping.ensureFile fun _ _ => h.sysusersFile) fun _ =>
    Keeping.bind (reportEnsureResult_keeping _ _ _ _) fun _ =>
      Keeping.run fun _ _ => h.run (by decide)

theorem installMontrayServerExecutable_keeping (source : Path) :
    Keeping w I (installMontrayServerExecutable source reinstall) := by
  have hinstall : Keeping w I
      (installExecutable source montrayServerExecutablePath reinstall) := fun s hs =>
    Safely.mono (installExecutable_safe _ _ _ s) (fun _ => h.executable hs)
      (fun _ _ => h.executable hs)
  exact Keeping.ite (Keeping.pure _) (Keeping.bind hinstall fun _ =>
    Keeping.bind (Keeping.ite (print_keeping _) (reportEnsureResult_keeping _ _ _ _)) fun _ =>
      Keeping.pure _)

theorem installSystemdService_keeping (contents : List UInt8) :
    Keeping w I
      (installSystemdService montrayServerUnitPath montrayUnitName contents reinstall) := by
  have hunit : Keeping w I (if reinstall then replaceFile montrayServerUnitPath contents
      else ensureFile montrayServerUnitPath contents) := by
    cases reinstall with
    | true =>
      intro s hs
      exact Safely.mono (replaceFile_safe _ contents s) (fun _ => h.unit hs) (fun _ _ => h.unit hs)
    | false => exact Keeping.ensureFile fun _ _ => h.unit
  exact Keeping.bind (accessUnitDirectory_keeping _) fun _ => Keeping.bind hunit fun _ =>
    Keeping.bind (Keeping.run fun _ _ => h.run (by decide)) fun _ =>
      Keeping.bind (Keeping.run fun _ _ => h.run (by decide)) fun _ => Keeping.pure _

theorem installMontrayServerService_keeping (assets : Assets) (cfg : Path) :
    Keeping w I (installMontrayServerService assets cfg reinstall) :=
  Keeping.bind requireMontrayServiceAccount_keeping fun _ =>
    Keeping.bind (Keeping.look rfl) fun _ => Keeping.bind (Keeping.look rfl) fun _ =>
      Keeping.bind (Keeping.look rfl) fun _ =>
        Keeping.bind (installMontrayServerExecutable_keeping h _) fun _ =>
          Keeping.bind (rendered_keeping _) fun _ =>
            Keeping.bind (installSystemdService_keeping h _) fun _ => reportService_keeping _ _

theorem restartMontrayServerService_keeping : Keeping w I restartMontrayServerService :=
  Keeping.bind (Keeping.run fun _ _ => h.run (by decide)) fun _ => print_keeping _

end Installs

/-- What the steps keep is kept by the installation; when it succeeds the new service was seen. -/
theorem installMontray_safe (assets : Assets) (cfg : Path) (h : Installs w true I) {s : Host}
    (hs : I s) :
    Safely w I (Outcome (fun _ t => I t ∧ t.verified = true) I) (installMontray assets cfg) s := by
  refine Safely.bind (createMontrayUser_keeping h assets s hs) (fun _ t ht => ?_) (fun _ _ ht => ht)
  refine Safely.bind (installMontrayServerService_keeping h assets cfg t ht)
    (fun _ t ht => ?_) (fun _ _ ht => ht)
  refine Safely.bind (restartMontrayServerService_keeping h t ht) (fun _ t ht => ?_)
    (fun _ _ ht => ht)
  refine Safely.ask (fun r u hdone => ?_) (fun e u _ hleft => ?_)
  · have hu : I u := h.run (by decide) ht (.of_does (.inl ⟨r, hdone⟩))
    obtain ⟨v, -, rfl⟩ := hdone
    exact ⟨hu, hu, by simp⟩
  · have hu : I u := h.run (by decide) ht (.of_does (.inr hleft))
    exact ⟨hu, hu⟩

end Steps

end ServerSetup
end Montray
