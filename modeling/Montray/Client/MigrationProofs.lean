import Montray.Client.Migration

/-!
# Montray.Client.MigrationProofs

The migration either takes place or leaves no file behind.

* `copies_copyEntries`: whatever fails, the copying has only added directories and journaled files.
* `copyEntries_counterpart`, `copyEntries_no_symlink`: what a copying that succeeds has found and
  done, by induction on the listing.
* `migrate_cases`: the migration fails before the copying, or is the copying after the installation.
* `migration_all_or_nothing`: the statement about the files.
-/

namespace Montray
namespace Client
namespace Setup

open Lib

/-! ## The pieces -/

/-- No symbolic link is at or below the directory. -/
def Plain (root : Path) (files : Files) : Prop :=
  ∀ q, root <+: q → ∀ target, files q ≠ some (.symlink target)

theorem Plain.changes {Done : Option Node → Prop} {root root' : Path} {s t : Journaled}
    (h : Plain root s.files) (hc : Changes Done root' s t) : Plain root t.files := by
  intro q hq target hlink
  cases hs : s.files q with
  | none =>
    rcases hc.new q hs with hnone | hdir | ⟨⟨contents, hfile⟩, -⟩
    · rw [hnone] at hlink
      cases hlink
    · rw [hdir] at hlink
      cases hlink
    · rw [hfile] at hlink
      cases hlink
  | some node =>
    rw [hc.keeps q node hs] at hlink
    cases hlink
    exact h q hq target hs

/-- The program only adds what `Grows` and `Leaves` allow. -/
def Copies {α : Type} (root : Path) (m : SetupM α) : Prop :=
  Does (fun s t => Plain root s.files → Grows root s t)
    (fun s t => Plain root s.files → Leaves root s t) m

section Pieces

variable {α β : Type} (io : SetupIo) {root : Path}

theorem Copies.bind {m : SetupM α} {f : α → SetupM β} (hm : Copies root m)
    (hf : ∀ a, Copies root (f a)) : Copies root (m >>= f) :=
  Does.bind (fun h h' hp => Grows.trans id (h hp) (h' (hp.changes (h hp))))
    (fun h h' hp => Grows.trans .inr (h hp) (h' (hp.changes (h hp)))) hm hf

theorem Copies.mono {root' : Path} (hroot : root <+: root') {m : SetupM α} (h : Copies root' m) :
    Copies root m := by
  intro s
  have hplain : Plain root s.files → Plain root' s.files := fun hp q hq => hp q (hroot.trans hq)
  exact ⟨fun a s' hs hp => ((h s).1 a s' hs (hplain hp)).mono hroot,
    fun e s' hs hp => ((h s).2 e s' hs (hplain hp)).mono hroot⟩

theorem copies_pure (root : Path) (a : α) : Copies root (pure a) := by
  intro s
  refine ⟨fun b s' h _ => ?_, fun e s' h => ?_⟩
  · cases h
    exact .refl _ _ _
  · cases h

theorem copies_throw (root : Path) (e : Chain) : Copies root (throw e : SetupM α) := by
  intro s
  refine ⟨fun b s' h => ?_, fun e s' h _ => ?_⟩
  · cases h
  · cases h
    exact .refl _ _ _

theorem copies_attempt (root : Path) (op : Op) (context : String) :
    Copies root (attempt io op context) := by
  unfold attempt
  split
  · exact copies_throw _ _
  · exact copies_pure _ _

theorem copies_createDirAll {path : Path} (hroot : root <+: path ∨ path <+: root) (op : Op)
    (context : String) : Copies root (createDirAll io op path context) := by
  -- What has been made of the path is a prefix of it.
  have hreached : ∀ {reached : Path}, reached <+: path → root <+: reached ∨ reached <+: root := by
    intro reached hpre
    rcases hroot with hroot | hroot
    · exact (List.prefix_or_prefix_of_prefix hpre hroot).symm
    · exact .inr (hpre.trans hroot)
  intro s
  unfold createDirAll
  by_cases hfails : io.fails op = true
  · simp only [hfails, if_true]
    split
    · refine ⟨by simp, fun e s' h _ => ?_⟩
      cases h
      exact changes_makeDirs _ (hreached (List.take_prefix _ _)) s
    · refine ⟨by simp, fun e s' h _ => ?_⟩
      cases h
      exact .refl _ _ _
  · simp only [hfails, if_false, Bool.false_eq_true]
    split
    · refine ⟨fun _ s' h _ => ?_, by simp⟩
      cases h
      exact changes_makeDirs _ hroot s
    · refine ⟨by simp, fun e s' h _ => ?_⟩
      cases h
      exact .refl _ _ _

theorem copies_copyFile (source : Path) {destination : Path} (hroot : root <+: destination)
    (contents : List UInt8) : Copies root (copyFile io source destination contents) := by
  intro s
  unfold copyFile
  by_cases hpresent : s.files.present destination = true
  · simp only [hpresent, if_true]
    refine ⟨fun _ s' h _ => ?_, by simp⟩
    cases h
    exact .refl _ _ _
  · have habsent : Plain root s.files → s.files destination = none := fun hplain =>
      (Files.present_eq_false (Bool.not_eq_true _ ▸ hpresent)).resolve_right
        (hplain destination hroot _)
    simp only [hpresent, Bool.false_eq_true, if_false]
    split
    · refine ⟨by simp, fun e s' h hplain => ?_⟩
      cases h
      have hleft : (io.left destination).map Node.file = none ∨
          FileAt ((io.left destination).map Node.file) := by
        cases io.left destination with
        | none => exact .inl rfl
        | some contents => exact .inr ⟨contents, rfl⟩
      exact changes_create hroot (habsent hplain) hleft hleft
    · refine ⟨fun _ s' h hplain => ?_, by simp⟩
      cases h
      exact changes_create hroot (habsent hplain) (.inr ⟨contents, rfl⟩) ⟨contents, rfl⟩

theorem copies_copyEntry {source skipped : Path} {name : String} {body : SetupM Unit}
    (hbody : Copies root body) : Copies root (copyEntry io source skipped name body) := by
  refine (copies_attempt io root _ _).bind fun _ => ?_
  split
  · exact copies_pure _ _
  · exact (copies_attempt io root _ _).bind fun _ => hbody

theorem copies_openDirectory (source destination : Path) :
    Copies destination (openDirectory io source destination) :=
  (copies_createDirAll io (.inl (List.prefix_refl _)) _ _).bind fun _ => copies_attempt io _ _ _

/-- What is done with one directory of the listing. -/
theorem copies_child {skipped source destination : Path} {name : String} {children : Listing}
    (h : Copies (destination ++ [name])
      (copyEntries io skipped (source ++ [name]) (destination ++ [name]) children)) :
    Copies (destination ++ [name]) (do
      openDirectory io (source ++ [name]) (destination ++ [name])
      copyEntries io skipped (source ++ [name]) (destination ++ [name]) children) :=
  (copies_openDirectory io _ _).bind fun _ => h

theorem copies_copyEntries (skipped source destination : Path) (listing : Listing) :
    Copies destination (copyEntries io skipped source destination listing) := by
  have hname : ∀ (destination : Path) (name : String), destination <+: destination ++ [name] :=
    fun destination name => List.prefix_append _ _
  induction listing generalizing source destination with
  | nil => exact copies_attempt io _ _ _
  | file name contents rest ih =>
    exact (copies_copyEntry io (copies_copyFile io _ (hname destination name) contents)).bind
      fun _ => ih source destination
  | dir name children rest ihc ih =>
    have hbody := copies_child io (ihc (source ++ [name]) (destination ++ [name]))
    exact (copies_copyEntry io (hbody.mono (hname destination name))).bind
      fun _ => ih source destination
  | symlink name target rest ih =>
    exact (copies_copyEntry io (copies_throw _ _)).bind fun _ => ih source destination
  | special name rest ih =>
    exact (copies_copyEntry io (copies_pure _ _)).bind fun _ => ih source destination

theorem copies_copyDirectoryContents (source destination skipped : Path) (listing : Listing) :
    Copies destination
      (copyDirectoryContentsNoclobber io source destination skipped listing) :=
  (copies_openDirectory io source destination).bind fun _ =>
    copies_copyEntries io skipped source destination listing

end Pieces

/-! ## Copying that succeeds -/

section Copied

variable {io : SetupIo} {source destination skipped : Path} {s s' t : Journaled}

theorem attempt_ok {op : Op} {context : String} {u : Unit}
    (h : attempt io op context s = .ok u s') : s' = s := by
  unfold attempt at h
  split at h
  · cases h
  · cases h
    rfl

theorem copyEntry_ok {name : String} {body : SetupM Unit}
    (h : copyEntry io source skipped name body s = .ok () s') :
    source ++ [name] = skipped ∧ s' = s ∨ source ++ [name] ≠ skipped ∧ body s = .ok () s' := by
  obtain ⟨_, t, hread, hentry⟩ := bind_eq_ok.mp h
  obtain rfl := attempt_ok hread
  split at hentry
  · rename_i hskipped
    cases hentry
    exact .inl ⟨hskipped, rfl⟩
  · rename_i hskipped
    obtain ⟨_, t', hinspect, hbody⟩ := bind_eq_ok.mp hentry
    obtain rfl := attempt_ok hinspect
    exact .inr ⟨hskipped, hbody⟩

theorem copyFile_ok {contents : List UInt8}
    (h : copyFile io source destination contents s = .ok () s') :
    s.files.present destination = true ∧ s' = s ∨
      s'.files destination = some (.file contents) := by
  unfold copyFile at h
  split at h
  · rename_i hpresent
    cases h
    exact .inl ⟨hpresent, rfl⟩
  · simp only at h
    split at h
    · cases h
    · cases h
      exact .inr (by simp)

theorem createDirAll_ok {op : Op} {path : Path} {context : String} {u : Unit}
    (h : createDirAll io op path context s = .ok u s') :
    s' = { s with files := s.files.makeDirs path } := by
  unfold createDirAll at h
  by_cases hfails : io.fails op = true
  · simp only [hfails, if_true] at h
    split at h <;> cases h
  · simp only [hfails, Bool.false_eq_true, if_false] at h
    split at h
    · cases h
      rfl
    · cases h

theorem openDirectory_ok (h : openDirectory io source destination s = .ok () s') :
    s' = { s with files := s.files.makeDirs destination } := by
  obtain ⟨_, t, hcreate, hread⟩ := bind_eq_ok.mp h
  obtain rfl := attempt_ok hread
  exact createDirAll_ok hcreate

/-- Below the source directory nothing is skipped. -/
theorem not_skipped (hdeep : skipped.length ≤ source.length + 1) (name n : String) :
    source ++ [name] ++ [n] ≠ skipped := by
  intro h
  have hlen := congrArg List.length h
  simp only [List.length_append, List.length_singleton] at hlen
  omega

/-- A copying that succeeds has met no link but the skipped entry. -/
theorem copyEntries_no_symlink {listing : Listing}
    (h : copyEntries io skipped source destination listing s = .ok () s')
    (hdeep : skipped.length ≤ source.length + 1) {n : String} {q : Path} {target : Target}
    (hget : listing.get? (n :: q) = some (.symlink target)) : source ++ [n] = skipped := by
  induction listing generalizing source destination s s' n q with
  | nil => cases hget
  | file name contents rest ih =>
    obtain ⟨_, t, -, hrest⟩ := bind_eq_ok.mp h
    rw [Listing.get?] at hget
    split at hget
    · split at hget <;> cases hget
    · exact ih hrest hdeep hget
  | dir name children rest ihc ih =>
    obtain ⟨_, t, hentry, hrest⟩ := bind_eq_ok.mp h
    rw [Listing.get?] at hget
    split at hget
    · rename_i hn
      subst hn
      rcases copyEntry_ok hentry with ⟨hskipped, -⟩ | ⟨-, hbody⟩
      · exact hskipped
      · obtain ⟨_, t', -, hchildren⟩ := bind_eq_ok.mp hbody
        cases q with
        | nil => simp [Listing.get?] at hget
        | cons m q =>
          have hchild := ihc hchildren (by simp; omega) hget
          exact absurd hchild (not_skipped hdeep n m)
    · exact ih hrest hdeep hget
  | symlink name target rest ih =>
    obtain ⟨_, t, hentry, hrest⟩ := bind_eq_ok.mp h
    rw [Listing.get?] at hget
    split at hget
    · rename_i hn
      subst hn
      rcases copyEntry_ok hentry with ⟨hskipped, -⟩ | ⟨-, hbody⟩
      · exact hskipped
      · cases hbody
    · exact ih hrest hdeep hget
  | special name rest ih =>
    obtain ⟨_, t, -, hrest⟩ := bind_eq_ok.mp h
    rw [Listing.get?] at hget
    split at hget
    · split at hget <;> cases hget
    · exact ih hrest hdeep hget

/-- Below the name nothing has changed yet. -/
structure Clean (base : Files) (destination : Path) (n : String) (files : Files) : Prop where
  plain : Plain destination files
  same : ∀ q, files (destination ++ n :: q) = base (destination ++ n :: q)

/-- An entry is copied without a trace at its siblings. -/
theorem Clean.sibling {base : Files} {n name : String} (h : Clean base destination n s.files)
    (hne : n ≠ name) {body : SetupM Unit} (hbody : Copies (destination ++ [name]) body)
    (hentry : copyEntry io source skipped name body s = .ok () s') :
    Clean base destination n s'.files := by
  have hchild : destination <+: destination ++ [name] := List.prefix_append _ _
  have hgrows := (copies_copyEntry io hbody s).1 () s' hentry
    fun p hp => h.plain p (hchild.trans hp)
  refine ⟨h.plain.changes hgrows, fun q => ?_⟩
  rw [← h.same q]
  by_contra hchanged
  rcases hgrows.within _ hchanged with hpre | hpre
  · rw [List.prefix_append_right_inj, List.cons_prefix_cons] at hpre
    exact hne hpre.1.symm
  · rw [List.prefix_append_right_inj, List.cons_prefix_cons] at hpre
    exact hne hpre.1

/-- The directory that is made for the children leaves the places of the children. -/
theorem Clean.child {base : Files} {n : String} (h : Clean base destination n s.files)
    (m : String) : Clean base (destination ++ [n]) m (s.files.makeDirs (destination ++ [n])) := by
  have hgrows := changes_makeDirs FileAt (.inl (List.prefix_refl (destination ++ [n]))) s
  refine ⟨fun q hq => (h.plain.changes hgrows) q ((List.prefix_append _ _).trans hq), ?_⟩
  intro q
  rw [Files.makeDirs_below, List.append_assoc]
  exact h.same (m :: q)

/-- What has been copied stays. -/
theorem copyEntries_keeps {listing : Listing}
    (h : copyEntries io skipped source destination listing s = .ok () s')
    (hplain : Plain destination s.files) {q : Path} {node : Node} (hq : s.files q = some node) :
    s'.files q = some node :=
  (((copies_copyEntries io skipped source destination listing) s).1 () s' h hplain).keeps q node hq

/-- Every file of the listing has been copied, unless something was at its place before. -/
theorem copyEntries_counterpart {base : Files} {listing : Listing}
    (h : copyEntries io skipped source destination listing s = .ok () s')
    (hdeep : skipped.length ≤ source.length + 1) {n : String}
    (hclean : Clean base destination n s.files) (hskip : source ++ [n] ≠ skipped) {q : Path}
    {contents : List UInt8} (hget : listing.get? (n :: q) = some (.file contents)) :
    s'.files (destination ++ n :: q) = some (.file contents) ∨
      base (destination ++ n :: q) ≠ none := by
  induction listing generalizing source destination s s' n q with
  | nil => cases hget
  | file name contents' rest ih =>
    obtain ⟨_, t, hentry, hrest⟩ := bind_eq_ok.mp h
    have hbody := copies_copyFile io (source ++ [name]) (List.prefix_refl (destination ++ [name]))
      contents'
    rw [Listing.get?] at hget
    split at hget
    · rename_i hn
      split at hget
      · rename_i hq
        cases hget
        subst hn hq
        obtain ⟨-, hcopy⟩ := (copyEntry_ok hentry).resolve_left fun hs => hskip hs.1
        rcases copyFile_ok hcopy with ⟨hpresent, -⟩ | hcopied
        · refine .inr fun hnone => ?_
          rw [Files.present, hclean.same [], hnone] at hpresent
          cases hpresent
        · have hplain := hclean.plain.changes
            ((hbody.mono (List.prefix_append _ _) s).1 () t hcopy hclean.plain)
          exact .inl (copyEntries_keeps hrest hplain hcopied)
      · cases hget
    · rename_i hne
      exact ih hrest hdeep (hclean.sibling hne hbody hentry) hskip hget
  | dir name children rest ihc ih =>
    obtain ⟨_, t, hentry, hrest⟩ := bind_eq_ok.mp h
    have hbody := copies_child io
      (copies_copyEntries io skipped (source ++ [name]) (destination ++ [name]) children)
    rw [Listing.get?] at hget
    split at hget
    · rename_i hn
      subst hn
      obtain ⟨-, hcopy⟩ := (copyEntry_ok hentry).resolve_left fun hs => hskip hs.1
      obtain ⟨_, t', hopen, hchildren⟩ := bind_eq_ok.mp hcopy
      obtain rfl := openDirectory_ok hopen
      cases q with
      | nil => simp [Listing.get?] at hget
      | cons m q =>
        have hchild := ihc hchildren (by simp; omega) (hclean.child m) (not_skipped hdeep n m) hget
        rw [List.append_assoc, List.singleton_append] at hchild
        have hplain := hclean.plain.changes
          ((hbody.mono (List.prefix_append _ _) s).1 () t hcopy hclean.plain)
        exact hchild.imp_left (copyEntries_keeps hrest hplain)
    · rename_i hne
      exact ih hrest hdeep (hclean.sibling hne hbody hentry) hskip hget
  | symlink name target rest ih =>
    obtain ⟨_, t, hentry, hrest⟩ := bind_eq_ok.mp h
    rw [Listing.get?] at hget
    split at hget
    · split at hget <;> cases hget
    · rename_i hne
      exact ih hrest hdeep (hclean.sibling hne (copies_throw _ _) hentry) hskip hget
  | special name rest ih =>
    obtain ⟨_, t, hentry, hrest⟩ := bind_eq_ok.mp h
    rw [Listing.get?] at hget
    split at hget
    · split at hget <;> cases hget
    · rename_i hne
      exact ih hrest hdeep (hclean.sibling hne (copies_pure _ _) hentry) hskip hget

end Copied

/-! ## Rolling back -/

section Rollback

variable (io : SetupIo)

theorem removeCreated_files (acc : Files × Option String) (path q : Path) :
    (removeCreated io acc path).1 q =
      if q = path ∧ acc.1 q ≠ some .dir then none else acc.1 q := by
  unfold removeCreated
  by_cases hq : q = path
  · subst hq
    split
    · rename_i hnone
      simp [hnone]
    · rename_i hdir
      simp [hdir]
    · rename_i hdir hsome
      have hne : acc.1 q ≠ some .dir := by
        rw [hsome]
        simpa using hdir
      rw [if_pos ⟨rfl, hne⟩]
      exact Files.set_same _ _ _
  · split
    · simp [hq]
    · simp [hq]
    · simp [hq, Files.set_other]

theorem foldl_removeCreated (paths : List Path) (acc : Files × Option String) (q : Path) :
    (paths.foldl (removeCreated io) acc).1 q =
      if q ∈ paths ∧ acc.1 q ≠ some .dir then none else acc.1 q := by
  induction paths generalizing acc with
  | nil => simp
  | cons path paths ih =>
    rw [List.foldl_cons, ih, removeCreated_files]
    by_cases hdir : acc.1 q = some .dir
    · simp [hdir]
    · by_cases hq : q = path
      · subst hq
        simp [hdir]
      · simp [hq]

/-- The journaled files are gone, everything else stays. -/
theorem rollback_files {s : Journaled} (h : ∀ q ∈ s.createdFiles, s.files q ≠ some .dir) (e : Chain)
    (q : Path) : (rollbackCreatedFiles io s e).1.files q =
      if q ∈ s.createdFiles then none else s.files q := by
  have hfold : (rollbackCreatedFiles io s e).1.files =
      (s.createdFiles.reverse.foldl (removeCreated io) (s.files, none)).1 := rfl
  rw [hfold, foldl_removeCreated]
  by_cases hq : q ∈ s.createdFiles
  · simp [hq, h q hq]
  · simp [hq]

end Rollback

/-! ## Installing the configuration -/

section Install

variable {io : SetupIo} {dir : Path} {name : String} {contents : List UInt8} {s : Journaled}

/-- The temporary file is gone in any case. -/
theorem persistTemporary_cases (io : SetupIo) (dir path : Path) (contents : List UInt8)
    (replace : Bool) (s : Journaled) :
    let written := s.files.set (dir ++ [io.temporary]) (some (.file contents))
    let r := persistTemporary io dir path contents replace s
    (∃ e, r = .error e s) ∨ (written path ≠ none ∧ r = .ok .preserved s) ∨
    r = .ok (if written.present path then .reinstalled else .created)
      { s with files := s.files.set path (some (.file contents)) } := by
  intro written r
  by_cases hfresh : io.fails .createTemporary ∨ s.files (dir ++ [io.temporary]) ≠ none
  · exact .inl ⟨_, if_pos hfresh⟩
  have hr : r = _ := if_neg hfresh
  simp only [Files.set_set_none (not_not.mp (not_or.mp hfresh).2)] at hr
  by_cases hpermissions : io.fails .setPermissions = true
  · exact .inl ⟨_, hr.trans (if_pos hpermissions)⟩
  rw [if_neg hpermissions] at hr
  by_cases hwrite : io.fails .writeTemporary = true
  · exact .inl ⟨_, hr.trans (if_pos hwrite)⟩
  rw [if_neg hwrite] at hr
  by_cases hflush : io.fails .flushTemporary = true
  · exact .inl ⟨_, hr.trans (if_pos hflush)⟩
  rw [if_neg hflush] at hr
  cases replace with
  | true =>
    by_cases hpersist : io.fails .persist = true
    · exact .inl ⟨_, hr.trans (if_pos hpersist)⟩
    · exact .inr (.inr (hr.trans (if_neg hpersist)))
  | false =>
    by_cases hthere : written path ≠ none
    · exact .inr (.inl ⟨hthere, hr.trans (if_pos hthere)⟩)
    · rw [if_neg Bool.false_ne_true, if_neg hthere] at hr
      by_cases hpersist : io.fails .persist = true
      · exact .inl ⟨_, hr.trans (if_pos hpersist)⟩
      · exact .inr (.inr (hr.trans (if_neg hpersist)))

/-- The temporary file is gone after an error. -/
theorem persistTemporary_error {path : Path} {replace : Bool} {e : Chain} {s' : Journaled}
    (h : persistTemporary io dir path contents replace s = .error e s') : s' = s := by
  rcases persistTemporary_cases io dir path contents replace s with ⟨e', he⟩ | ⟨-, hok⟩ | hok
  · rw [he] at h
    cases h
    rfl
  · rw [hok] at h
    cases h
  · rw [hok] at h
    cases h

theorem persistTemporary_ok {path : Path} (hnone : s.files path = none)
    (hne : path ≠ dir ++ [io.temporary]) {result : FileResult} {s' : Journaled}
    (h : persistTemporary io dir path contents false s = .ok result s') :
    result = .created ∧ s' = { s with files := s.files.set path (some (.file contents)) } := by
  have hpath : s.files.set (dir ++ [io.temporary]) (some (.file contents)) path = none :=
    (Files.set_other _ _ hne).trans hnone
  rcases persistTemporary_cases io dir path contents false s with ⟨e, he⟩ | ⟨hthere, -⟩ | hok
  · rw [he] at h
    cases h
  · exact absurd hpath hthere
  · rw [hok, Files.present, hpath] at h
    cases h
    exact ⟨rfl, rfl⟩

theorem createDirAll_journal {op : Op} {path : Path} {context : String} {e : Chain} {s' : Journaled}
    (h : createDirAll io op path context s = .error e s') : s'.createdFiles = s.createdFiles := by
  unfold createDirAll at h
  simp only at h
  split_ifs at h <;> cases h <;> rfl

/-- What is done once the directory is there. -/
def placeFile (io : SetupIo) (dir path : Path) (contents : List UInt8) : SetupM FileResult :=
  fun s =>
  if s.files.present path then .ok .preserved s else persistTemporary io dir path contents false s

theorem installFile_eq : installFile io (dir ++ [name]) contents false =
    (createDirAll io .createParent dir "create parent directory" >>= fun _ =>
      placeFile io dir (dir ++ [name]) contents) := by
  have hparent : parentOf (dir ++ [name]) "installation filename has no parent" = pure dir := by
    rw [parentOf, parent?_append]
  have hplace : placeFile io dir (dir ++ [name]) contents = (do
      if !false && (← get).files.present (dir ++ [name]) then return .preserved
      else persistTemporary io dir (dir ++ [name]) contents false) := by
    funext t
    show (if t.files.present (dir ++ [name]) then _ else _) = (if _ then _ else _ : SetupM _) t
    cases t.files.present (dir ++ [name]) <;> rfl
  rw [installFile, hparent, hplace]
  rfl

/-- A failed installation has made directories at most. -/
theorem installFile_error (hplain : Plain dir s.files) {e : Chain} {s' : Journaled}
    (h : installFile io (dir ++ [name]) contents false s = .error e s') :
    Leaves dir s s' ∧ s'.createdFiles = s.createdFiles := by
  have hdir := copies_createDirAll io (.inl (List.prefix_refl dir)) .createParent
    "create parent directory"
  rw [installFile_eq] at h
  rcases bind_eq_error.mp h with hcreate | ⟨_, t, hcreate, hplace⟩
  · have hleaves := (hdir s).2 e s' hcreate hplain
    exact ⟨hleaves, createDirAll_journal hcreate⟩
  · have hgrows := (hdir s).1 _ t hcreate hplain
    obtain rfl := createDirAll_ok hcreate
    unfold placeFile at hplace
    split at hplace
    · cases hplace
    · obtain rfl := persistTemporary_error hplace
      exact ⟨Grows.leaves hgrows, rfl⟩

/-- A successful one has made the file, where nothing was in its place. -/
theorem installFile_ok (hnone : s.files (dir ++ [name]) = none) (htemporary : io.temporary ≠ name)
    {result : FileResult} {s' : Journaled}
    (h : installFile io (dir ++ [name]) contents false s = .ok result s') :
    result = .created ∧ s' = { s with
      files := (s.files.makeDirs dir).set (dir ++ [name]) (some (.file contents)) } := by
  rw [installFile_eq] at h
  obtain ⟨_, t, hcreate, hplace⟩ := bind_eq_ok.mp h
  obtain rfl := createDirAll_ok hcreate
  have hpath : s.files.makeDirs dir (dir ++ [name]) = none := by
    rw [Files.makeDirs_below, hnone]
  have hpresent : (s.files.makeDirs dir).present (dir ++ [name]) = false := by
    rw [Files.present, hpath]
  simp only [placeFile, hpresent, Bool.false_eq_true, if_false] at hplace
  refine persistTemporary_ok hpath ?_ hplace
  intro heq
  exact htemporary (List.singleton_inj.mp (List.append_cancel_left heq)).symm

end Install

/-! ## The migration -/

section Migrate

variable {io : SetupIo} {listing : Listing} {S D : Path} {c d : String} {files : Files}

/-- The files with the new configuration, which is in the journal. -/
def installed (D : Path) (d : String) (contents : List UInt8) (files : Files) : Journaled :=
  ⟨(files.makeDirs D).set (D ++ [d]) (some (.file contents)), [D ++ [d]]⟩

/-- Reading the path gives the bytes. -/
def Reads (files : Files) (path : Path) (contents : List UInt8) : Prop :=
  files path = some (.file contents) ∨ files path = some (.symlink (.file contents))

theorem readConfig_ok {source : Path} {data : List UInt8} {s s' : Journaled}
    (h : readConfig io source s = .ok data s') : Reads s.files source data ∧ s' = s := by
  unfold readConfig at h
  simp only at h
  split at h
  · cases h
  · split at h
    · rename_i hfile
      cases h
      exact ⟨.inl hfile, rfl⟩
    · rename_i hlink
      cases h
      exact ⟨.inr hlink, rfl⟩
    · cases h

theorem readConfig_error {source : Path} {e : Chain} {s s' : Journaled}
    (h : readConfig io source s = .error e s') : s' = s := by
  unfold readConfig at h
  simp only at h
  split at h
  · cases h
    rfl
  · split at h <;> cases h
    rfl

theorem decodeText_ok {data : List UInt8} {text : String} {s s' : Journaled}
    (h : decodeText data s = .ok text s') : fromUtf8 data = some text ∧ s' = s := by
  cases htext : fromUtf8 data with
  | none =>
    simp only [decodeText, htext] at h
    cases h
  | some text' =>
    simp only [decodeText, htext] at h
    cases h
    exact ⟨rfl, rfl⟩

theorem decodeText_error {data : List UInt8} {e : Chain} {s s' : Journaled}
    (h : decodeText data s = .error e s') : s' = s := by
  cases htext : fromUtf8 data with
  | none =>
    simp only [decodeText, htext] at h
    cases h
    rfl
  | some text =>
    simp only [decodeText, htext] at h
    cases h

theorem migrate_eq (hnone : files (D ++ [d]) = none) :
    migrate io listing (S ++ [c]) (D ++ [d]) ⟨files, []⟩ =
      (readConfig io (S ++ [c]) >>= fun data => decodeText data >>= fun text =>
        installAndCopy io listing (S ++ [c]) (D ++ [d]) S D text) ⟨files, []⟩ := by
  have hpresent : files.present (D ++ [d]) = false := by
    rw [Files.present, hnone]
  have hget : ∀ (k : Journaled → SetupM Unit) (s : Journaled), (get >>= k) s = k s s := by
    intro k s
    rfl
  have hsource : parentOf (S ++ [c]) "Salmon Watch config has no parent" = pure S := by
    rw [parentOf, parent?_append]
  have hdestination : parentOf (D ++ [d]) "Montray UI config has no parent" = pure D := by
    rw [parentOf, parent?_append]
  rw [migrate, hget]
  simp only [hpresent, Bool.false_eq_true, if_false, hsource, hdestination, pure_bind]

/-- The outcome of the last part, if the configuration can be installed. -/
theorem installAndCopy_cases (hplain : Plain D files) (hnone : files (D ++ [d]) = none)
    (htemporary : io.temporary ≠ d) (text : String) :
    (∃ e s, installAndCopy io listing (S ++ [c]) (D ++ [d]) S D text ⟨files, []⟩ = .error e s ∧
      Leaves D ⟨files, []⟩ s ∧ s.createdFiles = []) ∨
    installAndCopy io listing (S ++ [c]) (D ++ [d]) S D text ⟨files, []⟩ =
      orRollBack io (copyDirectoryContentsNoclobber io S D (S ++ [c]) listing)
        (installed D d (utf8 (migratedText S D text)) files) := by
  unfold installAndCopy
  show (∃ e s, EStateM.bind _ _ _ = _ ∧ _) ∨ EStateM.bind _ _ _ = _
  cases hinstall : installFile io (D ++ [d]) (utf8 (migratedText S D text)) false ⟨files, []⟩ with
  | error e s =>
    refine .inl ⟨e, s, ?_, installFile_error hplain hinstall⟩
    simp only [EStateM.bind, hinstall]
  | ok result s =>
    obtain ⟨rfl, rfl⟩ := installFile_ok hnone htemporary hinstall
    refine .inr ?_
    simp only [EStateM.bind, hinstall]
    rfl

/-- The migration fails with the files as they were, up to directories, or it is the copying after
the installation. -/
theorem migrate_cases (hplain : Plain D files) (hnone : files (D ++ [d]) = none)
    (htemporary : io.temporary ≠ d) :
    (∃ e s, migrate io listing (S ++ [c]) (D ++ [d]) ⟨files, []⟩ = .error e s ∧
      Leaves D ⟨files, []⟩ s ∧ s.createdFiles = []) ∨
    ∃ data text, Reads files (S ++ [c]) data ∧ fromUtf8 data = some text ∧
      migrate io listing (S ++ [c]) (D ++ [d]) ⟨files, []⟩ =
        orRollBack io (copyDirectoryContentsNoclobber io S D (S ++ [c]) listing)
          (installed D d (utf8 (migratedText S D text)) files) := by
  rw [migrate_eq hnone]
  have hbind : ∀ {α β : Type} (m : SetupM α) (f : α → SetupM β) (s : Journaled),
      (m >>= f) s = EStateM.bind m f s := fun _ _ _ => rfl
  rw [hbind, EStateM.bind]
  cases hread : readConfig io (S ++ [c]) ⟨files, []⟩ with
  | error e s =>
    obtain rfl := readConfig_error hread
    exact .inl ⟨e, _, rfl, .refl _ _ _, rfl⟩
  | ok data s =>
    obtain ⟨hdata, rfl⟩ := readConfig_ok hread
    simp only [hbind, EStateM.bind]
    cases hdecode : decodeText data ⟨files, []⟩ with
    | error e s =>
      obtain rfl := decodeText_error hdecode
      exact .inl ⟨e, _, rfl, .refl _ _ _, rfl⟩
    | ok text s =>
      obtain ⟨htext, rfl⟩ := decodeText_ok hdecode
      exact (installAndCopy_cases hplain hnone htemporary text).imp_right fun h =>
        ⟨data, text, hdata, htext, h⟩

/-- What the installation adds. -/
theorem grows_installed (hnone : files (D ++ [d]) = none) (contents : List UInt8) :
    Grows D ⟨files, []⟩ (installed D d contents files) := by
  have hpath : files.makeDirs D (D ++ [d]) = none := by
    rw [Files.makeDirs_below, hnone]
  have hdirs := changes_makeDirs FileAt (.inl (List.prefix_refl D)) ⟨files, []⟩
  exact Grows.trans id hdirs
    (changes_create (List.prefix_append D [d]) hpath (.inr ⟨contents, rfl⟩) ⟨contents, rfl⟩)

theorem orRollBack_ok {m : SetupM Unit} {s s' : Journaled} (h : orRollBack io m s = .ok () s') :
    m s = .ok () s' := by
  unfold orRollBack at h
  split at h
  · rename_i hm
    cases h
    exact hm
  · cases h

theorem orRollBack_error {m : SetupM Unit} {s s' : Journaled} {e : Chain}
    (h : orRollBack io m s = .error e s') :
    ∃ e' t, m s = .error e' t ∧ s' = (rollbackCreatedFiles io t e').1 := by
  unfold orRollBack at h
  split at h
  · cases h
  · rename_i e' t hm
    cases h
    exact ⟨e', t, hm, rfl⟩

/-- A failed migration has made directories at most. -/
theorem migrate_error (hplain : Plain D files) (hnone : files (D ++ [d]) = none)
    (htemporary : io.temporary ≠ d) {e : Chain} {s : Journaled}
    (h : migrate io listing (S ++ [c]) (D ++ [d]) ⟨files, []⟩ = .error e s) :
    (∀ q node, files q = some node → s.files q = some node) ∧
      ∀ q, s.files q ≠ files q → s.files q = some .dir ∧ (D <+: q ∨ q <+: D) := by
  rcases migrate_cases hplain hnone htemporary with
    ⟨e', s', hearly, hleaves, hjournal⟩ | ⟨data, text, -, -, hcopy⟩
  · rw [hearly] at h
    cases h
    exact Leaves.removed hleaves rfl fun q => by rw [hjournal, if_neg List.not_mem_nil]
  · rw [hcopy] at h
    obtain ⟨e', t, hfailed, rfl⟩ := orRollBack_error h
    have hinstalled := grows_installed hnone (utf8 (migratedText S D text))
    have hleaves : Leaves D ⟨files, []⟩ t := Grows.trans .inr hinstalled
      ((copies_copyDirectoryContents io S D (S ++ [c]) listing _).2 e' t hfailed
        (hplain.changes hinstalled))
    refine Leaves.removed hleaves rfl (rollback_files io ?_ e')
    intro q hq hdir
    rcases hleaves.created q hq with hmem | ⟨-, hnone | ⟨contents, hfile⟩⟩
    · cases hmem
    · rw [hnone] at hdir
      cases hdir
    · rw [hfile] at hdir
      cases hdir

/-- A successful one has installed the configuration and copied the directory. -/
theorem migrate_ok (hplain : Plain D files) (hnone : files (D ++ [d]) = none)
    (htemporary : io.temporary ≠ d) {s : Journaled}
    (h : migrate io listing (S ++ [c]) (D ++ [d]) ⟨files, []⟩ = .ok () s) :
    ∃ data text, Reads files (S ++ [c]) data ∧ fromUtf8 data = some text ∧
      copyDirectoryContentsNoclobber io S D (S ++ [c]) listing
        (installed D d (utf8 (migratedText S D text)) files) = .ok () s := by
  rcases migrate_cases hplain hnone htemporary with
    ⟨e, s', hearly, -, -⟩ | ⟨data, text, hdata, htext, hcopy⟩
  · rw [hearly] at h
    cases h
  · rw [hcopy] at h
    exact ⟨data, text, hdata, htext, orRollBack_ok h⟩

/-- Neither directory is on the way to, or below, the other. -/
theorem not_within (hSD : ¬ S <+: D) (hDS : ¬ D <+: S) (q : Path) :
    ¬ (D <+: S ++ q ∨ S ++ q <+: D) := by
  rintro (h | h)
  · exact (List.prefix_or_prefix_of_prefix h (List.prefix_append S q)).elim hDS hSD
  · exact hSD ((List.prefix_append S q).trans h)

/-- Only a file or a link is read, so nothing lies below it. -/
theorem Reads.leaf (hsource : files.Holds S listing) {data : List UInt8}
    (h : Reads files (S ++ [c]) data) {q : Path} (hq : listing.get? (c :: q) ≠ none) : q = [] := by
  cases q with
  | nil => rfl
  | cons m q =>
    have hdir := (hsource [c]).trans (Listing.get?_parent hq)
    rcases h with h | h
    · rw [h] at hdir
      cases hdir
    · rw [h] at hdir
      cases hdir

section Success

variable {text : String} {data : List UInt8} {s : Journaled}

/-- The files of the source directory after a success. -/
theorem copied_counterpart (hsource : files.Holds S listing) (hplain : Plain D files)
    (hnone : files (D ++ [d]) = none) (hdata : Reads files (S ++ [c]) data) {contents' : List UInt8}
    (h : copyDirectoryContentsNoclobber io S D (S ++ [c]) listing (installed D d contents' files) =
      .ok () s) {q : Path} {contents : List UInt8} (hq : q ≠ [c])
    (hfile : files (S ++ q) = some (.file contents)) :
    s.files (D ++ q) = some (.file contents) ∨ files (D ++ q) ≠ none ∨ q = [d] := by
  obtain ⟨_, t, hopen, hentries⟩ := bind_eq_ok.mp h
  have hplain' : Plain D t.files := (hplain.changes (grows_installed hnone contents')).changes
    ((copies_openDirectory io S D _).1 () t hopen
      (hplain.changes (grows_installed hnone contents')))
  obtain rfl := openDirectory_ok hopen
  rw [hsource q] at hfile
  cases q with
  | nil => cases listing <;> cases hfile
  | cons n q =>
    have hskip : S ++ [n] ≠ S ++ [c] := by
      intro heq
      obtain rfl := List.singleton_inj.mp (List.append_cancel_left heq)
      exact hq (congrArg (n :: ·) (hdata.leaf hsource (by rw [hfile]; simp)))
    have hcounterpart :=
      copyEntries_counterpart hentries (by simp) ⟨hplain', fun _ => rfl⟩ hskip hfile
    refine hcounterpart.imp_right fun hbefore => ?_
    by_cases hd : n :: q = [d]
    · exact .inr hd
    · have hother : D ++ n :: q ≠ D ++ [d] := fun heq => hd (List.append_cancel_left heq)
      have hsame : (installed D d contents' files).files.makeDirs D (D ++ n :: q) =
          files (D ++ n :: q) := by
        rw [Files.makeDirs_below]
        exact (Files.set_other _ _ hother).trans (Files.makeDirs_below _ _ _ _)
      exact .inl fun hempty => hbefore (hsame.trans hempty)

/-- A success has met no link but the configuration. -/
theorem copied_no_symlink (hsource : files.Holds S listing) (hdata : Reads files (S ++ [c]) data)
    {s₀ : Journaled}
    (h : copyDirectoryContentsNoclobber io S D (S ++ [c]) listing s₀ = .ok () s) {q : Path}
    {target : Target} (hlink : files (S ++ q) = some (.symlink target)) : q = [c] := by
  obtain ⟨_, t, -, hentries⟩ := bind_eq_ok.mp h
  rw [hsource q] at hlink
  cases q with
  | nil => cases listing <;> cases hlink
  | cons n q =>
    have hskipped := copyEntries_no_symlink hentries (by simp) hlink
    obtain rfl := List.singleton_inj.mp (List.append_cancel_left hskipped)
    exact congrArg (n :: ·) (hdata.leaf hsource (by rw [hlink]; simp))

end Success

end Migrate

/-- **All or nothing.** Paths are those after links on the way are resolved, as `create_dir_all` and
every other operation follows them. The source directory and the new one are apart from each other,
no link is below the new one and no configuration in it. Whatever fails, nothing that was there is changed, and
nothing at all in the source directory. After an error there is no new file. After a success the new
configuration is there, and every other file of the source directory has been copied, unless there
was something at its place before, or the new configuration is there. A link in the source
directory makes the migration fail, unless it is the configuration. -/
theorem migration_all_or_nothing (io : SetupIo) (listing : Listing) (S D : Path) (c d : String)
    (files : Files) (hsource : files.Holds S listing) (hplain : Plain D files) (hSD : ¬ S <+: D)
    (hDS : ¬ D <+: S) (hnone : files (D ++ [d]) = none) (htemporary : io.temporary ≠ d) :
    let r := migrateSalmonConfig io listing (S ++ [c]) (D ++ [d]) files
    (∀ q node, files q = some node → r.1 q = some node) ∧
    (∀ q, r.1 (S ++ q) = files (S ++ q)) ∧
    (∀ e, r.2 = .error e → ∀ q contents,
      r.1 (D ++ q) = some (.file contents) ↔ files (D ++ q) = some (.file contents)) ∧
    (r.2 = .ok () →
      (∃ data text, Reads files (S ++ [c]) data ∧ fromUtf8 data = some text ∧
        r.1 (D ++ [d]) = some (.file (utf8 (migratedText S D text)))) ∧
      ∀ q contents, q ≠ [c] → files (S ++ q) = some (.file contents) →
        r.1 (D ++ q) = some (.file contents) ∨
          files (D ++ q) ≠ none ∧ r.1 (D ++ q) = files (D ++ q) ∨ q = [d]) ∧
    ((∃ q target, q ≠ [c] ∧ files (S ++ q) = some (.symlink target)) → r.2 ≠ .ok ()) := by
  intro r
  cases hmigrate : migrate io listing (S ++ [c]) (D ++ [d]) ⟨files, []⟩ with
  | error e s =>
    have hr : r = (s.files, .error e) := by simp [r, migrateSalmonConfig, hmigrate]
    obtain ⟨hkeeps, hdirs⟩ := migrate_error hplain hnone htemporary hmigrate
    rw [hr]
    refine ⟨hkeeps, fun q => ?_, fun _ _ q contents => ⟨fun hfile => ?_, hkeeps _ _⟩, by simp,
      by simp⟩
    · by_contra hchanged
      exact not_within hSD hDS q (hdirs _ hchanged).2
    · by_contra hchanged
      have hdir := (hdirs (D ++ q) fun heq => hchanged (heq.symm.trans hfile)).1
      cases hfile.symm.trans hdir
  | ok u s =>
    have hr : r = (s.files, .ok ()) := by simp [r, migrateSalmonConfig, hmigrate]
    obtain ⟨data, text, hdata, htext, hcopied⟩ := migrate_ok hplain hnone htemporary hmigrate
    have hinstalled := grows_installed hnone (utf8 (migratedText S D text))
    have hcopies := (copies_copyDirectoryContents io S D (S ++ [c]) listing _).1 () s hcopied
      (hplain.changes hinstalled)
    have hgrows : Grows D ⟨files, []⟩ s := Grows.trans id hinstalled hcopies
    rw [hr]
    refine ⟨hgrows.keeps, fun q => ?_, by simp, fun _ => ⟨⟨data, text, hdata, htext, ?_⟩, ?_⟩, ?_⟩
    · by_contra hchanged
      exact not_within hSD hDS q (hgrows.within _ hchanged)
    · exact hcopies.keeps _ _ (Files.set_same _ _ _)
    · intro q contents hq hfile
      rcases copied_counterpart hsource hplain hnone hdata hcopied hq hfile with
        hcopy | hbefore | hconfig
      · exact .inl hcopy
      · obtain ⟨node, hnode⟩ := Option.ne_none_iff_exists'.mp hbefore
        exact .inr (.inl ⟨hbefore, (hgrows.keeps _ _ hnode).trans hnode.symm⟩)
      · exact .inr (.inr hconfig)
    · rintro ⟨q, target, hq, hlink⟩ -
      exact hq (copied_no_symlink hsource hdata hcopied hlink)

/-- The files of one directory. -/
def filesAt (dir : Path) (listing : Listing) : Files := fun q =>
  if dir <+: q then listing.get? (q.drop dir.length) else none

theorem filesAt_holds (dir : Path) (listing : Listing) :
    (filesAt dir listing).Holds dir listing := by
  intro q
  rw [filesAt, if_pos (List.prefix_append dir q), List.drop_left]

theorem filesAt_other {dir path : Path} {listing : Listing} (h : ¬ dir <+: path) :
    filesAt dir listing path = none :=
  if_neg h

theorem filesAt_plain {dir root : Path} (hdir : ¬ dir <+: root) (hroot : ¬ root <+: dir)
    (listing : Listing) : Plain root (filesAt dir listing) := by
  intro q hq target
  have hother : ¬ dir <+: q := fun h =>
    (List.prefix_or_prefix_of_prefix h hq).elim hdir hroot
  rw [filesAt_other hother]
  simp

/-- A token and an empty configuration. -/
def salmonListing : Listing :=
  .dir "tokens" (.file "db.token" [115, 101, 99] .nil) (.file "salmon-watch.yml" [] .nil)

/-- The copy of the token fails after its first byte. -/
def interrupted : SetupIo where
  fails op := op = .copy (salmonDirectory ++ ["tokens", "db.token"])
  left _ := some [115]

theorem migration_all_or_nothing_token :
    let files := filesAt salmonDirectory salmonListing
    let run io := migrateSalmonConfig io salmonListing (salmonDirectory ++ ["salmon-watch.yml"])
      (montrayDirectory ++ ["montray-ui.yml"]) files
    (run {}).1 (montrayDirectory ++ ["tokens", "db.token"]) = some (.file [115, 101, 99]) ∧
      ∀ q contents, (run interrupted).1 (montrayDirectory ++ q) ≠ some (.file contents) := by
  intro files run
  have hSD : ¬ salmonDirectory <+: montrayDirectory := by decide
  have hDS : ¬ montrayDirectory <+: salmonDirectory := by decide
  have hempty : ∀ q, files (montrayDirectory ++ q) = none := fun q =>
    filesAt_other fun h => not_within hDS hSD q (.inl h)
  have hall io (htemporary : io.temporary ≠ "montray-ui.yml") :=
    migration_all_or_nothing io salmonListing salmonDirectory montrayDirectory "salmon-watch.yml"
      "montray-ui.yml" files (filesAt_holds _ _) (filesAt_plain hSD hDS _) hSD hDS (hempty _)
      htemporary
  constructor
  · have hok : (run {}).2 = .ok () := rfl
    have hcopied := ((hall {} (by decide)).2.2.2.1 hok).2 ["tokens", "db.token"] [115, 101, 99]
      (by decide) (by decide +kernel)
    rcases hcopied with hcopied | ⟨hbefore, -⟩ | hconfig
    · exact hcopied
    · exact absurd (hempty _) hbefore
    · exact absurd hconfig (by decide)
  · intro q contents hfile
    have herror : ∃ e, (run interrupted).2 = .error e := ⟨_, rfl⟩
    obtain ⟨e, herror⟩ := herror
    have hbefore := ((hall interrupted (by decide)).2.2.1 e herror q contents).mp hfile
    rw [hempty q] at hbefore
    cases hbefore

/-- A file beside the former configuration that has the name of the new one. -/
def namesakeListing : Listing :=
  .file "montray-ui.yml" [120] (.file "salmon-watch.yml" [] .nil)

/-- The migration succeeds, and at the place of the file is neither a copy of it nor anything that
was there before. -/
theorem migration_namesake :
    let files := filesAt salmonDirectory namesakeListing
    let r := migrateSalmonConfig {} namesakeListing (salmonDirectory ++ ["salmon-watch.yml"])
      (montrayDirectory ++ ["montray-ui.yml"]) files
    r.2 = .ok () ∧ files (salmonDirectory ++ ["montray-ui.yml"]) = some (.file [120]) ∧
      files (montrayDirectory ++ ["montray-ui.yml"]) = none ∧
      r.1 (montrayDirectory ++ ["montray-ui.yml"]) = some (.file []) := by
  refine ⟨rfl, ?_, ?_, ?_⟩ <;> decide +kernel

end Setup
end Client
end Montray
