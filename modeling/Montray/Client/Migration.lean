import Montray.Lib.Bytes
import Montray.Lib.Files
import Montray.Lib.Sequences
import Montray.Client.Config

/-!
# Montray.Client.Migration

`migrate_salmon_config`: the configuration of Salmon Watch is rewritten to the new place, and what
lies beside it is copied.

The operating system is the parameter `SetupIo`: which operations fail, and what a failed one has
done by then. Checks whether something is there are answered truthfully, and files can be removed.
Only this program writes. What is read of the source directory is its `Listing`. The links on the
way to a path have been resolved, so that `createDirAll` meets none.

* `rewriteText_eq_rewriteRuns`, `rewritePath_display`: the rewriting of a text, by its paths and by
  their components.
* `migratedText_eq`: the texts of which the migration rewrites only the paths that it should.
-/

namespace Montray
namespace Client
namespace Setup

open Lib

/-! ## Paths -/

def parent? (path : Path) : Option Path := if path = [] then none else some path.dropLast

@[simp] theorem parent?_append (dir : Path) (name : String) :
    parent? (dir ++ [name]) = some dir := by
  simp [parent?]

/-- `Path::display`. -/
def display (path : Path) : String := "/" ++ "/".intercalate path

/-! ## The operating system -/

inductive Op where
  | readConfig
  | createParent
  | createTemporary
  | setPermissions
  | writeTemporary
  | flushTemporary
  | persist
  | createDir (path : Path)
  | readDir (path : Path)
  /-- The next entry of a directory, or its end. -/
  | readEntry (path : Path) (name : Option String)
  | inspect (path : Path)
  | copy (path : Path)
  | remove (path : Path)
  deriving DecidableEq, Repr

structure SetupIo where
  /-- The operations that fail although they could be done. -/
  fails : Op → Bool := fun _ => false
  error : Op → String := fun _ => ""
  /-- How many components of its path a failed `create_dir_all` has made. -/
  reached : Op → Nat := fun _ => 0
  /-- What a failed copy has left at its destination. -/
  left : Path → Option (List UInt8) := fun _ => none
  /-- The name of the temporary file. -/
  temporary : String := ".tmp000000"

abbrev SetupM := EStateM Chain Journaled

/-! ## Operations -/

def attempt (io : SetupIo) (op : Op) (context : String) : SetupM Unit :=
  if io.fails op then throw [context, io.error op] else pure ()

/-- `fs::create_dir_all`. -/
def createDirAll (io : SetupIo) (op : Op) (path : Path) (context : String) : SetupM Unit := fun s =>
  let reached := if io.fails op then path.take (io.reached op) else path
  if s.files.open_ reached then
    let s' := { s with files := s.files.makeDirs reached }
    if io.fails op then .error [context, io.error op] s' else .ok () s'
  else .error [context, io.error op] s

def parentOf (path : Path) (context : String) : SetupM Path :=
  match parent? path with
  | none => throw [context]
  | some parent => pure parent

/-- `fs::read`; a link to a file is followed. -/
def readConfig (io : SetupIo) (source : Path) : SetupM (List UInt8) := fun s =>
  let failed := ["read Salmon Watch config at " ++ display source, io.error .readConfig]
  if io.fails .readConfig then .error failed s
  else
    match s.files source with
    | some (.file contents) => .ok contents s
    | some (.symlink (.file contents)) => .ok contents s
    | _ => .error failed s

inductive FileResult where
  | created
  | preserved
  | reinstalled
  deriving DecidableEq, Repr

/-- The temporary file of `install_file`, up to its new name. It is removed when it is dropped, as
every early return does. -/
def persistTemporary (io : SetupIo) (parent path : Path) (contents : List UInt8) (replace : Bool) :
    SetupM FileResult := fun s =>
  let temporary := parent ++ [io.temporary]
  if io.fails .createTemporary ∨ s.files temporary ≠ none then
    .error ["create temporary file", io.error .createTemporary] s
  else
    let written := s.files.set temporary (some (.file contents))
    let dropped := { s with files := written.set temporary none }
    let persisted :=
      { s with files := (written.set temporary none).set path (some (.file contents)) }
    if io.fails .setPermissions then
      .error ["set file permissions", io.error .setPermissions] dropped
    else if io.fails .writeTemporary then .error ["write file", io.error .writeTemporary] dropped
    else if io.fails .flushTemporary then .error ["write file", io.error .flushTemporary] dropped
    else
      let result := if written.present path then .reinstalled else .created
      if replace then
        if io.fails .persist then .error ["replace file", io.error .persist] dropped
        else .ok result persisted
      else if written path ≠ none then .ok .preserved dropped
      else if io.fails .persist then .error ["create file", io.error .persist] dropped
      else .ok result persisted

def installFile (io : SetupIo) (path : Path) (contents : List UInt8) (replace : Bool) :
    SetupM FileResult := do
  let parent ← parentOf path "installation filename has no parent"
  createDirAll io .createParent parent "create parent directory"
  if !replace && (← get).files.present path then return .preserved
  else persistTemporary io parent path contents replace

/-! ## Copying -/

/-- The branch for a regular file: it is entered in the journal, then copied. -/
def copyFile (io : SetupIo) (source destination : Path) (contents : List UInt8) : SetupM Unit :=
  fun s =>
  if s.files.present destination then .ok () s
  else
    let create (entry : Option (List UInt8)) : Journaled :=
      ⟨s.files.set destination (entry.map .file), s.createdFiles ++ [destination]⟩
    if io.fails (.copy source) then
      .error ["copy Salmon Watch file " ++ display source ++ " to " ++ display destination,
        io.error (.copy source)] (create (io.left destination))
    else .ok () (create (some contents))

/-- One turn of the loop over a directory, up to what is done with an entry of its type. -/
def copyEntry (io : SetupIo) (source skipped : Path) (name : String) (body : SetupM Unit) :
    SetupM Unit := do
  attempt io (.readEntry source (some name)) "read Salmon Watch directory entry"
  if source ++ [name] = skipped then pure ()
  else
    attempt io (.inspect (source ++ [name])) "inspect Salmon Watch config entry"
    body

/-- What is done before the loop. -/
def openDirectory (io : SetupIo) (source destination : Path) : SetupM Unit := do
  createDirAll io (.createDir destination) destination "create Montray UI configuration directory"
  attempt io (.readDir source) ("read Salmon Watch directory " ++ display source)

/-- The loop of `copy_directory_contents_noclobber`, with its recursive calls. -/
def copyEntries (io : SetupIo) (skipped : Path) : Path → Path → Listing → SetupM Unit
  | source, _, .nil => attempt io (.readEntry source none) "read Salmon Watch directory entry"
  | source, destination, .file name contents rest => do
    copyEntry io source skipped name
      (copyFile io (source ++ [name]) (destination ++ [name]) contents)
    copyEntries io skipped source destination rest
  | source, destination, .dir name children rest => do
    copyEntry io source skipped name (do
      openDirectory io (source ++ [name]) (destination ++ [name])
      copyEntries io skipped (source ++ [name]) (destination ++ [name]) children)
    copyEntries io skipped source destination rest
  | source, destination, .symlink name _ rest => do
    copyEntry io source skipped name
      (throw ["refusing to migrate symbolic link in Salmon Watch configuration: " ++
        display (source ++ [name])])
    copyEntries io skipped source destination rest
  | source, destination, .special name rest => do
    copyEntry io source skipped name (pure ())
    copyEntries io skipped source destination rest

def copyDirectoryContentsNoclobber (io : SetupIo) (source destination skipped : Path)
    (listing : Listing) : SetupM Unit := do
  openDirectory io source destination
  copyEntries io skipped source destination listing

/-! ## Rolling back -/

/-- One removal, with the first error of the removals so far. -/
def removeCreated (io : SetupIo) (acc : Files × Option String) (path : Path) :
    Files × Option String :=
  match acc.1 path with
  | none => acc
  | some .dir =>
    (acc.1, acc.2.or (some ("remove " ++ display path ++ ": " ++ io.error (.remove path))))
  | some _ => (acc.1.set path none, acc.2)

def rollbackCreatedFiles (io : SetupIo) (s : Journaled) (migrationError : Chain) :
    Journaled × Chain :=
  let (files, rollbackError) := s.createdFiles.reverse.foldl (removeCreated io) (s.files, none)
  ({ s with files },
    match rollbackError with
    | some error => ("migration rollback was incomplete: " ++ error) :: migrationError
    | none => migrationError)

def orRollBack (io : SetupIo) (m : SetupM Unit) : SetupM Unit := fun s =>
  match m s with
  | .ok () s' => .ok () s'
  | .error e s' =>
    let (rolledBack, chain) := rollbackCreatedFiles io s' e
    .error chain rolledBack

/-! ## The migration -/

/-- `str::replace` of one directory by the other. -/
def migratedText (sourceDirectory destinationDirectory : Path) (sourceText : String) : String :=
  String.ofList (replaceAll (display sourceDirectory).toList (display destinationDirectory).toList
    sourceText.toList)

def decodeText (sourceData : List UInt8) : SetupM String :=
  match fromUtf8 sourceData with
  | none => throw ["Salmon Watch config is not UTF-8", "invalid utf-8 sequence"]
  | some sourceText => pure sourceText

/-- The new configuration, and then what lies beside the former one. -/
def installAndCopy (io : SetupIo) (listing : Listing) (source destination : Path)
    (sourceDirectory destinationDirectory : Path) (sourceText : String) : SetupM Unit := do
  let migrated := migratedText sourceDirectory destinationDirectory sourceText
  match ← installFile io destination (utf8 migrated) false with
  | .preserved => return
  | .reinstalled =>
    -- The code panics here.
    throw ["migration never replaces configuration"]
  | .created =>
    modify fun s => { s with createdFiles := s.createdFiles ++ [destination] }
    orRollBack io
      (copyDirectoryContentsNoclobber io sourceDirectory destinationDirectory source listing)

def migrate (io : SetupIo) (listing : Listing) (source destination : Path) : SetupM Unit := do
  if (← get).files.present destination then return
  let sourceData ← readConfig io source
  let sourceText ← decodeText sourceData
  let sourceDirectory ← parentOf source "Salmon Watch config has no parent"
  let destinationDirectory ← parentOf destination "Montray UI config has no parent"
  installAndCopy io listing source destination sourceDirectory destinationDirectory sourceText

/-- `migrate_salmon_config`, from the files that it finds. -/
def migrateSalmonConfig (io : SetupIo) (listing : Listing) (source destination : Path)
    (files : Files) : Files × Except Chain Unit :=
  match migrate io listing source destination ⟨files, []⟩ with
  | .ok () s => (s.files, .ok ())
  | .error e s => (s.files, .error e)

/-! ## The paths of a text -/

/-- What stands between the paths of a configuration: blanks, quotes and the marks of the syntax
around them. -/
def separates (c : Char) : Bool :=
  c.isWhitespace || "\"'\x60,:;=()[]\x7b\x7d<>|&#".toList.contains c

section Spec

variable (separates : Char → Bool) (dir : List Char)

/-- A path can begin behind this text. -/
def startsPath (before : List Char) : Bool := before.getLast?.all separates

/-- A component of a path ends in front of this text; the root ends with its own slash. -/
def endsComponent (behind : List Char) : Bool :=
  dir.getLast? == some '/' || behind.head?.all fun c => c == '/' || separates c

/-- Where the directory stands in the text, a path begins and a component of it ends. -/
def isRooted (before behind : List Char) : Bool :=
  startsPath separates before && endsComponent separates dir behind

/-- The directory is exchanged where it is a path, or the start of one; elsewhere it is a part of
another path and stays. -/
def rewriteText (new text : List Char) : List Char :=
  replaceWhere dir new (isRooted separates dir) text

/-- Whenever the directory is met in the text, it is a path or the start of one. -/
def Rooted (text : List Char) : Prop :=
  ∀ o ∈ occurrences dir text, isRooted separates dir o.1 o.2 = true

instance (text : List Char) : Decidable (Rooted separates dir text) :=
  inferInstanceAs (Decidable (∀ o ∈ occurrences dir text, _))

end Spec

/-- The text that the migration is to write. -/
def rewritePaths (sourceDirectory destinationDirectory : Path) (text : String) : String :=
  String.ofList (rewriteText separates (display sourceDirectory).toList
    (display destinationDirectory).toList text.toList)

/-! ### The paths one by one -/

/-- The path of a text as it is after the move: the directory itself and what lies below it get the
new directory. -/
def rewritePath (dir new path : List Char) : List Char :=
  if path = dir ∨ dir ++ ['/'] <+: path then new ++ path.drop dir.length else path

/-- Rewrites the paths of a text, which are the longest runs between separators; `run` is what has
been read of the present one. -/
def rewriteRuns (separates : Char → Bool) (dir new : List Char) :
    List Char → List Char → List Char
  | run, [] => rewritePath dir new run
  | run, c :: rest =>
    if separates c then rewritePath dir new run ++ c :: rewriteRuns separates dir new [] rest
    else rewriteRuns separates dir new (run ++ [c]) rest

section Runs

variable {separates : Char → Bool} {dir : List Char} (new : List Char) {before run r : List Char}

/-- An occurrence at the start of a run does not go beyond it. -/
theorem prefix_run (hchars : ∀ c ∈ dir, separates c = false)
    (hr : ∀ c ∈ r.head?, separates c = true) (hocc : dir <+: run ++ r) : dir <+: run := by
  rcases List.prefix_or_prefix_of_prefix hocc (List.prefix_append run r) with h | ⟨x, rfl⟩
  · exact h
  · cases x with
    | nil => rw [List.append_nil]
    | cons c x =>
      obtain ⟨r', rfl⟩ := (List.prefix_append_right_inj run).mp hocc
      have hout := hr c rfl
      rw [hchars c (by simp)] at hout
      cases hout

/-- No path begins within a run. -/
theorem startsPath_within {l : List Char} (hne : l ≠ []) (hl : ∀ c ∈ l, separates c = false) :
    startsPath separates (before ++ l) = false := by
  rw [startsPath, List.getLast?_append_of_ne_nil _ hne, List.getLast?_eq_getLast_of_ne_nil hne,
    Option.all_some]
  exact hl _ (List.getLast_mem hne)

/-- A run of which nothing but the start is a path. -/
theorem replaceWhereFrom_run (hdir : dir ≠ []) (hchars : ∀ c ∈ dir, separates c = false)
    (hrun : ∀ c ∈ run, separates c = false) (hr : ∀ c ∈ r.head?, separates c = true)
    (hstart : dir <+: run → isRooted separates dir before ((run ++ r).drop dir.length) = false) :
    replaceWhereFrom dir new (isRooted separates dir) before 0 (run ++ r) =
      run ++ replaceWhereFrom dir new (isRooted separates dir) (before ++ run) 0 r := by
  refine replaceWhereFrom_kept new _ hdir fun l₁ l₂ heq _ hocc => ?_
  have hinside : dir <+: l₂ := prefix_run hchars hr hocc
  refine ⟨hinside, ?_⟩
  cases l₁ with
  | nil =>
    rw [List.append_nil]
    rw [List.nil_append] at heq
    exact heq ▸ hstart (heq ▸ hinside)
  | cons c l₁ =>
    have hl : ∀ d ∈ c :: l₁, separates d = false := fun d hd =>
      hrun d (heq ▸ List.mem_append_left _ hd)
    rw [isRooted, startsPath_within (List.cons_ne_nil c l₁) hl, Bool.false_and]

/-- One path of the text. -/
theorem replaceWhereFrom_path (hdir : dir ≠ []) (hslash : dir.getLast? ≠ some '/')
    (hchars : ∀ c ∈ dir, separates c = false) (hbefore : startsPath separates before = true)
    (hrun : ∀ c ∈ run, separates c = false) (hr : ∀ c ∈ r.head?, separates c = true) :
    replaceWhereFrom dir new (isRooted separates dir) before 0 (run ++ r) =
      rewritePath dir new run ++
        replaceWhereFrom dir new (isRooted separates dir) (before ++ run) 0 r := by
  have hends : ∀ behind, isRooted separates dir before behind =
      behind.head?.all fun c => c == '/' || separates c := by
    intro behind
    rw [isRooted, hbefore, Bool.true_and, endsComponent, beq_eq_false_iff_ne.mpr hslash,
      Bool.false_or]
  by_cases hbelow : run = dir ∨ dir ++ ['/'] <+: run
  · obtain ⟨tail, rfl, htail⟩ : ∃ tail, run = dir ++ tail ∧ ∀ c ∈ tail.head?, c = '/' := by
      rcases hbelow with rfl | ⟨rest, rfl⟩
      · exact ⟨[], by simp, by simp⟩
      · exact ⟨'/' :: rest, by simp, by simp⟩
    have hrooted : isRooted separates dir before (tail ++ r) = true := by
      rw [hends, Option.all_eq_true]
      intro c hc
      cases tail with
      | nil => simp [hr c hc]
      | cons d tail =>
        cases hc
        simp [htail c rfl]
    rw [rewritePath, if_pos hbelow, List.drop_left, List.append_assoc,
      replaceWhereFrom_occurrence new _ hdir, hrooted, if_pos rfl, List.append_assoc]
    refine congrArg (new ++ ·) ?_
    rw [← List.append_assoc before]
    refine replaceWhereFrom_run new hdir hchars
      (fun c hc => hrun c (List.mem_append_right _ hc)) hr fun _ => ?_
    rw [isRooted, startsPath_within hdir hchars, Bool.false_and]
  · rw [rewritePath, if_neg hbelow]
    refine replaceWhereFrom_run new hdir hchars hrun hr ?_
    rintro ⟨tail, rfl⟩
    rw [List.append_assoc, List.drop_left, hends]
    cases tail with
    | nil => exact absurd (.inl (List.append_nil dir)) hbelow
    | cons c tail =>
      have hc : c ≠ '/' := by
        rintro rfl
        exact hbelow (.inr ⟨tail, by simp⟩)
      simp [hc, hrun c (by simp)]

theorem replaceWhereFrom_separator (hdir : dir ≠ []) (hchars : ∀ c ∈ dir, separates c = false)
    {c : Char} (hc : separates c = true) (p : List Char → List Char → Bool)
    (before rest : List Char) :
    replaceWhereFrom dir new p before 0 (c :: rest) =
      c :: replaceWhereFrom dir new p (before ++ [c]) 0 rest := by
  have hnone : ¬ dir <+: c :: rest := by
    obtain ⟨d, l, rfl⟩ := List.exists_cons_of_ne_nil hdir
    intro hocc
    obtain ⟨rfl, -⟩ := List.cons_prefix_cons.mp hocc
    rw [hchars d List.mem_cons_self] at hc
    cases hc
  rw [replaceWhereFrom, if_neg hnone]

theorem replaceWhereFrom_runs (hdir : dir ≠ []) (hslash : dir.getLast? ≠ some '/')
    (hchars : ∀ c ∈ dir, separates c = false) (hbefore : startsPath separates before = true)
    (hrun : ∀ c ∈ run, separates c = false) (rest : List Char) :
    replaceWhereFrom dir new (isRooted separates dir) before 0 (run ++ rest) =
      rewriteRuns separates dir new run rest := by
  induction rest generalizing before run with
  | nil =>
    rw [replaceWhereFrom_path new hdir hslash hchars hbefore hrun (by simp), rewriteRuns]
    exact List.append_nil _
  | cons c rest ih =>
    rw [rewriteRuns]
    split
    · rename_i hc
      have hout : ∀ d ∈ (c :: rest).head?, separates d = true := by simpa using hc
      rw [replaceWhereFrom_path new hdir hslash hchars hbefore hrun hout,
        replaceWhereFrom_separator new hdir hchars hc]
      have hnext : startsPath separates (before ++ run ++ [c]) = true := by
        simpa [startsPath] using hc
      have hnil : ∀ d ∈ ([] : List Char), separates d = false := by simp
      exact congrArg (fun x => _ ++ c :: x) (ih hnext hnil)
    · rename_i hc
      rw [← List.singleton_append, ← List.append_assoc]
      refine ih hbefore fun d hd => ?_
      rcases List.mem_append.mp hd with hd | hd
      · exact hrun d hd
      · rw [List.mem_singleton.mp hd]
        exact Bool.not_eq_true _ ▸ hc

/-- Where no separator is in the directory, the paths of the text are rewritten one by one. -/
theorem rewriteText_eq_rewriteRuns (hdir : dir ≠ []) (hslash : dir.getLast? ≠ some '/')
    (hchars : ∀ c ∈ dir, separates c = false) (text : List Char) :
    rewriteText separates dir new text = rewriteRuns separates dir new [] text := by
  have hnil : ∀ c ∈ ([] : List Char), separates c = false := by simp
  show replaceWhereFrom dir new (isRooted separates dir) [] 0 ([] ++ text) = _
  exact replaceWhereFrom_runs new hdir hslash hchars rfl hnil text

end Runs

/-! ### Paths by their components -/

/-- The text of a path other than the root. -/
def joined (path : Path) : List Char := path.flatMap fun name => '/' :: name.toList

theorem joined_append (p q : Path) : joined (p ++ q) = joined p ++ joined q := by
  simp [joined]

theorem display_eq_joined {path : Path} (h : path ≠ []) : (display path).toList = joined path := by
  induction path with
  | nil => exact absurd rfl h
  | cons name path ih =>
    cases path with
    | nil => simp [display, joined]
    | cons name' path =>
      have hrest := ih (List.cons_ne_nil _ _)
      simp only [display, String.toList_append] at hrest ⊢
      rw [String.intercalate_cons_cons, String.toList_append, String.toList_append,
        List.append_assoc, hrest]
      rfl

/-- What follows a component of a path. -/
def AtBoundary (l : List Char) : Prop := ∀ c ∈ l.head?, c = '/'

theorem atBoundary_joined (path : Path) : AtBoundary (joined path) := by
  cases path with
  | nil => simp [AtBoundary, joined]
  | cons name path => simp [AtBoundary, joined]

theorem component_eq {a b x y : List Char} (ha : '/' ∉ a) (hb : '/' ∉ b) (hx : AtBoundary x)
    (hy : AtBoundary y) (h : a ++ x = b ++ y) : a = b ∧ x = y := by
  induction a generalizing b with
  | nil =>
    cases b with
    | nil => exact ⟨rfl, h⟩
    | cons d b =>
      rw [List.nil_append] at h
      have hd : d = '/' := hx d (by rw [h]; rfl)
      exact absurd (hd ▸ List.mem_cons_self) hb
  | cons c a ih =>
    cases b with
    | nil =>
      rw [List.nil_append] at h
      have hc : c = '/' := hy c (by rw [← h]; rfl)
      exact absurd (hc ▸ List.mem_cons_self) ha
    | cons d b =>
      simp only [List.cons_append, List.cons.injEq] at h
      obtain ⟨rfl, rest⟩ := ih (fun hm => ha (List.mem_cons_of_mem _ hm))
        (fun hm => hb (List.mem_cons_of_mem _ hm)) h.2
      exact ⟨by rw [h.1], rest⟩

/-- The components of a directory are the first ones of a path at or below it. -/
theorem prefix_of_joined {dir path : Path} (hdir : ∀ name ∈ dir, '/' ∉ name.toList)
    (hpath : ∀ name ∈ path, '/' ∉ name.toList) {x : List Char} (hx : AtBoundary x)
    (h : joined path = joined dir ++ x) : dir <+: path := by
  induction dir generalizing path with
  | nil => exact List.nil_prefix
  | cons name dir ih =>
    cases path with
    | nil => simp [joined] at h
    | cons name' path =>
      have hbound : AtBoundary (joined dir ++ x) := by
        cases dir with
        | nil => exact hx
        | cons name'' dir => simp [AtBoundary, joined]
      simp only [joined, List.flatMap_cons, List.cons_append, List.append_assoc,
        List.cons.injEq, true_and] at h
      obtain ⟨hname, hrest⟩ := component_eq (hpath name' List.mem_cons_self)
        (hdir name List.mem_cons_self) (atBoundary_joined path) hbound h
      rw [List.cons_prefix_cons]
      exact ⟨(String.toList_inj.mp hname).symm, ih (fun n hn => hdir n (List.mem_cons_of_mem _ hn))
        (fun n hn => hpath n (List.mem_cons_of_mem _ hn)) hrest⟩

/-- By components: a path that begins with those of the directory gets the new ones instead, any
other stays. -/
theorem rewritePath_display {dir new path : Path} (hne : dir ≠ []) (hnew : new ≠ [])
    (hroot : path ≠ []) (hdir : ∀ name ∈ dir, '/' ∉ name.toList)
    (hpath : ∀ name ∈ path, '/' ∉ name.toList) :
    rewritePath (display dir).toList (display new).toList (display path).toList =
      if dir <+: path then (display (new ++ path.drop dir.length)).toList
      else (display path).toList := by
  rw [display_eq_joined hne, display_eq_joined hnew, display_eq_joined hroot, rewritePath]
  by_cases hpre : dir <+: path
  · obtain ⟨rest, rfl⟩ := hpre
    have hbelow : joined (dir ++ rest) = joined dir ∨
        joined dir ++ ['/'] <+: joined (dir ++ rest) := by
      rw [joined_append]
      cases rest with
      | nil => exact .inl (List.append_nil _)
      | cons name rest => exact .inr ⟨name.toList ++ joined rest, by simp [joined]⟩
    rw [if_pos hbelow, if_pos (List.prefix_append dir rest), List.drop_left,
      display_eq_joined (by simp [hnew]), joined_append, joined_append, List.drop_left]
  · rw [if_neg hpre, if_neg]
    rintro (heq | ⟨x, heq⟩)
    · have hend : joined path = joined dir ++ [] := by rw [heq, List.append_nil]
      exact hpre (prefix_of_joined hdir hpath (by simp [AtBoundary]) hend)
    · rw [List.append_assoc] at heq
      exact hpre (prefix_of_joined hdir hpath (by simp [AtBoundary]) heq.symm)

def salmonDirectory : Path := ["home", "u", ".config", "salmon-watch"]

def montrayDirectory : Path := ["home", "u", ".config", "montray-ui"]

end Setup
end Client
end Montray
