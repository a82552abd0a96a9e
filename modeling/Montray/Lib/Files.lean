import Mathlib

/-!
# Montray.Lib.Files

Files by their paths, directories as they are listed, and programs that create files and may fail.

* `Files`: what is at a path. `makeDirs` and `set` are the only ways to change it; `missing` is what
  `makeDirs` adds, and `Extends` says that nothing was lost. `WellFormed` says that what is there is
  in a directory.
* `Listing`: a directory in the order in which its entries are read; `Holds` says that it is at a
  path.
* `Does`: two-state specifications of programs that end with a result or with an error; they compose
  with `bind`.
* `Grows`, `Leaves`: what a program that journals the files it creates has done when it succeeds,
  and when it fails; `Leaves.removed` is the rule of the rollback.
-/

namespace Montray
namespace Lib

/-! ## Files -/

/-- The names from the root down; links on the way to a path are resolved. -/
abbrev Path := List String

/-- Where a symbolic link leads. -/
inductive Target where
  | missing
  | file (contents : List UInt8)
  | other
  deriving DecidableEq, Repr

inductive Node where
  | file (contents : List UInt8)
  | dir
  | symlink (target : Target)
  | special
  deriving DecidableEq, Repr

abbrev Files := Path → Option Node

/-- A regular file. -/
def FileAt (entry : Option Node) : Prop := ∃ contents, entry = some (.file contents)

namespace Files

def set (files : Files) (path : Path) (node : Option Node) : Files :=
  Function.update files path node

@[simp] theorem set_same (files : Files) (path : Path) (node : Option Node) :
    files.set path node path = node := by
  simp [set]

theorem set_other (files : Files) {path q : Path} (node : Option Node) (h : q ≠ path) :
    files.set path node q = files q := by
  simp [set, h]

theorem set_eq_none {files : Files} {path q : Path} {node : Node}
    (h : files.set path (some node) q = none) : q ≠ path ∧ files q = none := by
  by_cases hq : q = path
  · rw [hq, set_same] at h
    cases h
  · rw [set_other _ _ hq] at h
    exact ⟨hq, h⟩

/-- A file that is created and removed again leaves nothing. -/
theorem set_set_none {files : Files} {path : Path} (h : files path = none) (node : Option Node) :
    (files.set path node).set path none = files := by
  rw [set, set, Function.update_idem, ← h, Function.update_eq_self]

/-- Whether following the links from the path leads to something. -/
def present (files : Files) (path : Path) : Bool :=
  match files path with
  | none => false
  | some (.symlink .missing) => false
  | some _ => true

theorem present_eq_false {files : Files} {path : Path} (h : files.present path = false) :
    files path = none ∨ files path = some (.symlink .missing) := by
  unfold present at h
  split at h
  · exact .inl ‹_›
  · exact .inr ‹_›
  · cases h

/-- The missing directories on the way to the path, and the path. -/
def makeDirs (files : Files) (path : Path) : Files := fun q =>
  if files q = none ∧ q <+: path then some .dir else files q

/-- What lies below a directory stays when the directory is made. -/
theorem makeDirs_below (files : Files) (path : Path) (name : String) (q : Path) :
    files.makeDirs path (path ++ name :: q) = files (path ++ name :: q) := by
  refine if_neg fun h => ?_
  have hlen := h.2.length_le
  simp only [List.length_append, List.length_cons] at hlen
  omega

/-- The directories that have to be made. -/
def missing (files : Files) (path : Path) : List Path :=
  path.inits.filter fun q => files q = none

theorem mem_missing {files : Files} {path q : Path} :
    q ∈ files.missing path ↔ q <+: path ∧ files q = none := by
  simp [missing]

theorem missing_snoc (files : Files) (path : Path) (name : String) :
    files.missing (path ++ [name]) =
      files.missing path ++ if files (path ++ [name]) = none then [path ++ [name]] else [] := by
  rw [missing, List.inits_append, List.filter_append, missing]
  by_cases h : files (path ++ [name]) = none <;> simp [h]

theorem missing_eq_nil {files : Files} {path : Path} (h : ∀ q, q <+: path → files q ≠ none) :
    files.missing path = [] := by
  refine List.eq_nil_iff_forall_not_mem.mpr fun q hq => ?_
  obtain ⟨hpre, hnone⟩ := mem_missing.mp hq
  exact h q hpre hnone

theorem missing_isPrefix (files : Files) {path q : Path} (h : q <+: path) :
    files.missing q <+: files.missing path := by
  obtain ⟨t, rfl⟩ := h
  induction t using List.reverseRecOn with
  | nil => rw [List.append_nil]
  | append_singleton t name ih =>
    rw [← List.append_assoc, missing_snoc]
    exact ih.trans (List.prefix_append _ _)

/-- The directories that are made are the missing ones. -/
theorem makeDirs_apply (files : Files) (path q : Path) :
    files.makeDirs path q = if q ∈ files.missing path then some .dir else files q := by
  simp only [makeDirs, mem_missing, and_comm]

theorem makeDirs_of_missing_nil {files : Files} {path : Path} (h : files.missing path = []) :
    files.makeDirs path = files := by
  funext q
  rw [makeDirs_apply, h, if_neg List.not_mem_nil]

theorem makeDirs_of_missing_singleton {files : Files} {path p : Path}
    (h : files.missing path = [p]) : files.makeDirs path = files.set p (some .dir) := by
  funext q
  rw [makeDirs_apply, h]
  by_cases hq : q = p
  · rw [hq, set_same, if_pos List.mem_cons_self]
  · rw [set_other _ _ hq, if_neg (mt List.mem_singleton.mp hq)]

/-- Where nothing but a directory can be, there still is nothing else. -/
theorem makeDirs_free {files : Files} {q : Path} (h : files q = none ∨ files q = some .dir)
    (path : Path) : files.makeDirs path q = none ∨ files.makeDirs path q = some .dir := by
  unfold makeDirs
  split_ifs
  · exact .inr rfl
  · exact h

theorem makeDirs_of_prefix {files : Files} {path q : Path} (h : q <+: path) :
    files.makeDirs path q ≠ none := by
  unfold makeDirs
  split_ifs with hq
  · exact Option.some_ne_none _
  · exact fun hnone => hq ⟨hnone, h⟩

/-- What is there stays as it is. -/
def Extends (files files' : Files) : Prop := ∀ q, files q ≠ none → files' q = files q

theorem Extends.refl (files : Files) : files.Extends files := fun _ _ => rfl

theorem Extends.trans {files files' files'' : Files} (h : files.Extends files')
    (h' : files'.Extends files'') : files.Extends files'' := by
  intro q hq
  have hkept := h q hq
  rw [h' q (hkept ▸ hq), hkept]

theorem ne_none_of_eq {files : Files} {q : Path} {node : Node} (h : files q = some node) :
    files q ≠ none := by
  rw [h]
  exact Option.some_ne_none _

theorem Extends.eq_some {files files' : Files} (h : files.Extends files') {q : Path} {node : Node}
    (hq : files q = some node) : files' q = some node := by
  rw [h q (ne_none_of_eq hq), hq]

theorem Extends.ne_none {files files' : Files} (h : files.Extends files') {q : Path}
    (hq : files q ≠ none) : files' q ≠ none := by
  rw [h q hq]
  exact hq

theorem extends_makeDirs (files : Files) (path : Path) : files.Extends (files.makeDirs path) :=
  fun _ hq => if_neg fun h => hq h.1

theorem extends_set {files : Files} {path : Path} (h : files path = none) (node : Option Node) :
    files.Extends (files.set path node) := by
  intro q hq
  refine set_other files node ?_
  rintro rfl
  exact hq h

/-- Nothing but directories is on the way to the path. -/
def open_ (files : Files) (path : Path) : Bool :=
  path.inits.all fun q => files q = none ∨ files q = some .dir

theorem open_iff {files : Files} {path : Path} :
    files.open_ path = true ↔ ∀ q, q <+: path → files q = none ∨ files q = some .dir := by
  simp [open_]

/-- What is there is in a directory. -/
structure WellFormed (files : Files) : Prop where
  root : files [] = some .dir
  parent : ∀ path name, files (path ++ [name]) ≠ none → files path = some .dir

theorem WellFormed.above {files : Files} (h : files.WellFormed) {path q : Path} (hq : q <+: path)
    (hne : q ≠ path) (hpath : files path ≠ none) : files q = some .dir := by
  induction path using List.reverseRecOn with
  | nil => exact absurd (List.prefix_nil.mp hq) hne
  | append_singleton path name ih =>
    have hdir := h.parent path name hpath
    rcases List.prefix_concat_iff.mp hq with heq | hq
    · exact absurd heq hne
    · by_cases heq : q = path
      · exact heq ▸ hdir
      · exact ih hq heq (ne_none_of_eq hdir)

theorem WellFormed.missing_eq_nil {files : Files} (h : files.WellFormed) {path : Path}
    (hpath : files path ≠ none) : files.missing path = [] := by
  refine Files.missing_eq_nil fun q hq => ?_
  by_cases heq : q = path
  · exact heq ▸ hpath
  · exact ne_none_of_eq (h.above hq heq hpath)

end Files

/-! ## Directories -/

/-- The entries of a directory, each with its type, in the order in which they are read. -/
inductive Listing where
  | nil
  | file (name : String) (contents : List UInt8) (rest : Listing)
  | dir (name : String) (children rest : Listing)
  | symlink (name : String) (target : Target) (rest : Listing)
  | special (name : String) (rest : Listing)
  deriving DecidableEq, Repr

/-- What is at a path below the directory. -/
def Listing.get? : Listing → Path → Option Node
  | _, [] => some .dir
  | .nil, _ :: _ => none
  | .file name contents rest, n :: q =>
    if n = name then (if q = [] then some (.file contents) else none) else rest.get? (n :: q)
  | .dir name children rest, n :: q => if n = name then children.get? q else rest.get? (n :: q)
  | .symlink name target rest, n :: q =>
    if n = name then (if q = [] then some (.symlink target) else none) else rest.get? (n :: q)
  | .special name rest, n :: q =>
    if n = name then (if q = [] then some .special else none) else rest.get? (n :: q)

/-- What lies below an entry says that it is a directory. -/
theorem Listing.get?_parent {listing : Listing} {n m : String} {q : Path}
    (h : listing.get? (n :: m :: q) ≠ none) : listing.get? [n] = some .dir := by
  induction listing with
  | nil => exact absurd rfl h
  | dir name children rest _ ih =>
    rw [get?] at h ⊢
    split
    · cases children <;> rfl
    · rename_i hn
      rw [if_neg hn] at h
      exact ih h
  | _ name =>
    rename_i ih
    rw [get?] at h ⊢
    split
    · rename_i hn
      rw [if_pos hn, if_neg (List.cons_ne_nil _ _)] at h
      exact absurd rfl h
    · rename_i hn
      rw [if_neg hn] at h
      exact ih h

/-- The directory at the path is the listed one. -/
def Files.Holds (files : Files) (path : Path) (listing : Listing) : Prop :=
  ∀ q, files (path ++ q) = listing.get? q

/-! ## Programs that may fail -/

section Programs

variable {ε σ α β : Type}

/-- From `s` to `s'` by `R` where the program succeeds, by `E` where it fails. -/
def Does (R E : σ → σ → Prop) (m : EStateM ε σ α) : Prop :=
  ∀ s, (∀ a s', m s = .ok a s' → R s s') ∧ ∀ e s', m s = .error e s' → E s s'

theorem bind_eq_ok {m : EStateM ε σ α} {f : α → EStateM ε σ β} {s s' : σ} {b : β} :
    (m >>= f) s = .ok b s' ↔ ∃ a t, m s = .ok a t ∧ f a t = .ok b s' := by
  show EStateM.bind m f s = _ ↔ _
  unfold EStateM.bind
  cases m s with
  | ok a t => simp
  | error e t => simp

theorem bind_eq_error {m : EStateM ε σ α} {f : α → EStateM ε σ β} {s s' : σ} {e : ε} :
    (m >>= f) s = .error e s' ↔
      m s = .error e s' ∨ ∃ a t, m s = .ok a t ∧ f a t = .error e s' := by
  show EStateM.bind m f s = _ ↔ _
  unfold EStateM.bind
  cases m s with
  | ok a t => simp
  | error e t => simp

theorem Does.bind {R E : σ → σ → Prop} {m : EStateM ε σ α} {f : α → EStateM ε σ β}
    (hR : ∀ {a b c}, R a b → R b c → R a c) (hE : ∀ {a b c}, R a b → E b c → E a c)
    (hm : Does R E m) (hf : ∀ a, Does R E (f a)) : Does R E (m >>= f) := by
  intro s
  refine ⟨fun b s' h => ?_, fun e s' h => ?_⟩
  · obtain ⟨a, t, ha, hb⟩ := bind_eq_ok.mp h
    exact hR ((hm s).1 a t ha) ((hf a t).1 b s' hb)
  · rcases bind_eq_error.mp h with h | ⟨a, t, ha, hb⟩
    · exact (hm s).2 e s' h
    · exact hE ((hm s).1 a t ha) ((hf a t).2 e s' hb)

end Programs

/-! ## Journaled creation -/

/-- The files, and the journal of those that are being created. -/
structure Journaled where
  files : Files
  createdFiles : List Path := []

/-- Only absent entries at or below `root`, or on the way to it, have changed: into directories, or
into files that are in the journal. A new entry of the journal is `Done`. -/
structure Changes (Done : Option Node → Prop) (root : Path) (s s' : Journaled) : Prop where
  keeps : ∀ q node, s.files q = some node → s'.files q = some node
  within : ∀ q, s'.files q ≠ s.files q → root <+: q ∨ q <+: root
  new : ∀ q, s.files q = none →
    s'.files q = none ∨ s'.files q = some .dir ∨ FileAt (s'.files q) ∧ q ∈ s'.createdFiles
  journal : ∀ q ∈ s.createdFiles, q ∈ s'.createdFiles
  created : ∀ q ∈ s'.createdFiles, q ∈ s.createdFiles ∨ s.files q = none ∧ Done (s'.files q)

/-- After a success every file of the journal is there. -/
abbrev Grows := Changes FileAt

/-- A failure may have come before the last file of the journal was there. -/
abbrev Leaves := Changes fun entry => entry = none ∨ FileAt entry

section Journal

variable {Done : Option Node → Prop} {root path : Path} {s t u : Journaled}

theorem Changes.refl (Done : Option Node → Prop) (root : Path) (s : Journaled) :
    Changes Done root s s where
  keeps _ _ h := h
  within _ h := absurd rfl h
  new _ h := .inl h
  journal _ h := h
  created _ h := .inl h

theorem Grows.trans (hDone : ∀ {entry}, FileAt entry → Done entry) (h : Grows root s t)
    (h' : Changes Done root t u) : Changes Done root s u where
  keeps q node hq := h'.keeps q node (h.keeps q node hq)
  within q hne := by
    by_cases heq : u.files q = t.files q
    · exact h.within q (heq ▸ hne)
    · exact h'.within q heq
  new q hnone := by
    rcases h.new q hnone with ht | ht | ⟨⟨contents, ht⟩, hmem⟩
    · exact h'.new q ht
    · exact .inr (.inl (h'.keeps q _ ht))
    · exact .inr (.inr ⟨⟨contents, h'.keeps q _ ht⟩, h'.journal q hmem⟩)
  journal q hq := h'.journal q (h.journal q hq)
  created q hq := by
    rcases h'.created q hq with hmem | ⟨hnone, hdone⟩
    · refine (h.created q hmem).imp_right fun ⟨hnone, contents, ht⟩ => ⟨hnone, ?_⟩
      exact hDone ⟨contents, h'.keeps q _ ht⟩
    · refine .inr ⟨?_, hdone⟩
      by_contra hsome
      obtain ⟨node, hnode⟩ := Option.ne_none_iff_exists'.mp hsome
      rw [h.keeps q node hnode] at hnone
      cases hnone

theorem Grows.leaves (h : Grows root s t) : Leaves root s t :=
  Grows.trans .inr h (.refl _ root t)

/-- What happens below a directory happens below its parent. -/
theorem Changes.mono {root' : Path} (hroot : root <+: root') (h : Changes Done root' s t) :
    Changes Done root s t where
  keeps := h.keeps
  within q hne := by
    rcases h.within q hne with hq | hq
    · exact .inl (hroot.trans hq)
    · exact (List.prefix_or_prefix_of_prefix hq hroot).symm
  new := h.new
  journal := h.journal
  created := h.created

theorem changes_makeDirs (Done : Option Node → Prop) (hroot : root <+: path ∨ path <+: root)
    (s : Journaled) : Changes Done root s { s with files := s.files.makeDirs path } where
  keeps q node hq := by simp [Files.makeDirs, hq]
  within q hne := by
    have hpath : q <+: path := by
      by_contra hpath
      exact hne (if_neg fun h => hpath h.2)
    rcases hroot with hroot | hroot
    · exact (List.prefix_or_prefix_of_prefix hpath hroot).symm
    · exact .inr (hpath.trans hroot)
  new q hnone := by
    by_cases hpath : q <+: path
    · exact .inr (.inl (if_pos ⟨hnone, hpath⟩))
    · exact .inl ((if_neg fun h => hpath h.2).trans hnone)
  journal _ h := h
  created _ h := .inl h

/-- A file is created after it has been entered in the journal. -/
theorem changes_create {entry : Option Node} (hroot : root <+: path) (hnone : s.files path = none)
    (hentry : entry = none ∨ FileAt entry) (hDone : Done entry) :
    Changes Done root s ⟨s.files.set path entry, s.createdFiles ++ [path]⟩ where
  keeps q node hq := by
    have hne : q ≠ path := by
      rintro rfl
      rw [hnone] at hq
      cases hq
    exact (Files.set_other _ _ hne).trans hq
  within q hne := by
    by_cases hq : q = path
    · exact .inl (hq ▸ hroot)
    · exact absurd (Files.set_other _ _ hq) hne
  new q hq := by
    by_cases heq : q = path
    · subst heq
      refine hentry.imp (fun h => ?_) fun h => .inr ⟨?_, by simp⟩
      · simpa using h
      · simpa using h
    · exact .inl ((Files.set_other _ _ heq).trans hq)
  journal q hq := List.mem_append_left _ hq
  created q hq := by
    rcases List.mem_append.mp hq with hq | hq
    · exact .inl hq
    · obtain rfl := List.mem_singleton.mp hq
      exact .inr ⟨hnone, by simpa using hDone⟩

/-- The rollback rule: without the files of the journal, only directories are new. -/
theorem Leaves.removed (h : Leaves root s t) (hs : s.createdFiles = []) {files : Files}
    (hfiles : ∀ q, files q = if q ∈ t.createdFiles then none else t.files q) :
    (∀ q node, s.files q = some node → files q = some node) ∧
      ∀ q, files q ≠ s.files q → files q = some .dir ∧ (root <+: q ∨ q <+: root) := by
  have hcreated : ∀ q ∈ t.createdFiles, s.files q = none := by
    intro q hq
    rcases h.created q hq with hmem | ⟨hnone, -⟩
    · rw [hs] at hmem
      cases hmem
    · exact hnone
  refine ⟨fun q node hq => ?_, fun q hne => ?_⟩
  · rw [hfiles, if_neg, h.keeps q node hq]
    intro hmem
    rw [hcreated q hmem] at hq
    cases hq
  · by_cases hmem : q ∈ t.createdFiles
    · rw [hfiles, if_pos hmem] at hne
      exact absurd (hcreated q hmem).symm hne
    · rw [hfiles, if_neg hmem] at hne ⊢
      refine ⟨?_, h.within q hne⟩
      cases hq : s.files q with
      | some node =>
        rw [h.keeps q node hq, hq] at hne
        exact absurd rfl hne
      | none =>
        rcases h.new q hq with hnone | hdir | ⟨-, hmem'⟩
        · rw [hnone, hq] at hne
          exact absurd rfl hne
        · exact hdir
        · exact absurd hmem' hmem

end Journal

end Lib
end Montray
