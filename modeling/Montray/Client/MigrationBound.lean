import Montray.Client.MigrationWalk

/-!
# Montray.Client.MigrationBound

How long a migration can take and how much it can create, given what can ever come to be below the
former directory.

An entry of the source tree is returned by one stream only, and once: a stream knows its entries
among those that were visited, and nothing below a directory is visited before the directory. So the
number of steps is bounded by the number of `Possible` entries, which are those that were there and
those that the migration itself puts there (`Closed`).

* `Copying.see`, `Copying.put`: what a turn of a loop keeps.
* `Inv.step`: what every step keeps, and what it uses up.
* `run_bounded`: the bounds, and that the migration goes on until it returns.
-/

namespace Montray
namespace Client
namespace Setup
namespace Walk

open Lib

/-! ## What is kept while copying -/

section Kept

-- The former directory and the new one, the names of the two configurations, and the paths below
-- the former directory that may ever come to be.
variable (leads : Path → Path) (files₀ : Files) (S D : Path) (c m : String)
  (Possible : Path → Prop)

/-- What may come to be below the former directory: what was there, what is made before anything is
copied, and the copies, if the new directory leads there. A link is not in the way of a copy, except
that a file stays as it is where a link leads to something. -/
structure Closed : Prop where
  old : ∀ q, q ≠ [] → files₀ (S ++ q) ≠ none → Possible q
  way : ∀ q, q ≠ [] → S ++ q <+: D → Possible q
  config : ∀ q, q ≠ [] → S ++ q = D ++ [m] → Possible q
  copy : ∀ q q', q' ≠ [] → Possible q → D ++ q = S ++ q' →
    (∀ p, p <+: q → p ≠ q → p ≠ [] → Possible p ∧
      (files₀ (S ++ p) = none ∨ files₀ (S ++ p) = some .dir) ∧ S ++ p ≠ D ++ [m]) → Possible q'
  place : ∀ q target, q ≠ [] → Possible q → files₀ (D ++ q) = some (.symlink target) →
    files₀ (S ++ q) ≠ none ∧ files₀ (S ++ q) ≠ some .dir ∧
      (FileAt (files₀ (S ++ q)) → files₀ (leads (D ++ q)) ≠ none)

/-- The directories do not feed each other: the new one is not inside the former one, and where it
is the other way round, nothing is copied from the former one into itself. -/
structure Apart : Prop where
  notBelow : S <+: D → S = D
  noEcho : ∀ r, r ≠ [] → S = D ++ r → files₀ (S ++ r) ≠ some .dir

/-- Nothing is copied into the former directory. -/
structure Quiet : Prop where
  apart : Apart files₀ S D
  old : ∀ q, Possible q → files₀ (S ++ q) ≠ none ∨ S ++ q = D ++ [m]

/-- A directory that is being read, at `q` below the two directories. -/
structure FrameOk (files : Files) (visited : List Path) (frame : Frame) (q : Path) : Prop where
  atSource : frame.source = S ++ q
  atDestination : frame.destination = D ++ q
  dirs : ∀ t, t <+: q → files (S ++ t) = some .dir
  made : ∀ p, p <+: D ++ q → files p ≠ none
  returned : ∀ n, S ++ (q ++ [n]) ∈ visited ↔ n ∈ frame.returned
  seen : q ≠ [] → S ++ q ∈ visited
  stream : StreamHolds files frame

/-- A directory that is about to be read. -/
structure CallOk (files : Files) (visited : List Path) (here there : Path) (outer : List Frame)
    (q : Path) : Prop where
  atSource : here = S ++ q
  atDestination : there = D ++ q
  dirs : ∀ t, t <+: q → t ≠ q → files (S ++ t) = some .dir
  made : ∀ p, p <+: D ++ q → (p = D ++ q → q = []) → files p ≠ none
  fresh : ∀ n, S ++ (q ++ [n]) ∉ visited
  seen : q ≠ [] → S ++ q ∈ visited
  dir : q ≠ [] → files (S ++ q) = some .dir
  notSkipped : q ≠ [] → S ++ q ≠ S ++ [c]
  deeper : ∀ g ∈ outer, g.source.length < here.length

structure Copying (files : Files) (created createdFiles visited : List Path)
    (frames : List Frame) : Prop where
  kept : files₀.Extends files
  config : FileAt (files (D ++ [m]))
  new : ∀ q, q ≠ [] → files (S ++ q) ≠ none → Possible q
  links : ∀ p target, files p = some (.symlink target) → files₀ p = some (.symlink target)
  record : Quiet files₀ S D m Possible → ∃ before copied, created = before ++ copied ∧
    before.length ≤ (files₀.missing D).length + 2 ∧ copied.Nodup ∧ ∀ p ∈ copied, files p ≠ none ∧
      ∃ q, q ≠ [] ∧ p = D ++ q ∧ files₀ (S ++ q) ≠ none ∧ S ++ q ≠ S ++ [c]
  nodup : visited.Nodup
  entries : ∀ p ∈ visited, ∃ q, q ≠ [] ∧ p = S ++ q ∧ files p ≠ none
  closed : ∀ q n, q ≠ [] → S ++ (q ++ [n]) ∈ visited → S ++ q ∈ visited
  journal : createdFiles.length ≤ visited.length + 1
  reading : ∀ f ∈ frames, ∃ q, FrameOk S D files visited f q
  nested : frames.Pairwise fun f g => g.source.length < f.source.length

end Kept

section Copying

variable {leads : Path → Path} {files₀ : Files} {S D : Path} {c m : String}
  {Possible : Path → Prop} {files : Files}
  {created createdFiles visited : List Path} {frame : Frame} {frames outer : List Frame} {q : Path}

/-- A path below the former directory that is an entry of the new one. -/
theorem eq_of_entry (h : S <+: D → S = D) (hq : q ≠ []) (heq : S ++ q = D ++ [m]) :
    S = D ∧ q = [m] := by
  obtain ⟨q', n, rfl⟩ := (List.eq_nil_or_concat' q).resolve_left hq
  rw [← List.append_assoc] at heq
  obtain ⟨hdir, hlast⟩ := List.append_inj' heq rfl
  have hS : S = D := h ⟨q', hdir⟩
  rw [hS] at hdir
  have hq' : q' = [] := List.append_right_eq_self.mp hdir
  rw [hq', hlast]
  exact ⟨hS, rfl⟩

theorem FrameOk.mono {files' : Files} (h : FrameOk S D files visited frame q)
    (hext : files.Extends files') : FrameOk S D files' visited frame q where
  atSource := h.atSource
  atDestination := h.atDestination
  dirs t ht := hext.eq_some (h.dirs t ht)
  made p hp := hext.ne_none (h.made p hp)
  returned := h.returned
  seen := h.seen
  stream := h.stream.mono hext

theorem Copying.pop (h : Copying files₀ S D c m Possible files created createdFiles visited
    (frame :: outer)) :
    Copying files₀ S D c m Possible files created createdFiles visited outer :=
  { h with
    reading := fun f hf => h.reading f (List.mem_cons_of_mem _ hf)
    nested := (List.pairwise_cons.mp h.nested).2 }

section Put

variable (h : Copying files₀ S D c m Possible files created createdFiles visited frames)
include h

/-- What is a directory now was one before or was not there. -/
theorem Copying.dir_old (hdir : files (S ++ q) = some .dir) :
    (files₀ (S ++ q) = none ∨ files₀ (S ++ q) = some .dir) ∧ S ++ q ≠ D ++ [m] := by
  refine ⟨or_iff_not_imp_left.mpr fun hold => ?_, fun heq => ?_⟩
  · rw [← h.kept _ hold, hdir]
  · obtain ⟨contents, hfile⟩ := h.config
    rw [← heq, hdir] at hfile
    cases hfile

/-- What is created for an entry stands for an entry that was there before. -/
theorem Copying.entry_old (hquiet : Quiet files₀ S D m Possible) (hq : q ≠ [])
    (hhere : files (S ++ q) ≠ none) (hnone : files (D ++ q) = none) : files₀ (S ++ q) ≠ none := by
  rcases hquiet.old q (h.new q hq hhere) with hold | hnew
  · exact hold
  · obtain ⟨rfl, -⟩ := eq_of_entry hquiet.apart.notBelow hq hnew
    exact absurd hnone hhere

/-- Something is created for an entry. -/
theorem Copying.put (hclosed : Closed leads files₀ S D m Possible) (hq : q ≠ [])
    (hdirs : ∀ t, t <+: q → t ≠ q → files (S ++ t) = some .dir) (hhere : files (S ++ q) ≠ none)
    (hskip : S ++ q ≠ S ++ [c]) (hnone : files (D ++ q) = none) {node : Node}
    (hnode : ∀ target, node ≠ .symlink target) :
    Copying files₀ S D c m Possible (files.set (D ++ q) (some node)) (created ++ [D ++ q])
      createdFiles visited frames := by
  have hext : files.Extends (files.set (D ++ q) (some node)) := Files.extends_set hnone _
  obtain ⟨contents, hconfig⟩ := h.config
  refine ⟨h.kept.trans hext, ⟨contents, hext.eq_some hconfig⟩, fun t ht hfile => ?_,
    fun p target hlink => ?_, fun hquiet => ?_, h.nodup, fun p hp => ?_, h.closed, h.journal,
    fun f hf => ?_, h.nested⟩
  · by_cases heq : S ++ t = D ++ q
    · -- the copy lies in the former directory
      refine hclosed.copy q t ht (h.new q hq hhere) heq.symm fun p hp hne hnil => ?_
      have hdir := hdirs p hp hne
      exact ⟨h.new p hnil (Files.ne_none_of_eq hdir), h.dir_old hdir⟩
    · rw [Files.set_other _ _ heq] at hfile
      exact h.new t ht hfile
  · by_cases hp : p = D ++ q
    · rw [hp, Files.set_same, Option.some.injEq] at hlink
      exact absurd hlink (hnode target)
    · rw [Files.set_other _ _ hp] at hlink
      exact h.links p target hlink
  · have hold := h.entry_old hquiet hq hhere hnone
    obtain ⟨before, copied, hcreated, hbefore, hnodup, hcopied⟩ := h.record hquiet
    refine ⟨before, copied ++ [D ++ q], by rw [hcreated, List.append_assoc], hbefore, ?_, ?_⟩
    · refine List.nodup_append.mpr ⟨hnodup, List.nodup_singleton _, ?_⟩
      intro p hp p' hp' heq
      rw [heq, List.mem_singleton.mp hp'] at hp
      exact (hcopied _ hp).1 hnone
    · intro p hp
      rcases List.mem_append.mp hp with hp | hp
      · obtain ⟨hthere, hfor⟩ := hcopied p hp
        exact ⟨hext.ne_none hthere, hfor⟩
      · rw [List.mem_singleton.mp hp, Files.set_same]
        exact ⟨Option.some_ne_none _, q, hq, rfl, hold, hskip⟩
  · obtain ⟨t, ht, heq, hfile⟩ := h.entries p hp
    exact ⟨t, ht, heq, hext.ne_none hfile⟩
  · obtain ⟨t, hok⟩ := h.reading f hf
    exact ⟨t, hok.mono hext⟩

/-- A link is in the way of an entry only where nothing is copied. -/
theorem Copying.of_link (hclosed : Closed leads files₀ S D m Possible) (hq : q ≠ [])
    {target : Target} (hlink : files (D ++ q) = some (.symlink target)) :
    files (S ++ q) ≠ some .dir ∧
      (FileAt (files (S ++ q)) → entryExists leads files (D ++ q) = true) := by
  have hold {node : Node} (hnode : files (S ++ q) = some node) :
      files₀ (S ++ q) = some node ∧ files₀ (S ++ q) ≠ some .dir ∧
        (FileAt (files₀ (S ++ q)) → files₀ (leads (D ++ q)) ≠ none) := by
    obtain ⟨hthere, hplace⟩ := hclosed.place q target hq (h.new q hq (Files.ne_none_of_eq hnode))
      (h.links _ target hlink)
    exact ⟨by rw [← h.kept _ hthere, hnode], hplace⟩
  constructor
  · intro hdir
    obtain ⟨hdir₀, hnot, -⟩ := hold hdir
    exact hnot hdir₀
  · rintro ⟨contents, hfile⟩
    obtain ⟨hfile₀, -, hleads⟩ := hold hfile
    have htarget := hleads ⟨contents, hfile₀⟩
    simp only [entryExists, hlink, Option.isSome_iff_ne_none]
    exact h.kept.ne_none htarget

end Put

/-- An entry of a directory that is being read, below the two directories. -/
theorem FrameOk.entry (h : FrameOk S D files visited frame q) (name : String) :
    frame.source ++ [name] = S ++ (q ++ [name]) ∧
      frame.destination ++ [name] = D ++ (q ++ [name]) := by
  rw [h.atSource, h.atDestination, List.append_assoc, List.append_assoc]
  exact ⟨rfl, rfl⟩

theorem FrameOk.entry_dirs (h : FrameOk S D files visited frame q) {name : String} {t : Path}
    (ht : t <+: q ++ [name]) (hne : t ≠ q ++ [name]) : files (S ++ t) = some .dir :=
  h.dirs t ((List.prefix_concat_iff.mp ht).resolve_left hne)

theorem FrameOk.fresh (h : FrameOk S D files visited frame q) {name : String}
    (hnext : frame.Next files name) : frame.source ++ [name] ∉ visited := by
  rw [(h.entry name).1]
  exact fun hmem => hnext.1 ((h.returned name).mp hmem)

/-- An entry is returned. -/
theorem Copying.see (h : Copying files₀ S D c m Possible files created createdFiles visited
    (frame :: outer)) {name : String} (hnext : frame.Next files name) :
    Copying files₀ S D c m Possible files created createdFiles
      ((frame.source ++ [name]) :: visited)
      ({ frame with returned := name :: frame.returned } :: outer) := by
  obtain ⟨q, hok⟩ := h.reading frame List.mem_cons_self
  have hfresh := hok.fresh hnext
  have hfile := hnext.2
  rw [(hok.entry name).1] at hfresh hfile ⊢
  have hframe : FrameOk S D files ((S ++ (q ++ [name])) :: visited)
      { frame with returned := name :: frame.returned } q := by
    refine ⟨hok.atSource, hok.atDestination, hok.dirs, hok.made, fun n => ?_, fun hq => ?_,
      hok.stream⟩
    · rw [List.mem_cons, List.mem_cons, hok.returned n]
      simp
    · exact List.mem_cons_of_mem _ (hok.seen hq)
  refine ⟨h.kept, h.config, h.new, h.links, h.record, List.nodup_cons.mpr ⟨hfresh, h.nodup⟩, ?_, ?_,
    ?_, ?_, ?_⟩
  · intro p hp
    rcases List.mem_cons.mp hp with rfl | hp
    · exact ⟨q ++ [name], by simp, rfl, hfile⟩
    · exact h.entries p hp
  · intro t n ht hmem
    rcases List.mem_cons.mp hmem with heq | hmem
    · obtain ⟨rfl, -⟩ := List.append_inj' (List.append_cancel_left heq) rfl
      exact List.mem_cons_of_mem _ (hok.seen ht)
    · exact List.mem_cons_of_mem _ (h.closed t n ht hmem)
  · have hle := h.journal
    rw [List.length_cons]
    omega
  · intro f hf
    rcases List.mem_cons.mp hf with rfl | hf
    · exact ⟨q, hframe⟩
    · -- a frame further out has another source
      obtain ⟨t, hother⟩ := h.reading f (List.mem_cons_of_mem _ hf)
      have hlen := (List.pairwise_cons.mp h.nested).1 f hf
      rw [hother.atSource, hok.atSource, List.length_append, List.length_append] at hlen
      refine ⟨t, hother.atSource, hother.atDestination, hother.dirs, hother.made, fun n => ?_,
        fun ht => List.mem_cons_of_mem _ (hother.seen ht), hother.stream⟩
      rw [List.mem_cons, hother.returned n, or_iff_right]
      intro heq
      obtain ⟨rfl, -⟩ := List.append_inj' (List.append_cancel_left heq) rfl
      omega
  · obtain ⟨hhead, htail⟩ := List.pairwise_cons.mp h.nested
    exact List.pairwise_cons.mpr ⟨hhead, htail⟩

/-- The entry is a directory, and it is read next. -/
theorem FrameOk.descend (hok : FrameOk S D files visited frame q) {name : String}
    (h : Copying files₀ S D c m Possible files created createdFiles visited (frame :: outer))
    (hnext : frame.Next files name) (hskip : frame.source ++ [name] ≠ S ++ [c])
    (hdir : files (frame.source ++ [name]) = some .dir) :
    CallOk S D c files ((frame.source ++ [name]) :: visited) (frame.source ++ [name])
      (frame.destination ++ [name]) ({ frame with returned := name :: frame.returned } :: outer)
      (q ++ [name]) := by
  have hfresh := hok.fresh hnext
  obtain ⟨hhere, hthere⟩ := hok.entry name
  refine ⟨hhere, hthere, fun t => hok.entry_dirs, fun p hp hlast => ?_, fun n hmem => ?_,
    fun _ => by rw [hhere]; exact List.mem_cons_self, fun _ => hhere ▸ hdir,
    fun _ => hhere ▸ hskip, fun g hg => ?_⟩
  · rw [← List.append_assoc] at hp hlast
    refine hok.made p ((List.prefix_concat_iff.mp hp).resolve_left fun heq => ?_)
    have hnil := hlast heq
    simp at hnil
  · -- nothing below it has been returned, since it has not been itself
    rw [hhere] at hmem hfresh
    rcases List.mem_cons.mp hmem with heq | hmem
    · have hlen := congrArg List.length heq
      simp at hlen
    · exact hfresh (h.closed (q ++ [name]) n (by simp) hmem)
  · rw [List.length_append]
    rcases List.mem_cons.mp hg with rfl | hg
    · exact Nat.lt_succ_self _
    · have hlen := (List.pairwise_cons.mp h.nested).1 g hg
      exact Nat.lt_succ_of_lt hlen

/-- The copy of an entry is entered in the journal. -/
theorem Copying.journaled {p : Path}
    (h : Copying files₀ S D c m Possible files created createdFiles (p :: visited) frames)
    (hjournal : createdFiles.length ≤ visited.length + 1) (path : Path) :
    Copying files₀ S D c m Possible files created (createdFiles ++ [path]) (p :: visited)
      frames := by
  refine { h with journal := ?_ }
  rw [List.length_append, List.length_singleton, List.length_cons]
  omega

/-- The entry is a file, and something of it is copied. -/
theorem Copying.copied (hclosed : Closed leads files₀ S D m Possible)
    (h : Copying files₀ S D c m Possible files created createdFiles visited (frame :: outer))
    {name : String} (hnext : frame.Next files name) (hskip : frame.source ++ [name] ≠ S ++ [c])
    (hnone : files (frame.destination ++ [name]) = none) (bytes : List UInt8) :
    Copying files₀ S D c m Possible
      (files.set (frame.destination ++ [name]) (some (.file bytes)))
      (created ++ [frame.destination ++ [name]]) (createdFiles ++ [frame.destination ++ [name]])
      ((frame.source ++ [name]) :: visited)
      ({ frame with returned := name :: frame.returned } :: outer) := by
  obtain ⟨q, hok⟩ := h.reading frame List.mem_cons_self
  have hseen := (h.see hnext).journaled h.journal (frame.destination ++ [name])
  have hthere := hnext.2
  rw [(hok.entry name).1] at hskip hthere
  rw [(hok.entry name).2] at hnone hseen ⊢
  exact hseen.put hclosed (by simp) (fun t => hok.entry_dirs) hthere hskip hnone
    (fun target => (Node.noConfusion : Node.file bytes ≠ .symlink target))

/-- The directories that a call makes: the destination, or nothing. -/
theorem CallOk.missing {here there : Path} (hcall : CallOk S D c files visited here there outer q)
    (n : Nat) : files.missing (there.take n) = [] ∨
      q ≠ [] ∧ there.take n = there ∧ files there = none ∧ files.missing there = [there] := by
  rcases hcall.atDestination with rfl
  by_cases hq : q = []
  · left
    refine Files.missing_eq_nil fun p hp => ?_
    exact hcall.made p (hp.trans (List.take_prefix n _)) fun _ => hq
  · by_cases hall : (D ++ q).take n = D ++ q
    · obtain ⟨q', x, rfl⟩ := (List.eq_nil_or_concat' q).resolve_left hq
      have hbefore : files.missing (D ++ q') = [] := by
        refine Files.missing_eq_nil fun p hp => hcall.made p ?_ fun heq => ?_
        · rw [← List.append_assoc]
          exact hp.trans (List.prefix_append _ _)
        · have hlen := hp.length_le
          rw [heq] at hlen
          simp at hlen
      rw [hall, ← List.append_assoc, Files.missing_snoc, hbefore]
      by_cases hnone : files (D ++ q' ++ [x]) = none
      · exact .inr ⟨hq, rfl, hnone, by rw [if_pos hnone, List.nil_append]⟩
      · exact .inl (by rw [if_neg hnone, List.append_nil])
    · left
      refine Files.missing_eq_nil fun p hp => ?_
      refine hcall.made p (hp.trans (List.take_prefix n _)) fun heq => absurd ?_ hall
      exact List.IsPrefix.eq_of_length_le (List.take_prefix n _) (heq ▸ hp.length_le)

/-- What a call has made, also when it fails. -/
theorem Copying.makeDirs (hclosed : Closed leads files₀ S D m Possible)
    (h : Copying files₀ S D c m Possible files created createdFiles visited outer)
    {here there : Path} (hcall : CallOk S D c files visited here there outer q) (n : Nat) :
    Copying files₀ S D c m Possible (files.makeDirs (there.take n))
      (created ++ files.missing (there.take n)) createdFiles visited outer := by
  rcases hcall.missing n with hnil | ⟨hq, hall, hnone, hone⟩
  · rw [Files.makeDirs_of_missing_nil hnil, hnil, List.append_nil]
    exact h
  · rw [hall, Files.makeDirs_of_missing_singleton hone, hone]
    rcases hcall.atDestination with rfl
    exact h.put hclosed hq hcall.dirs (Files.ne_none_of_eq (hcall.dir hq)) (hcall.notSkipped hq)
      hnone (by simp)

/-- A directory is opened. -/
theorem Copying.call (hclosed : Closed leads files₀ S D m Possible)
    (h : Copying files₀ S D c m Possible files created createdFiles visited outer)
    {here there : Path} (hcall : CallOk S D c files visited here there outer q)
    (hdir : files here = some .dir) :
    Copying files₀ S D c m Possible (files.makeDirs there) (created ++ files.missing there)
      createdFiles visited (opening (files.makeDirs there) here there :: outer) := by
  have hmade := h.makeDirs hclosed hcall there.length
  rw [List.take_length] at hmade
  have hext := Files.extends_makeDirs files there
  have hframe : FrameOk S D (files.makeDirs there) visited
      (opening (files.makeDirs there) here there) q := by
    refine ⟨hcall.atSource, hcall.atDestination, fun t ht => ?_, fun p hp => ?_, fun n => ?_,
      hcall.seen, fun _ hname => hname⟩
    · have hold : files (S ++ t) = some .dir := by
        by_cases heq : t = q
        · rw [heq, ← hcall.atSource, hdir]
        · exact hcall.dirs t ht heq
      exact hext.eq_some hold
    · exact Files.makeDirs_of_prefix (hcall.atDestination ▸ hp)
    · exact iff_of_false (hcall.fresh n) List.not_mem_nil
  refine { hmade with reading := fun f hf => ?_, nested := ?_ }
  · rcases List.mem_cons.mp hf with rfl | hf
    · exact ⟨q, hframe⟩
    · exact hmade.reading f hf
  · exact List.pairwise_cons.mpr ⟨hcall.deeper, hmade.nested⟩

/-- The parent directory is there, and the new configuration in it. -/
theorem Copying.begin (hclosed : Closed leads files₀ S D m Possible)
    (hfree : files₀.makeDirs D (D ++ [m]) = none) (temporary : Path) (contents : List UInt8) :
    Copying files₀ S D c m Possible
      ((files₀.makeDirs D).set (D ++ [m]) (some (.file contents)))
      (files₀.missing D ++ [temporary] ++ [D ++ [m]]) [D ++ [m]] [] [] := by
  refine ⟨(Files.extends_makeDirs files₀ D).trans (Files.extends_set hfree _),
    ⟨contents, Files.set_same ..⟩, fun q hq hthere => ?_, fun p target hlink => ?_,
    fun _ => ⟨_, [], (List.append_nil _).symm, by simp, List.nodup_nil, by simp⟩,
    List.nodup_nil, by simp, by simp, by simp, by simp, List.Pairwise.nil⟩
  · by_cases heq : S ++ q = D ++ [m]
    · exact hclosed.config q hq heq
    · rw [Files.set_other _ _ heq, Files.makeDirs_apply] at hthere
      split_ifs at hthere with hmissing
      · exact hclosed.way q hq (Files.mem_missing.mp hmissing).1
      · exact hclosed.old q hq hthere
  · by_cases heq : p = D ++ [m]
    · rw [heq, Files.set_same] at hlink
      cases hlink
    · rw [Files.set_other _ _ heq, Files.makeDirs_apply] at hlink
      split_ifs at hlink with hmissing
      · cases hlink
      · exact hlink

theorem CallOk.begin (hfree : files₀.makeDirs D (D ++ [m]) = none) (contents : List UInt8) :
    CallOk S D c ((files₀.makeDirs D).set (D ++ [m]) (some (.file contents))) [] S D [] [] := by
  refine ⟨by simp, by simp, fun t ht hne => absurd (List.prefix_nil.mp ht) hne,
    fun p hp _ => ?_, by simp, by simp, by simp, by simp, by simp⟩
  rw [List.append_nil] at hp
  have hmade : files₀.makeDirs D p ≠ none := Files.makeDirs_of_prefix hp
  rw [Files.extends_set hfree _ p hmade]
  exact hmade

/-! ## The bounds -/

variable {tree room : Finset Path}

/-- The entries of the source tree before the call. -/
def Tree (files₀ : Files) (S : Path) (tree : Finset Path) : Prop :=
  ∀ q, q ∈ tree ↔ q ≠ [] ∧ files₀ (S ++ q) ≠ none

theorem Copying.length_visited (hroom : ∀ q, q ≠ [] → Possible q → q ∈ room)
    (h : Copying files₀ S D c m Possible files created createdFiles visited frames) :
    visited.length ≤ room.card := by
  have hsub : visited.toFinset ⊆ room.image (S ++ ·) := by
    intro p hp
    obtain ⟨q, hq, rfl, hfile⟩ := h.entries p (List.mem_toFinset.mp hp)
    exact Finset.mem_image.mpr ⟨q, hroom q hq (h.new q hq hfile), rfl⟩
  calc visited.length = visited.toFinset.card := (List.toFinset_card_of_nodup h.nodup).symm
    _ ≤ (room.image (S ++ ·)).card := Finset.card_le_card hsub
    _ ≤ room.card := Finset.card_image_le

theorem Copying.length_created (hquiet : Quiet files₀ S D m Possible) (htree : Tree files₀ S tree)
    (hconfig : files₀ (S ++ [c]) ≠ none)
    (h : Copying files₀ S D c m Possible files created createdFiles visited frames) :
    created.length ≤ tree.card + (files₀.missing D).length + 1 := by
  obtain ⟨before, copied, hcreated, hbefore, hnodup, hcopied⟩ := h.record hquiet
  have hc : [c] ∈ tree := (htree [c]).mpr ⟨List.cons_ne_nil _ _, hconfig⟩
  -- the former configuration is not copied, which makes up for the temporary file
  have hsub : copied.toFinset ⊆ (tree.erase [c]).image (D ++ ·) := by
    intro p hp
    obtain ⟨-, q, hq, rfl, hold, hskip⟩ := hcopied p (List.mem_toFinset.mp hp)
    refine Finset.mem_image.mpr ⟨q, Finset.mem_erase.mpr ⟨?_, (htree q).mpr ⟨hq, hold⟩⟩, rfl⟩
    rintro rfl
    exact hskip rfl
  have hcard : copied.length < tree.card :=
    calc copied.length = copied.toFinset.card := (List.toFinset_card_of_nodup hnodup).symm
      _ ≤ ((tree.erase [c]).image (D ++ ·)).card := Finset.card_le_card hsub
      _ ≤ (tree.erase [c]).card := Finset.card_image_le
      _ < tree.card := Finset.card_erase_lt_of_mem hc
  rw [hcreated, List.length_append]
  omega

end Copying

/-! ## Paths -/

section Paths

variable {leads : Path → Path} {files₀ : Files} {source destination : Path}

theorem resolve_snoc (path : Path) (name : String) :
    resolve leads files₀ (path ++ [name]) =
      (resolve leads files₀ path).bind fun directory => down leads files₀ directory name := by
  rw [resolve, List.foldlM_append, resolve]
  cases List.foldlM (down leads files₀) [] path with
  | none => rfl
  | some directory => exact bind_pure (down leads files₀ directory name)

/-- What has to be made on the way is no more than the names that were given. -/
theorem length_missing_resolve (hwf : files₀.WellFormed) {path directory : Path}
    (h : resolve leads files₀ path = some directory) :
    (files₀.missing directory).length ≤ path.length := by
  induction path using List.reverseRecOn generalizing directory with
  | nil =>
    cases h
    rw [hwf.missing_eq_nil (Files.ne_none_of_eq hwf.root)]
    exact Nat.le_refl 0
  | append_singleton path name ih =>
    rw [resolve_snoc] at h
    obtain ⟨above, habove, hdown⟩ := Option.bind_eq_some_iff.mp h
    have hlen := ih habove
    rw [List.length_append, List.length_singleton]
    unfold down at hdown
    split at hdown
    · -- a link leads to a directory that is there
      obtain ⟨hdir, heq⟩ := Option.ite_none_right_eq_some.mp hdown
      cases heq
      rw [hwf.missing_eq_nil (Files.ne_none_of_eq hdir)]
      exact Nat.zero_le _
    · cases hdown
      rw [Files.missing_snoc, List.length_append]
      split_ifs
      · exact Nat.add_le_add_right hlen 1
      · simp only [List.length_nil]
        omega

theorem formerText_some {S : Path} {text : String}
    (h : formerText leads files₀ source destination = some (S, text)) :
    source ≠ [] ∧ destination ≠ [] ∧ resolve leads files₀ source.dropLast = some S ∧
      ∃ contents, contentsAt leads files₀ (S ++ [source.getLastD ""]) = some contents := by
  obtain ⟨hnamed, h⟩ := Option.ite_none_left_eq_some.mp h
  obtain ⟨hsource, hdestination⟩ := not_or.mp hnamed
  obtain ⟨directory, hresolve, h⟩ := Option.bind_eq_some_iff.mp h
  obtain ⟨text', htext, heq⟩ := Option.map_eq_some_iff.mp h
  cases heq
  obtain ⟨contents, hcontents, -⟩ := Option.bind_eq_some_iff.mp htext
  exact ⟨hsource, hdestination, hresolve, contents, hcontents⟩

/-- The directories that are made for the new configuration, and a file in them. -/
theorem length_missing_parent (hwf : files₀.WellFormed) {former parent : Path}
    (hformer : ∃ text, formerText leads files₀ source destination = some (former, text))
    (hparent : resolve leads files₀ destination.dropLast = some parent) :
    (files₀.missing parent).length < destination.length := by
  obtain ⟨text, htext⟩ := hformer
  have hway := length_missing_resolve hwf hparent
  have hpos := List.length_pos_iff.mpr (formerText_some htext).2.1
  rw [List.length_dropLast] at hway
  omega

theorem contentsAt_some {path : Path} {contents : List UInt8}
    (h : contentsAt leads files₀ path = some contents) :
    files₀ path ≠ none ∧ files₀ path ≠ some .dir := by
  unfold contentsAt at h
  split at h
  · rename_i hfile
    simp [hfile]
  · rename_i hlink
    simp [hlink]
  · cases h

variable (leads files₀ source destination) in
/-- The migration gets as far as copying from `S` to `D`. -/
structure Starts (S D : Path) : Prop where
  former : ∃ text, formerText leads files₀ source destination = some (S, text)
  parent : resolve leads files₀ destination.dropLast = some D
  way : files₀.open_ D = true
  absent : files₀ (D ++ [destination.getLastD ""]) = none

theorem Starts.unique {S D S' D' : Path} (h : Starts leads files₀ source destination S D)
    (h' : Starts leads files₀ source destination S' D') : S' = S ∧ D' = D := by
  obtain ⟨text, htext⟩ := h.former
  obtain ⟨text', htext'⟩ := h'.former
  have hformer := Option.some.inj (htext'.symm.trans htext)
  exact ⟨congrArg Prod.fst hformer, Option.some.inj (h'.parent.symm.trans h.parent)⟩

theorem Starts.config {S D : Path} (h : Starts leads files₀ source destination S D) :
    files₀ (S ++ [source.getLastD ""]) ≠ none ∧
      files₀ (S ++ [source.getLastD ""]) ≠ some .dir := by
  obtain ⟨text, htext⟩ := h.former
  obtain ⟨-, -, -, contents, hcontents⟩ := formerText_some htext
  exact contentsAt_some hcontents

end Paths

/-! ## The whole migration -/

section Migration

variable (leads : Path → Path) (files₀ : Files) (source destination S D : Path)
  (Possible : Path → Prop) (tree room : Finset Path)

/-- What is known if the migration gets as far as copying. -/
structure Setting : Prop where
  wf : files₀.WellFormed
  unique : ∀ S' D', Starts leads files₀ source destination S' D' → S' = S ∧ D' = D
  closed : Starts leads files₀ source destination S D →
    Closed leads files₀ S D (destination.getLastD "") Possible
  room : Starts leads files₀ source destination S D → ∀ q, q ≠ [] → Possible q → q ∈ room
  tree : Starts leads files₀ source destination S D → Tree files₀ S tree

def Bounded (s : State) : Prop :=
  (Starts leads files₀ source destination S D →
    Quiet files₀ S D (destination.getLastD "") Possible) →
      s.created.length ≤ tree.card + destination.length

/-- What holds of a migration, by its phase. -/
def Inv (s : State) : Prop :=
  match s.phase with
  | .check => s = start files₀
  | .read => s = (start files₀).enter .read
  | .makeParent contents =>
    (∃ text, formerText leads files₀ source destination = some (s.former, text)) ∧
      s = { start files₀ with former := s.former }.enter (.makeParent contents)
  | .temporary contents parent =>
    (∃ text, formerText leads files₀ source destination = some (s.former, text)) ∧
      resolve leads files₀ destination.dropLast = some parent ∧ files₀.open_ parent = true ∧
      s = ({ start files₀ with former := s.former }.makeDirs parent).enter
        (.temporary contents parent)
  | .persist contents parent name =>
    (∃ text, formerText leads files₀ source destination = some (s.former, text)) ∧
      resolve leads files₀ destination.dropLast = some parent ∧ files₀.open_ parent = true ∧
      files₀.makeDirs parent (parent ++ [name]) = none ∧
      s = (({ start files₀ with former := s.former }.makeDirs parent).create (parent ++ [name])
        contents).enter (.persist contents parent name)
  | .calling here there outer =>
    Starts leads files₀ source destination S D ∧ s.former = S ∧
      Copying files₀ S D (source.getLastD "") (destination.getLastD "") Possible s.files s.created
        s.createdFiles s.visited outer ∧
      ∃ q, CallOk S D (source.getLastD "") s.files s.visited here there outer q
  | .looping frame outer =>
    Starts leads files₀ source destination S D ∧ s.former = S ∧
      Copying files₀ S D (source.getLastD "") (destination.getLastD "") Possible s.files s.created
        s.createdFiles s.visited (frame :: outer)
  | .rollingBack left =>
    Bounded leads files₀ source destination S D Possible tree s ∧ left.length ≤ room.card + 1
  | .returned _ => Bounded leads files₀ source destination S D Possible tree s

/-- What a migration can still do at most. -/
def measure (s : State) : Nat :=
  match s.phase with
  | .check => 4 * room.card + 9
  | .read => 4 * room.card + 8
  | .makeParent _ => 4 * room.card + 7
  | .temporary _ _ => 4 * room.card + 6
  | .persist _ _ _ => 4 * room.card + 5
  | .calling _ _ outer => room.card + 2 + 3 * (room.card - s.visited.length) + outer.length + 2
  | .looping _ outer => room.card + 2 + 3 * (room.card - s.visited.length) + outer.length + 1
  | .rollingBack left => left.length + 1
  | .returned _ => 0

variable {leads files₀ source destination S D Possible tree room} {fails : Bool} {s s' : State}
  (hset : Setting leads files₀ source destination S D Possible tree room)

section Copying

variable (hstarts : Starts leads files₀ source destination S D)
include hset hstarts

/-- What has been created while copying. -/
theorem Copying.bounded {frames : List Frame} {createdFiles visited : List Path}
    {files : Files} (h : Copying files₀ S D (source.getLastD "") (destination.getLastD "") Possible
      files s.created createdFiles visited frames) :
    Bounded leads files₀ source destination S D Possible tree s := by
  intro hquiet
  have hlen := h.length_created (hquiet hstarts) (hset.tree hstarts) hstarts.config.1
  have hway := length_missing_parent hset.wf hstarts.former hstarts.parent
  omega

/-- An error while copying. -/
theorem Copying.rollBack {frames : List Frame}
    (h : Copying files₀ S D (source.getLastD "") (destination.getLastD "") Possible s.files
      s.created s.createdFiles s.visited frames) :
    Inv leads files₀ source destination S D Possible tree room s.rollBack ∧
      measure room s.rollBack ≤ room.card + 2 := by
  have hvisited := h.length_visited (hset.room hstarts)
  have hjournal := h.journal
  have hleft : s.createdFiles.reverse.length ≤ room.card + 1 := by
    rw [List.length_reverse]
    omega
  exact ⟨⟨h.bounded (s := s.rollBack) hset hstarts, hleft⟩, Nat.succ_le_succ hleft⟩

/-- No link is in the way of a call. -/
theorem CallOk.no_link {files : Files} {created createdFiles visited : List Path}
    {here there q : Path} {outer : List Frame}
    (h : Copying files₀ S D (source.getLastD "") (destination.getLastD "") Possible files created
      createdFiles visited outer)
    (hcall : CallOk S D (source.getLastD "") files visited here there outer q) (target : Target) :
    files there ≠ some (.symlink target) := by
  rw [hcall.atDestination]
  by_cases hq : q = []
  · intro hlink
    rw [hq, List.append_nil] at hlink
    have hold := h.links _ target hlink
    rcases Files.open_iff.mp hstarts.way D List.prefix_rfl with hnone | hdir
    · rw [hnone] at hold
      cases hold
    · rw [hdir] at hold
      cases hold
  · exact fun hlink => (h.of_link (hset.closed hstarts) hq hlink).1 (hcall.dir hq)

end Copying

theorem measure_calling {here there : Path} {outer : List Frame}
    (hphase : s.phase = .calling here there outer) : measure room s =
      room.card + 2 + 3 * (room.card - s.visited.length) + outer.length + 2 := by
  simp only [measure, hphase]

theorem measure_looping {frame : Frame} {outer : List Frame}
    (hphase : s.phase = .looping frame outer) : measure room s =
      room.card + 2 + 3 * (room.card - s.visited.length) + outer.length + 1 := by
  simp only [measure, hphase]

include hset

theorem Inv.calling {here there : Path} {outer : List Frame}
    (hphase : s.phase = .calling here there outer)
    (h : Inv leads files₀ source destination S D Possible tree room s)
    (hstep : Step fails leads source destination s s') :
    Inv leads files₀ source destination S D Possible tree room s' ∧
      measure room s' < measure room s := by
  simp only [Inv, hphase] at h
  obtain ⟨hstarts, hformer, hcopying, q, hcall⟩ := h
  have hclosed := hset.closed hstarts
  rw [measure_calling hphase]
  rcases hstep.of_calling hphase (hcall.no_link hset hstarts hcopying) with
    ⟨hdir, rfl⟩ | ⟨n, rfl | rfl⟩
  · exact ⟨⟨hstarts, hformer, hcopying.call hclosed hcall hdir⟩, Nat.lt_succ_self _⟩
  · obtain ⟨hinv, hle⟩ := Copying.rollBack (s := s.makeDirs (there.take n)) hset hstarts
      (hcopying.makeDirs hclosed hcall n)
    exact ⟨hinv, by omega⟩
  · obtain ⟨hinv, hle⟩ := Copying.rollBack (s := s) hset hstarts hcopying
    exact ⟨hinv, by omega⟩

theorem Inv.turn (hstarts : Starts leads files₀ source destination S D) (hformer : s.former = S)
    {frame : Frame} {outer : List Frame} (hphase : s.phase = .looping frame outer)
    (h : Copying files₀ S D (source.getLastD "") (destination.getLastD "") Possible s.files
      s.created s.createdFiles s.visited (frame :: outer)) {name : String}
    (hnext : frame.Next s.files name) :
    Inv leads files₀ source destination S D Possible tree room
        (s.turn leads (source.getLastD "") frame outer name) ∧
      measure room (s.turn leads (source.getLastD "") frame outer name) < measure room s := by
  obtain ⟨q, hok⟩ := h.reading frame List.mem_cons_self
  have hseen := h.see hnext
  have hroom := hseen.length_visited (hset.room hstarts)
  rw [List.length_cons] at hroom
  rw [measure_looping hphase]
  rcases s.turn_cases leads (source.getLastD "") frame outer name with heq | ⟨hskip, hdir, heq⟩ |
    ⟨hskip, hnone, contents, -, heq⟩ | heq | ⟨hfile, hfree, target, hlink⟩
  · rw [heq]
    refine ⟨⟨hstarts, hformer, hseen⟩, ?_⟩
    show room.card + 2 + 3 * (room.card - (s.visited.length + 1)) + outer.length + 1 < _
    omega
  · rw [heq]
    rw [hformer] at hskip
    refine ⟨⟨hstarts, hformer, hseen, q ++ [name], hok.descend h hnext hskip hdir⟩, ?_⟩
    show room.card + 2 + 3 * (room.card - (s.visited.length + 1)) + (outer.length + 1) + 2 < _
    omega
  · rw [heq]
    rw [hformer] at hskip
    refine ⟨⟨hstarts, hformer, h.copied (hset.closed hstarts) hnext hskip hnone contents⟩, ?_⟩
    show room.card + 2 + 3 * (room.card - (s.visited.length + 1)) + outer.length + 1 < _
    omega
  · rw [heq]
    obtain ⟨hinv, hle⟩ := Copying.rollBack
      (s := { s with visited := (frame.source ++ [name]) :: s.visited }) hset hstarts hseen
    exact ⟨hinv, by omega⟩
  · rw [(hok.entry name).1] at hfile
    rw [(hok.entry name).2] at hlink hfree
    have hexists := (h.of_link (hset.closed hstarts) (by simp) hlink).2 hfile
    rw [hfree] at hexists
    cases hexists

theorem Inv.looping {frame : Frame} {outer : List Frame}
    (hphase : s.phase = .looping frame outer)
    (h : Inv leads files₀ source destination S D Possible tree room s)
    (hstep : Step fails leads source destination s s') :
    Inv leads files₀ source destination S D Possible tree room s' ∧
      measure room s' < measure room s := by
  simp only [Inv, hphase] at h
  obtain ⟨hstarts, hformer, hcopying⟩ := h
  have hclosed := hset.closed hstarts
  have hmeasure : measure room s = _ := measure_looping hphase
  rcases hstep.of_looping hphase with ⟨name, hnext, rfl⟩ | rfl |
    ⟨name, there, left, hnext, hskip, hfile, hfree, hthere, rfl⟩ | rfl
  · exact Inv.turn hset hstarts hformer hphase hcopying hnext
  · obtain ⟨hinv, hle⟩ := Copying.rollBack (s := s) hset hstarts hcopying
    exact ⟨hinv, by omega⟩
  · obtain ⟨q, hok⟩ := hcopying.reading frame List.mem_cons_self
    have hplace : there = frame.destination ++ [name] ∧ s.files there = none := by
      rcases hthere with hplain | ⟨-, hsome⟩
      · exact hplain
      · rcases entryExists_eq_false hfree with hnone | ⟨target, hlink⟩
        · exact absurd hnone hsome
        · rw [(hok.entry name).1] at hfile
          rw [(hok.entry name).2] at hlink hfree
          have hexists := (hcopying.of_link hclosed (by simp) hlink).2 hfile
          rw [hfree] at hexists
          cases hexists
    obtain ⟨rfl, hnone⟩ := hplace
    generalize hs : ({ s with visited := (frame.source ++ [name]) :: s.visited }.journal
      (frame.destination ++ [name])).leave (frame.destination ++ [name]) left = t
    rw [hformer] at hskip
    have hleft : Copying files₀ S D (source.getLastD "") (destination.getLastD "") Possible t.files
        t.created t.createdFiles t.visited
        ({ frame with returned := name :: frame.returned } :: outer) := by
      subst hs
      cases left with
      | none => exact (hcopying.see hnext).journaled hcopying.journal _
      | some bytes => exact hcopying.copied hclosed hnext hskip hnone bytes
    obtain ⟨hinv, hle⟩ := Copying.rollBack (s := t) hset hstarts hleft
    exact ⟨hinv, by omega⟩
  · rw [hmeasure]
    cases outer with
    | nil => exact ⟨hcopying.bounded hset hstarts, Nat.succ_pos _⟩
    | cons g outer =>
      refine ⟨⟨hstarts, hformer, hcopying.pop⟩, ?_⟩
      show room.card + 2 + 3 * (room.card - s.visited.length) + outer.length + 1 < _
      rw [List.length_cons]
      omega

/-- Copying begins. -/
theorem Inv.persist {contents : List UInt8} {parent : Path} {name : String}
    (hphase : s.phase = .persist contents parent name)
    (hfree : s.files (parent ++ [destination.getLastD ""]) = none)
    (h : Inv leads files₀ source destination S D Possible tree room s) :
    Inv leads files₀ source destination S D Possible tree room
      ((((s.remove (parent ++ [name])).create (parent ++ [destination.getLastD ""])
        contents).journal (parent ++ [destination.getLastD ""])).enter
          (.calling s.former parent [])) := by
  simp only [Inv, hphase] at h
  obtain ⟨hformer, hparent, hway, hname, hs⟩ := h
  generalize s.former = former at *
  subst hs
  obtain ⟨-, hmade⟩ := Files.set_eq_none hfree
  have hstarts : Starts leads files₀ source destination former parent :=
    ⟨hformer, hparent, hway, Files.makeDirs_below files₀ parent _ [] ▸ hmade⟩
  obtain ⟨rfl, rfl⟩ := hset.unique _ _ hstarts
  have hclosed := hset.closed hstarts
  have hfiles := Files.set_set_none hname (some (Node.file contents))
  refine ⟨hstarts, rfl, ?_, [], ?_⟩
  · simp only [State.enter, State.journal, State.create, State.remove, State.makeDirs, start,
      hfiles]
    exact .begin hclosed hmade _ contents
  · simp only [State.enter, State.journal, State.create, State.remove, State.makeDirs, start,
      hfiles]
    exact .begin hmade contents

/-- What has been created, at every point. -/
theorem Inv.bounded (h : Inv leads files₀ source destination S D Possible tree room s) :
    Bounded leads files₀ source destination S D Possible tree s := by
  cases hphase : s.phase with
  | check =>
    simp only [Inv, hphase] at h
    subst h
    exact fun _ => Nat.zero_le _
  | read =>
    simp only [Inv, hphase] at h
    subst h
    exact fun _ => Nat.zero_le _
  | makeParent contents =>
    simp only [Inv, hphase] at h
    rw [h.2]
    exact fun _ => Nat.zero_le _
  | temporary contents parent =>
    simp only [Inv, hphase] at h
    obtain ⟨hformer, hparent, -, hs⟩ := h
    rw [hs]
    have hlt := length_missing_parent hset.wf hformer hparent
    exact fun _ => hlt.le.trans (Nat.le_add_left _ _)
  | persist contents parent name =>
    simp only [Inv, hphase] at h
    obtain ⟨hformer, hparent, -, -, hs⟩ := h
    have hlt := length_missing_parent hset.wf hformer hparent
    have hlen : s.created.length = (files₀.missing parent).length + 1 := by
      rw [hs]
      simp [State.enter, State.create, State.makeDirs, start]
    intro _
    omega
  | calling here there outer =>
    simp only [Inv, hphase] at h
    exact h.2.2.1.bounded hset h.1
  | looping frame outer =>
    simp only [Inv, hphase] at h
    exact h.2.2.bounded hset h.1
  | rollingBack left =>
    simp only [Inv, hphase] at h
    exact h.1
  | returned ok =>
    simp only [Inv, hphase] at h
    exact h

/-- What every step keeps, and what it uses up. -/
theorem Inv.step (h : Inv leads files₀ source destination S D Possible tree room s)
    (hstep : Step fails leads source destination s s') :
    Inv leads files₀ source destination S D Possible tree room s' ∧
      measure room s' < measure room s := by
  have hstep' := hstep
  have hbounded := h.bounded hset
  cases hstep with
  | present hp => exact ⟨hbounded, by simp [measure, hp, State.enter]⟩
  | absent hp =>
    simp only [Inv, hp] at h
    subst h
    exact ⟨rfl, Nat.lt_succ_self _⟩
  | read hp htext =>
    simp only [Inv, hp] at h
    subst h
    exact ⟨⟨⟨_, htext⟩, rfl⟩, Nat.lt_succ_self _⟩
  | readFails hp => exact ⟨hbounded, by simp [measure, hp, State.enter]⟩
  | parent hp hresolve hopen =>
    simp only [Inv, hp] at h
    obtain ⟨hformer, hs⟩ := h
    rw [hs] at hresolve hopen
    refine ⟨⟨hformer, hresolve, hopen, ?_⟩, by simp [measure, hp, State.enter]⟩
    rw [hs]
    rfl
  | parentFails n hp hfails hresolve hopen =>
    simp only [Inv, hp] at h
    obtain ⟨hformer, hs⟩ := h
    rw [hs] at hresolve
    have hlt := length_missing_parent hset.wf hformer hresolve
    refine ⟨fun _ => Nat.le_trans ?_ (Nat.le_add_left _ _), by simp [measure, hp, State.enter]⟩
    rw [hs]
    exact (files₀.missing_isPrefix (List.take_prefix n _)).length_le.trans hlt.le
  | parentBlocked hp => exact ⟨hbounded, by simp [measure, hp, State.enter]⟩
  | preserved hp => exact ⟨hbounded, by simp [measure, hp, State.enter]⟩
  | temporary hp hfree hname =>
    simp only [Inv, hp] at h
    obtain ⟨hformer, hparent, hopen, hs⟩ := h
    rw [hs] at hname
    refine ⟨⟨hformer, hparent, hopen, hname, ?_⟩, by simp [measure, hp, State.enter]⟩
    rw [hs]
    rfl
  | temporaryFails hp => exact ⟨hbounded, by simp [measure, hp, State.enter]⟩
  | persist hp hfree =>
    have hinv := h.persist hset hp hfree
    simp only [Inv, hp] at h
    obtain ⟨-, -, -, -, hs⟩ := h
    refine ⟨hinv, ?_⟩
    rw [measure_calling rfl, hs]
    show room.card + 2 + 3 * (room.card - 0) + 0 + 2 < 4 * room.card + 5
    omega
  | persistPreserved hp => exact ⟨hbounded, by simp [measure, hp, State.enter]⟩
  | persistFails hp => exact ⟨hbounded, by simp [measure, hp, State.enter]⟩
  | call hp => exact h.calling hset hp hstep'
  | callLinked hp => exact h.calling hset hp hstep'
  | callFails n hp => exact h.calling hset hp hstep'
  | callUnread hp => exact h.calling hset hp hstep'
  | callBlocked hp => exact h.calling hset hp hstep'
  | callLinkedFails hp => exact h.calling hset hp hstep'
  | turn hp => exact h.looping hset hp hstep'
  | entryFails hp => exact h.looping hset hp hstep'
  | copyFails left hp => exact h.looping hset hp hstep'
  | finish hp => exact h.looping hset hp hstep'
  | removal removed hp =>
    simp only [Inv, hp, List.length_cons] at h
    refine ⟨⟨?_, (Nat.le_succ _).trans h.2⟩, by simp [measure, hp, State.enter]⟩
    cases removed with
    | true => exact hbounded
    | false => exact hbounded
  | rolledBack hp => exact ⟨hbounded, by simp [measure, hp, State.enter]⟩

/-- A migration returns after so many steps at most, and until then it goes on. -/
theorem run_bounded {n : ℕ} (h : Steps (Step fails leads source destination) (start files₀) n s) :
    n ≤ 4 * room.card + 9 ∧ Bounded leads files₀ source destination S D Possible tree s ∧
      ((∃ ok, s.phase = .returned ok) ∨ ∃ s', Step fails leads source destination s s') := by
  have hinit : Inv leads files₀ source destination S D Possible tree room (start files₀) :=
    (rfl : start files₀ = start files₀)
  obtain ⟨hinv, hle⟩ := Steps.bounded (f := measure room) hinit (fun _ _ => Inv.step hset) h
  refine ⟨(Nat.le_add_right _ _).trans hle, hinv.bounded hset, Step.progress ?_⟩
  intro frame outer hp
  simp only [Inv, hp] at hinv
  obtain ⟨-, -, hcopying⟩ := hinv
  obtain ⟨q, hok⟩ := hcopying.reading frame List.mem_cons_self
  exact hok.stream

end Migration

end Walk
end Setup
end Client
end Montray
