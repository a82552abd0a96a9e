import Montray.Lib.Machine
import Montray.Client.Migration

/-!
# Montray.Client.MigrationWalk

`migrate_salmon_config` on directories that may change while they are read, which they do where the
former directory and the new one overlap. A step is one operation on files with what is done before
the next one, or one turn of the loop over a directory.

A directory is read as a stream: every entry is returned once at most, an entry that was there when
the directory was opened is returned before the end, one that came later may or may not be. An
operation may fail if `fails` says so. Only this program writes.

Symbolic links are followed as the system follows them: `leads` says where a link leads in the end,
and from a directory that was reached through links the walk goes on under its own path. `created`
and `visited` are bookkeeping only: everything that was ever created, and all entries that were
returned.

* `resolve`: the directory that a path leads to.
* `Step`: the steps of the migration.
* `Step.progress`: a migration that has not returned goes on.
-/

namespace Montray
namespace Client
namespace Setup
namespace Walk

open Lib

/-! ## Links -/

section Links

variable (leads : Path → Path) (files : Files)

/-- One name further down; a link has to lead to a directory. -/
def down (directory : Path) (name : String) : Option Path :=
  match files (directory ++ [name]) with
  | some (.symlink _) =>
    if files (leads (directory ++ [name])) = some .dir then some (leads (directory ++ [name]))
    else none
  | _ => some (directory ++ [name])

/-- The path without the links on the way, its last name included. -/
def resolve (path : Path) : Option Path := path.foldlM (down leads files) []

/-- `Path::exists` for an entry of a directory. -/
def entryExists (path : Path) : Bool :=
  match files path with
  | none => false
  | some (.symlink _) => (files (leads path)).isSome
  | some _ => true

/-- `Path::exists`. -/
def pathExists (path : Path) : Bool :=
  path = [] || ((resolve leads files path.dropLast).any fun directory =>
    entryExists leads files (directory ++ [path.getLastD ""]))

/-- `fs::read`. -/
def contentsAt (path : Path) : Option (List UInt8) :=
  match files path with
  | some (.file contents) => some contents
  | some (.symlink _) =>
    match files (leads path) with
    | some (.file contents) => some contents
    | _ => none
  | _ => none

/-- Where `fs::create_dir_all` finds or makes the directory for an entry of a directory. -/
def landing (path : Path) : Option Path :=
  match files path with
  | some (.symlink _) => if files (leads path) = some .dir then some (leads path) else none
  | _ => if files.open_ path then some path else none

/-- The directory of the former configuration and its text. -/
def formerText (source destination : Path) : Option (Path × String) :=
  if source = [] ∨ destination = [] then none
  else (resolve leads files source.dropLast).bind fun directory =>
    ((contentsAt leads files (directory ++ [source.getLastD ""])).bind fromUtf8).map fun text =>
      (directory, text)

end Links

/-! ## States -/

/-- A directory that is being read. -/
structure Frame where
  source : Path
  destination : Path
  /-- The entries that were there when it was opened. -/
  opened : String → Prop
  returned : List String

inductive Phase where
  | check
  | read
  | makeParent (contents : List UInt8)
  | temporary (contents : List UInt8) (parent : Path)
  | persist (contents : List UInt8) (parent : Path) (name : String)
  /-- A call of `copy_directory_contents_noclobber`, up to its loop. -/
  | calling (source destination : Path) (outer : List Frame)
  | looping (frame : Frame) (outer : List Frame)
  | rollingBack (left : List Path)
  | returned (ok : Bool)

structure State where
  files : Files
  /-- The directory of the former configuration. -/
  former : Path := []
  createdFiles : List Path := []
  created : List Path := []
  visited : List Path := []
  phase : Phase := .check

namespace State

/-- `fs::create_dir_all`. -/
def makeDirs (s : State) (path : Path) : State :=
  { s with files := s.files.makeDirs path, created := s.created ++ s.files.missing path }

def create (s : State) (path : Path) (contents : List UInt8) : State :=
  { s with files := s.files.set path (some (.file contents)), created := s.created ++ [path] }

/-- A copy that fails has left a file, or nothing. -/
def leave (s : State) (path : Path) : Option (List UInt8) → State
  | none => s
  | some bytes => s.create path bytes

def remove (s : State) (path : Path) : State := { s with files := s.files.set path none }

def journal (s : State) (path : Path) : State :=
  { s with createdFiles := s.createdFiles ++ [path] }

def enter (s : State) (phase : Phase) : State := { s with phase := phase }

/-- `rollback_created_files` is called. -/
def rollBack (s : State) : State := s.enter (.rollingBack s.createdFiles.reverse)

section Copy

variable (leads : Path → Path)

/-- A file is copied to where there is none. Over a link that leads nowhere it is created where the
link leads, if that is in a directory. -/
def copyFile (s : State) (there : Path) (contents : List UInt8) : State :=
  if s.files there = none then (s.journal there).create there contents
  else if s.files (leads there).dropLast = some .dir then
    (s.journal there).create (leads there) contents
  else (s.journal there).rollBack

/-- What is done with an entry by its type. -/
def copyEntry (s : State) (skipped here there : Path) (frame : Frame) (outer : List Frame) :
    State :=
  let s := s.enter (.looping frame outer)
  if here = skipped then s
  else
    match s.files here with
    | some .dir => s.enter (.calling here there (frame :: outer))
    | some (.file contents) =>
      if entryExists leads s.files there then s else s.copyFile leads there contents
    | some (.symlink _) => s.rollBack
    | some .special => s
    | none => s

/-- One turn of the loop over a directory. -/
def turn (s : State) (config : String) (frame : Frame) (outer : List Frame) (name : String) :
    State :=
  let s := { s with visited := (frame.source ++ [name]) :: s.visited }
  s.copyEntry leads (s.former ++ [config]) (frame.source ++ [name]) (frame.destination ++ [name])
    { frame with returned := name :: frame.returned } outer

end Copy

end State

def Frame.Next (files : Files) (frame : Frame) (name : String) : Prop :=
  name ∉ frame.returned ∧ files (frame.source ++ [name]) ≠ none

def afterLoop : List Frame → Phase
  | [] => .returned true
  | frame :: outer => .looping frame outer

/-- A directory is opened. -/
def opening (files : Files) (here there : Path) : Frame :=
  ⟨here, there, fun name => files (here ++ [name]) ≠ none, []⟩

/-! ## Steps -/

section Steps

variable (fails : Bool) (leads : Path → Path) (source destination : Path)

inductive Step : State → State → Prop where
  | present {s : State} : s.phase = .check → pathExists leads s.files destination = true →
      Step s (s.enter (.returned true))
  | absent {s : State} : s.phase = .check → pathExists leads s.files destination = false →
      Step s (s.enter .read)
  | read {s : State} {former : Path} {text : String} : s.phase = .read →
      formerText leads s.files source destination = some (former, text) →
      Step s ({ s with former := former }.enter
        (.makeParent (utf8 (migratedText source.dropLast destination.dropLast text))))
  | readFails {s : State} : s.phase = .read →
      fails = true ∨ formerText leads s.files source destination = none →
      Step s (s.enter (.returned false))
  | parent {s : State} {contents : List UInt8} {parent : Path} : s.phase = .makeParent contents →
      resolve leads s.files destination.dropLast = some parent → s.files.open_ parent = true →
      Step s ((s.makeDirs parent).enter (.temporary contents parent))
  | parentFails {s : State} {contents : List UInt8} {parent : Path} (n : Nat) :
      s.phase = .makeParent contents → fails = true →
      resolve leads s.files destination.dropLast = some parent → s.files.open_ parent = true →
      Step s ((s.makeDirs (parent.take n)).enter (.returned false))
  | parentBlocked {s : State} {contents : List UInt8} : s.phase = .makeParent contents →
      (∀ parent, resolve leads s.files destination.dropLast = some parent →
        s.files.open_ parent = false) →
      Step s (s.enter (.returned false))
  | preserved {s : State} {contents : List UInt8} {parent : Path} :
      s.phase = .temporary contents parent →
      entryExists leads s.files (parent ++ [destination.getLastD ""]) = true →
      Step s (s.enter (.returned true))
  | temporary {s : State} {contents : List UInt8} {parent : Path} {name : String} :
      s.phase = .temporary contents parent →
      entryExists leads s.files (parent ++ [destination.getLastD ""]) = false →
      s.files (parent ++ [name]) = none →
      Step s ((s.create (parent ++ [name]) contents).enter (.persist contents parent name))
  | temporaryFails {s : State} {contents : List UInt8} {parent : Path} :
      s.phase = .temporary contents parent →
      fails = true ∨ (∀ name, s.files (parent ++ [name]) ≠ none) →
      Step s (s.enter (.returned false))
  | persist {s : State} {contents : List UInt8} {parent : Path} {name : String} :
      s.phase = .persist contents parent name →
      s.files (parent ++ [destination.getLastD ""]) = none →
      Step s ((((s.remove (parent ++ [name])).create (parent ++ [destination.getLastD ""])
        contents).journal (parent ++ [destination.getLastD ""])).enter
          (.calling s.former parent []))
  | persistPreserved {s : State} {contents : List UInt8} {parent : Path} {name : String} :
      s.phase = .persist contents parent name →
      s.files (parent ++ [destination.getLastD ""]) ≠ none →
      Step s ((s.remove (parent ++ [name])).enter (.returned true))
  | persistFails {s : State} {contents : List UInt8} {parent : Path} {name : String} :
      s.phase = .persist contents parent name → fails = true →
      Step s ((s.remove (parent ++ [name])).enter (.returned false))
  | call {s : State} {here there : Path} {outer : List Frame} :
      s.phase = .calling here there outer → landing leads s.files there = some there →
      s.files here = some .dir →
      Step s ((s.makeDirs there).enter
        (.looping (opening (s.makeDirs there).files here there) outer))
  /-- The destination is a link to a directory, so that nothing has to be made. -/
  | callLinked {s : State} {here there directory : Path} {outer : List Frame} :
      s.phase = .calling here there outer → landing leads s.files there = some directory →
      directory ≠ there → s.files here = some .dir →
      Step s (s.enter (.looping (opening s.files here directory) outer))
  | callFails {s : State} {here there : Path} {outer : List Frame} (n : Nat) :
      s.phase = .calling here there outer → fails = true →
      landing leads s.files there = some there → Step s (s.makeDirs (there.take n)).rollBack
  | callUnread {s : State} {here there : Path} {outer : List Frame} :
      s.phase = .calling here there outer → s.files here ≠ some .dir →
      landing leads s.files there = some there → Step s (s.makeDirs there).rollBack
  | callBlocked {s : State} {here there : Path} {outer : List Frame} :
      s.phase = .calling here there outer → landing leads s.files there = none →
      Step s s.rollBack
  | callLinkedFails {s : State} {here there directory : Path} {outer : List Frame} :
      s.phase = .calling here there outer → landing leads s.files there = some directory →
      directory ≠ there → fails = true ∨ s.files here ≠ some .dir → Step s s.rollBack
  | turn {s : State} {frame : Frame} {outer : List Frame} {name : String} :
      s.phase = .looping frame outer → frame.Next s.files name →
      Step s (s.turn leads (source.getLastD "") frame outer name)
  | entryFails {s : State} {frame : Frame} {outer : List Frame} :
      s.phase = .looping frame outer → fails = true → Step s s.rollBack
  | copyFails {s : State} {frame : Frame} {outer : List Frame} {name : String} {there : Path}
      {contents : List UInt8} (left : Option (List UInt8)) : s.phase = .looping frame outer →
      fails = true → frame.Next s.files name →
      frame.source ++ [name] ≠ s.former ++ [source.getLastD ""] →
      s.files (frame.source ++ [name]) = some (.file contents) →
      entryExists leads s.files (frame.destination ++ [name]) = false →
      there = frame.destination ++ [name] ∧ s.files there = none ∨
        there = leads (frame.destination ++ [name]) ∧
          s.files (frame.destination ++ [name]) ≠ none →
      Step s ((({ s with visited := (frame.source ++ [name]) :: s.visited }.journal
        (frame.destination ++ [name])).leave there left).rollBack)
  | finish {s : State} {frame : Frame} {outer : List Frame} : s.phase = .looping frame outer →
      (∀ name, frame.opened name → name ∈ frame.returned) → Step s (s.enter (afterLoop outer))
  /-- A removal that fails is reported, and the rollback goes on. -/
  | removal {s : State} {path : Path} {left : List Path} (removed : Bool) :
      s.phase = .rollingBack (path :: left) →
      Step s ((if removed then s.remove path else s).enter (.rollingBack left))
  | rolledBack {s : State} : s.phase = .rollingBack [] → Step s (s.enter (.returned false))

end Steps

/-- Before the call. -/
def start (files : Files) : State := { files }

/-! ## Progress -/

/-- The entries that a stream has to return are still there. -/
def StreamHolds (files : Files) (frame : Frame) : Prop :=
  ∀ name, frame.opened name → files (frame.source ++ [name]) ≠ none

theorem StreamHolds.mono {files files' : Files} {frame : Frame} (h : StreamHolds files frame)
    (hext : files.Extends files') : StreamHolds files' frame := by
  intro name hname
  exact hext.ne_none (h name hname)

section Progress

variable {fails : Bool} {leads : Path → Path} {source destination : Path} {s s' : State}

theorem Step.progress
    (hs : ∀ frame outer, s.phase = .looping frame outer → StreamHolds s.files frame) :
    (∃ ok, s.phase = .returned ok) ∨ ∃ s', Step fails leads source destination s s' := by
  cases hphase : s.phase with
  | check =>
    cases hp : pathExists leads s.files destination with
    | true => exact .inr ⟨_, .present hphase hp⟩
    | false => exact .inr ⟨_, .absent hphase hp⟩
  | read =>
    cases htext : formerText leads s.files source destination with
    | none => exact .inr ⟨_, .readFails hphase (.inr htext)⟩
    | some former => exact .inr ⟨_, .read hphase htext⟩
  | makeParent contents =>
    by_cases hopen : ∃ parent, resolve leads s.files destination.dropLast = some parent ∧
        s.files.open_ parent = true
    · obtain ⟨parent, hresolve, hopen⟩ := hopen
      exact .inr ⟨_, .parent hphase hresolve hopen⟩
    · refine .inr ⟨_, .parentBlocked hphase fun parent hresolve => ?_⟩
      exact Bool.eq_false_iff.mpr fun h => hopen ⟨parent, hresolve, h⟩
  | temporary contents parent =>
    cases hp : entryExists leads s.files (parent ++ [destination.getLastD ""]) with
    | true => exact .inr ⟨_, .preserved hphase hp⟩
    | false =>
      by_cases hfree : ∃ name, s.files (parent ++ [name]) = none
      · obtain ⟨name, hfree⟩ := hfree
        exact .inr ⟨_, .temporary hphase hp hfree⟩
      · exact .inr ⟨_, .temporaryFails hphase (.inr (not_exists.mp hfree))⟩
  | persist contents parent name =>
    by_cases hfree : s.files (parent ++ [destination.getLastD ""]) = none
    · exact .inr ⟨_, .persist hphase hfree⟩
    · exact .inr ⟨_, .persistPreserved hphase hfree⟩
  | calling here there outer =>
    cases hland : landing leads s.files there with
    | none => exact .inr ⟨_, .callBlocked hphase hland⟩
    | some directory =>
      by_cases hdir : s.files here = some .dir
      · by_cases heq : directory = there
        · exact .inr ⟨_, .call hphase (heq ▸ hland) hdir⟩
        · exact .inr ⟨_, .callLinked hphase hland heq hdir⟩
      · by_cases heq : directory = there
        · exact .inr ⟨_, .callUnread hphase hdir (heq ▸ hland)⟩
        · exact .inr ⟨_, .callLinkedFails hphase hland heq (.inr hdir)⟩
  | looping frame outer =>
    by_cases hend : ∀ name, frame.opened name → name ∈ frame.returned
    · exact .inr ⟨_, .finish hphase hend⟩
    · simp only [not_forall] at hend
      obtain ⟨name, hopened, hnew⟩ := hend
      exact .inr ⟨_, .turn hphase ⟨hnew, hs frame outer hphase name hopened⟩⟩
  | rollingBack left =>
    cases left with
    | nil => exact .inr ⟨_, .rolledBack hphase⟩
    | cons path left => exact .inr ⟨_, .removal true hphase⟩
  | returned ok => exact .inl ⟨ok, rfl⟩

/-! ## What a step does -/

/-- Where a link is not in the way. -/
theorem landing_of_not_link {files : Files} {path : Path}
    (h : ∀ target, files path ≠ some (.symlink target)) :
    landing leads files path = if files.open_ path then some path else none := by
  unfold landing
  split
  · exact absurd ‹_› (h _)
  · rfl

/-- The steps of a call whose destination is not a link. -/
theorem Step.of_calling {here there : Path} {outer : List Frame}
    (hphase : s.phase = .calling here there outer)
    (hlink : ∀ target, s.files there ≠ some (.symlink target))
    (h : Step fails leads source destination s s') :
    (s.files here = some .dir ∧ s' = (s.makeDirs there).enter
      (.looping (opening (s.makeDirs there).files here there) outer)) ∨
    ∃ n, s' = (s.makeDirs (there.take n)).rollBack ∨ s' = s.rollBack := by
  have hland {directory : Path} (hl : landing leads s.files there = some directory) :
      directory = there := by
    rw [landing_of_not_link hlink] at hl
    split at hl
    · exact (Option.some.inj hl).symm
    · cases hl
  cases h with
  | call hp _ hdir =>
    rw [hphase] at hp
    cases hp
    exact .inl ⟨hdir, rfl⟩
  | callLinked hp hl hne =>
    rw [hphase] at hp
    cases hp
    exact absurd (hland hl) hne
  | callFails n hp =>
    rw [hphase] at hp
    cases hp
    exact .inr ⟨n, .inl rfl⟩
  | callUnread hp =>
    rw [hphase] at hp
    cases hp
    exact .inr ⟨there.length, .inl (by rw [List.take_length])⟩
  | callBlocked hp => exact .inr ⟨0, .inr rfl⟩
  | callLinkedFails hp => exact .inr ⟨0, .inr rfl⟩
  | _ => simp_all

/-- The steps of a loop. -/
theorem Step.of_looping {frame : Frame} {outer : List Frame}
    (hphase : s.phase = .looping frame outer)
    (h : Step fails leads source destination s s') :
    (∃ name, frame.Next s.files name ∧ s' = s.turn leads (source.getLastD "") frame outer name) ∨
    s' = s.rollBack ∨
    (∃ name there left, frame.Next s.files name ∧
      frame.source ++ [name] ≠ s.former ++ [source.getLastD ""] ∧
      FileAt (s.files (frame.source ++ [name])) ∧
      entryExists leads s.files (frame.destination ++ [name]) = false ∧
      (there = frame.destination ++ [name] ∧ s.files there = none ∨
        there = leads (frame.destination ++ [name]) ∧
          s.files (frame.destination ++ [name]) ≠ none) ∧
      s' = (({ s with visited := (frame.source ++ [name]) :: s.visited }.journal
        (frame.destination ++ [name])).leave there left).rollBack) ∨
    s' = s.enter (afterLoop outer) := by
  cases h with
  | turn hp hnext =>
    rw [hphase] at hp
    cases hp
    exact .inl ⟨_, hnext, rfl⟩
  | entryFails hp hfails => exact .inr (.inl rfl)
  | copyFails left hp hfails hnext hskip hfile hfree hthere =>
    rw [hphase] at hp
    cases hp
    exact .inr (.inr (.inl ⟨_, _, left, hnext, hskip, ⟨_, hfile⟩, hfree, hthere, rfl⟩))
  | finish hp hend =>
    rw [hphase] at hp
    cases hp
    exact .inr (.inr (.inr rfl))
  | _ => simp_all

end Progress

theorem entryExists_of_none {leads : Path → Path} {files : Files} {path : Path}
    (h : files path = none) : entryExists leads files path = false := by
  rw [entryExists, h]

theorem entryExists_eq_false {leads : Path → Path} {files : Files} {path : Path}
    (h : entryExists leads files path = false) :
    files path = none ∨ ∃ target, files path = some (.symlink target) := by
  unfold entryExists at h
  split at h
  · exact .inl ‹_›
  · exact .inr ⟨_, ‹_›⟩
  · cases h

/-- What a turn of the loop does where no link is in the way. -/
theorem State.turn_cases (leads : Path → Path) (s : State) (config : String) (frame : Frame)
    (outer : List Frame) (name : String) :
    let here := frame.source ++ [name]
    let there := frame.destination ++ [name]
    let frame' : Frame := { frame with returned := name :: frame.returned }
    let seen : State := { s with visited := here :: s.visited }
    s.turn leads config frame outer name = seen.enter (.looping frame' outer) ∨
    (here ≠ s.former ++ [config] ∧ s.files here = some .dir ∧
      s.turn leads config frame outer name =
        seen.enter (.calling here there (frame' :: outer))) ∨
    (here ≠ s.former ++ [config] ∧ s.files there = none ∧
      ∃ contents, s.files here = some (.file contents) ∧
        s.turn leads config frame outer name =
          ((seen.enter (.looping frame' outer)).journal there).create there contents) ∨
    s.turn leads config frame outer name = seen.rollBack ∨
    (FileAt (s.files here) ∧ entryExists leads s.files there = false ∧
      ∃ target, s.files there = some (.symlink target)) := by
  intro here there frame' seen
  have hturn : s.turn leads config frame outer name =
      seen.copyEntry leads (s.former ++ [config]) here there frame' outer := rfl
  rw [hturn]
  unfold State.copyEntry
  have hfiles : (seen.enter (.looping frame' outer)).files = s.files := rfl
  simp only [hfiles]
  by_cases hskip : here = s.former ++ [config]
  · exact .inl (if_pos hskip)
  · rw [if_neg hskip]
    cases hnode : s.files here with
    | none => exact .inl rfl
    | some node =>
      cases node with
      | dir => exact .inr (.inl ⟨hskip, rfl, rfl⟩)
      | special => exact .inl rfl
      | symlink target => exact .inr (.inr (.inr (.inl rfl)))
      | file contents =>
        cases hp : entryExists leads s.files there with
        | true => exact .inl rfl
        | false =>
          rcases entryExists_eq_false hp with hnone | hlink
          · exact .inr (.inr (.inl ⟨hskip, hnone, contents, rfl, if_pos hnone⟩))
          · exact .inr (.inr (.inr (.inr ⟨⟨contents, rfl⟩, rfl, hlink⟩)))

end Walk
end Setup
end Client
end Montray
