import Montray.Legacy.IncidentState

/-!
# Montray.Legacy.SnoozeFile

The state file of the legacy client: `snoozeState` with the writes that `ioutil.WriteFile` makes of
it, which truncates the file before it writes and may fail at any point.

The encoding is a parameter, with what `encoding/json` documents: what was marshalled is read back,
and an empty text is refused. A time is an instant, as `now.Round(0)` makes it.

* `Op.run_loads`: an operation whose write is not torn keeps file and map together.
* `failed_write_harmless`: a restart finds the live map after every operation.
* `replace_truncated`: a torn write does not keep them together.
-/

namespace Montray
namespace Legacy
namespace SnoozeFile

open Lib

/-! ## Encoding -/

/-- `persistedMontrayLegacyState`; the map is `nil` where the text has none. -/
structure Persisted where
  snoozed : Option Snoozes

/-- `json.MarshalIndent` and `json.Unmarshal`, over the symbols of a text. -/
structure Codec (σ : Type) where
  marshalIndent : Persisted → Option (List σ)
  unmarshal : List σ → Option Persisted
  newline : σ
  unmarshal_marshal : ∀ p data, marshalIndent p = some data →
    unmarshal (data ++ [newline]) = some p
  unmarshal_nil : unmarshal [] = none

/-! ## The file -/

/-- What the file system does to one write. -/
inductive WriteIo where
  | completes
  /-- The file is not opened. -/
  | refused
  /-- The file is truncated and gets so many symbols before the error. -/
  | torn (symbols : Nat)
  deriving DecidableEq, Repr

inductive WriteError where
  | marshal
  | open_
  | write
  deriving DecidableEq, Repr

inductive LoadError where
  | create (error : WriteError)
  | unmarshal
  deriving DecidableEq, Repr

/-- The state file, where there is one, and the live map. -/
structure SnoozeState (σ : Type) where
  file : Option (List σ)
  snoozed : Snoozes

section Code

variable {σ : Type}

/-- `ioutil.WriteFile`. -/
def writeFile (file : Option (List σ)) (data : List σ) :
    WriteIo → Option (List σ) × Except WriteError Unit
  | .completes => (some data, .ok ())
  | .refused => (file, .error .open_)
  | .torn symbols => (some (data.take symbols), .error .write)

variable (C : Codec σ)

def writeLocked (file : Option (List σ)) (io : WriteIo) (snoozed : Snoozes) :
    Option (List σ) × Except WriteError Unit :=
  match C.marshalIndent ⟨some snoozed⟩ with
  | none => (file, .error .marshal)
  | some data => writeFile file (data ++ [C.newline]) io

def newSnoozeState (file : Option (List σ)) (io : WriteIo) : Except LoadError (SnoozeState σ) :=
  match file with
  | none =>
    match writeLocked C none io ∅ with
    | (_, .error error) => .error (.create error)
    | (file, .ok ()) => .ok ⟨file, ∅⟩
  | some data =>
    match C.unmarshal data with
    | none => .error .unmarshal
    | some persisted => .ok ⟨some data, persisted.snoozed.getD ∅⟩

/-- The end of the three operations: the map changes only if it has been written. -/
def SnoozeState.replace (s : SnoozeState σ) (io : WriteIo) (updated : Snoozes) :
    SnoozeState σ × Except WriteError Unit :=
  match writeLocked C s.file io updated with
  | (file, .error error) => ({ s with file := file }, .error error)
  | (file, .ok ()) => (⟨file, updated⟩, .ok ())

/-- The operations, with the clock and what happens to their writes. -/
inductive Op where
  | snooze (key : String) (duration : Duration) (now : Time) (io : WriteIo)
  | unsnooze (key : String) (io : WriteIo)
  | expire (now : Time) (io : WriteIo)

def Op.run (s : SnoozeState σ) : Op → SnoozeState σ × Except WriteError (List String)
  | .snooze key duration now io =>
    let (s, result) := s.replace C io (s.snoozed.insert key (now + duration))
    (s, result.map fun _ => [])
  | .unsnooze key io =>
    let (s, result) := s.replace C io (s.snoozed.erase key)
    (s, result.map fun _ => [])
  | .expire now io =>
    let expired := expiredKeys s.snoozed now
    if expired = [] then (s, .ok [])
    else
      let (s, result) := s.replace C io (unexpired s.snoozed now)
      (s, result.map fun _ => expired)

def operations (s : SnoozeState σ) :
    Mealy (SnoozeState σ) Op (Except WriteError (List String)) where
  init := s
  step s op := op.run C s

end Code

/-! ## A restart -/

section Restart

variable {σ : Type} {C : Codec σ} {s : SnoozeState σ}

/-- The map that a restart would load. -/
def Loads (C : Codec σ) (s : SnoozeState σ) : Prop :=
  (newSnoozeState C s.file .completes).map (·.snoozed) = .ok s.snoozed

theorem newSnoozeState_written {snoozed : Snoozes} {data : List σ}
    (h : C.marshalIndent ⟨some snoozed⟩ = some data) (io : WriteIo) :
    newSnoozeState C (some (data ++ [C.newline])) io =
      .ok ⟨some (data ++ [C.newline]), snoozed⟩ := by
  simp only [newSnoozeState, C.unmarshal_marshal _ _ h, Option.getD_some]

/-- What was loaded is loaded again. -/
theorem loads_of_new {file : Option (List σ)} {io : WriteIo}
    (h : newSnoozeState C file io = .ok s) : Loads C s := by
  cases file with
  | none =>
    simp only [newSnoozeState, writeLocked] at h
    cases hm : C.marshalIndent ⟨some ∅⟩ with
    | none =>
      rw [hm] at h
      cases h
    | some data =>
      rw [hm] at h
      cases io with
      | completes =>
        cases h
        rw [Loads, newSnoozeState_written hm]
        rfl
      | refused => cases h
      | torn symbols => cases h
  | some data =>
    simp only [newSnoozeState] at h
    cases hu : C.unmarshal data with
    | none =>
      rw [hu] at h
      cases h
    | some persisted =>
      rw [hu] at h
      cases h
      simp only [Loads, newSnoozeState, hu]
      rfl

/-- The write of an operation, if it fails, fails before the file is touched. -/
def WriteIo.Clean : WriteIo → Prop
  | .torn _ => False
  | _ => True

theorem Loads.replace (h : Loads C s) {io : WriteIo} (hio : io.Clean) (updated : Snoozes) :
    Loads C (s.replace C io updated).1 := by
  unfold SnoozeState.replace writeLocked
  cases hm : C.marshalIndent ⟨some updated⟩ with
  | none => exact h
  | some data =>
    cases io with
    | completes =>
      show Loads C ⟨some (data ++ [C.newline]), updated⟩
      rw [Loads, newSnoozeState_written hm]
      rfl
    | refused => exact h
    | torn symbols => exact hio.elim

/-- A file that was truncated and not written is refused, with every encoding. -/
theorem replace_truncated {updated : Snoozes} {data : List σ}
    (hm : C.marshalIndent ⟨some updated⟩ = some data) (io : WriteIo) :
    (s.replace C (.torn 0) updated).1.snoozed = s.snoozed ∧
      newSnoozeState C (s.replace C (.torn 0) updated).1.file io = .error .unmarshal := by
  have hreplace : s.replace C (.torn 0) updated = (⟨some [], s.snoozed⟩, .error .write) := by
    simp only [SnoozeState.replace, writeLocked, hm, writeFile, List.take_zero]
  rw [hreplace]
  refine ⟨rfl, ?_⟩
  simp only [newSnoozeState, C.unmarshal_nil]

def Op.io : Op → WriteIo
  | .snooze _ _ _ io => io
  | .unsnooze _ io => io
  | .expire _ io => io

theorem Op.run_loads (h : Loads C s) (op : Op) (hio : op.io.Clean) : Loads C (op.run C s).1 := by
  cases op with
  | snooze key duration now io => exact h.replace hio _
  | unsnooze key io => exact h.replace hio _
  | expire now io =>
    simp only [Op.run]
    split_ifs
    · exact h
    · exact h.replace hio _

end Restart

/-- A restart finds the live map after every operation, if the writes that fail leave the file
alone. -/
theorem failed_write_harmless {σ : Type} (C : Codec σ) (file : Option (List σ)) (io : WriteIo)
    (s : SnoozeState σ) (hstart : newSnoozeState C file io = .ok s) (ops : List Op)
    (hclean : ∀ op ∈ ops, op.io.Clean) :
    let s' := (operations C s).run ops
    (newSnoozeState C s'.file .completes).map (·.snoozed) = .ok s'.snoozed := by
  show Loads C ((operations C s).run ops)
  induction ops using List.reverseRecOn with
  | nil => exact loads_of_new hstart
  | append_singleton ops op ih =>
    rw [Mealy.run_snoc]
    refine Op.run_loads (ih fun o ho => hclean o (List.mem_append_left _ ho)) op (hclean op ?_)
    exact List.mem_append_right _ List.mem_cons_self

/-! A text of whole tokens, to run the operations with. -/

inductive Token where
  | opening
  | entry (key : String) (snoozedUntil : Time)
  | closing
  | null
  | newline
  deriving DecidableEq, Repr

def readEntries : List Token → Option (List (String × Time))
  | [.closing, .newline] => some []
  | .entry key snoozedUntil :: rest => (readEntries rest).map ((key, snoozedUntil) :: ·)
  | _ => none

theorem readEntries_append (entries : List (String × Time)) :
    readEntries (entries.map (fun e => .entry e.1 e.2) ++ [.closing] ++ [.newline]) =
      some entries := by
  induction entries with
  | nil => rfl
  | cons e entries ih =>
    rw [List.map_cons, List.cons_append, List.cons_append, readEntries, ih]
    rfl

def tokens : Codec Token where
  marshalIndent p :=
    match p.snoozed with
    | none => some [.null]
    | some m => some (.opening :: (m.toList.map (fun e => .entry e.1 e.2) ++ [.closing]))
  unmarshal
    | [.null, .newline] => some ⟨none⟩
    | .opening :: rest => (readEntries rest).map fun entries => ⟨some (KeyMap.ofEntries entries)⟩
    | _ => none
  newline := .newline
  unmarshal_marshal := by
    rintro ⟨snoozed⟩ data h
    cases snoozed with
    | none =>
      cases h
      rfl
    | some m =>
      cases h
      rw [List.cons_append]
      simp only [readEntries_append, Option.map_some, KeyMap.ofEntries_toList]
  unmarshal_nil := rfl

/-- A snooze, and another one whose write is refused. -/
theorem failed_write_harmless_refused :
    let ops : List Op := [.snooze "db.disk" 60 0 .completes, .snooze "db.cpu" 60 1 .refused]
    let s := (operations tokens ⟨some [.opening, .closing, .newline], ∅⟩).run ops
    s.file = some [.opening, .entry "db.disk" 60, .closing, .newline] ∧
      (newSnoozeState tokens s.file .completes).map (·.snoozed) = .ok s.snoozed := by
  intro ops s
  have hclean : ∀ op ∈ ops, op.io.Clean := by
    intro op hop
    simp only [ops, List.mem_cons, List.not_mem_nil, or_false] at hop
    rcases hop with rfl | rfl
    · trivial
    · trivial
  refine ⟨by decide +kernel, failed_write_harmless tokens (some [.opening, .closing, .newline])
    .completes ⟨some [.opening, .closing, .newline], ∅⟩ rfl ops hclean⟩

/-- The write of the second snooze fails after the file was truncated, in the middle, and when all
is written. The live map keeps the first snooze only; a restart refuses the file, and in the last
case finds both. -/
theorem torn_write_diverges :
    let s := fun symbols => (operations tokens ⟨some [.opening, .closing, .newline], ∅⟩).run
      [.snooze "db.disk" 60 0 .completes, .snooze "db.cpu" 60 1 (.torn symbols)]
    (∀ symbols ∈ [0, 2, 5], (s symbols).snoozed.toList = [("db.disk", 60)]) ∧
      (∀ symbols ∈ [0, 2], (newSnoozeState tokens (s symbols).file .completes).map
        (·.snoozed.toList) = .error .unmarshal) ∧
      (newSnoozeState tokens (s 5).file .completes).map (·.snoozed.toList) =
        .ok [("db.cpu", 61), ("db.disk", 60)] := by
  decide +kernel

end SnoozeFile
end Legacy
end Montray
