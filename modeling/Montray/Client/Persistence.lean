import Montray.Lib.Json
import Montray.Client.Config
import Montray.Client.Model

/-!
# Montray.Client.Persistence

The state file: its records, how they are read from and written to JSON, and `Store::update`.

A document is a JSON value: the text of the file is left to the JSON library. What the file system
does to a transaction is an argument of it. RFC 3339 is a parameter, with the law that a formatted
instant parses back.

* `StateFile.fromJson_toJson`: what is written is read back, unknown members included.
* `decodedSnoozes_replaceSnoozes`: a replaced snooze map is decoded as it was given.
* `Store.update`: load, change and save under the lock; a failed transaction leaves the file alone.
-/

namespace Montray
namespace Client

open Lib

/-- The `time` crate's RFC 3339 text of UTC instants. -/
structure Rfc3339 where
  format : OffsetDateTime → Except String String
  parse : String → Except String OffsetDateTime
  parse_format : ∀ t text, format t = .ok text → parse text = .ok t

/-- RFC 3339 with the text of one instant. -/
def Rfc3339.single (instant : OffsetDateTime) (written : String) : Rfc3339 where
  format t := if t = instant then .ok written else .error "invalid"
  parse text := if text = written then .ok instant else .error "invalid"
  parse_format t text h := by
    split at h
    · rename_i ht
      cases h
      rw [if_pos rfl, ht]
    · cases h

/-! ## The records -/

structure SnoozeEntry where
  snoozedUntil : String
  extra : Json.Extra ["snoozed_until"]

inductive Theme where
  | dark
  | light
  deriving DecidableEq, Repr

structure SectionPreferences where
  serversExpanded : Bool := true
  activeIncidentsExpanded : Bool := true
  snoozedIncidentsExpanded : Bool := false
  extra : Json.Extra ["servers_expanded", "active_incidents_expanded",
    "snoozed_incidents_expanded"] := .empty

structure WindowGeometry where
  x : Int32
  y : Int32
  width : UInt32
  height : UInt32
  maximized : Bool := false
  deriving DecidableEq, Repr

structure Preferences where
  theme : Theme := .dark
  sections : SectionPreferences := {}
  windowGeometry : Option WindowGeometry := none
  extra : Json.Extra ["theme", "sections", "window_geometry"] := .empty

structure StateFile where
  schemaVersion : UInt32 := 1
  snoozed : KeyMap SnoozeEntry := ∅
  preferences : Preferences := {}
  extra : Json.Extra ["schema_version", "snoozed", "preferences"] := .empty

/-! ## Reading and writing them -/

def readBool : Json → Option Bool
  | .bool b => some b
  | _ => none

def readString : Json → Option String
  | .str s => some s
  | _ => none

-- The upper bounds are compared as naturals: the kernel gets lost in a symbolic `n < 2 ^ 32` of
-- integers.
def readU32 : Json → Option UInt32
  | .int n => if 0 ≤ n ∧ n.toNat < 2 ^ 32 then some (UInt32.ofNat n.toNat) else none
  | _ => none

def readI32 : Json → Option Int32
  | .int n =>
    if 0 ≤ n + 2 ^ 31 ∧ (n + 2 ^ 31).toNat < 2 ^ 32 then some (Int32.ofInt n) else none
  | _ => none

def SnoozeEntry.toJson (entry : SnoozeEntry) : Json :=
  .obj ([("snoozed_until", .str entry.snoozedUntil)] ++ entry.extra.members.toList)

-- A record with flattened members is read from an object only.
def SnoozeEntry.fromJson : Json → Option SnoozeEntry
  | .obj members => do
    let snoozedUntil ← Json.required readString (← Json.field members "snoozed_until")
    pure ⟨snoozedUntil, .ofMembers _ members⟩
  | _ => none

def Theme.name : Theme → String
  | .dark => "dark"
  | .light => "light"

def Theme.ofName (name : String) : Option Theme :=
  if name = "dark" then some .dark else if name = "light" then some .light else none

/-- A unit variant is its name, or an object with the name as the one member. -/
def Theme.fromJson : Json → Option Theme
  | .str name => ofName name
  | .obj [(name, .null)] => ofName name
  | _ => none

def SectionPreferences.toJson (sections : SectionPreferences) : Json :=
  .obj ([("servers_expanded", .bool sections.serversExpanded),
    ("active_incidents_expanded", .bool sections.activeIncidentsExpanded),
    ("snoozed_incidents_expanded", .bool sections.snoozedIncidentsExpanded)] ++
    sections.extra.members.toList)

def SectionPreferences.fromJson : Json → Option SectionPreferences
  | .obj members => do
    let servers ← Json.optional readBool true (← Json.field members "servers_expanded")
    let active ← Json.optional readBool true (← Json.field members "active_incidents_expanded")
    let snoozed ← Json.optional readBool false (← Json.field members "snoozed_incidents_expanded")
    pure ⟨servers, active, snoozed, .ofMembers _ members⟩
  | _ => none

def WindowGeometry.toJson (geometry : WindowGeometry) : Json :=
  .obj [("x", .int geometry.x.toInt), ("y", .int geometry.y.toInt),
    ("width", .int geometry.width.toNat), ("height", .int geometry.height.toNat),
    ("maximized", .bool geometry.maximized)]

/-- Nothing is flattened here: other members are dropped, and the fields in order will do. -/
def WindowGeometry.fromJson : Json → Option WindowGeometry
  | .obj members => do
    let x ← Json.required readI32 (← Json.field members "x")
    let y ← Json.required readI32 (← Json.field members "y")
    let width ← Json.required readU32 (← Json.field members "width")
    let height ← Json.required readU32 (← Json.field members "height")
    let maximized ← Json.optional readBool false (← Json.field members "maximized")
    pure ⟨x, y, width, height, maximized⟩
  | .arr (x :: y :: width :: height :: rest) => do
    let maximized ← match rest with
      | [] => some false
      | [b] => readBool b
      | _ => none
    pure ⟨← readI32 x, ← readI32 y, ← readU32 width, ← readU32 height, maximized⟩
  | _ => none

def readGeometry : Json → Option (Option WindowGeometry)
  | .null => some none
  | j => (WindowGeometry.fromJson j).map some

def Preferences.toJson (preferences : Preferences) : Json :=
  .obj ([("theme", .str preferences.theme.name), ("sections", preferences.sections.toJson)] ++
    (preferences.windowGeometry.toList.map fun g => ("window_geometry", g.toJson)) ++
    preferences.extra.members.toList)

def Preferences.fromJson : Json → Option Preferences
  | .obj members => do
    let theme ← Json.optional Theme.fromJson .dark (← Json.field members "theme")
    let sections ← Json.optional SectionPreferences.fromJson {} (← Json.field members "sections")
    let geometry ← Json.optional readGeometry none (← Json.field members "window_geometry")
    pure ⟨theme, sections, geometry, .ofMembers _ members⟩
  | _ => none

/-- A map is read from an object; the last of several members with a name counts. -/
def readSnoozed : Json → Option (KeyMap SnoozeEntry)
  | .obj members =>
    (members.mapM fun p => (SnoozeEntry.fromJson p.2).map fun entry => (p.1, entry)).map
      KeyMap.ofEntries
  | _ => none

def StateFile.toJson (f : StateFile) : Json :=
  .obj ([("schema_version", .int f.schemaVersion.toNat),
    ("snoozed", .obj (f.snoozed.toList.map fun p => (p.1, p.2.toJson))),
    ("preferences", f.preferences.toJson)] ++ f.extra.members.toList)

def StateFile.fromJson : Json → Option StateFile
  | .obj members => do
    let version ← Json.optional readU32 1 (← Json.field members "schema_version")
    let snoozed ← Json.optional readSnoozed ∅ (← Json.field members "snoozed")
    let preferences ← Json.optional Preferences.fromJson {} (← Json.field members "preferences")
    pure ⟨version, snoozed, preferences, .ofMembers _ members⟩
  | _ => none

/-! ## Round trips -/

theorem readU32_toNat (n : UInt32) : readU32 (.int n.toNat) = some n := by
  have hrange : (0 : Int) ≤ (n.toNat : Int) ∧ (n.toNat : Int).toNat < 2 ^ 32 :=
    ⟨by omega, n.toNat_lt⟩
  rw [readU32, if_pos hrange]
  simp

theorem readI32_toInt (n : Int32) : readI32 (.int n.toInt) = some n := by
  have hle := n.le_toInt
  have hlt := n.toInt_lt
  have hrange : (0 : Int) ≤ n.toInt + 2 ^ 31 ∧ (n.toInt + 2 ^ 31).toNat < 2 ^ 32 := by omega
  rw [readI32, if_pos hrange]
  simp

theorem SnoozeEntry.fromJson_toJson (entry : SnoozeEntry) : fromJson entry.toJson = some entry := by
  simp only [toJson, fromJson]
  rw [entry.extra.field_append_extra (by simp), entry.extra.ofMembers_append_extra (by simp)]
  rfl

theorem Theme.fromJson_name (theme : Theme) : fromJson (.str theme.name) = some theme := by
  cases theme <;> rfl

theorem SectionPreferences.fromJson_toJson (sections : SectionPreferences) :
    fromJson sections.toJson = some sections := by
  simp only [toJson, fromJson]
  rw [sections.extra.field_append_extra (by simp), sections.extra.field_append_extra (by simp),
    sections.extra.field_append_extra (by simp), sections.extra.ofMembers_append_extra (by simp)]
  rfl

theorem readGeometry_toJson (geometry : WindowGeometry) :
    readGeometry geometry.toJson = some (some geometry) := by
  have hread : WindowGeometry.fromJson geometry.toJson = some geometry := by
    simp only [WindowGeometry.toJson, WindowGeometry.fromJson]
    simp [Json.field, readBool, readU32_toNat, readI32_toInt]
  simp [readGeometry, WindowGeometry.toJson] at hread ⊢
  exact hread

theorem Preferences.fromJson_toJson (preferences : Preferences) :
    fromJson preferences.toJson = some preferences := by
  simp only [toJson, fromJson]
  rw [preferences.extra.field_append_extra (by simp),
    preferences.extra.field_append_extra (by simp), preferences.extra.field_append_extra (by simp),
    preferences.extra.ofMembers_append_extra (by simp)]
  obtain ⟨theme, sections, geometry, extra⟩ := preferences
  cases geometry with
  | none => simp [Json.field, Theme.fromJson_name,
      SectionPreferences.fromJson_toJson]
  | some geometry => simp [Json.field, Theme.fromJson_name,
      SectionPreferences.fromJson_toJson, readGeometry_toJson]

theorem readSnoozed_toJson (snoozed : KeyMap SnoozeEntry) :
    readSnoozed (.obj (snoozed.toList.map fun p => (p.1, p.2.toJson))) = some snoozed := by
  have hmap : (snoozed.toList.map fun p => (p.1, p.2.toJson)).mapM (fun p =>
      (SnoozeEntry.fromJson p.2).map fun entry => (p.1, entry)) = some snoozed.toList := by
    induction snoozed.toList with
    | nil => rfl
    | cons p l ih => simp [SnoozeEntry.fromJson_toJson, ih]
  simp [readSnoozed, hmap, KeyMap.ofEntries_toList]

/-- What is written is read back. -/
theorem StateFile.fromJson_toJson (f : StateFile) : fromJson f.toJson = some f := by
  simp only [toJson, fromJson]
  rw [f.extra.field_append_extra (by simp), f.extra.field_append_extra (by simp),
    f.extra.field_append_extra (by simp), f.extra.ofMembers_append_extra (by simp)]
  simp [Json.field, readU32_toNat, readSnoozed_toJson, Preferences.fromJson_toJson]

/-! ## The snoozes -/

section Snoozes

variable (rfc3339 : Rfc3339)

def parseDeadline (key : String) (entry : SnoozeEntry) : Except Chain OffsetDateTime :=
  match rfc3339.parse entry.snoozedUntil with
  | .error e => .error ["invalid snooze deadline for " ++ rustQuote key, e]
  | .ok deadline => .ok deadline

def StateFile.decodedSnoozes (f : StateFile) : Except Chain (KeyMap OffsetDateTime) :=
  KeyMap.upsert (fun key _ entry => parseDeadline rfc3339 key entry) ∅ f.snoozed.toList

/-- The entry of a deadline, with the unknown members of the entry it replaces. -/
def formatDeadline (old : Option SnoozeEntry) (deadline : OffsetDateTime) :
    Except Chain SnoozeEntry :=
  match rfc3339.format deadline with
  | .error e => .error ["failed to format snooze deadline", e]
  | .ok formatted =>
    .ok (match old with
      | some entry => { entry with snoozedUntil := formatted }
      | none => ⟨formatted, .empty⟩)

def StateFile.replaceSnoozes (f : StateFile) (snoozes : KeyMap OffsetDateTime) :
    Except Chain StateFile :=
  match KeyMap.upsert (fun _ old deadline => formatDeadline rfc3339 old deadline)
      (f.snoozed.filter fun key _ => snoozes.contains key) snoozes.toList with
  | .error chain => .error chain
  | .ok snoozed => .ok { f with snoozed := snoozed }

variable {rfc3339}

/-- A map that has just the deadlines of `m` is decoded as `m`. -/
theorem decodedSnoozes_of_parse {f : StateFile} {m : KeyMap OffsetDateTime}
    (hnone : ∀ key : String, m[key]? = none → f.snoozed[key]? = none)
    (hsome : ∀ (key : String) (deadline : OffsetDateTime), m[key]? = some deadline →
      ∃ entry, f.snoozed[key]? = some entry ∧ rfc3339.parse entry.snoozedUntil = .ok deadline) :
    f.decodedSnoozes rfc3339 = .ok m := by
  have hparse (key : String) (entry : SnoozeEntry) (he : f.snoozed[key]? = some entry) :
      ∃ deadline, m[key]? = some deadline ∧ parseDeadline rfc3339 key entry = .ok deadline := by
    cases hm : m[key]? with
    | none =>
      rw [hnone key hm] at he
      cases he
    | some deadline =>
      obtain ⟨entry', he', hp⟩ := hsome key deadline hm
      rw [he] at he'
      cases he'
      exact ⟨deadline, rfl, by simp [parseDeadline, hp]⟩
  obtain ⟨m', hm'⟩ := KeyMap.upsert_total (m := (∅ : KeyMap OffsetDateTime))
    (f := fun key _ entry => parseDeadline rfc3339 key entry) (l := f.snoozed.toList)
    fun key entry hmem _ => by
      obtain ⟨deadline, -, hp⟩ := hparse key entry (KeyMap.mem_toList.mp hmem)
      exact ⟨deadline, hp⟩
  obtain ⟨hin, hout⟩ := KeyMap.upsert_ok (KeyMap.nodup_toList_keys _) hm'
  rw [StateFile.decodedSnoozes, hm']
  congr 1
  apply Std.ExtTreeMap.ext_getElem?
  intro key
  cases he : f.snoozed[key]? with
  | none =>
    rw [hout key (KeyMap.not_mem_toList_keys he)]
    cases hm : m[key]? with
    | none => simp
    | some deadline =>
      obtain ⟨entry, he', -⟩ := hsome key deadline hm
      rw [he] at he'
      cases he'
  | some entry =>
    obtain ⟨deadline, hd, hp⟩ := hparse key entry he
    obtain ⟨w, hw, hkey⟩ := hin key entry (KeyMap.mem_toList.mpr he)
    rw [hp] at hw
    cases hw
    rw [hkey, hd]

/-- A replaced snooze map is decoded as it was given. -/
theorem decodedSnoozes_replaceSnoozes {f f' : StateFile} {m : KeyMap OffsetDateTime}
    (h : f.replaceSnoozes rfc3339 m = .ok f') : f'.decodedSnoozes rfc3339 = .ok m := by
  unfold StateFile.replaceSnoozes at h
  split at h
  · cases h
  · rename_i snoozed hs
    cases h
    obtain ⟨hin, hout⟩ := KeyMap.upsert_ok (KeyMap.nodup_toList_keys _) hs
    apply decodedSnoozes_of_parse
    · intro key hm
      have hc : key ∉ m := KeyMap.lookup_none_iff.mp hm
      rw [show snoozed[key]? = _ from hout key (KeyMap.not_mem_toList_keys hm)]
      simp [Std.ExtTreeMap.getElem?_filter, hc]
    · intro key deadline hm
      obtain ⟨entry, hentry, hkey⟩ := hin key deadline (KeyMap.mem_toList.mpr hm)
      refine ⟨entry, hkey, ?_⟩
      unfold formatDeadline at hentry
      split at hentry
      · cases hentry
      · rename_i formatted hf
        cases hentry
        have hp := rfc3339.parse_format deadline formatted hf
        split
        · exact hp
        · exact hp

end Snoozes

/-! ## The store -/

/-- The state file: missing, or a document. -/
structure Disk where
  document : Option Json

/-- Where a `save` stops with an error. Before the last step only the temporary file is touched. -/
inductive SaveStep where
  | parent
  | create
  | permissions
  | encode
  | finish
  | flush
  | sync
  /-- The rename, which fails without effect. -/
  | replace
  deriving DecidableEq, Repr

/-- What the file system does to one transaction. -/
structure StoreIo where
  /-- An error of reading an existing file. -/
  readError : Option String := none
  saveError : Option (SaveStep × String) := none

structure Store where
  path : String
  parent : String

namespace Store

variable (store : Store)

def saveChain : SaveStep × String → Chain
  | (.parent, _) => ["state filename has no parent directory"]
  | (.create, e) => ["failed to create temporary state file in " ++ store.parent, e]
  | (.permissions, e) => ["failed to set state-file permissions", e]
  | (.encode, e) => ["failed to encode state file", e]
  | (.finish, e) => ["failed to finish state file", e]
  | (.flush, e) => ["failed to flush state file", e]
  | (.sync, e) => ["failed to sync state file", e]
  | (.replace, e) => ["failed to replace state file " ++ store.path, e]

def load (io : StoreIo) (disk : Disk) : Except Chain StateFile :=
  match io.readError, disk.document with
  | some e, _ => .error ["failed to read state file " ++ store.path, e]
  | none, none => .ok {}
  | none, some document =>
    match StateFile.fromJson document with
    | none => bail ("failed to parse state file " ++ store.path)
    | some f => .ok f

def save (io : StoreIo) (disk : Disk) (f : StateFile) : Disk × Except Chain Unit :=
  match io.saveError with
  | some e => (disk, .error (store.saveChain e))
  | none => (⟨some f.toJson⟩, .ok ())

/-- One transaction, under the lock. -/
def update (io : StoreIo) (change : StateFile → Except Chain StateFile) (disk : Disk) :
    Disk × Except Chain Unit :=
  match store.load io disk with
  | .error chain => (disk, .error chain)
  | .ok f =>
    match change f with
    | .error chain => (disk, .error chain)
    | .ok f' => store.save io disk f'

/-- The snoozes that a start of the application would find. -/
def snoozes (rfc3339 : Rfc3339) (disk : Disk) : Except Chain (KeyMap OffsetDateTime) :=
  store.load {} disk >>= fun f => f.decodedSnoozes rfc3339

variable {store} {io : StoreIo} {change : StateFile → Except Chain StateFile} {disk : Disk}

theorem load_ok {f : StateFile} (h : store.load io disk = .ok f) : store.load {} disk = .ok f := by
  unfold load at h ⊢
  cases hr : io.readError with
  | some e => simp [hr] at h
  | none => simpa [hr] using h

/-- A transaction fails and leaves the file alone, or it wrote the changed file and that is what
is loaded then. -/
theorem update_cases (store : Store) (io : StoreIo) (change : StateFile → Except Chain StateFile)
    (disk : Disk) :
    (∃ chain, store.update io change disk = (disk, .error chain)) ∨
    ∃ f f', (store.update io change disk).2 = .ok () ∧ store.load {} disk = .ok f ∧
      change f = .ok f' ∧ store.load {} (store.update io change disk).1 = .ok f' := by
  cases hload : store.load io disk with
  | error chain => exact .inl ⟨chain, by simp [update, hload]⟩
  | ok f =>
    cases hchange : change f with
    | error chain => exact .inl ⟨chain, by simp [update, hload, hchange]⟩
    | ok f' =>
      cases hsave : io.saveError with
      | some e => exact .inl ⟨store.saveChain e, by simp [update, hload, hchange, save, hsave]⟩
      | none =>
        have hupdate : store.update io change disk = (⟨some f'.toJson⟩, .ok ()) := by
          simp [update, hload, hchange, save, hsave]
        rw [hupdate]
        exact .inr ⟨f, f', rfl, load_ok hload, hchange,
          by simp [load, StateFile.fromJson_toJson]⟩

end Store

/-! ## The writers -/

/-- The other writers of the file: the window's preferences and its placement. -/
inductive Writer where
  | preferences (darkTheme serversExpanded activeIncidentsExpanded snoozedIncidentsExpanded : Bool)
  | geometry (placement : WindowGeometry)
  deriving DecidableEq, Repr

def Writer.change (f : StateFile) : Writer → Except Chain StateFile
  | .preferences darkTheme serversExpanded activeIncidentsExpanded snoozedIncidentsExpanded =>
    .ok { f with
      preferences := { f.preferences with
        theme := if darkTheme then .dark else .light
        sections := { f.preferences.sections with
          serversExpanded := serversExpanded
          activeIncidentsExpanded := activeIncidentsExpanded
          snoozedIncidentsExpanded := snoozedIncidentsExpanded } } }
  | .geometry placement =>
    .ok { f with preferences := { f.preferences with windowGeometry := some placement } }

/-- The other writers keep the snoozes, whether they succeed or not. -/
theorem snoozes_writer (store : Store) (rfc3339 : Rfc3339) (io : StoreIo) (disk : Disk)
    (w : Writer) : store.snoozes rfc3339 (store.update io w.change disk).1 =
      store.snoozes rfc3339 disk := by
  rcases store.update_cases io w.change disk with ⟨chain, h⟩ | ⟨f, f', -, hf, hchange, hf'⟩
  · rw [h]
  · have hkeep : f'.snoozed = f.snoozed := by
      cases w <;> cases hchange <;> rfl
    simp only [Store.snoozes, hf, hf', bind, Except.bind, StateFile.decodedSnoozes, hkeep]

/-- `persist`, as the runtime calls it. -/
def Store.persistSnoozes (store : Store) (rfc3339 : Rfc3339) (io : StoreIo)
    (snoozes : KeyMap OffsetDateTime) (disk : Disk) : Disk × Except Chain Unit :=
  store.update io (fun f => f.replaceSnoozes rfc3339 snoozes) disk

/-- A write of the snoozes fails without effect, or the map that was given is found then. -/
theorem persistSnoozes_cases (store : Store) (rfc3339 : Rfc3339) (io : StoreIo)
    (snoozes : KeyMap OffsetDateTime) (disk : Disk) :
    (∃ chain, store.persistSnoozes rfc3339 io snoozes disk = (disk, .error chain)) ∨
    ((store.persistSnoozes rfc3339 io snoozes disk).2 = .ok () ∧
      store.snoozes rfc3339 (store.persistSnoozes rfc3339 io snoozes disk).1 = .ok snoozes) := by
  rcases store.update_cases io (fun f => f.replaceSnoozes rfc3339 snoozes) disk with
    ⟨chain, h⟩ | ⟨f, f', hok, -, hchange, hf'⟩
  · exact .inl ⟨chain, h⟩
  · refine .inr ⟨hok, ?_⟩
    simp only [Store.snoozes, Store.persistSnoozes, hf', bind, Except.bind]
    exact decodedSnoozes_replaceSnoozes hchange

end Client
end Montray
