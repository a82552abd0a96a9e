import Montray.Client.Persistence

/-!
# Montray.Client.StateLaws

What a transaction keeps of the state file.

A record keeps the members that it does not know and writes them back (`Json.Extra`), and does so at
every level of the document but one: `WindowGeometry` has nowhere to put them.

* `replaceSnoozes_law`: what `replace_snoozes` makes of a file, whatever the file was.
* `forward_compatible`: the unknown members of a document after a transaction.
* `geometry_forgets`: a document whose window geometry loses a member.
-/

namespace Montray
namespace Client

open Lib

/-! ## Replacing the snoozes -/

section Replace

variable {rfc3339 : Rfc3339} {f f' : StateFile} {m : KeyMap OffsetDateTime}

/-- The instants of the map have a text. -/
def Formats (rfc3339 : Rfc3339) (m : KeyMap OffsetDateTime) : Prop :=
  ∀ (key : String) (deadline : OffsetDateTime), m[key]? = some deadline →
    ∃ text, rfc3339.format deadline = .ok text

theorem replaceSnoozes_total (h : Formats rfc3339 m) (f : StateFile) :
    ∃ f', f.replaceSnoozes rfc3339 m = .ok f' := by
  obtain ⟨snoozed, hs⟩ := KeyMap.upsert_total (l := m.toList)
    (m := f.snoozed.filter fun key _ => m.contains key)
    (f := fun _ old deadline => formatDeadline rfc3339 old deadline) (by
      intro key deadline hmem old
      obtain ⟨text, htext⟩ := h key deadline (KeyMap.mem_toList.mp hmem)
      simp [formatDeadline, htext])
  exact ⟨{ f with snoozed := snoozed }, by simp [StateFile.replaceSnoozes, hs]⟩

theorem formatDeadline_extra {old : Option SnoozeEntry} {deadline : OffsetDateTime}
    {entry : SnoozeEntry} (h : formatDeadline rfc3339 old deadline = .ok entry) :
    entry.extra = (old.map SnoozeEntry.extra).getD .empty := by
  unfold formatDeadline at h
  split at h
  · cases h
  · cases h
    cases old <;> rfl

/-- The entries after a replacement: those of the map, with the old unknown members. -/
theorem replaceSnoozes_entries (h : f.replaceSnoozes rfc3339 m = .ok f') (key : String) :
    (m[key]? = none → f'.snoozed[key]? = none) ∧
      ∀ deadline, m[key]? = some deadline → ∃ entry, f'.snoozed[key]? = some entry ∧
        entry.extra = (f.snoozed[key]?.map SnoozeEntry.extra).getD .empty := by
  unfold StateFile.replaceSnoozes at h
  split at h
  · cases h
  · rename_i snoozed hs
    cases h
    obtain ⟨hin, hout⟩ := KeyMap.upsert_ok (KeyMap.nodup_toList_keys _) hs
    refine ⟨?_, ?_⟩
    · intro hnone
      have hc : key ∉ m := KeyMap.lookup_none_iff.mp hnone
      rw [show snoozed[key]? = _ from hout key (KeyMap.not_mem_toList_keys hnone)]
      simp [Std.ExtTreeMap.getElem?_filter, hc]
    · intro deadline hsome
      have hc : m.contains key = true :=
        Std.ExtTreeMap.mem_iff_contains.mp (KeyMap.mem_iff_lookup.mpr ⟨deadline, hsome⟩)
      obtain ⟨entry, hentry, hlookup⟩ := hin key deadline (KeyMap.mem_toList.mpr hsome)
      refine ⟨entry, hlookup, ?_⟩
      rw [formatDeadline_extra hentry]
      simp only [Std.ExtTreeMap.getElem?_filter, Std.ExtTreeMap.getKey_eq, hc,
        Option.pfilter_eq_filter]
      cases f.snoozed[key]? <;> rfl

theorem replaceSnoozes_frame (h : f.replaceSnoozes rfc3339 m = .ok f') :
    f'.schemaVersion = f.schemaVersion ∧ f'.preferences = f.preferences ∧ f'.extra = f.extra := by
  unfold StateFile.replaceSnoozes at h
  split at h
  · cases h
  · cases h
    exact ⟨rfl, rfl, rfl⟩

end Replace

/-- **The law of replacement.** Replacing the snoozes of any file, with malformed deadlines or not,
by a map whose instants have a text succeeds. The result decodes to the map; its keys are those of
the map, a key that was there keeps its unknown members and a new one has none; the rest of the file
stays; and what was replaced before makes no difference to what is decoded. -/
theorem replaceSnoozes_law (rfc3339 : Rfc3339) (f : StateFile) (m : KeyMap OffsetDateTime)
    (hm : Formats rfc3339 m) :
    ∃ f', f.replaceSnoozes rfc3339 m = .ok f' ∧ f'.decodedSnoozes rfc3339 = .ok m ∧
      (∀ key : String, key ∈ f'.snoozed ↔ key ∈ m) ∧
      (∀ (key : String) (entry : SnoozeEntry), f'.snoozed[key]? = some entry →
        (∀ old, f.snoozed[key]? = some old → entry.extra = old.extra) ∧
        (f.snoozed[key]? = none → entry.extra = .empty)) ∧
      f'.schemaVersion = f.schemaVersion ∧ f'.preferences = f.preferences ∧ f'.extra = f.extra ∧
      ∀ m₂, Formats rfc3339 m₂ → ∃ f₁₂ f₂, f'.replaceSnoozes rfc3339 m₂ = .ok f₁₂ ∧
        f.replaceSnoozes rfc3339 m₂ = .ok f₂ ∧
        f₁₂.decodedSnoozes rfc3339 = .ok m₂ ∧ f₂.decodedSnoozes rfc3339 = .ok m₂ := by
  obtain ⟨f', hf'⟩ := replaceSnoozes_total hm f
  obtain ⟨hversion, hpreferences, hextra⟩ := replaceSnoozes_frame hf'
  have hkeys : ∀ key : String, key ∈ f'.snoozed ↔ key ∈ m := by
    intro key
    rw [KeyMap.mem_iff_lookup, KeyMap.mem_iff_lookup]
    cases hlookup : m[key]? with
    | none => simp [(replaceSnoozes_entries hf' key).1 hlookup]
    | some deadline =>
      obtain ⟨entry, hentry, -⟩ := (replaceSnoozes_entries hf' key).2 deadline hlookup
      exact iff_of_true ⟨entry, hentry⟩ ⟨deadline, rfl⟩
  refine ⟨f', hf', decodedSnoozes_replaceSnoozes hf', hkeys, ?_, hversion, hpreferences, hextra, ?_⟩
  · intro key entry hentry
    obtain ⟨deadline, hdeadline⟩ := KeyMap.mem_iff_lookup.mp
      ((hkeys key).mp (KeyMap.mem_iff_lookup.mpr ⟨entry, hentry⟩))
    obtain ⟨entry', hentry', hkept⟩ := (replaceSnoozes_entries hf' key).2 deadline hdeadline
    rw [hentry] at hentry'
    cases hentry'
    refine ⟨?_, ?_⟩
    · intro old hold
      rw [hkept, hold]
      rfl
    · intro hold
      rw [hkept, hold]
      rfl
  · intro m₂ hm₂
    obtain ⟨f₁₂, hf₁₂⟩ := replaceSnoozes_total hm₂ f'
    obtain ⟨f₂, hf₂⟩ := replaceSnoozes_total hm₂ f
    exact ⟨f₁₂, f₂, hf₁₂, hf₂, decodedSnoozes_replaceSnoozes hf₁₂,
      decodedSnoozes_replaceSnoozes hf₂⟩

/-- A file with a deadline that cannot be read and a member that is not known. -/
def malformedFile : StateFile where
  snoozed := (∅ : KeyMap SnoozeEntry).insert "db.disk"
    ⟨"tomorrow", .ofMembers _ [("reason", .str "maintenance")]⟩

theorem replaceSnoozes_law_malformed :
    let rfc3339 := Rfc3339.single 0 "1970-01-01T00:00:00Z"
    let m := (∅ : KeyMap OffsetDateTime).insert "db.disk" 0
    (malformedFile.decodedSnoozes rfc3339).isOk = false ∧
    ∃ f', malformedFile.replaceSnoozes rfc3339 m = .ok f' ∧ f'.decodedSnoozes rfc3339 = .ok m := by
  intro rfc3339 m
  have hm : Formats rfc3339 m := by
    intro key deadline h
    rw [KeyMap.lookup_insert] at h
    split at h
    · cases h
      exact ⟨"1970-01-01T00:00:00Z", rfl⟩
    · simp at h
  obtain ⟨f', hf', hdecoded, -⟩ := replaceSnoozes_law rfc3339 malformedFile m hm
  exact ⟨by rfl, f', hf', hdecoded⟩

/-! ## Unknown members -/

/-- The objects of the document that belong to a record. -/
inductive Level where
  | top
  | entry (key : String)
  | preferences
  | sections
  | geometry
  deriving DecidableEq, Repr

namespace Level

def path : Level → List String
  | .top => []
  | .entry key => ["snoozed", key]
  | .preferences => ["preferences"]
  | .sections => ["preferences", "sections"]
  | .geometry => ["preferences", "window_geometry"]

/-- The members that this version knows. -/
def known : Level → List String
  | .top => ["schema_version", "snoozed", "preferences"]
  | .entry _ => ["snoozed_until"]
  | .preferences => ["theme", "sections", "window_geometry"]
  | .sections => ["servers_expanded", "active_incidents_expanded", "snoozed_incidents_expanded"]
  | .geometry => ["x", "y", "width", "height", "maximized"]

/-- What the record of the level has kept of the member. -/
def kept (f : StateFile) (name : String) : Level → Option Json
  | .top => f.extra.members[name]?
  | .entry key => f.snoozed[key]?.bind fun entry => entry.extra.members[name]?
  | .preferences => f.preferences.extra.members[name]?
  | .sections => f.preferences.sections.extra.members[name]?
  | .geometry => none

end Level

/-! ### Reading -/

section Read

variable {j : Json} {name : String}

theorem SnoozeEntry.member_read {entry : SnoozeEntry} (h : fromJson j = some entry)
    (hname : name ∉ (Level.entry "").known) : j.member name = entry.extra.members[name]? := by
  cases j <;> simp only [fromJson, reduceCtorEq] at h
  simp only [Option.bind_eq_bind, Option.bind_eq_some_iff, Option.pure_def, Option.some.injEq] at h
  obtain ⟨_, _, _, _, rfl⟩ := h
  exact (Json.Extra.ofMembers_lookup hname _).symm

theorem SectionPreferences.member_read {sections : SectionPreferences}
    (h : fromJson j = some sections) (hname : name ∉ Level.sections.known) :
    j.member name = sections.extra.members[name]? := by
  cases j <;> simp only [fromJson, reduceCtorEq] at h
  simp only [Option.bind_eq_bind, Option.bind_eq_some_iff, Option.pure_def, Option.some.injEq] at h
  obtain ⟨_, _, _, _, _, _, _, _, _, _, _, _, rfl⟩ := h
  exact (Json.Extra.ofMembers_lookup hname _).symm

theorem Preferences.member_read {preferences : Preferences} (h : fromJson j = some preferences) :
    (∀ name ∉ Level.preferences.known, j.member name = preferences.extra.members[name]?) ∧
      ∀ name ∉ Level.sections.known,
        j.descend ["sections", name] = preferences.sections.extra.members[name]? := by
  cases j <;> simp only [fromJson, reduceCtorEq] at h
  simp only [Option.bind_eq_bind, Option.bind_eq_some_iff, Option.pure_def, Option.some.injEq] at h
  obtain ⟨_, _, _, _, o, ho, sections, hsections, _, _, _, _, rfl⟩ := h
  refine ⟨fun name hname => (Json.Extra.ofMembers_lookup hname _).symm, fun name hname => ?_⟩
  simp only [Json.descend, Json.member_of_field ho]
  cases o with
  | none =>
    cases hsections
    simp [Json.Extra.empty]
  | some value => simpa using SectionPreferences.member_read hsections hname

/-- The entries of the map that is read are read from the members of the object. -/
theorem readSnoozed_member {m : KeyMap SnoozeEntry} (h : readSnoozed j = some m) (key : String) :
    Option.Rel (fun value entry => SnoozeEntry.fromJson value = some entry) (j.member key)
      m[key]? := by
  cases j <;> simp only [readSnoozed, reduceCtorEq] at h
  rename_i members
  obtain ⟨entries, hentries, rfl⟩ := Option.map_eq_some_iff.mp h
  rw [Json.mapM_eq_some_iff] at hentries
  refine KeyMap.ofEntries_forall₂ (hentries.imp ?_) key
  intro p q hpq
  obtain ⟨entry, hentry, rfl⟩ := Option.map_eq_some_iff.mp hpq
  exact ⟨rfl, hentry⟩

theorem StateFile.fromJson_inv {f : StateFile} (h : fromJson j = some f) :
    Json.optional readSnoozed ∅ (j.member "snoozed") = some f.snoozed ∧
      Json.optional Preferences.fromJson {} (j.member "preferences") = some f.preferences ∧
      ∀ name ∉ Level.top.known, j.member name = f.extra.members[name]? := by
  cases j <;> simp only [fromJson, reduceCtorEq] at h
  simp only [Option.bind_eq_bind, Option.bind_eq_some_iff, Option.pure_def, Option.some.injEq] at h
  obtain ⟨_, _, _, _, o, ho, snoozed, hsnoozed, o', ho', preferences, hpreferences, rfl⟩ := h
  rw [Json.member_of_field ho, Json.member_of_field ho']
  exact ⟨hsnoozed, hpreferences, fun name hname => (Json.Extra.ofMembers_lookup hname _).symm⟩

theorem StateFile.snoozed_read {f : StateFile} (h : fromJson j = some f) (key : String) :
    Option.Rel (fun value entry => SnoozeEntry.fromJson value = some entry)
      (j.descend ["snoozed", key]) f.snoozed[key]? := by
  have hsnoozed := (StateFile.fromJson_inv h).1
  simp only [Json.descend]
  cases hmember : j.member "snoozed" with
  | none =>
    rw [hmember, Json.optional_none, Option.some.injEq] at hsnoozed
    simp [← hsnoozed]
  | some value =>
    rw [hmember] at hsnoozed
    simpa using readSnoozed_member hsnoozed key

/-- What a record has kept is what the document says. -/
theorem StateFile.kept_read {f : StateFile} (h : fromJson j = some f) {level : Level}
    (hlevel : level ≠ .geometry) (hname : name ∉ level.known) :
    j.descend (level.path ++ [name]) = level.kept f name := by
  obtain ⟨-, hpreferences, hextra⟩ := StateFile.fromJson_inv h
  have hone : ∀ value : Json, value.descend [name] = value.member name := by simp [Json.descend]
  cases level with
  | top => exact (hone j).trans (hextra name hname)
  | entry key =>
    have hrel := StateFile.snoozed_read h key
    have hsplit : j.descend ((Level.entry key).path ++ [name]) =
        (j.descend ["snoozed", key]).bind (Json.member name) := by
      simp [Level.path, Json.descend, Option.bind_assoc]
    rw [hsplit, Level.kept]
    generalize j.descend ["snoozed", key] = o at hrel
    generalize f.snoozed[key]? = o' at hrel
    cases hrel with
    | none => rfl
    | some hentry => exact SnoozeEntry.member_read hentry hname
  | preferences =>
    simp only [Level.path, List.singleton_append, Json.descend]
    cases hmember : j.member "preferences" with
    | none =>
      rw [hmember, Json.optional_none, Option.some.injEq] at hpreferences
      simp [Level.kept, ← hpreferences, Json.Extra.empty]
    | some value =>
      rw [hmember] at hpreferences
      exact (hone value).trans ((Preferences.member_read hpreferences).1 name hname)
  | sections =>
    simp only [Level.path, List.cons_append, List.nil_append, Json.descend.eq_2 _ "preferences"]
    cases hmember : j.member "preferences" with
    | none =>
      rw [hmember, Json.optional_none, Option.some.injEq] at hpreferences
      simp [Level.kept, ← hpreferences, Json.Extra.empty]
    | some value =>
      rw [hmember] at hpreferences
      exact (Preferences.member_read hpreferences).2 name hname
  | geometry => exact absurd rfl hlevel

end Read

/-- A window's placement is written without other members. -/
theorem geometry_written {f : StateFile} {name : String} (hname : name ∉ Level.geometry.known) :
    f.toJson.descend (Level.geometry.path ++ [name]) = none := by
  have hpreferences : f.toJson.member "preferences" = some f.preferences.toJson := by
    refine Json.member_of_field ?_
    rw [f.extra.field_append_extra (by simp)]
    simp [Json.field]
  have hgeometry : f.preferences.toJson.member "window_geometry" =
      f.preferences.windowGeometry.map WindowGeometry.toJson := by
    refine Json.member_of_field ?_
    rw [f.preferences.extra.field_append_extra (by simp)]
    cases f.preferences.windowGeometry <;> simp [Json.field]
  have hnone : ∀ geometry : WindowGeometry, geometry.toJson.member name = none := by
    intro geometry
    refine KeyMap.ofEntries_lookup_none ?_
    rintro p hp rfl
    simp only [List.mem_cons, List.not_mem_nil, or_false] at hp
    rcases hp with rfl | rfl | rfl | rfl | rfl <;> simp [Level.known] at hname
  simp only [Level.path, List.cons_append, List.nil_append, Json.descend, hpreferences, hgeometry,
    Option.bind_some]
  cases f.preferences.windowGeometry with
  | none => rfl
  | some geometry => simp [hnone]

/-! ### Transactions -/

/-- Only deadlines of existing entries, the theme, the section flags and the placement differ. -/
structure Touches (f f' : StateFile) : Prop where
  version : f'.schemaVersion = f.schemaVersion
  extra : f'.extra = f.extra
  preferences : f'.preferences.extra = f.preferences.extra
  sections : f'.preferences.sections.extra = f.preferences.sections.extra
  entry : ∀ (key : String) (entry' : SnoozeEntry), f'.snoozed[key]? = some entry' →
    ∃ entry, f.snoozed[key]? = some entry ∧ entry'.extra = entry.extra

theorem Touches.kept {f f' : StateFile} (h : Touches f f') (name : String) {level : Level}
    (hsurvives : ∀ key, level = .entry key → key ∈ f'.snoozed) :
    level.kept f' name = level.kept f name := by
  cases level with
  | top => rw [Level.kept, Level.kept, h.extra]
  | entry key =>
    obtain ⟨entry', hentry'⟩ := KeyMap.mem_iff_lookup.mp (hsurvives key rfl)
    obtain ⟨entry, hentry, hextra⟩ := h.entry key entry' hentry'
    simp [Level.kept, hentry', hentry, hextra]
  | preferences => rw [Level.kept, Level.kept, h.preferences]
  | sections => rw [Level.kept, Level.kept, h.sections]
  | geometry => rfl

theorem Writer.touches {f f' : StateFile} {w : Writer} (h : w.change f = .ok f') :
    Touches f f' := by
  cases w <;> cases h <;> exact ⟨rfl, rfl, rfl, rfl, fun _ entry he => ⟨entry, he, rfl⟩⟩

theorem load_document {store : Store} {io : StoreIo} {document : Json} {f : StateFile}
    (h : store.load io ⟨some document⟩ = .ok f) : StateFile.fromJson document = some f := by
  unfold Store.load at h
  split at h
  · cases h
  · cases ‹some document = none›
  · rename_i heq
    cases heq
    split at h
    · cases h
    · cases h
      assumption

theorem update_written {store : Store} {io : StoreIo} {change : StateFile → Except Chain StateFile}
    {disk disk' : Disk} {f : StateFile} (hload : store.load io disk = .ok f)
    (h : store.update io change disk = (disk', .ok ())) :
    ∃ f', change f = .ok f' ∧ disk' = ⟨some f'.toJson⟩ := by
  unfold Store.update at h
  rw [hload] at h
  dsimp only at h
  split at h
  · cases h
  · rename_i f' hchange
    unfold Store.save at h
    split at h
    · cases h
    · cases h
      exact ⟨f', hchange, rfl⟩

/-- The unknown members of the levels that keep them are those of the document that was loaded. -/
theorem Touches.descend {f f' : StateFile} {document : Json} (h : Touches f f')
    (hread : StateFile.fromJson document = some f) {level : Level} (hlevel : level ≠ .geometry)
    {name : String} (hname : name ∉ level.known)
    (hsurvives : ∀ key, level = .entry key → (f'.toJson.descend level.path).isSome = true) :
    f'.toJson.descend (level.path ++ [name]) = document.descend (level.path ++ [name]) := by
  have hwritten := StateFile.fromJson_toJson f'
  rw [StateFile.kept_read hwritten hlevel hname, StateFile.kept_read hread hlevel hname]
  refine h.kept name ?_
  rintro key rfl
  have hrel := StateFile.snoozed_read hwritten key
  have hsome : (f'.toJson.descend ["snoozed", key]).isSome = true := hsurvives key rfl
  rw [KeyMap.mem_iff_lookup, ← Option.isSome_iff_exists]
  generalize f'.toJson.descend ["snoozed", key] = o at hrel hsome
  generalize f'.snoozed[key]? = o' at hrel
  cases hrel with
  | none => exact hsome
  | some _ => rfl

/-- **Forward compatibility.** For every document that is loaded and every transaction that touches
only what this version is for: the document that is written has, at every level, the unknown members
that the old one had, with their values (for a snooze entry, if the entry is still there), if and
only if the old document's window geometry has no member but the known ones. -/
theorem forward_compatible (store : Store) (io : StoreIo)
    (change : StateFile → Except Chain StateFile) (document : Json) (f : StateFile)
    (hload : store.load io ⟨some document⟩ = .ok f)
    (htouches : ∀ f', change f = .ok f' → Touches f f')
    (disk : Disk) (hupdate : store.update io change ⟨some document⟩ = (disk, .ok ())) :
    (∃ document', disk.document = some document' ∧
      ∀ (level : Level) (name : String), name ∉ level.known →
        (∀ key, level = .entry key → (document'.descend level.path).isSome = true) →
        document'.descend (level.path ++ [name]) = document.descend (level.path ++ [name])) ↔
    ∀ name ∉ Level.geometry.known, document.descend (Level.geometry.path ++ [name]) = none := by
  obtain ⟨f', hchange, rfl⟩ := update_written hload hupdate
  constructor
  · rintro ⟨document', hdocument, hkept⟩ name hname
    cases hdocument
    rw [← hkept .geometry name hname (by rintro key ⟨⟩), geometry_written hname]
  · intro hgeometry
    refine ⟨f'.toJson, rfl, ?_⟩
    intro level name hname hsurvives
    by_cases hlevel : level = .geometry
    · subst hlevel
      rw [geometry_written hname, hgeometry name hname]
    · exact (htouches f' hchange).descend (load_document hload) hlevel hname hsurvives

def lawsStore : Store := ⟨"/home/u/.montray-state.json", "/home/u"⟩

/-- A newer version has left a member in the document and one in the preferences. -/
def newerDocument : Json :=
  .obj [("preferences", .obj [("density", .str "compact")]), ("accent", .str "teal")]

theorem forward_compatible_newer :
    ∃ document', (lawsStore.update {} (Writer.preferences false true true true).change
        ⟨some newerDocument⟩).1.document = some document' ∧
      document'.descend ["accent"] = some (.str "teal") ∧
      document'.descend ["preferences", "density"] = some (.str "compact") := by
  obtain ⟨document', hdocument, hkept⟩ := (forward_compatible lawsStore {}
    (Writer.preferences false true true true).change newerDocument _ rfl
    (fun f' h => Writer.touches h) _ rfl).mpr (fun name hname => rfl)
  refine ⟨document', hdocument, ?_, ?_⟩
  · exact hkept .top "accent" (by decide) (by rintro key ⟨⟩)
  · exact hkept .preferences "density" (by decide) (by rintro key ⟨⟩)

/-- A newer version has also noted the monitor in the window geometry. -/
def monitorDocument : Json :=
  .obj [("preferences", .obj [("window_geometry",
    .obj [("x", .int 0), ("y", .int 0), ("width", .int 800), ("height", .int 600),
      ("monitor", .str "DP-1")])])]

/-- The member is lost when the theme changes. -/
theorem geometry_forgets :
    ∃ f f' document', lawsStore.load {} ⟨some monitorDocument⟩ = .ok f ∧
      (Writer.preferences false true true false).change f = .ok f' ∧ Touches f f' ∧
      lawsStore.update {} (Writer.preferences false true true false).change ⟨some monitorDocument⟩ =
        (⟨some document'⟩, .ok ()) ∧
      "monitor" ∉ Level.geometry.known ∧
      monitorDocument.descend (Level.geometry.path ++ ["monitor"]) = some (.str "DP-1") ∧
      document'.descend (Level.geometry.path ++ ["monitor"]) = none :=
  ⟨_, _, _, rfl, rfl, Writer.touches (w := .preferences false true true false) rfl, rfl, by decide,
    rfl, geometry_written (by decide)⟩

end Client
end Montray
