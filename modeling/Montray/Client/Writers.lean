import Montray.Lib.Machine
import Montray.Client.Persistence

/-!
# Montray.Client.Writers

The three writers of the state file: the runtime's snoozes, the window's preferences and the
window's placement. Each of them loads the whole file, changes its own part and saves the whole
file, one transaction at a time.

A `Register` is the part of the file that one writer sets and the others keep.

* `transact_comm`: transactions of different writers commute, with their results.
* `load_run`: what a register holds after any transactions.
* `writers_independent`: both.
* `geometry_current`: `persist` skips a placement only if it is in the file.
-/

namespace Montray
namespace Client

open Lib

/-! ## Transactions -/

/-- A change to the state file. -/
inductive StateWrite where
  | snoozes (snoozes : KeyMap OffsetDateTime)
  | window (writer : Writer)

inductive Owner where
  | snoozes
  | preferences
  | geometry
  deriving DecidableEq, Repr

def StateWrite.owner : StateWrite → Owner
  | .snoozes _ => .snoozes
  | .window (.preferences ..) => .preferences
  | .window (.geometry _) => .geometry

def StateWrite.change (rfc3339 : Rfc3339) (write : StateWrite) (f : StateFile) :
    Except Chain StateFile :=
  match write with
  | snoozes m => f.replaceSnoozes rfc3339 m
  | window writer => writer.change f

/-- A write, and what the file system does to it. -/
structure Transaction where
  io : StoreIo := {}
  write : StateWrite

def Store.transact (store : Store) (rfc3339 : Rfc3339) (t : Transaction) (disk : Disk) :
    Disk × Except Chain Unit :=
  store.update t.io (t.write.change rfc3339) disk

/-- The file under any number of transactions, in the order in which they take the lock. -/
def Store.transactions (store : Store) (rfc3339 : Rfc3339) (disk : Disk) :
    Mealy Disk Transaction (Except Chain Unit) where
  init := disk
  step disk t := store.transact rfc3339 t disk

/-! ## They commute -/

section Commute

variable {rfc3339 : Rfc3339} {store : Store} {disk : Disk} {f : StateFile}

/-- The window's writers change the preferences, and do not fail. -/
theorem Writer.change_eq (writer : Writer) :
    ∃ q : Preferences → Preferences, ∀ f,
      writer.change f = .ok { f with preferences := q f.preferences } := by
  cases writer with
  | preferences darkTheme serversExpanded activeIncidentsExpanded snoozedIncidentsExpanded =>
    exact ⟨fun p => { p with
      theme := if darkTheme then .dark else .light
      sections := { p.sections with
        serversExpanded, activeIncidentsExpanded, snoozedIncidentsExpanded } }, fun f => rfl⟩
  | geometry placement =>
    exact ⟨fun p => { p with windowGeometry := some placement }, fun f => rfl⟩

/-- Whether the snoozes can be written does not depend on the file. -/
theorem replaceSnoozes_uniform (rfc3339 : Rfc3339) (snoozes : KeyMap OffsetDateTime) :
    (∃ chain, ∀ f : StateFile, f.replaceSnoozes rfc3339 snoozes = .error chain) ∨
      ∃ g : KeyMap SnoozeEntry → KeyMap SnoozeEntry, ∀ f : StateFile,
        f.replaceSnoozes rfc3339 snoozes = .ok { f with snoozed := g f.snoozed } := by
  have hformat (deadline : OffsetDateTime) :
      (∃ chain, ∀ old, formatDeadline rfc3339 old deadline = .error chain) ∨
        ∃ g : Option SnoozeEntry → SnoozeEntry, ∀ old,
          formatDeadline rfc3339 old deadline = .ok (g old) := by
    cases hf : rfc3339.format deadline with
    | error e =>
      exact .inl ⟨["failed to format snooze deadline", e],
        fun old => by simp only [formatDeadline, hf]⟩
    | ok text =>
      refine .inr ⟨fun old => ⟨text, (old.map (·.extra)).getD .empty⟩, fun old => ?_⟩
      cases old <;> simp only [formatDeadline, hf, Option.map_none, Option.map_some,
        Option.getD_none, Option.getD_some]
  rcases KeyMap.upsert_uniform (fun _ deadline => hformat deadline) snoozes.toList with
    ⟨chain, h⟩ | ⟨g, h⟩
  · exact .inl ⟨chain, fun f => by simp only [StateFile.replaceSnoozes, h]⟩
  · exact .inr ⟨fun snoozed => g (snoozed.filter fun key _ => snoozes.contains key),
      fun f => by simp only [StateFile.replaceSnoozes, h]⟩

/-- A write fails on every file, or on none. -/
theorem StateWrite.change_uniform (rfc3339 : Rfc3339) (write : StateWrite) :
    (∃ chain, ∀ f, write.change rfc3339 f = .error chain) ∨
      ∃ g : StateFile → StateFile, ∀ f, write.change rfc3339 f = .ok (g f) := by
  cases write with
  | snoozes snoozes =>
    rcases replaceSnoozes_uniform rfc3339 snoozes with ⟨chain, h⟩ | ⟨g, h⟩
    · exact .inl ⟨chain, h⟩
    · exact .inr ⟨_, h⟩
  | window writer =>
    obtain ⟨q, h⟩ := writer.change_eq
    exact .inr ⟨_, h⟩

theorem StateWrite.change_comm {w v : StateWrite} (h : w.owner ≠ v.owner)
    {g k : StateFile → StateFile} (hg : ∀ f, w.change rfc3339 f = .ok (g f))
    (hk : ∀ f, v.change rfc3339 f = .ok (k f)) (f : StateFile) : k (g f) = g (k f) := by
  -- The snoozes are apart from the preferences, whatever is done to either.
  have hsnoozes : ∀ (snoozes : KeyMap OffsetDateTime) (writer : Writer)
      (a b : StateFile → StateFile),
      (∀ f : StateFile, f.replaceSnoozes rfc3339 snoozes = .ok (a f)) →
      (∀ f, writer.change f = .ok (b f)) → ∀ f, b (a f) = a (b f) := by
    intro snoozes writer a b ha hb f
    obtain ⟨q, hq⟩ := writer.change_eq
    rcases replaceSnoozes_uniform rfc3339 snoozes with ⟨chain, hs⟩ | ⟨s, hs⟩
    · have hcontra := (hs f).symm.trans (ha f)
      cases hcontra
    · have hb' (f : StateFile) : b f = { f with preferences := q f.preferences } :=
        Except.ok.inj ((hb f).symm.trans (hq f))
      have ha' (f : StateFile) : a f = { f with snoozed := s f.snoozed } :=
        Except.ok.inj ((ha f).symm.trans (hs f))
      rw [hb', ha', ha', hb']
  cases w with
  | snoozes snoozes =>
    cases v with
    | snoozes => exact absurd rfl h
    | window writer => exact hsnoozes snoozes writer g k hg hk f
  | window writer =>
    cases v with
    | snoozes snoozes => exact (hsnoozes snoozes writer k g hk hg f).symm
    | window writer' =>
      cases writer <;> cases writer'
      case preferences.preferences => exact absurd rfl h
      case geometry.geometry => exact absurd rfl h
      all_goals
        rw [← Except.ok.inj (hg f), ← Except.ok.inj (hk _), ← Except.ok.inj (hk f),
          ← Except.ok.inj (hg _)]

/-- A transaction fails on every file that can be loaded, and in the same way, or it succeeds on
each of them. -/
theorem transact_uniform (store : Store) (rfc3339 : Rfc3339) (t : Transaction) :
    (∃ chain, ∀ disk f, store.load {} disk = .ok f →
      store.transact rfc3339 t disk = (disk, .error chain)) ∨
    ∃ g : StateFile → StateFile, (∀ f, t.write.change rfc3339 f = .ok (g f)) ∧
      ∀ disk f, store.load {} disk = .ok f →
        store.transact rfc3339 t disk = (⟨some (g f).toJson⟩, .ok ()) := by
  cases hr : t.io.readError with
  | some e =>
    exact .inl ⟨["failed to read state file " ++ store.path, e],
      fun disk f _ => by simp only [Store.transact, Store.update, Store.load, hr]⟩
  | none =>
    have hload (disk : Disk) : store.load t.io disk = store.load {} disk := by
      simp only [Store.load, hr]
    rcases t.write.change_uniform rfc3339 with ⟨chain, h⟩ | ⟨g, h⟩
    · exact .inl ⟨chain, fun disk f hf => by
        simp only [Store.transact, Store.update, hload, hf, h]⟩
    · cases hs : t.io.saveError with
      | some e =>
        exact .inl ⟨store.saveChain e, fun disk f hf => by
          simp only [Store.transact, Store.update, hload, hf, h, Store.save, hs]⟩
      | none =>
        exact .inr ⟨g, h, fun disk f hf => by
          simp only [Store.transact, Store.update, hload, hf, h, Store.save, hs]⟩

/-- Transactions of different writers do not see each other. -/
theorem transact_comm {t u : Transaction} (h : t.write.owner ≠ u.write.owner)
    (hf : store.load {} disk = .ok f) :
    let tu := store.transact rfc3339 u (store.transact rfc3339 t disk).1
    let ut := store.transact rfc3339 t (store.transact rfc3339 u disk).1
    tu.1 = ut.1 ∧ tu.2 = (store.transact rfc3339 u disk).2 ∧
      ut.2 = (store.transact rfc3339 t disk).2 := by
  have hsaved (f : StateFile) : store.load {} ⟨some f.toJson⟩ = .ok f := by
    simp only [Store.load, StateFile.fromJson_toJson]
  dsimp only
  rcases transact_uniform store rfc3339 t with ⟨c, ht⟩ | ⟨g, hg, ht⟩
  · rcases transact_uniform store rfc3339 u with ⟨d, hu⟩ | ⟨k, -, hu⟩
    · simp only [ht disk f hf, hu disk f hf, and_self]
    · simp only [ht disk f hf, hu disk f hf, ht _ _ (hsaved _), and_self]
  · rcases transact_uniform store rfc3339 u with ⟨d, hu⟩ | ⟨k, hk, hu⟩
    · simp only [ht disk f hf, hu disk f hf, hu _ _ (hsaved _), and_self]
    · simp only [ht disk f hf, hu disk f hf, ht _ _ (hsaved _), hu _ _ (hsaved _), and_self,
        StateWrite.change_comm h hg hk f]

end Commute

/-! ## Registers -/

/-- What one writer sets, as a start of the application would find it. -/
structure Register (rfc3339 : Rfc3339) (β : Type) where
  view : StateFile → β
  /-- The value that a write leaves, if the register is its own. -/
  written : StateWrite → Option β
  law : ∀ write f f', write.change rfc3339 f = .ok f' → view f' = (written write).getD (view f)

/-- The preferences that the window shows. -/
structure Shown where
  theme : Theme
  serversExpanded : Bool
  activeIncidentsExpanded : Bool
  snoozedIncidentsExpanded : Bool
  deriving DecidableEq, Repr

def Preferences.shown (p : Preferences) : Shown where
  theme := p.theme
  serversExpanded := p.sections.serversExpanded
  activeIncidentsExpanded := p.sections.activeIncidentsExpanded
  snoozedIncidentsExpanded := p.sections.snoozedIncidentsExpanded

namespace Register

variable (rfc3339 : Rfc3339)

theorem keeps_snoozes {writer : Writer} {f f' : StateFile} (h : writer.change f = .ok f') :
    f'.snoozed = f.snoozed := by
  obtain ⟨q, hq⟩ := writer.change_eq
  rw [hq] at h
  cases h
  rfl

theorem keeps_preferences {rfc3339 : Rfc3339} {snoozes : KeyMap OffsetDateTime} {f f' : StateFile}
    (h : f.replaceSnoozes rfc3339 snoozes = .ok f') : f'.preferences = f.preferences := by
  unfold StateFile.replaceSnoozes at h
  split at h
  · cases h
  · cases h
    rfl

def snoozes : Register rfc3339 (Except Chain (KeyMap OffsetDateTime)) where
  view f := f.decodedSnoozes rfc3339
  written
    | .snoozes snoozes => some (.ok snoozes)
    | .window _ => none
  law write f f' h := by
    cases write with
    | snoozes snoozes => exact decodedSnoozes_replaceSnoozes h
    | window writer =>
      show f'.decodedSnoozes rfc3339 = f.decodedSnoozes rfc3339
      rw [StateFile.decodedSnoozes, keeps_snoozes h, StateFile.decodedSnoozes]

def shown : Register rfc3339 Shown where
  view f := f.preferences.shown
  written
    | .window (.preferences darkTheme serversExpanded activeIncidentsExpanded
        snoozedIncidentsExpanded) =>
      some ⟨if darkTheme then .dark else .light, serversExpanded, activeIncidentsExpanded,
        snoozedIncidentsExpanded⟩
    | _ => none
  law write f f' h := by
    cases write with
    | snoozes snoozes => exact congrArg Preferences.shown (keeps_preferences h)
    | window writer => cases writer <;> cases h <;> rfl

def geometry : Register rfc3339 (Option WindowGeometry) where
  view f := f.preferences.windowGeometry
  written
    | .window (.geometry placement) => some (some placement)
    | _ => none
  law write f f' h := by
    cases write with
    | snoozes snoozes => exact congrArg Preferences.windowGeometry (keeps_preferences h)
    | window writer => cases writer <;> cases h <;> rfl

variable {rfc3339} {β : Type} (r : Register rfc3339 β)

/-- What a transaction sets: nothing, if it failed. -/
def set? (t : Transaction) : Except Chain Unit → Option β
  | .ok () => r.written t.write
  | .error _ => none

/-- The last value that a successful transaction set. -/
def lastSuccessful (log : List (Transaction × Except Chain Unit)) : Option β :=
  (log.filterMap fun p => r.set? p.1 p.2).getLast?

theorem transact (store : Store) (t : Transaction) (disk : Disk) :
    (store.load {} (store.transact rfc3339 t disk).1).map r.view =
      ((r.set? t (store.transact rfc3339 t disk).2).map .ok).getD
        ((store.load {} disk).map r.view) := by
  rcases store.update_cases t.io (t.write.change rfc3339) disk with
    ⟨chain, h⟩ | ⟨f, f', hok, hf, hchange, hf'⟩
  · rw [Store.transact, h]
    rfl
  · rw [Store.transact, hok, hf, hf']
    simp only [Except.map, r.law _ _ _ hchange, set?]
    cases r.written t.write <;> rfl

/-- After any transactions a register holds the last value that was set, or what it held before. -/
theorem load_run (store : Store) {disk : Disk} {f : StateFile} (h : store.load {} disk = .ok f)
    (ts : List Transaction) :
    let R := store.transactions rfc3339 disk
    (store.load {} (R.run ts)).map r.view =
      .ok ((r.lastSuccessful (ts.zip (R.outputs ts))).getD (r.view f)) := by
  intro R
  have hrun := R.register (fun disk => (store.load {} disk).map r.view)
    (fun t result => (r.set? t result).map .ok) (fun disk t => r.transact store t disk) ts
  rw [hrun, show store.load {} R.init = .ok f from h, lastSuccessful, ← List.map_filterMap,
    List.getLast?_map]
  cases ((ts.zip (R.outputs ts)).filterMap fun p => r.set? p.1 p.2).getLast? <;> rfl

end Register

/-- **Independent writers.** Transactions of different writers commute, in what they leave in the
file and in what they return. After any sequence of transactions, some of which fail, the file is
loaded with the last value that each writer wrote with success, and with the initial value where
there is none. -/
theorem writers_independent (store : Store) (rfc3339 : Rfc3339) (disk : Disk) (f₀ : StateFile)
    (h : store.load {} disk = .ok f₀) :
    (∀ t u : Transaction, t.write.owner ≠ u.write.owner →
      let tu := store.transact rfc3339 u (store.transact rfc3339 t disk).1
      let ut := store.transact rfc3339 t (store.transact rfc3339 u disk).1
      tu.1 = ut.1 ∧ tu.2 = (store.transact rfc3339 u disk).2 ∧
        ut.2 = (store.transact rfc3339 t disk).2) ∧
    ∀ ts : List Transaction,
      let R := store.transactions rfc3339 disk
      let log := ts.zip (R.outputs ts)
      ∃ f, store.load {} (R.run ts) = .ok f ∧
        f.decodedSnoozes rfc3339 =
          ((Register.snoozes rfc3339).lastSuccessful log).getD (f₀.decodedSnoozes rfc3339) ∧
        f.preferences.shown =
          ((Register.shown rfc3339).lastSuccessful log).getD f₀.preferences.shown ∧
        f.preferences.windowGeometry =
          ((Register.geometry rfc3339).lastSuccessful log).getD f₀.preferences.windowGeometry := by
  refine ⟨fun t u hne => transact_comm hne h, fun ts => ?_⟩
  have hsnoozes := (Register.snoozes rfc3339).load_run store h ts
  have hshown := (Register.shown rfc3339).load_run store h ts
  have hgeometry := (Register.geometry rfc3339).load_run store h ts
  dsimp only at hsnoozes hshown hgeometry ⊢
  cases hf : store.load {} ((store.transactions rfc3339 disk).run ts) with
  | error chain =>
    rw [hf] at hsnoozes
    cases hsnoozes
  | ok f =>
    rw [hf] at hsnoozes hshown hgeometry
    exact ⟨f, rfl, Except.ok.inj hsnoozes, Except.ok.inj hshown, Except.ok.inj hgeometry⟩

def writersStore : Store := ⟨"state.json", "."⟩

def writersRfc3339 : Rfc3339 := .single (60 * 10 ^ 9) "1970-01-01T00:01:00Z"

/-- Light, then dark but the rename fails; a placement and a snooze in between. -/
def writersTransactions : List Transaction :=
  [{ write := .window (.preferences false true true true) },
    { write := .window (.geometry ⟨1, 2, 300, 200, false⟩) },
    { write := .snoozes ((∅ : KeyMap OffsetDateTime).insert "db.disk" (60 * 10 ^ 9)) },
    { io := { saveError := some (.replace, "no space") },
      write := .window (.preferences true false false false) }]

theorem writers_independent_failedWrite :
    let R := writersStore.transactions writersRfc3339 ⟨none⟩
    ∃ f, writersStore.load {} (R.run writersTransactions) = .ok f ∧
      f.decodedSnoozes writersRfc3339 =
        .ok ((∅ : KeyMap OffsetDateTime).insert "db.disk" (60 * 10 ^ 9)) ∧
      f.preferences.shown = ⟨.light, true, true, true⟩ ∧
      f.preferences.windowGeometry = some ⟨1, 2, 300, 200, false⟩ := by
  obtain ⟨f, hf, hsnoozes, hshown, hgeometry⟩ :=
    (writers_independent writersStore writersRfc3339 ⟨none⟩ {} rfl).2 writersTransactions
  exact ⟨f, hf, hsnoozes, hshown, hgeometry⟩

/-! ## The window's placement -/

/-- The file, and `last_persisted` of the manager of the window's geometry. -/
structure Desk where
  disk : Disk
  lastPersisted : Option WindowGeometry

/-- The calls that end in a transaction, or in none. -/
inductive Call where
  | snoozes (io : StoreIo) (snoozes : KeyMap OffsetDateTime)
  | preferences (io : StoreIo)
      (darkTheme serversExpanded activeIncidentsExpanded snoozedIncidentsExpanded : Bool)
  | persist (io : StoreIo) (placement : Option WindowGeometry)

section Placement

variable (store : Store) (rfc3339 : Rfc3339)

/-- `WindowGeometryManager::persist`. -/
def Desk.persist (s : Desk) (io : StoreIo) : Option WindowGeometry → Desk × Except Chain Unit
  | none => (s, .ok ())
  | some placement =>
    if s.lastPersisted = some placement then (s, .ok ())
    else
      let result := store.transact rfc3339 ⟨io, .window (.geometry placement)⟩ s.disk
      match result.2 with
      | .error chain => ({ s with disk := result.1 }, .error chain)
      | .ok () => (⟨result.1, some placement⟩, .ok ())

def Desk.call (s : Desk) : Call → Desk × Except Chain Unit
  | .snoozes io m =>
    let result := store.transact rfc3339 ⟨io, .snoozes m⟩ s.disk
    ({ s with disk := result.1 }, result.2)
  | .preferences io darkTheme serversExpanded activeIncidentsExpanded snoozedIncidentsExpanded =>
    let result := store.transact rfc3339 ⟨io, .window (.preferences darkTheme serversExpanded
      activeIncidentsExpanded snoozedIncidentsExpanded)⟩ s.disk
    ({ s with disk := result.1 }, result.2)
  | .persist io placement => s.persist store rfc3339 io placement

/-- The placement in the file, if the file can be loaded. -/
def Store.placement (disk : Disk) : Except Chain (Option WindowGeometry) :=
  (store.load {} disk).map fun f => f.preferences.windowGeometry

theorem placement_transact (t : Transaction) (disk : Disk) :
    store.placement (store.transact rfc3339 t disk).1 =
      (((Register.geometry rfc3339).set? t (store.transact rfc3339 t disk).2).map .ok).getD
        (store.placement disk) :=
  (Register.geometry rfc3339).transact store t disk

/-- The other writers keep the placement. -/
theorem placement_other {t : Transaction} (h : t.write.owner ≠ .geometry) (disk : Disk) :
    store.placement (store.transact rfc3339 t disk).1 = store.placement disk := by
  obtain ⟨io, write⟩ := t
  have hnone : (Register.geometry rfc3339).written write = none := by
    rcases write with m | writer
    · rfl
    · cases writer with
      | preferences => rfl
      | geometry placement => exact absurd rfl h
  rw [placement_transact]
  cases (store.transact rfc3339 ⟨io, write⟩ disk).2 with
  | error chain => rfl
  | ok => simp only [Register.set?, hnone, Option.map_none, Option.getD_none]

theorem Desk.persist_current {s : Desk} (h : store.placement s.disk = .ok s.lastPersisted)
    (io : StoreIo) (placement : Option WindowGeometry) :
    let s' := (s.persist store rfc3339 io placement).1
    store.placement s'.disk = .ok s'.lastPersisted := by
  cases placement with
  | none => exact h
  | some placement =>
    simp only [Desk.persist]
    split
    · exact h
    · have hset := placement_transact store rfc3339 ⟨io, .window (.geometry placement)⟩ s.disk
      split
      · rename_i chain herror
        rw [herror] at hset
        exact hset.trans h
      · rename_i hok
        rw [hok] at hset
        exact hset

/-- In every run from the placement that the application found, the manager knows the placement in
the file. So what `persist` returns `Ok` for is in the file, also when it skipped the write. -/
theorem geometry_current (desk : Desk) (h : store.placement desk.disk = .ok desk.lastPersisted)
    (calls : List Call) :
    let s := Mealy.run ⟨desk, fun s c => s.call store rfc3339 c⟩ calls
    store.placement s.disk = .ok s.lastPersisted := by
  refine Mealy.invariant _ (I := fun s : Desk => store.placement s.disk = .ok s.lastPersisted) h
    (fun s c hs => ?_) calls
  cases c with
  | snoozes io m =>
    exact (placement_other store rfc3339 (by simp [StateWrite.owner]) s.disk).trans hs
  | preferences io darkTheme serversExpanded activeIncidentsExpanded snoozedIncidentsExpanded =>
    exact (placement_other store rfc3339 (by simp [StateWrite.owner]) s.disk).trans hs
  | persist io placement => exact s.persist_current store rfc3339 hs io placement

end Placement

end Client
end Montray
