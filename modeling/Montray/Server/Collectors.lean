import Montray.Server.SystemdConfig

/-!
# Montray.Server.Collectors

The collectors of a server's configuration: `CheckID`, `createCollectors` with its rollback, and the
keys under which a collector reports its items. How a collector of either type is made, and what it
is, are parameters.

* `createCollectors_ok`: an accepted configuration has valid ids, and no id twice.
-/

namespace Montray
namespace Collectors

open Lib

/-! ## Ids -/

def isLetter (r : Char) : Bool := 'a' ≤ r && r ≤ 'z'

/-- The loop of `CheckID`; `first` is `i == 0`. -/
def checkRunes (id : String) : Bool → List Char → Except String PUnit
  | _, [] => .ok ()
  | first, r :: rest =>
    if isLetter r then checkRunes id false rest
    else if first then
      .error (goQuote id ++ " is not a valid id, it must start with a lowercased letter")
    else if r.isDigit || r == '-' || r == '_' then checkRunes id false rest
    else
      .error (goQuote id ++ " is not a valid id, it must only contain lowercase English letters, " ++
        "numbers, hyphens and underscores")

def checkID (id : String) : Except String PUnit :=
  if id = "" then .error "empty string is not a valid id" else checkRunes id true id.toList

theorem checkRunes_no_dot {id : String} {first : Bool} {runes : List Char}
    (h : checkRunes id first runes = .ok ()) : '.' ∉ runes := by
  induction runes generalizing first with
  | nil => simp
  | cons r rest ih =>
    rw [checkRunes] at h
    intro hmem
    split at h
    · rename_i hletter
      rcases List.mem_cons.mp hmem with rfl | hmem
      · revert hletter
        decide
      · exact ih h hmem
    · split at h
      · cases h
      · split at h
        · rename_i hother
          rcases List.mem_cons.mp hmem with rfl | hmem
          · revert hother
            decide
          · exact ih h hmem
        · cases h

theorem checkID_no_dot {id : String} (h : checkID id = .ok ()) : '.' ∉ id.toList := by
  unfold checkID at h
  split at h
  · cases h
  · exact checkRunes_no_dot h

/-! ## Creating collectors -/

/-- The configuration of one collector. -/
structure Collector (σ ε : Type) where
  id : String
  systemd : Option σ := none
  exec : Option ε := none
  deriving DecidableEq, Repr

/-- A failed construction: the error, and the collectors that were closed. -/
structure Rollback (γ : Type) where
  error : String
  closed : List γ
  deriving DecidableEq, Repr

section Create

variable {σ ε γ : Type} (newSystemd : String → σ → Except String γ)
  (newExec : String → ε → Except String γ)

def Collector.numTypes (cfg : Collector σ ε) : Nat :=
  (if cfg.systemd.isSome then 1 else 0) + if cfg.exec.isSome then 1 else 0

def createCollector (cfg : Collector σ ε) : Except String γ :=
  match checkID cfg.id with
  | .error e => .error e
  | .ok () =>
    if cfg.numTypes ≠ 1 then
      .error (s!"config contains {cfg.numTypes} collector types; " ++
        "exactly one collector type is required")
    else
      match cfg.systemd, cfg.exec with
      | some config, _ => (newSystemd cfg.id config).mapError ("creating systemd collector: " ++ ·)
      | none, some config => (newExec cfg.id config).mapError ("creating exec collector: " ++ ·)
      | none, none => .error "no valid collector configuration"

/-- The loop of `createCollectors`, at entry `i`. -/
def createCollectorsFrom (i : Nat) (usedIDs : List String) (ret : List γ) :
    List (Collector σ ε) → Except (Rollback γ) (List γ)
  | [] => .ok ret
  | cfg :: rest =>
    if cfg.id ∈ usedIDs then
      .error ⟨s!"collector config #{i}: duplicate id " ++ goQuote cfg.id, ret⟩
    else
      match createCollector newSystemd newExec cfg with
      | .error e => .error ⟨s!"creating collector from config #{i}: " ++ e, ret⟩
      | .ok c => createCollectorsFrom (i + 1) (cfg.id :: usedIDs) (ret ++ [c]) rest

def createCollectors (cfgs : List (Collector σ ε)) : Except (Rollback γ) (List γ) :=
  createCollectorsFrom newSystemd newExec 0 [] [] cfgs

variable {newSystemd newExec}

theorem createCollector_checkID {cfg : Collector σ ε} {c : γ}
    (h : createCollector newSystemd newExec cfg = .ok c) : checkID cfg.id = .ok () := by
  unfold createCollector at h
  split at h
  · cases h
  · rename_i hid
    exact hid

theorem createCollectorsFrom_ok {i : Nat} {usedIDs : List String} {ret created : List γ}
    {cfgs : List (Collector σ ε)}
    (h : createCollectorsFrom newSystemd newExec i usedIDs ret cfgs = .ok created) :
    (∀ cfg ∈ cfgs, cfg.id ∉ usedIDs ∧ checkID cfg.id = .ok ()) ∧ (cfgs.map (·.id)).Nodup := by
  induction cfgs generalizing i usedIDs ret with
  | nil => simp
  | cons cfg rest ih =>
    rw [createCollectorsFrom] at h
    split at h
    · cases h
    · rename_i hused
      split at h
      · cases h
      · rename_i c hc
        obtain ⟨hrest, hnd⟩ := ih h
        refine ⟨fun cfg' hmem => ?_, ?_⟩
        · rcases List.mem_cons.mp hmem with rfl | hmem
          · exact ⟨hused, createCollector_checkID hc⟩
          · obtain ⟨hnot, hid⟩ := hrest cfg' hmem
            exact ⟨fun hin => hnot (List.mem_cons_of_mem _ hin), hid⟩
        · rw [List.map_cons, List.nodup_cons]
          refine ⟨fun hmem => ?_, hnd⟩
          obtain ⟨cfg', hmem, heq⟩ := List.mem_map.mp hmem
          exact (hrest cfg' hmem).1 (by rw [heq]; exact List.mem_cons_self)

theorem createCollectors_ok {cfgs : List (Collector σ ε)} {created : List γ}
    (h : createCollectors newSystemd newExec cfgs = .ok created) :
    (∀ cfg ∈ cfgs, checkID cfg.id = .ok ()) ∧ (cfgs.map (·.id)).Nodup := by
  obtain ⟨hmem, hnd⟩ := createCollectorsFrom_ok h
  exact ⟨fun cfg hcfg => (hmem cfg hcfg).2, hnd⟩

end Create

/-! ## Keys -/

/-- `getItemKey` of an exec collector. -/
def getItemKey (id key : String) : ItemKey := id ++ "." ++ key

/-- The key under which a collector reports the item of that name. -/
def Collector.itemKey {σ ε : Type} (cfg : Collector σ ε) (name : String) : ItemKey :=
  match cfg.systemd with
  | some _ => Systemd.itemKeyFromSystemdName cfg.id name
  | none => getItemKey cfg.id name

end Collectors
end Montray
