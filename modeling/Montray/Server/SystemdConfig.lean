import Montray.Lib.Quote
import Montray.Server.Item

/-!
# Montray.Server.SystemdConfig

The systemd collector's configuration and how a unit becomes an item.

* `validateConfig`: the checks of `NewCollector`, with their messages.
* `getItemFromUnit`: the first rule that applies, the first condition that matches, and the
  condition's resolve policy.
* `systemdUnitDetails`, `deferredDetails`: the texts an incident shows.
* `UnitUpdate`: an update of the provider; `runSubscription` builds every unit under its own name,
  so this is a field of the structure.
-/

namespace Montray
namespace Systemd

open Lib

abbrev UnitState := String

def unitStateNotSentBySystemd : UnitState := "not-sent-by-systemd"

/-- A duration in nanoseconds. -/
abbrev Duration := Int

structure Unit where
  name : String
  state : UnitState
  subState : String := ""
  deriving DecidableEq, Repr

structure ConfigResolve where
  after : Duration
  states : List UnitState
  deriving DecidableEq, Repr

structure ConfigCondition where
  state : UnitState := ""
  subState : String := ""
  subStateContains : String := ""
  resolve : Option ConfigResolve := none
  result : ItemState
  deriving DecidableEq, Repr

structure ConfigUnitRule where
  names : List String := []
  type : String := ""
  conditions : List ConfigCondition
  deriving DecidableEq, Repr

structure Config where
  unitRules : List ConfigUnitRule
  deriving DecidableEq, Repr

/-! ## Validation -/

/-- The loop over a list that must hold no empty and no repeated text. -/
def checkDistinct (empty : Nat → String) (duplicate : String → String) :
    List String → Nat → List String → Except String PUnit
  | _, _, [] => .ok ()
  | seen, i, text :: rest =>
    if text = "" then .error (empty i)
    else if text ∈ seen then .error (duplicate text)
    else checkDistinct empty duplicate (text :: seen) (i + 1) rest

def validateNames (ruleIndex : Nat) (names : List String) : Except String PUnit :=
  checkDistinct (fun nameIndex => s!"rule #{ruleIndex} name #{nameIndex} must not be empty")
    (fun name => s!"rule #{ruleIndex} contains duplicate name " ++ goQuote name) [] 0 names

def validateStates (ruleIndex conditionIndex : Nat) (states : List UnitState) :
    Except String PUnit :=
  checkDistinct
    (fun stateIndex => s!"rule #{ruleIndex} condition #{conditionIndex} resolve state " ++
      s!"#{stateIndex} must not be empty")
    (fun state => s!"rule #{ruleIndex} condition #{conditionIndex} resolve contains duplicate " ++
      "state " ++ goQuote state) [] 0 states

def validateCondition (ruleIndex conditionIndex : Nat) (condition : ConfigCondition) :
    Except String PUnit := do
  let place := s!"rule #{ruleIndex} condition #{conditionIndex}"
  if condition.subState ≠ "" ∧ condition.subStateContains ≠ "" then
    throw (place ++ " must not specify both subState and subStateContains")
  if ¬ condition.result.isItemStateValid then
    throw (place ++ " has invalid result " ++ goQuote condition.result.text)
  match condition.resolve with
  | none => pure ()
  | some resolve =>
    if condition.result = .ok then throw (place ++ " resolve requires a non-OK result")
    if resolve.after ≤ 0 then throw (place ++ " resolve.after must be positive")
    if resolve.states.length = 0 then throw (place ++ " resolve.states must not be empty")
    validateStates ruleIndex conditionIndex resolve.states

def validateRule (ruleIndex : Nat) (rule : ConfigUnitRule) : Except String PUnit := do
  validateNames ruleIndex rule.names
  rule.conditions.zipIdx.forM fun p => validateCondition ruleIndex p.2 p.1

def validateConfig (config : Config) : Except String PUnit :=
  config.unitRules.zipIdx.forM fun p => validateRule p.2 p.1

/-! ## Texts -/

def systemdUnitDetails (unit : Unit) : String :=
  if unit.state = unitStateNotSentBySystemd then
    "Unit " ++ unit.name ++ " was not reported by systemd"
  else if unit.subState ≠ "" ∧ unit.subState ≠ unit.state then
    "Unit " ++ unit.name ++ " is " ++ unit.state ++ " (" ++ unit.subState ++ ")"
  else "Unit " ++ unit.name ++ " is " ++ unit.state

/-- `fmtFrac` of Go's `time`: the fraction `v / 10^prec` without trailing zeros, and the whole
part. -/
def fmtFrac (v prec : Nat) : String × Nat :=
  let digits := Nat.toDigits 10 (v % 10 ^ prec)
  let padded := List.replicate (prec - digits.length) '0' ++ digits
  let kept := padded.rdropWhile (· == '0')
  (if kept.isEmpty then "" else "." ++ String.ofList kept, v / 10 ^ prec)

/-- `Duration.String` of Go's `time`. -/
def durationString (d : Duration) : String :=
  let u := d.natAbs
  let body :=
    if u = 0 then "0s"
    else if u < 1000 then s!"{u}ns"
    else if u < 1000000 then
      let (frac, whole) := fmtFrac u 3
      s!"{whole}{frac}µs"
    else if u < 1000000000 then
      let (frac, whole) := fmtFrac u 6
      s!"{whole}{frac}ms"
    else
      let (frac, secs) := fmtFrac u 9
      let seconds := secs % 60
      let minutes := secs / 60 % 60
      let hours := secs / 3600
      if secs < 60 then s!"{seconds}{frac}s"
      else if secs < 3600 then s!"{minutes}m{seconds}{frac}s"
      else s!"{hours}h{minutes}m{seconds}{frac}s"
  if d < 0 then "-" ++ body else body

example : durationString 90000000000 = "1m30s" := by decide +kernel

def containsUnitState (states : List UnitState) (want : UnitState) : Bool := states.contains want

/-- The text of an incident whose unit is OK again while its policy keeps it open. -/
def deferredDetails (details : String) (unit : Unit) (resolve : ConfigResolve) : String :=
  if containsUnitState resolve.states unit.state then
    details ++ "; incident resolves after " ++ durationString resolve.after ++ " in this state"
  else
    details ++ "; incident remains unresolved: state " ++ goQuote unit.state ++
      " does not contribute to recovery (resolve.states: [" ++
      " ".intercalate resolve.states ++ "])"

/-! ## From a unit to an item -/

structure CollectorParams where
  id : String
  config : Config
  deriving DecidableEq, Repr

def itemKeyFromSystemdName (id name : String) : ItemKey := id ++ "." ++ name

def ConfigUnitRule.applies (rule : ConfigUnitRule) (name : String) : Bool :=
  (rule.names.isEmpty || rule.names.contains name) &&
    (rule.type == "" || ("." ++ rule.type).toList.isSuffixOf name.toList)

def ConfigCondition.matches (cond : ConfigCondition) (unit : Unit) : Bool :=
  (cond.state == "" || cond.state == unit.state) &&
    (cond.subState == "" || cond.subState == unit.subState) &&
    (cond.subStateContains == "" || cond.subStateContains.toList <:+: unit.subState.toList)

def getItemFromUnit (c : CollectorParams) (unit : Unit) : Option (Item × Option ConfigResolve) :=
  (c.config.unitRules.find? (·.applies unit.name)).map fun rule =>
    let cond := rule.conditions.find? (·.matches unit)
    let state := (cond.map (·.result)).getD (.other "")
    ({ key := itemKeyFromSystemdName c.id unit.name
       -- By default, assume error
       state := if state = .other "" then .error else state
       details := systemdUnitDetails unit },
      cond.bind (·.resolve))

theorem getItemFromUnit_item {c : CollectorParams} {unit : Unit} {item : Item}
    {resolve : Option ConfigResolve} (h : getItemFromUnit c unit = some (item, resolve)) :
    item.key = itemKeyFromSystemdName c.id unit.name ∧ item.details = systemdUnitDetails unit := by
  simp only [getItemFromUnit, Option.map_eq_some_iff, Prod.mk.injEq] at h
  obtain ⟨rule, _, rfl, _⟩ := h
  exact ⟨rfl, rfl⟩

/-- Whether the collector is interested in a unit depends on its name only. -/
theorem getItemFromUnit_isSome {c : CollectorParams} {unit unit' : Unit}
    (h : unit.name = unit'.name) :
    (getItemFromUnit c unit).isSome = (getItemFromUnit c unit').isSome := by
  simp [getItemFromUnit, h]

theorem itemKeyFromSystemdName_inj {id a b : String}
    (h : itemKeyFromSystemdName id a = itemKeyFromSystemdName id b) : a = b := by
  unfold itemKeyFromSystemdName at h
  exact String.append_right_inj _ |>.mp h

/-! ## Updates of the provider -/

/-- The synthetic unit of a name that systemd did not report. -/
def notSent (name : String) : Unit := { name := name, state := unitStateNotSentBySystemd }

/-- The units of an update; `none` is a unit that was removed. -/
structure UnitUpdate where
  units : KeyMap (Option Unit)
  named : ∀ k u, units[k]? = some (some u) → Unit.name u = k

structure UnitStatus where
  activeState : String
  subState : String

/-- How the provider translates one update of the DBus subscription. -/
def runSubscription (upd : KeyMap (Option UnitStatus)) : UnitUpdate where
  units := upd.map fun k v => v.map fun v =>
    { name := k, state := v.activeState, subState := v.subState }
  named := by
    intro k u h
    simp only [Std.ExtTreeMap.getElem?_map, Option.map_eq_some_iff] at h
    obtain ⟨v, _, w, _, rfl⟩ := h
    rfl

/-- One pass of the loop that represents every explicitly named unit in the first update. -/
def addMissing (units : KeyMap (Option Unit)) (name : String) : KeyMap (Option Unit) :=
  if name ∈ units then units else units.insert name (some (notSent name))

theorem addMissing_named {units : KeyMap (Option Unit)} (name : String)
    (h : ∀ (k : String) (u : Unit), units[k]? = some (some u) → u.name = k) :
    ∀ (k : String) (u : Unit), (addMissing units name)[k]? = some (some u) → u.name = k := by
  intro k u hk
  unfold addMissing at hk
  split at hk
  · exact h k u hk
  · rw [KeyMap.lookup_insert] at hk
    split at hk
    · rename_i heq
      cases hk
      exact heq
    · exact h k u hk

def withMissing (config : Config) (upd : UnitUpdate) : UnitUpdate where
  units := (config.unitRules.flatMap (·.names)).foldl addMissing upd.units
  named := by
    generalize config.unitRules.flatMap (·.names) = names
    obtain ⟨units, named⟩ := upd
    induction names generalizing units with
    | nil => exact named
    | cons name names ih => exact ih (addMissing units name) (addMissing_named name named)

end Systemd
end Montray
