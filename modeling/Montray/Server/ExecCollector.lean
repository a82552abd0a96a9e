import Montray.Server.Collectors

/-!
# Montray.Server.ExecCollector

The collector that runs a command: its configuration with defaults and validation, the first line of
the command's output, and the item made of one execution. The operating system's side of an
execution is its `Outcome`.

* `validateConfig_ok`: which configurations are accepted.
* `newCollector_defaults`: the defaults pass the validation.
* `exited_state`: the condition that gives an item its state, by the numbers the codes denote.
-/

namespace Montray
namespace Exec

open Lib
open Systemd (Duration durationString)

/-! ## Numbers as texts -/

/-- The value of a text of decimal digits. -/
def digitsValue (digits : List Char) : Option Nat :=
  if digits ≠ [] ∧ digits.all Char.isDigit then some (Nat.ofDigitChars 10 digits 0) else none

/-- The range check of `ParseInt`. -/
def int64? (v : Int) : Option Int64 :=
  if -2 ^ 63 ≤ v ∧ v < 2 ^ 63 then some (Int64.ofInt v) else none

/-- `strconv.Atoi`: an optional sign and decimal digits, within the range of an `int`. -/
def atoi (s : String) : Option Int64 :=
  match s.toList with
  | '-' :: digits => (digitsValue digits).bind fun v => int64? (-v)
  | '+' :: digits => (digitsValue digits).bind fun v => int64? v
  | digits => (digitsValue digits).bind fun v => int64? v

/-- `strconv.Itoa`. -/
def itoa (n : Int64) : String := n.toInt.repr

theorem digitsValue_toDigits (n : Nat) : digitsValue (Nat.toDigits 10 n) = some n := by
  have hdigits : (Nat.toDigits 10 n).all Char.isDigit = true :=
    List.all_eq_true.mpr fun c hc => Nat.isDigit_of_mem_toDigits (by decide) (by decide) hc
  rw [digitsValue, if_pos ⟨Nat.toDigits_ne_nil, hdigits⟩, Nat.ofDigitChars_ten_toDigits]

theorem int64?_toInt (n : Int64) : int64? n.toInt = some n := by
  rw [int64?, if_pos ⟨n.le_toInt, n.toInt_lt⟩, Int64.ofInt_toInt]

/-- A text that begins with a digit has no sign. -/
theorem atoi_unsigned {s : String} (h : ∀ c ∈ s.toList, c.isDigit = true) :
    atoi s = (digitsValue s.toList).bind fun v => int64? v := by
  unfold atoi
  split
  · rename_i digits heq
    exact absurd (h '-' (by rw [heq]; exact List.mem_cons_self)) (by decide)
  · rename_i digits heq
    exact absurd (h '+' (by rw [heq]; exact List.mem_cons_self)) (by decide)
  · rfl

theorem atoi_itoa (n : Int64) : atoi (itoa n) = some n := by
  have hback := int64?_toInt n
  rw [itoa]
  cases hn : n.toInt with
  | ofNat m =>
    have htext : (Int.repr (Int.ofNat m)).toList = Nat.toDigits 10 m := Nat.toList_repr
    have hdigits : ∀ c ∈ (Int.repr (Int.ofNat m)).toList, c.isDigit = true := by
      rw [htext]
      exact fun c hc => Nat.isDigit_of_mem_toDigits (by decide) (by decide) hc
    rw [atoi_unsigned hdigits, htext, digitsValue_toDigits, Option.bind_some, ← hback, hn]
    rfl
  | negSucc m =>
    have htext : (Int.repr (Int.negSucc m)).toList = '-' :: Nat.toDigits 10 (m + 1) := by
      rw [Int.repr, String.toList_append, Nat.toList_repr]
      rfl
    have hvalue : -((m + 1 : Nat) : Int) = n.toInt := by
      rw [hn]
      rfl
    unfold atoi
    simp only [htext]
    rw [digitsValue_toDigits, Option.bind_some, hvalue, hback]

/-! ## Configuration -/

structure ConfigCondition where
  exitCode : String := ""
  result : ItemState
  deriving DecidableEq, Repr

/-- `conditions` is `none` where the configuration omits them. -/
structure Config where
  description : String := ""
  command : List String
  pollInterval : Duration := 0
  pollIntervalWhenUnhealthy : Duration := 0
  timeout : Duration := 0
  conditions : Option (List ConfigCondition) := none
  deriving DecidableEq, Repr

def defaultPollInterval : Duration := 60000000000

def defaultPollIntervalWhenUnhealthy : Duration := 5000000000

def defaultTimeoutCeiling : Duration := 60000000000

def defaultConditions : List ConfigCondition :=
  [{ exitCode := "0", result := .ok }, { result := .error }]

def applyConfigDefaults (config : Config) : Config :=
  let pollInterval :=
    if config.pollInterval = 0 then defaultPollInterval else config.pollInterval
  let pollIntervalWhenUnhealthy :=
    if config.pollIntervalWhenUnhealthy = 0 then defaultPollIntervalWhenUnhealthy
    else config.pollIntervalWhenUnhealthy
  { config with
    pollInterval
    pollIntervalWhenUnhealthy
    timeout :=
      if config.timeout = 0 then
        min defaultTimeoutCeiling (min pollInterval pollIntervalWhenUnhealthy)
      else config.timeout }

/-- The loop of `validateConfig` over the conditions, at condition `i`. -/
def validateConditions : Nat → List ConfigCondition → Except String PUnit
  | _, [] => .ok ()
  | i, condition :: rest =>
    if condition.exitCode ≠ "" ∧ atoi condition.exitCode = none then
      .error (s!"condition #{i} has invalid exitCode " ++ goQuote condition.exitCode)
    else if ¬ condition.result.isItemStateValid then
      .error (s!"condition #{i} has invalid result " ++ goQuote condition.result.text)
    else validateConditions (i + 1) rest

def validateConfig (config : Config) : Except String PUnit :=
  if config.command.headD "" = "" then .error "command must not be empty"
  else if config.pollInterval < 0 then .error "pollInterval must not be negative"
  else if config.pollIntervalWhenUnhealthy < 0 then
    .error "pollIntervalWhenUnhealthy must not be negative"
  else if config.timeout < 0 then .error "timeout must not be negative"
  else if config.timeout > config.pollInterval then
    .error ("timeout " ++ durationString config.timeout ++ " must not exceed pollInterval " ++
      durationString config.pollInterval)
  else if config.timeout > config.pollIntervalWhenUnhealthy then
    .error ("timeout " ++ durationString config.timeout ++
      " must not exceed pollIntervalWhenUnhealthy " ++
      durationString config.pollIntervalWhenUnhealthy)
  else if (config.conditions.getD []).length = 0 then .error "conditions must not be empty"
  else validateConditions 0 (config.conditions.getD [])

structure CollectorParams where
  id : String
  config : Config
  deriving DecidableEq, Repr

/-- The parameters of the collector that `NewCollector` starts. -/
def newCollector (params : CollectorParams) : Except String CollectorParams :=
  let conditions := params.config.conditions.getD defaultConditions
  let config := applyConfigDefaults { params.config with conditions := some conditions }
  (validateConfig config).map fun _ => { params with config }

/-- What the validation accepts of a condition. -/
structure ConfigCondition.Valid (condition : ConfigCondition) : Prop where
  exitCode : condition.exitCode = "" ∨ ∃ n, atoi condition.exitCode = some n
  result : condition.result.isItemStateValid = true

theorem validateConditions_ok {i : Nat} {conditions : List ConfigCondition} :
    validateConditions i conditions = .ok () ↔ ∀ condition ∈ conditions, condition.Valid := by
  induction conditions generalizing i with
  | nil => simp [validateConditions]
  | cons condition rest ih =>
    rw [validateConditions, List.forall_mem_cons]
    split_ifs with hcode hresult
    · refine iff_of_false (by simp) fun ⟨hvalid, _⟩ => ?_
      rcases hvalid.exitCode with hempty | ⟨n, hn⟩
      · exact hcode.1 hempty
      · rw [hn] at hcode
        cases hcode.2
    · rw [ih]
      refine (and_iff_right ⟨?_, hresult⟩).symm
      by_cases hempty : condition.exitCode = ""
      · exact .inl hempty
      · exact .inr (Option.ne_none_iff_exists'.mp fun hnone => hcode ⟨hempty, hnone⟩)
    · exact iff_of_false (by simp) fun ⟨hvalid, _⟩ => hresult hvalid.result

/-- What the validation accepts. -/
structure Config.Valid (config : Config) : Prop where
  command : config.command.headD "" ≠ ""
  timeout_nonneg : 0 ≤ config.timeout
  timeout_le : config.timeout ≤ config.pollInterval
  timeout_le_unhealthy : config.timeout ≤ config.pollIntervalWhenUnhealthy
  conditions_ne : config.conditions.getD [] ≠ []
  conditions : ∀ condition ∈ config.conditions.getD [], condition.Valid

theorem validateConfig_ok {config : Config} : validateConfig config = .ok () ↔ config.Valid := by
  unfold validateConfig
  split_ifs with hcommand hpoll hunhealthy htimeout hle hleUnhealthy hne
  · exact iff_of_false (by simp) fun h => h.command hcommand
  · exact iff_of_false (by simp) fun h => absurd (h.timeout_nonneg.trans h.timeout_le) hpoll.not_ge
  · exact iff_of_false (by simp) fun h =>
      absurd (h.timeout_nonneg.trans h.timeout_le_unhealthy) hunhealthy.not_ge
  · exact iff_of_false (by simp) fun h => absurd h.timeout_nonneg htimeout.not_ge
  · exact iff_of_false (by simp) fun h => absurd h.timeout_le (not_le.mpr hle)
  · exact iff_of_false (by simp) fun h => absurd h.timeout_le_unhealthy (not_le.mpr hleUnhealthy)
  · exact iff_of_false (by simp) fun h => h.conditions_ne (List.eq_nil_of_length_eq_zero hne)
  · rw [validateConditions_ok]
    refine ⟨fun h => ?_, Config.Valid.conditions⟩
    exact ⟨hcommand, not_lt.mp htimeout, not_lt.mp hle, not_lt.mp hleUnhealthy,
      fun hnil => hne (by rw [hnil]; rfl), h⟩

/-- The defaults pass the validation: a command is enough, and intervals may be added. -/
theorem newCollector_defaults (params : CollectorParams)
    (hcommand : params.config.command.headD "" ≠ "") (hpoll : 0 ≤ params.config.pollInterval)
    (hunhealthy : 0 ≤ params.config.pollIntervalWhenUnhealthy)
    (htimeout : params.config.timeout = 0) (hconditions : params.config.conditions = none) :
    ∃ started, newCollector params = .ok started := by
  have hvalid : (applyConfigDefaults
      { params.config with conditions := some defaultConditions }).Valid := by
    have hintervals : 0 ≤ (if params.config.pollInterval = 0 then defaultPollInterval
        else params.config.pollInterval) ∧
        0 ≤ (if params.config.pollIntervalWhenUnhealthy = 0 then defaultPollIntervalWhenUnhealthy
          else params.config.pollIntervalWhenUnhealthy) := by
      constructor
      · split_ifs
        · decide
        · exact hpoll
      · split_ifs
        · decide
        · exact hunhealthy
    refine ⟨hcommand, ?_, ?_, ?_, by simp [applyConfigDefaults, defaultConditions], ?_⟩
    · simp only [applyConfigDefaults, htimeout, if_true]
      exact le_min (by decide) (le_min hintervals.1 hintervals.2)
    · simp only [applyConfigDefaults, htimeout, if_true]
      exact (min_le_right _ _).trans (min_le_left _ _)
    · simp only [applyConfigDefaults, htimeout, if_true]
      exact (min_le_right _ _).trans (min_le_right _ _)
    · have haccepted : validateConditions 0 defaultConditions = .ok () := by decide
      exact validateConditions_ok.mp haccepted
  simp only [newCollector, hconditions, Option.getD_none, validateConfig_ok.mpr hvalid, Except.map,
    Except.ok.injEq, exists_eq']

/-! ## Output -/

def maxOutputLineBytes : Nat := 200

/-- `\n`. -/
def newline : UInt8 := 10

structure FirstLineWriter where
  line : List UInt8 := []
  complete : Bool := false
  truncated : Bool := false
  deriving DecidableEq, Repr

/-- What `Write` looks at: `p` up to its first newline, and whether the line is complete then. -/
def upToNewline (complete : Bool) (p : List UInt8) : List UInt8 × Bool :=
  match p.findIdx? (· == newline) with
  | some newline => (p.take newline, true)
  | none => (p, complete)

def FirstLineWriter.write (w : FirstLineWriter) (p : List UInt8) : FirstLineWriter × Nat :=
  let written := p.length
  if w.complete then (w, written)
  else
    let (p, complete) := upToNewline w.complete p
    let remaining := maxOutputLineBytes - w.line.length
    if remaining < p.length then
      ({ line := w.line ++ p.take remaining, complete := true, truncated := true }, written)
    else ({ w with line := w.line ++ p, complete }, written)

/-- `unicode.IsSpace`. -/
def isSpace (c : Char) : Bool :=
  let n := c.toNat
  9 ≤ n && n ≤ 13 || n == 32 || n == 0x85 || n == 0xA0 || n == 0x1680 ||
    0x2000 ≤ n && n ≤ 0x200A || n == 0x2028 || n == 0x2029 || n == 0x202F || n == 0x205F ||
    n == 0x3000

/-- `strings.TrimSpace`. -/
def trimSpace (s : String) : String :=
  String.ofList ((s.toList.dropWhile isSpace).rdropWhile isSpace)

/-- `firstLineWriter.String`; `text` reads bytes that need not be valid UTF-8. -/
def FirstLineWriter.string (text : List UInt8 → String) (w : FirstLineWriter) : String :=
  let line := trimSpace (text w.line)
  if line ≠ "" ∧ w.truncated then line ++ "…" else line

/-! ## Executions -/

/-- How an execution of the command ends; `stdout` is what each `Write` gets. -/
inductive Outcome where
  | captureFailed (err : String)
  | startFailed (err : String)
  | timedOut
  | canceled (err : String)
  | failed (err : String)
  | exited (exitCode : Int64) (stdout : List (List UInt8))
  deriving DecidableEq, Repr

def appendDetails (existing additional : String) : String :=
  if existing = "" then additional else existing ++ ": " ++ additional

/-- The result of the first matching condition, or the empty state. -/
def matchedState (conditions : List ConfigCondition) (exitCodeStr : String) : ItemState :=
  match conditions.find? fun cond => cond.exitCode = "" ∨ cond.exitCode = exitCodeStr with
  | some cond => cond.result
  | none => .other ""

def runCommand (text : List UInt8 → String) (c : CollectorParams) (outcome : Outcome) : Item :=
  let item (state : ItemState) (details : String) : Item :=
    { key := Collectors.getItemKey c.id "exec_result"
      state
      details := appendDetails c.config.description details }
  match outcome with
  | .captureFailed err => item .error ("failed to capture command output: " ++ err)
  | .startFailed err => item .error ("failed to start command: " ++ err)
  | .timedOut => item .error ("Command timed out after " ++ durationString c.config.timeout)
  | .canceled err => item .error ("command was canceled: " ++ err)
  | .failed err => item .error ("failed to run command: " ++ err)
  | .exited exitCode stdout =>
    let exitCodeStr := itoa exitCode
    let state := matchedState (c.config.conditions.getD []) exitCodeStr
    let state := if state = .other "" then .error else state
    let dynamicDetails := (stdout.foldl (fun w p => (FirstLineWriter.write w p).1) {}).string text
    item state (if dynamicDetails = "" then "exit code: " ++ exitCodeStr else dynamicDetails)

/-- How long `run` waits for the next execution. -/
def nextPoll (config : Config) (lastItemResult : Item) : Duration :=
  if lastItemResult.state ≠ .ok then config.pollIntervalWhenUnhealthy else config.pollInterval

/-- An execution of an accepted configuration is over before the next one is due. -/
theorem timeout_le_nextPoll {config : Config} (h : config.Valid) (lastItemResult : Item) :
    config.timeout ≤ nextPoll config lastItemResult := by
  unfold nextPoll
  split_ifs
  · exact h.timeout_le_unhealthy
  · exact h.timeout_le

/-! ## Exit codes -/

/-- A condition without an exit code, or with one that denotes `n`. -/
def ConfigCondition.denotes (n : Int64) (cond : ConfigCondition) : Bool :=
  cond.exitCode = "" ∨ atoi cond.exitCode = some n

/-- A condition without an exit code, or with `n` as `strconv.Itoa` spells it. -/
def ConfigCondition.spells (n : Int64) (cond : ConfigCondition) : Bool :=
  cond.exitCode = "" ∨ cond.exitCode = itoa n

/-- An exit code that is `n` in another spelling. -/
def ConfigCondition.Misspells (n : Int64) (cond : ConfigCondition) : Prop :=
  cond.exitCode ≠ "" ∧ cond.exitCode ≠ itoa n ∧ atoi cond.exitCode = some n

/-- The state that a condition gives, or its absence. -/
def resultOf (cond : Option ConfigCondition) : ItemState := (cond.map (·.result)).getD .error

section Spelling

variable {n : Int64} {cond : ConfigCondition}

theorem ConfigCondition.denotes_of_spells (h : cond.spells n = true) : cond.denotes n = true := by
  simp only [spells, denotes, decide_eq_true_iff] at h ⊢
  refine h.imp_right fun hcode => ?_
  rw [hcode, atoi_itoa]

theorem ConfigCondition.misspells_iff :
    cond.Misspells n ↔ cond.denotes n = true ∧ cond.spells n = false := by
  simp only [Misspells, denotes, spells, decide_eq_true_iff, decide_eq_false_iff_not, not_or]
  exact ⟨fun ⟨hne, hother, hn⟩ => ⟨.inr hn, hne, hother⟩,
    fun ⟨hn, hne, hother⟩ => ⟨hne, hother, hn.resolve_left hne⟩⟩

/-- Conditions that do not denote the code are passed over. -/
theorem find?_spells_append {before : List ConfigCondition}
    (h : ∀ cond ∈ before, cond.denotes n = false) (rest : List ConfigCondition) :
    (before ++ rest).find? (·.spells n) = rest.find? (·.spells n) := by
  have hnone : before.find? (·.spells n) = none := by
    rw [List.find?_eq_none]
    intro cond hcond hspells
    have hno := h cond hcond
    rw [ConfigCondition.denotes_of_spells hspells] at hno
    cases hno
  rw [List.find?_append, hnone, Option.none_or]

theorem matchedState_itoa (conditions : List ConfigCondition) :
    matchedState conditions (itoa n) =
      ((conditions.find? (·.spells n)).map (·.result)).getD (.other "") := by
  have hsame : (conditions.find? fun cond => cond.exitCode = "" ∨ cond.exitCode = itoa n) =
      conditions.find? (·.spells n) := rfl
  rw [matchedState, hsame]
  cases conditions.find? (·.spells n) <;> rfl

end Spelling

theorem ItemState.ne_empty_of_valid {state : ItemState} (h : state.isItemStateValid = true) :
    state ≠ .other "" := by
  rintro rfl
  cases h

/-- What an accepted configuration makes of an exit code. -/
theorem exited_resultOf (text : List UInt8 → String) {c : CollectorParams}
    (hvalid : validateConfig c.config = .ok ()) (exitCode : Int64) (stdout : List (List UInt8)) :
    (runCommand text c (.exited exitCode stdout)).state =
      resultOf ((c.config.conditions.getD []).find? (·.spells exitCode)) := by
  simp only [runCommand, matchedState_itoa]
  cases hcond : (c.config.conditions.getD []).find? (·.spells exitCode) with
  | none => rfl
  | some cond =>
    have hmem := List.mem_of_find?_eq_some hcond
    have hresult := ((validateConfig_ok.mp hvalid).conditions cond hmem).result
    exact if_neg (ItemState.ne_empty_of_valid hresult)

/-- **Exit codes are numbers.** A completed command's item has the result of the first condition
whose exit code is omitted or denotes the command's, if and only if that condition does not spell
the code in another way, or has the result that the command gets without it. -/
theorem exited_state (text : List UInt8 → String) (c : CollectorParams)
    (hvalid : validateConfig c.config = .ok ()) (exitCode : Int64) (stdout : List (List UInt8)) :
    (runCommand text c (.exited exitCode stdout)).state =
      resultOf ((c.config.conditions.getD []).find? (·.denotes exitCode)) ↔
    ∀ before cond after, c.config.conditions.getD [] = before ++ cond :: after →
      (∀ other ∈ before, other.denotes exitCode = false) → cond.Misspells exitCode →
      cond.result = resultOf (after.find? (·.spells exitCode)) := by
  rw [exited_resultOf text hvalid]
  generalize c.config.conditions.getD [] = conditions
  constructor
  · rintro hstate before cond after rfl hbefore hmisspells
    obtain ⟨hdenotes, hspells⟩ := ConfigCondition.misspells_iff.mp hmisspells
    have hfirst : (before ++ cond :: after).find? (·.denotes exitCode) = some cond := by
      refine List.find?_eq_some_iff_append.mpr
        ⟨hdenotes, before, after, rfl, fun other hother => ?_⟩
      rw [hbefore other hother]
      rfl
    rw [find?_spells_append hbefore, List.find?_cons_of_neg (by simp [hspells]), hfirst] at hstate
    exact hstate.symm
  · intro hother
    cases hfirst : conditions.find? (·.denotes exitCode) with
    | none =>
      have hnone := List.find?_eq_none.mp hfirst
      rw [List.find?_eq_none.mpr fun cond hcond hspells =>
        hnone cond hcond (ConfigCondition.denotes_of_spells hspells)]
    | some cond =>
      obtain ⟨hdenotes, before, after, rfl, hno⟩ := List.find?_eq_some_iff_append.mp hfirst
      have hbefore : ∀ other ∈ before, other.denotes exitCode = false := fun other hmem => by
        simpa using hno other hmem
      rw [find?_spells_append hbefore]
      cases hspells : cond.spells exitCode with
      | true => rw [List.find?_cons_of_pos hspells]
      | false =>
        rw [List.find?_cons_of_neg (by simp [hspells])]
        exact (hother before cond after rfl hbefore
          (ConfigCondition.misspells_iff.mpr ⟨hdenotes, hspells⟩)).symm

/-- `df` style checks: 1 is a warning, 2 an error, anything else is OK. -/
def diskParams : CollectorParams where
  id := "disk"
  config :=
    { command := ["check_disk", "/"]
      pollInterval := defaultPollInterval
      pollIntervalWhenUnhealthy := defaultPollIntervalWhenUnhealthy
      timeout := defaultPollIntervalWhenUnhealthy
      conditions := some [{ exitCode := "2", result := .error },
        { exitCode := "1", result := .warning }, { result := .ok }] }

theorem exited_state_warning :
    (runCommand (fun _ => "") diskParams (.exited 1 [])).state = .warning := by
  refine (exited_state (fun _ => "") diskParams (by decide) 1 []).mpr ?_
  intro before cond after hconditions hbefore hmisspells
  have hmem : cond ∈ diskParams.config.conditions.getD [] := by simp [hconditions]
  have hcanonical : ∀ cond ∈ diskParams.config.conditions.getD [], cond.spells 1 = false →
      cond.denotes 1 = false := by decide
  obtain ⟨hdenotes, hspells⟩ := ConfigCondition.misspells_iff.mp hmisspells
  rw [hcanonical cond hmem hspells] at hdenotes
  cases hdenotes

/-- `diskParams` with the warning's code written `01`. -/
def paddedParams : CollectorParams :=
  { diskParams with
    config :=
      { diskParams.config with
        conditions := some [{ exitCode := "01", result := .warning }] } }

/-- The validation reads `01` as 1, but a command that exits with 1 does not match it. -/
theorem padded_exitCode_unmatched :
    validateConfig paddedParams.config = .ok () ∧ atoi "01" = some 1 ∧
      (runCommand (fun _ => "") paddedParams (.exited 1 [])).state = .error := by
  decide

end Exec
end Montray
