import Montray.Client.Reminders
import Montray.Client.Protocol
import Montray.Client.Keys

/-!
# Montray.Client.EventLog

The log records of the loop: `EventLogState::lines` for the events it takes, and
`snooze_success_lines` for the writes of snoozes that it commits.

* `oneLine_logDetails`: the details of an incident are flattened, whatever they are.
* `oneLine_lines`: the records of an event, where its keys stay on one line.
* `LoopKeys.step`: the keys of the snoozes come from the events and from the initial snoozes.
* `log_one_line`: the statement about runs.
-/

namespace Montray
namespace Client

open Lib

/-! ## Texts on one line -/

/-- `char::is_control`: the category `Cc`. -/
def isControl (c : Char) : Bool := c.toNat < 0x20 || 0x7F ≤ c.toNat && c.toNat ≤ 0x9F

/-- The characters that can end a physical line, or do worse to a terminal. -/
def breaksLine (c : Char) : Bool := isControl c || c == '\u2028' || c == '\u2029'

def OneLine (text : String) : Prop := text.toList.all (!breaksLine ·) = true

instance (text : String) : Decidable (OneLine text) := inferInstanceAs (Decidable (_ = true))

theorem oneLine_iff {text : String} : OneLine text ↔ ∀ c ∈ text.toList, breaksLine c = false := by
  simp [OneLine]

@[simp] theorem oneLine_append {s t : String} : OneLine (s ++ t) ↔ OneLine s ∧ OneLine t := by
  simp only [OneLine, String.toList_append, List.all_append, Bool.and_eq_true]

theorem breaksLine_of_printable {c : Char} (hle : 0x20 ≤ c.toNat) (hlt : c.toNat < 0x7F) :
    breaksLine c = false := by
  have hcontrol : isControl c = false := by
    simp only [isControl, Bool.or_eq_false_iff, Bool.and_eq_false_iff, decide_eq_false_iff_not]
    omega
  have hne : ∀ d : Char, 0x7F ≤ d.toNat → (c == d) = false := by
    intro d hd
    rw [beq_eq_false_iff_ne]
    rintro rfl
    omega
  rw [breaksLine, hcontrol, hne '\u2028' (by decide), hne '\u2029' (by decide)]
  rfl

theorem breaksLine_digit {c : Char} (h : c.isDigit = true) : breaksLine c = false := by
  obtain ⟨hle, hlt⟩ := Char.isDigit_iff_toNat.mp h
  exact breaksLine_of_printable (le_trans (by decide) hle) (lt_of_le_of_lt hlt (by decide))

theorem oneLine_nat (n : Nat) : OneLine (toString n) := by
  rw [oneLine_iff]
  intro c hc
  rw [Nat.toString_eq_ofList_toDigits, String.toList_ofList] at hc
  exact breaksLine_digit (Nat.isDigit_of_mem_toDigits (by decide) (by decide) hc)

theorem oneLine_int (n : Int) : OneLine (toString n) := by
  cases n with
  | ofNat m => exact oneLine_nat m
  | negSucc m =>
    have htext : toString (Int.negSucc m) = "-" ++ toString (m + 1) := rfl
    rw [htext, oneLine_append]
    exact ⟨by decide, oneLine_nat _⟩

theorem breaksLine_serverIdChar {c : Char} (h : isServerIdChar c = true) :
    breaksLine c = false := by
  simp only [isServerIdChar, Char.isAlphanum, Char.isAlpha, Char.isUpper, Char.isLower,
    Bool.or_eq_true, Bool.and_eq_true, decide_eq_true_iff, beq_iff_eq, ge_iff_le,
    UInt32.le_iff_toNat_le] at h
  rcases h with ((((⟨hle, hlt⟩ | ⟨hle, hlt⟩) | hdigit) | rfl) | rfl)
  · exact breaksLine_of_printable (le_trans (by decide) hle) (lt_of_le_of_lt hlt (by decide))
  · exact breaksLine_of_printable (le_trans (by decide) hle) (lt_of_le_of_lt hlt (by decide))
  · exact breaksLine_digit hdigit
  · decide
  · decide

theorem oneLine_serverId {id : String} (h : validateServerId id = .ok ()) : OneLine id := by
  rw [oneLine_iff]
  intro c hc
  unfold validateServerId at h
  split at h
  · cases h
  · split at h
    · cases h
    · rename_i hchars
      exact breaksLine_serverIdChar (List.all_eq_true.mp (not_not.mp hchars) c hc)

/-! ## Records -/

inductive LogLevel where
  | info
  | debug
  deriving DecidableEq, Repr

structure EventLogLine where
  level : LogLevel
  message : String
  deriving DecidableEq, Repr

def info (message : String) : EventLogLine := ⟨.info, message⟩

structure EventLogState where
  awaitingSnapshot : Finset String := ∅
  synchronized : Finset String := ∅
  deriving DecidableEq

def maxLogDetailsChars : Nat := 1000

def logDetails (details : String) : String :=
  let flattened := details.toList.map fun c => if breaksLine c then ' ' else c
  String.ofList (flattened.take maxLogDetailsChars ++
    if maxLogDetailsChars < flattened.length then ['…'] else [])

def incidentLine (serverId action : String) (incident : Incident) : String :=
  let line := "server " ++ serverId ++ " " ++ action ++ " incident " ++ incident.key ++ " (" ++
    stateName incident.state ++ ")"
  if incident.details = "" then line else line ++ ": " ++ logDetails incident.details

def EventLogState.lines (logs : EventLogState) : Event → EventLogState × List EventLogLine
  | .connected serverId _ =>
    ({ logs with awaitingSnapshot := insert serverId logs.awaitingSnapshot }, [])
  | .notification serverId data _ =>
    let initial := serverId ∈ logs.awaitingSnapshot ∨ serverId ∉ logs.synchronized
    ({ awaitingSnapshot := logs.awaitingSnapshot.erase serverId
       synchronized := insert serverId logs.synchronized },
      if initial then
        info ("server " ++ serverId ++ " synchronized: " ++ toString data.total.length ++
            " ongoing incidents") ::
          data.total.map fun incident => info (incidentLine serverId "ongoing" incident)
      else
        info ("server " ++ serverId ++ " incident update: " ++ toString data.added.length ++
            " added, " ++ toString data.updated.length ++ " updated, " ++
            toString data.removed.length ++ " resolved; " ++ toString data.total.length ++
            " ongoing incidents") ::
          (data.added.map fun incident => info (incidentLine serverId "added" incident)) ++
          (data.updated.map fun incident => info (incidentLine serverId "updated" incident)) ++
          data.removed.map fun incident =>
            info ("server " ++ serverId ++ " resolved incident " ++ incident.key))
  | .heartbeat serverId _ => (logs, [⟨.debug, "server " ++ serverId ++ " received heartbeat"⟩])
  | .forgetStale key => (logs, [info ("forgot stale incident " ++ key)])
  | _ => (logs, [])

/-- `OffsetDateTime::unix_timestamp`: whole seconds, rounded down. -/
def unixTimestamp (t : OffsetDateTime) : Int := t / 10 ^ 9

def snoozeSuccessLines : SnoozeAction → List EventLogLine
  | .set key deadline =>
    [info ("snoozed incident " ++ key ++ " until " ++ toString (unixTimestamp deadline))]
  | .remove key => [info ("unsnoozed incident " ++ key)]
  | .expire keys => keys.map fun key => info ("snooze expired for incident " ++ key)

/-- The event log along the events of the loop. -/
def eventLog : Mealy EventLogState Event (List EventLogLine) where
  init := {}
  step := EventLogState.lines

theorem oneLine_logDetails (details : String) : OneLine (logDetails details) := by
  rw [oneLine_iff, logDetails, String.toList_ofList]
  intro c hc
  rcases List.mem_append.mp hc with hc | hc
  · obtain ⟨d, -, rfl⟩ := List.mem_map.mp (List.mem_of_mem_take hc)
    split
    · decide
    · rename_i hd
      simpa using hd
  · split at hc
    · rw [List.mem_singleton.mp hc]
      decide
    · cases hc

/-- The keys that an event carries. -/
def Event.keys : Event → List String
  | .notification _ data _ =>
    (data.total ++ data.added ++ data.removed ++ data.updated).map (·.key)
  | .snooze key _ => [key]
  | .unsnooze key => [key]
  | .forgetStale key => [key]
  | _ => []

theorem oneLine_incidentLine {serverId action : String} {incident : Incident}
    (hid : OneLine serverId) (haction : OneLine action) (hkey : OneLine incident.key) :
    OneLine (incidentLine serverId action incident) := by
  have hstate : OneLine (stateName incident.state) := by
    cases incident.state <;> decide
  have hline : OneLine ("server " ++ serverId ++ " " ++ action ++ " incident " ++ incident.key ++
      " (" ++ stateName incident.state ++ ")") := by
    simp only [oneLine_append, hid, haction, hkey, hstate, and_true]
    decide
  unfold incidentLine
  split
  · exact hline
  · rw [oneLine_append, oneLine_append]
    exact ⟨⟨hline, by decide⟩, oneLine_logDetails _⟩

theorem oneLine_lines (logs : EventLogState) {e : Event}
    (hid : ∀ id, e.server? = some id → OneLine id) (hkeys : ∀ key ∈ e.keys, OneLine key) :
    ∀ line ∈ (logs.lines e).2, OneLine line.message := by
  intro line hline
  cases e with
  | notification id data t =>
    have hid := hid id rfl
    have mem_keys : ∀ {i : Incident}, i ∈ data.total ++ data.added ++ data.removed ++ data.updated →
        i.key ∈ (Event.notification id data t).keys := List.mem_map_of_mem
    have hincident : ∀ {incidents : List Incident} {action : String}, OneLine action →
        (∀ i ∈ incidents, i.key ∈ (Event.notification id data t).keys) →
        line ∈ incidents.map (fun i => info (incidentLine id action i)) →
        OneLine line.message := by
      intro incidents action haction hmem hline
      obtain ⟨i, hi, rfl⟩ := List.mem_map.mp hline
      exact oneLine_incidentLine hid haction (hkeys _ (hmem i hi))
    simp only [EventLogState.lines] at hline
    split at hline
    · rcases List.mem_cons.mp hline with rfl | hline
      · simp only [info, oneLine_append, hid, oneLine_nat, and_true]
        decide
      · exact hincident (by decide) (fun i hi => mem_keys (by simp [hi])) hline
    · rw [List.mem_append, List.mem_append, List.mem_cons] at hline
      rcases hline with (((rfl | hline) | hline) | hline)
      · simp only [info, oneLine_append, hid, oneLine_nat, and_true]
        decide
      · exact hincident (by decide) (fun i hi => mem_keys (by simp [hi])) hline
      · exact hincident (by decide) (fun i hi => mem_keys (by simp [hi])) hline
      · obtain ⟨i, hi, rfl⟩ := List.mem_map.mp hline
        have hkey : OneLine i.key := hkeys _ (mem_keys (by simp [hi]))
        simp only [info, oneLine_append, hid, hkey, and_true]
        decide
  | heartbeat id t =>
    obtain rfl := List.mem_singleton.mp hline
    simp only [oneLine_append, hid id rfl, and_true]
    decide
  | forgetStale key =>
    obtain rfl := List.mem_singleton.mp hline
    simp only [info, oneLine_append, hkeys key List.mem_cons_self, and_true]
    decide
  | _ => cases hline

theorem oneLine_snoozeSuccessLines {action : SnoozeAction}
    (h : ∀ key, action.concerns key = true → OneLine key) :
    ∀ line ∈ snoozeSuccessLines action, OneLine line.message := by
  intro line hline
  cases action with
  | set key deadline =>
    obtain rfl := List.mem_singleton.mp hline
    simp only [info, oneLine_append, h key (by simp [SnoozeAction.concerns]), oneLine_int, and_true]
    decide
  | remove key =>
    obtain rfl := List.mem_singleton.mp hline
    simp only [info, oneLine_append, h key (by simp [SnoozeAction.concerns]), and_true]
    decide
  | expire keys =>
    obtain ⟨key, hkey, rfl⟩ := List.mem_map.mp hline
    simp only [info, oneLine_append, h key (by simpa [SnoozeAction.concerns] using hkey), and_true]
    decide

/-! ## Where the keys of the snoozes come from -/

/-- The map and the action of a write name only keys with the property. -/
def Effect.Named (P : String → Prop) : Effect → Prop
  | .notify _ _ => True
  | .persistSnoozes snoozes action => ∀ key, key ∈ snoozes ∨ action.concerns key = true → P key

/-- The effects that the loop has not finished with. -/
def RuntimePc.pending : RuntimePc → List Effect
  | .effects rest _ _ => rest
  | .persist snoozes action rest _ _ => .persistSnoozes snoozes action :: rest
  | .written snoozes action _ rest _ _ => .persistSnoozes snoozes action :: rest
  | _ => []

structure LoopKeys (P : String → Prop) (s : Runtime) : Prop where
  live : ∀ key ∈ s.state.snoozed, P key
  pending : ∀ e ∈ s.pc.pending, e.Named P

section Loop

variable {formatIncidentTime : OffsetDateTime → String} {P : String → Prop}

/-- A proposal concerns keys that are snoozed, and keys of the event. -/
theorem reduce_concerns {s : AppState} {e : Event} {snoozes : KeyMap OffsetDateTime}
    {action : SnoozeAction}
    (h : .persistSnoozes snoozes action ∈ (reduce formatIncidentTime s e).2.effects) {key : String}
    (hkey : action.concerns key = true) : key ∈ s.snoozed ∨ key ∈ e.keys := by
  cases he : e.server? with
  | some id =>
    rw [reduce_server formatIncidentTime he] at h
    obtain ⟨title, body, heq⟩ := step_notify _ e _ h
    cases heq
  | none =>
    cases e <;> simp only [Event.server?, reduceCtorEq] at he <;> simp only [reduce] at h
    case snooze k deadline =>
      split at h
      · cases h
      · cases List.mem_singleton.mp h
        exact .inr (by simpa [SnoozeAction.concerns, Event.keys, eq_comm] using hkey)
    case unsnooze k =>
      split at h
      · cases h
      · cases List.mem_singleton.mp h
        exact .inr (by simpa [SnoozeAction.concerns, Event.keys, eq_comm] using hkey)
    case snoozesPersisted => cases h
    case forgetStale => cases h
    case tick now =>
      split at h
      · cases h
      · cases List.mem_singleton.mp h
        obtain ⟨deadline, hlive, -⟩ := mem_expired.mp (List.contains_iff_mem.mp hkey)
        exact .inl (KeyMap.mem_iff_lookup.mpr ⟨deadline, hlive⟩)

theorem reduce_named {s : AppState} {e : Event} (hlive : ∀ key ∈ s.snoozed, P key)
    (hkeys : ∀ key ∈ e.keys, P key) :
    ∀ effect ∈ (reduce formatIncidentTime s e).2.effects, effect.Named P := by
  intro effect hmem
  cases effect with
  | notify title body => trivial
  | persistSnoozes snoozes action =>
    intro key hkey
    have hconcerned : action.concerns key = true → P key := fun hkey =>
      (reduce_concerns hmem hkey).elim (hlive key) (hkeys key)
    cases hc : action.concerns key with
    | true => exact hconcerned hc
    | false =>
      rcases proposals_reduce s e with hnone | ⟨snoozes', action', heq, hproposal⟩
      · exact absurd hmem (hnone snoozes action)
      · rw [heq] at hmem
        cases List.mem_singleton.mp hmem
        have hin := hkey.resolve_right (by simp [hc])
        rw [KeyMap.mem_iff_lookup, hproposal key hc, ← KeyMap.mem_iff_lookup] at hin
        exact hlive key hin

variable {s s' : Runtime} {a : RuntimeAction} {out : List RuntimeOutput}

/-- A step that leaves the reducer alone and finds no new effects. -/
theorem LoopKeys.quiet (h : LoopKeys P s) (hstate : s'.state = s.state)
    (hpc : s'.pc.pending ⊆ s.pc.pending) : LoopKeys P s' :=
  ⟨by rw [hstate]; exact h.live, fun e he => h.pending e (hpc he)⟩

theorem LoopKeys.step (h : LoopKeys P s) (hs : LoopStep formatIncidentTime s a s' out)
    (hkeys : ∀ e, a.event? = some e → ∀ key ∈ e.keys, P key) : LoopKeys P s' := by
  cases hs with
  | aside ha hstate hpc hout => exact h.quiet hstate (by rw [hpc]; exact List.Subset.refl _)
  | start e refresh ha he hpc hs' hout =>
    subst hs'
    refine ⟨?_, reduce_named h.live (hkeys e ha)⟩
    have hlive : (reduce formatIncidentTime s.state e).1.snoozed = s.state.snoozed := by
      rw [snoozed_reduce]
      cases e <;> first | rfl | exact absurd rfl (he _)
    intro key hkey
    exact h.live key (hlive ▸ hkey)
  | stop ha hstate hpc hout => exact h.quiet hstate (by rw [hpc]; exact List.nil_subset _)
  | announce title body rest changed refresh ha hpc hstate hpc' hout =>
    exact h.quiet hstate (by rw [hpc, hpc']; exact List.subset_cons_self _ _)
  | propose snoozes action rest changed refresh ha hpc hstate hpc' hout =>
    exact h.quiet hstate (by rw [hpc, hpc']; exact List.Subset.refl _)
  | postpone snoozes action rest changed refresh ha hpc hstate hpc' hout =>
    exact h.quiet hstate (by rw [hpc, hpc']; exact List.subset_cons_self _ _)
  | work snoozes action result rest changed refresh ha hpc hstate hpc' hout =>
    exact h.quiet hstate (by rw [hpc, hpc']; exact List.Subset.refl _)
  | commit snoozes action rest changed refresh now ha hpc hs' =>
    cases hs'
    have hpending := h.pending
    rw [hpc] at hpending
    exact ⟨fun key hkey => hpending _ List.mem_cons_self key (.inl hkey),
      fun e he => hpending e (List.mem_cons_of_mem _ he)⟩
  | refuse snoozes action details rest changed refresh instant ha hpc hs' =>
    cases hs'
    exact h.quiet rfl (by rw [hpc]; exact List.subset_cons_self _ _)
  | publish now changed refresh ha hpc hstate hpc' hout =>
    exact h.quiet hstate (by rw [hpc']; exact List.nil_subset _)

theorem LoopKeys.committed (h : LoopKeys P s) {action : SnoozeAction} {now : OffsetDateTime}
    (hc : Commits formatIncidentTime s s' out action now) :
    ∀ key, action.concerns key = true → P key := by
  obtain ⟨snoozes, rest, changed, refresh, hpc, -⟩ := hc.snoozed
  have hpending := h.pending
  rw [hpc] at hpending
  exact fun key hkey => hpending _ List.mem_cons_self key (.inr hkey)

end Loop

/-! ## Runs -/

/-- The log records of a run: those of its events, and those of its committed writes. -/
def logLines (rs : List LoopRecord) : List EventLogLine :=
  (eventLog.outputs (rs.filterMap (·.action.event?))).flatten ++
    (commits rs).flatMap snoozeSuccessLines

section Runs

variable {formatIncidentTime : OffsetDateTime → String} {rfc3339 : Rfc3339} {store : Store}
  {serverIds : List String} {snoozes : KeyMap OffsetDateTime} {disk : Disk} {P : String → Prop}
  {rs : List LoopRecord} {s : Runtime}

theorem loopKeys_run (hsnoozes : ∀ key ∈ snoozes, P key)
    (h : (runtime formatIncidentTime rfc3339 store serverIds snoozes disk).recorded.Path rs s)
    (hkeys : ∀ r ∈ rs, ∀ e, r.action.event? = some e → ∀ key ∈ e.keys, P key) : LoopKeys P s := by
  revert hkeys
  refine h.history
    (I := fun rs s => (∀ r ∈ rs, ∀ e, r.action.event? = some e → ∀ key ∈ e.keys, P key) →
      LoopKeys P s) (fun _ => ⟨hsnoozes, by simp [Guarded.recorded, runtime, RuntimePc.pending]⟩) ?_
  intro rs s a s' out hinv hstep hkeys
  obtain ⟨os, hs, rfl⟩ := Guarded.recorded_step hstep
  have hbefore := hinv fun r hr => hkeys r (List.mem_append_left _ hr)
  exact hbefore.step (runtimeStep_cases hs) (hkeys _ (List.mem_append_right _ List.mem_cons_self))

/-- The keys of the committed writes. -/
theorem commits_named (hsnoozes : ∀ key ∈ snoozes, P key)
    (h : (runtime formatIncidentTime rfc3339 store serverIds snoozes disk).recorded.Path rs s)
    (hkeys : ∀ r ∈ rs, ∀ e, r.action.event? = some e → ∀ key ∈ e.keys, P key) :
    ∀ action ∈ commits rs, ∀ key, action.concerns key = true → P key := by
  intro action hmem
  obtain ⟨r, hr, hsaved⟩ := List.mem_flatMap.mp hmem
  obtain ⟨l, l', hsplit⟩ := List.append_of_mem hr
  obtain ⟨hpath, s', hstep⟩ := h.record hsplit
  have hbefore : LoopKeys P r.state := loopKeys_run hsnoozes hpath fun x hx =>
    hkeys x (by rw [hsplit]; exact List.mem_append_left _ hx)
  rcases (loopInv_run hpath).commits_or_quiet (runtimeStep_cases hstep) with
    ⟨action', now, hc⟩ | ⟨hquiet, -⟩
  · rw [hc.saved] at hsaved
    obtain rfl := List.mem_singleton.mp hsaved
    exact hbefore.committed hc
  · rw [hquiet] at hsaved
    cases hsaved

/-- **No forged records.** Where the keys of the incidents stay on one line, every log record does:
in every run of the loop, from snoozes whose keys do, with events of servers whose ids are
validated, whatever the details of the incidents are. -/
theorem log_one_line (formatIncidentTime : OffsetDateTime → String) (rfc3339 : Rfc3339)
    (store : Store) (serverIds : List String) (snoozes : KeyMap OffsetDateTime) (disk : Disk)
    (hsnoozes : ∀ key ∈ snoozes, OneLine key) (rs : List LoopRecord) (s : Runtime)
    (h : (runtime formatIncidentTime rfc3339 store serverIds snoozes disk).recorded.Path rs s)
    (hids : ∀ r ∈ rs, ∀ e, r.action.event? = some e →
      ∀ id, e.server? = some id → validateServerId id = .ok ())
    (hkeys : ∀ r ∈ rs, ∀ e, r.action.event? = some e → ∀ key ∈ e.keys, OneLine key) :
    ∀ line ∈ logLines rs, OneLine line.message := by
  intro line hline
  rcases List.mem_append.mp hline with hline | hline
  · obtain ⟨lines, hlines, hline⟩ := List.mem_flatten.mp hline
    obtain ⟨logs, e, he, rfl⟩ := Mealy.mem_outputs _ hlines
    obtain ⟨r, hr, he⟩ := List.mem_filterMap.mp he
    exact oneLine_lines logs (fun id hid => oneLine_serverId (hids r hr e he id hid))
      (hkeys r hr e he) line hline
  · obtain ⟨action, haction, hline⟩ := List.mem_flatMap.mp hline
    exact oneLine_snoozeSuccessLines (commits_named hsnoozes h hkeys action haction) line hline

end Runs

/-- An incident with two lines of details is shown and then snoozed. -/
def logActions : List RuntimeAction :=
  [.publish 0,
    .network (.notification "db"
      { total := [{ key := "disk", state := .error, details := "full\nsee df",
                    incidentStartedAt := "" }],
        added := [], removed := [], updated := [], numItemsOk := 0 } 0), .publish 0,
    .command (.snooze "db.disk" (60 * 10 ^ 9)) 0, .effect 0, .work {}, .resume 0 0]

theorem log_one_line_details :
    ∃ rs s, (runtime (fun _ => "") sampleRfc3339 sampleStore ["db"] ∅ ⟨none⟩).recorded.Path rs s ∧
      (logLines rs).map (·.message) = ["server db synchronized: 1 ongoing incidents",
        "server db ongoing incident disk (error): full see df",
        "snoozed incident db.disk until 60"] ∧
      ∀ line ∈ logLines rs, OneLine line.message := by
  obtain ⟨rs, s, hpath, hp⟩ := Guarded.exists_path
    (G := (runtime (fun _ => "") sampleRfc3339 sampleStore ["db"] ∅ ⟨none⟩).recorded)
    (a := logActions)
    (p := fun r =>
      r.1.all (fun x => x.action.event?.all fun e =>
        e.server?.all (· == "db") && e.keys.all fun key => OneLine key) &&
      (logLines r.1).map (·.message) == ["server db synchronized: 1 ongoing incidents",
        "server db ongoing incident disk (error): full see df",
        "snoozed incident db.disk until 60"]) (by decide +kernel)
  rw [Bool.and_eq_true, beq_iff_eq, List.all_eq_true] at hp
  have hrecord : ∀ r ∈ rs, ∀ e, r.action.event? = some e →
      (∀ id, e.server? = some id → id = "db") ∧ ∀ key ∈ e.keys, OneLine key := by
    intro r hr e he
    have hr := hp.1 r hr
    rw [he, Option.all_some, Bool.and_eq_true, List.all_eq_true] at hr
    refine ⟨fun id hid => ?_, fun key hkey => of_decide_eq_true (hr.2 key hkey)⟩
    rw [hid] at hr
    exact beq_iff_eq.mp hr.1
  refine ⟨rs, s, hpath, hp.2, ?_⟩
  refine log_one_line (fun _ => "") sampleRfc3339 sampleStore ["db"] ∅ ⟨none⟩ (by simp) rs s hpath
    ?_ fun r hr e he => (hrecord r hr e he).2
  intro r hr e he id hid
  rw [(hrecord r hr e he).1 id hid]
  rfl

/-- A notification in which the key of an incident has two lines. -/
def forgedText : String :=
  "\x7b\"event\":\"OngoingIncidentsSnapshot\"," ++
    "\"data\":\x7b\"ongoingIncidents\":\x7b\"total\":[\x7b\"key\":\"disk\\nserver db " ++
    "received heartbeat\",\"state\":\"ok\"," ++
    "\"incidentStartedAt\":\"0001-01-01T00:00:00Z\"\x7d]\x7d\x7d\x7d"

def forgedMessage : Json :=
  .obj [("event", .str "OngoingIncidentsSnapshot"), ("data", .obj [("ongoingIncidents", .obj [
    ("total", .arr [.obj [("key", .str "disk\nserver db received heartbeat"), ("state", .str "ok"),
      ("incidentStartedAt", .str "0001-01-01T00:00:00Z")]])])])]

def forgedData : NotificationData where
  total := [⟨"disk\nserver db received heartbeat", .ok, "", "0001-01-01T00:00:00Z", false⟩]
  added := []
  removed := []
  updated := []
  numItemsOk := 0

/-- The decoder accepts the key, and the record that names it has two lines. -/
theorem log_forged :
    Protocol.decodeTextMessage (Protocol.parseTexts [(forgedText, forgedMessage)]) (fun _ => "")
        Protocol.wireRfc3339 forgedText = .ok (some forgedData) ∧
      validateServerId "db" = .ok () ∧
      ∃ line ∈ (({} : EventLogState).lines (.notification "db" forgedData 0)).2,
        ¬ OneLine line.message := by
  refine ⟨?_, rfl, _, List.mem_cons_of_mem _ List.mem_cons_self, by decide⟩
  rw [Protocol.decodeTextMessage, Protocol.readEnvelope, Protocol.parseTexts_head]
  rfl

end Client
end Montray
