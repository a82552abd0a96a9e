import Montray.Client.Runtime

/-!
# Montray.Client.TwoPhase

Snoozes are proposed, written and only then committed.

* `RuntimeInv`: the file and the reducer have the same snoozes, but for a write that succeeded and
  has not been taken yet; and what is proposed differs from the live map in what its action names.
* `snoozed_step`: the live map changes when the result of a successful write is taken, and then
  only.
* `AppState.Alike`: two states that classify and suppress alike, whatever the time.
* `two_phase_snoozes`: the statement about runs.
-/

namespace Montray
namespace Client

open Lib

/-- The keys whose snooze an action sets or removes. -/
def SnoozeAction.concerns (action : SnoozeAction) (key : String) : Bool :=
  match action with
  | .set k _ => k = key
  | .remove k => k = key
  | .expire keys => keys.contains key

/-- The map of a proposal differs from the live one in what the action concerns. -/
def Proposal (live snoozes : KeyMap OffsetDateTime) (action : SnoozeAction) : Prop :=
  ∀ key : String, action.concerns key = false → snoozes[key]? = live[key]?

/-- At most one write is among the effects of an event, and then there is nothing else. -/
def Proposals (live : KeyMap OffsetDateTime) (effects : List Effect) : Prop :=
  (∀ snoozes action, Effect.persistSnoozes snoozes action ∉ effects) ∨
    ∃ snoozes action, effects = [.persistSnoozes snoozes action] ∧ Proposal live snoozes action

theorem Proposals.tail {live : KeyMap OffsetDateTime} {e : Effect} {rest : List Effect}
    (h : Proposals live (e :: rest)) : Proposals live rest := by
  rcases h with h | ⟨snoozes, action, heq, -⟩
  · exact .inl fun snoozes action hmem => h snoozes action (List.mem_cons_of_mem _ hmem)
  · cases heq
    exact .inl (by simp)

theorem Proposals.head {live snoozes : KeyMap OffsetDateTime} {action : SnoozeAction}
    {rest : List Effect} (h : Proposals live (.persistSnoozes snoozes action :: rest)) :
    Proposal live snoozes action ∧ rest = [] := by
  rcases h with h | ⟨snoozes', action', heq, hp⟩
  · exact absurd List.mem_cons_self (h snoozes action)
  · cases heq
    exact ⟨hp, rfl⟩

section Reduce

variable {formatIncidentTime : OffsetDateTime → String} {z : String → OffsetDateTime → Bool}

theorem proposals_of_notify {live : KeyMap OffsetDateTime} {effects : List Effect}
    (h : ∀ e ∈ effects, ∃ title body, e = .notify title body) : Proposals live effects := by
  refine .inl ?_
  intro snoozes action hmem
  obtain ⟨title, body, heq⟩ := h _ hmem
  cases heq

theorem resolvedEffects_notify (removed snoozed : Bool) (key : String) :
    ∀ e ∈ resolvedEffects removed snoozed key, ∃ title body, e = .notify title body := by
  unfold resolvedEffects
  split <;> simp

theorem failed_notify (key : String) (now : OffsetDateTime) (error : String) (snoozed : Bool)
    (o : Option Incident) : ∀ e ∈ (failed formatIncidentTime key now error snoozed o).2.2,
      ∃ title body, e = .notify title body := by
  unfold failed
  repeat' split
  all_goals simp

/-- The effects of a server's events are notifications. -/
theorem step_notify (v : ServerView) (e : Event) :
    ∀ e' ∈ (v.step formatIncidentTime z e).2.effects, ∃ title body, e' = .notify title body := by
  unfold ServerView.step
  split
  · simp
  · cases e <;> simp only [ServerView.stepKnown]
    case connected => exact resolvedEffects_notify _ _ _
    case disconnected =>
      split
      · simp
      · exact failed_notify _ _ _ _ _
    case tunnelReady => exact resolvedEffects_notify _ _ _
    case tunnelFailed => exact failed_notify _ _ _ _ _
    case notification =>
      intro e' he'
      rcases List.mem_append.mp he' with he' | he' <;>
        obtain ⟨item, -, rfl⟩ := List.mem_map.mp he' <;> exact ⟨_, _, rfl⟩
    all_goals simp

/-- The keys a tick at `now` finds expired. -/
theorem mem_expired {snoozed : KeyMap OffsetDateTime} {now : OffsetDateTime} {key : String} :
    key ∈ (snoozed.toList.filter fun p => p.2 ≤ now).map Prod.fst ↔
      ∃ deadline, snoozed[key]? = some deadline ∧ deadline ≤ now := by
  simp only [List.mem_map, List.mem_filter, decide_eq_true_eq, Prod.exists, exists_and_right,
    exists_eq_right, KeyMap.mem_toList]

theorem lookup_unexpired (snoozed : KeyMap OffsetDateTime) (now : OffsetDateTime) (key : String) :
    (snoozed.filter fun _ deadline => deadline > now)[key]? =
      snoozed[key]?.filter fun deadline => deadline > now := by
  simp [Std.ExtTreeMap.getElem?_filter]

theorem proposals_reduce (s : AppState) (e : Event) :
    Proposals s.snoozed (reduce formatIncidentTime s e).2.effects := by
  cases he : e.server? with
  | some id =>
    rw [reduce_server formatIncidentTime he]
    exact proposals_of_notify (step_notify _ e)
  | none =>
    have hnone : Proposals s.snoozed [] := .inl (by simp)
    cases e <;> simp only [Event.server?, reduceCtorEq] at he <;> simp only [reduce]
    case snooze key deadline =>
      split
      · exact hnone
      · refine .inr ⟨_, _, rfl, ?_⟩
        intro k hk
        rw [KeyMap.lookup_insert, if_neg (by simpa [SnoozeAction.concerns] using hk)]
    case unsnooze key =>
      split
      · exact hnone
      · refine .inr ⟨_, _, rfl, ?_⟩
        intro k hk
        rw [KeyMap.lookup_erase, if_neg (by simpa [SnoozeAction.concerns] using hk)]
    case snoozesPersisted => exact hnone
    case forgetStale => exact hnone
    case tick now =>
      split
      · exact hnone
      · refine .inr ⟨_, _, rfl, ?_⟩
        intro k hk
        have hlive : ¬ ∃ deadline, s.snoozed[k]? = some deadline ∧ deadline ≤ now := by
          rw [← mem_expired]
          simpa [SnoozeAction.concerns] using hk
        rw [lookup_unexpired]
        cases hs : s.snoozed[k]? with
        | none => rfl
        | some deadline =>
          have hlate : deadline > now := by
            by_contra hle
            exact hlive ⟨deadline, hs, not_lt.mp hle⟩
          simp [hlate]

end Reduce

/-! ## What the snoozes are for -/

/-- At every instant, the same notifications are suppressed and the incidents of both states are
classified alike. -/
structure AppState.Alike (s s' : AppState) : Prop where
  suppression : ∀ key now, s'.isSnoozed key now = s.isSnoozed key now
  classification : ∀ now, ∀ i ∈ s.allIncidents, i ∈ s'.allIncidents →
    (i ∈ (s'.snapshot now).active ↔ i ∈ (s.snapshot now).active)

section Deadlines

variable {s s' : AppState}

theorem mem_active {i : Incident} {now : OffsetDateTime} :
    i ∈ (s.snapshot now).active ↔ i ∈ s.allIncidents ∧ s.isSnoozed i.key now = false := by
  rw [snapshot_active, List.mem_filter, Bool.not_eq_true']

theorem AppState.Alike.of_snoozed (h : s'.snoozed = s.snoozed) : s.Alike s' := by
  have hsuppression : ∀ key now, s'.isSnoozed key now = s.isSnoozed key now := by
    intro key now
    rw [AppState.isSnoozed, AppState.isSnoozed, AppState.snoozedUntil, AppState.snoozedUntil, h]
  refine ⟨hsuppression, fun now i hi hi' => ?_⟩
  rw [mem_active, mem_active, hsuppression, and_iff_right hi, and_iff_right hi']

/-- A snooze is over when its deadline has come, whether or not its entry is still there. -/
theorem isSnoozed_of_le {key : String} {deadline now : OffsetDateTime}
    (h : s.snoozed[key]? = some deadline) (hnow : deadline ≤ now) :
    s.isSnoozed key now = false := by
  rw [← Bool.not_eq_true, isSnoozed_iff]
  rintro ⟨deadline', hdeadline', hlater⟩
  rw [h, Option.some.injEq] at hdeadline'
  subst hdeadline'
  exact absurd hnow (not_le.mpr hlater)

end Deadlines

/-! ## The loop -/

/-- The snoozes on disk: the live ones, until the result of a successful write is taken. -/
def RuntimePc.onDisk (live : KeyMap OffsetDateTime) : RuntimePc → KeyMap OffsetDateTime
  | .written snoozes _ (.ok _) _ _ _ => snoozes
  | _ => live

def RuntimePc.Proposed (live : KeyMap OffsetDateTime) : RuntimePc → Prop
  | .effects rest _ _ => Proposals live rest
  | .persist snoozes action rest _ _ => Proposal live snoozes action ∧ rest = []
  | .written snoozes action _ rest _ _ => Proposal live snoozes action ∧ rest = []
  | .head => True
  | .stopped => True

section Loop

variable (formatIncidentTime : OffsetDateTime → String) (rfc3339 : Rfc3339) (store : Store)

structure RuntimeInv (s : Runtime) : Prop where
  disk : store.snoozes rfc3339 s.disk = .ok (s.pc.onDisk s.state.snoozed)
  proposed : s.pc.Proposed s.state.snoozed

/-- How one step of the loop treats the snoozes. -/
inductive SnoozeMove (s s' : Runtime) (out : List RuntimeOutput) : Prop where
  /-- The live map, and what is decoded from the file, stay. -/
  | keep (hstate : s'.state.snoozed = s.state.snoozed)
      (hdisk : store.snoozes rfc3339 s'.disk = store.snoozes rfc3339 s.disk)
      (hpc : s'.pc.onDisk s.state.snoozed = s.pc.onDisk s.state.snoozed)
      (hprop : s.pc.Proposed s.state.snoozed → s'.pc.Proposed s.state.snoozed)
  /-- A worker has written its map. -/
  | write (snoozes : KeyMap OffsetDateTime) (action : SnoozeAction) (rest : List Effect)
      (changed refresh : Bool)
      (hpc : s.pc = .persist snoozes action rest changed refresh)
      (hpc' : s'.pc = .written snoozes action (.ok ()) rest changed refresh)
      (hstate : s'.state = s.state) (hdisk : store.snoozes rfc3339 s'.disk = .ok snoozes)
  /-- The loop takes its result. -/
  | commit (snoozes : KeyMap OffsetDateTime) (action : SnoozeAction) (rest : List Effect)
      (changed refresh changed' : Bool)
      (hpc : s.pc = .written snoozes action (.ok ()) rest changed refresh)
      (hpc' : s'.pc = .effects rest changed' refresh)
      (hstate : s'.state.snoozed = snoozes) (hdisk : s'.disk = s.disk)
      (hout : .saved action ∈ out)

variable {formatIncidentTime rfc3339 store} {s s' : Runtime} {out : List RuntimeOutput}

/-- Reducing an event of the loop proposes at most. -/
theorem begin_move {e : Event} (refresh : Bool) (hpc : s.pc = .head)
    (he : ∀ snoozes, e ≠ .snoozesPersisted snoozes) :
    SnoozeMove rfc3339 store s (s.begin formatIncidentTime e refresh) out := by
  have hlive : (reduce formatIncidentTime s.state e).1.snoozed = s.state.snoozed := by
    rw [snoozed_reduce]
    cases e <;> first | rfl | exact absurd rfl (he _)
  refine .keep hlive rfl ?_ fun _ => proposals_reduce s.state e
  rw [hpc]
  rfl

theorem runtimeStep_move {a : RuntimeAction}
    (h : runtimeStep formatIncidentTime rfc3339 store s a = some (s', out)) :
    SnoozeMove rfc3339 store s s' out := by
  obtain ⟨state, disk, retry, pc⟩ := s
  cases a with
  | write writer io =>
    cases pc <;> simp only [runtimeStep] at h <;> cases h <;>
      exact .keep rfl (snoozes_writer store rfc3339 io disk writer) rfl id
  | network e =>
    cases pc <;> simp only [runtimeStep, reduceCtorEq, Option.ite_none_right_eq_some] at h
    obtain ⟨he, h⟩ := h
    cases h
    exact begin_move false rfl (by rintro snoozes rfl; cases he)
  | command command now =>
    cases pc <;> simp only [runtimeStep, reduceCtorEq] at h
    cases h
    exact begin_move false rfl (by cases command <;> simp [commandEvent])
  | tick now =>
    cases pc <;> simp only [runtimeStep, reduceCtorEq] at h
    cases h
    exact begin_move true rfl (by simp)
  | shutdown =>
    cases pc <;> simp only [runtimeStep, reduceCtorEq] at h
    cases h
    exact .keep rfl rfl rfl fun _ => trivial
  | effect now =>
    cases pc with
    | effects rest changed refresh =>
      rcases rest with _ | ⟨⟨title, body⟩ | ⟨snoozes, action⟩, rest⟩
      · simp only [runtimeStep, reduceCtorEq] at h
      · cases h
        exact .keep rfl rfl rfl Proposals.tail
      · simp only [runtimeStep] at h
        split at h <;> cases h
        · exact .keep rfl rfl rfl Proposals.head
        · exact .keep rfl rfl rfl Proposals.tail
    | _ => simp only [runtimeStep, reduceCtorEq] at h
  | work io =>
    cases pc with
    | persist snoozes action rest changed refresh =>
      cases h
      rcases persistSnoozes_cases store rfc3339 io snoozes disk with ⟨chain, hw⟩ | ⟨hok, hdisk⟩
      · exact .keep rfl (by rw [hw]) (by rw [hw]; rfl) id
      · exact .write snoozes action rest changed refresh rfl (by rw [hok]; rfl) rfl hdisk
    | _ => simp only [runtimeStep, reduceCtorEq] at h
  | workerFailed e =>
    cases pc <;> simp only [runtimeStep, reduceCtorEq] at h
    cases h
    exact .keep rfl rfl rfl id
  | resume now instant =>
    cases pc with
    | written snoozes action result rest changed refresh =>
      cases result with
      | ok _ =>
        cases h
        exact .commit snoozes action rest changed refresh _ rfl rfl rfl rfl List.mem_cons_self
      | error details =>
        cases h
        refine .keep rfl rfl rfl ?_
        rintro ⟨-, rfl⟩
        exact .inl (by simp)
    | _ => simp only [runtimeStep, reduceCtorEq] at h
  | publish now =>
    cases pc with
    | effects rest changed refresh =>
      rcases rest with _ | ⟨⟨title, body⟩ | ⟨snoozes, action⟩, rest⟩
      · cases h
        exact .keep rfl rfl rfl fun _ => trivial
      · simp only [runtimeStep, reduceCtorEq] at h
      · simp only [runtimeStep, reduceCtorEq] at h
    | _ => simp only [runtimeStep, reduceCtorEq] at h

theorem RuntimeInv.move (h : RuntimeInv rfc3339 store s)
    (hm : SnoozeMove rfc3339 store s s' out) : RuntimeInv rfc3339 store s' := by
  cases hm with
  | keep hstate hdisk hpc hprop =>
    exact ⟨by rw [hdisk, hstate, hpc]; exact h.disk, by rw [hstate]; exact hprop h.proposed⟩
  | write snoozes action rest changed refresh hpc hpc' hstate hdisk =>
    have hprop := h.proposed
    rw [hpc] at hprop
    exact ⟨by rw [hpc']; exact hdisk, by rw [hpc', hstate]; exact hprop⟩
  | commit snoozes action rest changed refresh changed' hpc hpc' hstate hdisk hout =>
    have hwritten := h.disk
    have hprop := h.proposed
    rw [hpc] at hwritten hprop
    refine ⟨by rw [hdisk, hpc', hstate]; exact hwritten, ?_⟩
    rw [hpc', hprop.2]
    exact .inl (by simp)

/-- The live map changes when the result of a successful write is taken, and then only. -/
theorem SnoozeMove.snoozed (h : RuntimeInv rfc3339 store s)
    (hm : SnoozeMove rfc3339 store s s' out) :
    s'.state.snoozed = s.state.snoozed ∨
      ∃ snoozes action rest changed refresh,
        s.pc = .written snoozes action (.ok ()) rest changed refresh ∧
        s'.state.snoozed = snoozes ∧ store.snoozes rfc3339 s.disk = .ok snoozes := by
  cases hm with
  | keep hstate _ _ _ => exact .inl hstate
  | write _ _ _ _ _ _ _ hstate _ => exact .inl (by rw [hstate])
  | commit snoozes action rest changed refresh _ hpc _ hstate _ _ =>
    have hwritten := h.disk
    rw [hpc] at hwritten
    exact .inr ⟨snoozes, action, rest, changed, refresh, hpc, hstate, hwritten⟩

/-- An entry stays as it is unless a write that concerns it succeeds. -/
theorem SnoozeMove.entry (h : RuntimeInv rfc3339 store s)
    (hm : SnoozeMove rfc3339 store s s' out) {key : String}
    (hsaved : ∀ action, .saved action ∈ out → action.concerns key = false) :
    s'.state.snoozed[key]? = s.state.snoozed[key]? := by
  cases hm with
  | keep hstate _ _ _ => rw [hstate]
  | write _ _ _ _ _ _ _ hstate _ => rw [hstate]
  | commit snoozes action rest changed refresh _ hpc _ hstate _ hout =>
    have hprop := h.proposed
    rw [hpc] at hprop
    rw [hstate]
    exact hprop.1 key (hsaved action hout)

/-- A worker that fails leaves the file and the reducer alone. -/
theorem failed_persist {a : RuntimeAction} {snoozes : KeyMap OffsetDateTime}
    {action : SnoozeAction} {details : String} {rest : List Effect} {changed refresh : Bool}
    (hstep : runtimeStep formatIncidentTime rfc3339 store s a = some (s', out))
    (hpc : s.pc = .persist snoozes action rest changed refresh)
    (hpc' : s'.pc = .written snoozes action (.error details) rest changed refresh) :
    s'.disk = s.disk ∧ s'.state = s.state := by
  obtain ⟨state, disk, retry, pc⟩ := s
  subst hpc
  cases a <;> simp only [runtimeStep, reduceCtorEq] at hstep
  case work io =>
    cases hstep
    rcases persistSnoozes_cases store rfc3339 io snoozes disk with ⟨chain, hw⟩ | ⟨hok, -⟩
    · exact ⟨by rw [hw], rfl⟩
    · rw [hok] at hpc'
      cases hpc'
  case workerFailed e =>
    cases hstep
    exact ⟨rfl, rfl⟩
  case write writer io =>
    cases hstep
    cases hpc'

/-- A tick proposes the removal of every entry whose deadline has come. -/
theorem tick_proposes {key : String} {deadline now : OffsetDateTime} (hpc : s.pc = .head)
    (hlive : s.state.snoozed[key]? = some deadline) (hnow : deadline ≤ now) :
    ∃ s' snoozes keys,
      runtimeStep formatIncidentTime rfc3339 store s (.tick now) = some (s', []) ∧
      s'.pc = .effects [.persistSnoozes snoozes (.expire keys)] false true ∧
      key ∈ keys ∧ snoozes[key]? = none := by
  have hmem := mem_expired.mpr ⟨deadline, hlive, hnow⟩
  refine ⟨s.begin formatIncidentTime (.tick now) true,
    s.state.snoozed.filter fun _ deadline => deadline > now,
    (s.state.snoozed.toList.filter fun p => p.2 ≤ now).map Prod.fst, ?_, ?_, hmem, ?_⟩
  · simp [runtimeStep, hpc]
  · simp only [Runtime.begin, reduce]
    rw [if_neg (List.ne_nil_of_mem hmem)]
  · rw [lookup_unexpired, hlive]
    simp [hnow]

end Loop

/-! ## Runs -/

section Run

variable (formatIncidentTime : OffsetDateTime → String) (rfc3339 : Rfc3339) (store : Store)

/-- Two-phase snoozes. In every run that starts with the snoozes of the file:

* at the head of the loop the live snoozes are those of the file;
* a write that fails changes neither, nor does taking its result;
* a snooze or its removal takes effect on classification and suppression, which read the live
  snoozes and the clock, only when the result of a write that succeeded is taken;
* the end of a snooze takes effect by the clock, as soon as the deadline has come;
* until a write that concerns it succeeds, an entry is proposed for removal by every tick at or
  after its deadline. -/
theorem two_phase_snoozes (serverIds : List String) (snoozes : KeyMap OffsetDateTime) (disk : Disk)
    (hstart : store.snoozes rfc3339 disk = .ok snoozes) :
    let G := runtime formatIncidentTime rfc3339 store serverIds snoozes disk
    ∀ os s, G.Path os s →
      (s.pc = .head → store.snoozes rfc3339 s.disk = .ok s.state.snoozed) ∧
      (∀ a s' out m action details rest changed refresh, G.step s a = some (s', out) →
        s.pc = .persist m action rest changed refresh →
        s'.pc = .written m action (.error details) rest changed refresh →
        s'.disk = s.disk ∧ s'.state = s.state) ∧
      (∀ now instant s' out m action details rest changed refresh,
        s.pc = .written m action (.error details) rest changed refresh →
        G.step s (.resume now instant) = some (s', out) →
        s'.disk = s.disk ∧ s'.state = s.state) ∧
      (∀ a s' out, G.step s a = some (s', out) →
        s'.state.snoozed = s.state.snoozed ∧ s.state.Alike s'.state ∨
        ∃ m action rest changed refresh,
          s.pc = .written m action (.ok ()) rest changed refresh ∧
          s'.state.snoozed = m ∧ store.snoozes rfc3339 s.disk = .ok m) ∧
      (∀ key deadline, s.state.snoozed[key]? = some deadline → ∀ now, deadline ≤ now →
        s.state.isSnoozed key now = false ∧
          ∀ i ∈ s.state.allIncidents, i.key = key → i ∈ (s.state.snapshot now).active) ∧
      (∀ key deadline, s.state.snoozed[key]? = some deadline →
        ∀ os' s', Guarded.Path { G with init := s } os' s' →
        (∀ action, .saved action ∈ os' → action.concerns key = false) → s'.pc = .head →
        ∀ now, deadline ≤ now →
        ∃ s'' m keys, G.step s' (.tick now) = some (s'', []) ∧
          s''.pc = .effects [.persistSnoozes m (.expire keys)] false true ∧
          key ∈ keys ∧ m[key]? = none) := by
  intro G os s hpath
  have hinit : RuntimeInv rfc3339 store G.init := ⟨hstart, .inl (by simp)⟩
  have hinv : RuntimeInv rfc3339 store s :=
    hpath.history (I := fun _ s => RuntimeInv rfc3339 store s) hinit
      fun _ _ _ _ _ h hs => h.move (runtimeStep_move hs)
  refine ⟨?_, ?_, ?_, ?_, ?_, ?_⟩
  · intro hpc
    have hdisk := hinv.disk
    rw [hpc] at hdisk
    exact hdisk
  · intro a s' out m action details rest changed refresh hstep hpc hpc'
    exact failed_persist hstep hpc hpc'
  · intro now instant s' out m action details rest changed refresh hpc hstep
    obtain ⟨state, disk', retry, pc⟩ := s
    cases hpc
    cases hstep
    exact ⟨rfl, rfl⟩
  · intro a s' out hstep
    exact ((runtimeStep_move hstep).snoozed hinv).imp_left fun h => ⟨h, .of_snoozed h⟩
  · intro key deadline hlive now hnow
    have hover := isSnoozed_of_le hlive hnow
    refine ⟨hover, fun i hi hkey => mem_active.mpr ⟨hi, ?_⟩⟩
    rw [hkey, hover]
  · intro key deadline hlive os' s' hpath' hsaved hpc now hnow
    have hentry : RuntimeInv rfc3339 store s' ∧
        ((∀ action, .saved action ∈ os' → action.concerns key = false) →
          s'.state.snoozed[key]? = some deadline) := by
      refine hpath'.history (I := fun os t => RuntimeInv rfc3339 store t ∧
        ((∀ action, .saved action ∈ os → action.concerns key = false) →
          t.state.snoozed[key]? = some deadline)) ⟨hinv, fun _ => hlive⟩ ?_
      rintro os t a t' out ⟨ht, hkeep⟩ hstep
      have hmove := runtimeStep_move hstep
      refine ⟨ht.move hmove, ?_⟩
      intro hout
      rw [hmove.entry ht fun action hmem => hout action (List.mem_append_right _ hmem)]
      exact hkeep fun action hmem => hout action (List.mem_append_left _ hmem)
    exact tick_proposes hpc (hentry.2 hsaved) hnow

/-- RFC 3339 on the instants of the sample. -/
def sampleRfc3339 : Rfc3339 where
  format t := if t = 60 * 10 ^ 9 then .ok "1970-01-01T00:01:00Z" else .error "invalid"
  parse text := if text = "1970-01-01T00:01:00Z" then .ok (60 * 10 ^ 9) else .error "invalid"
  parse_format t text h := by
    split at h
    · rename_i ht
      cases h
      rw [ht]
      rfl
    · cases h

def sampleStore : Store := ⟨"/home/u/.montray-state.json", "/home/u"⟩

/-- A snooze for a minute: the first write fails, the second succeeds. -/
def sampleActions : List RuntimeAction :=
  [.publish 0, .command (.snooze "db.disk" (60 * 10 ^ 9)) 0, .effect 0,
    .work { saveError := some (.sync, "no space left") }, .resume 0 0, .publish 0,
    .command (.snooze "db.disk" (60 * 10 ^ 9)) 0, .effect 1, .work {},
    .write (.preferences true true true false) {}, .resume 1 1, .publish 1]

theorem two_phase_snoozes_sample :
    ∃ os s, (runtime (fun _ => "") sampleRfc3339 sampleStore ["db"] ∅ ⟨none⟩).Path os s ∧
      s.pc = .head ∧ s.state.snoozed["db.disk"]? = some (60 * 10 ^ 9) ∧
      sampleStore.snoozes sampleRfc3339 s.disk = .ok s.state.snoozed := by
  have hstart : sampleStore.snoozes sampleRfc3339 ⟨none⟩ = .ok ∅ := rfl
  have hexec : ∃ r, (runtime (fun _ => "") sampleRfc3339 sampleStore ["db"] ∅ ⟨none⟩).exec
      ([], (runtime (fun _ => "") sampleRfc3339 sampleStore ["db"] ∅ ⟨none⟩).init) sampleActions =
        some r ∧ r.2.pc = .head ∧ r.2.state.snoozed["db.disk"]? = some (60 * 10 ^ 9) :=
    ⟨_, rfl, rfl, rfl⟩
  obtain ⟨⟨os, s⟩, hr, hpc, hlive⟩ := hexec
  have hpath := Guarded.Path.exec .nil hr
  exact ⟨os, s, hpath, hpc, hlive, (two_phase_snoozes (fun _ => "") sampleRfc3339 sampleStore ["db"]
    ∅ ⟨none⟩ hstart os s hpath).1 hpc⟩

/-- The incident `db.disk` is snoozed for a minute; then it is over and its removal fails. -/
def overdueActions : List RuntimeAction :=
  [.publish 0, .network (.notification "db"
      { total := [{ key := "disk", state := .warning, incidentStartedAt := "" }],
        added := [], removed := [], updated := [], numItemsOk := 0 } 0), .publish 0,
    .command (.snooze "db.disk" (60 * 10 ^ 9)) 0, .effect 0, .work {}, .resume 0 0, .publish 0,
    .tick (60 * 10 ^ 9), .effect 1, .work { saveError := some (.sync, "no space left") },
    .resume (60 * 10 ^ 9) 1, .publish (60 * 10 ^ 9)]

theorem overdue_runs : ((runtime (fun _ => "") sampleRfc3339 sampleStore ["db"] ∅ ⟨none⟩).exec
    ([], (runtime (fun _ => "") sampleRfc3339 sampleStore ["db"] ∅ ⟨none⟩).init)
    overdueActions).isSome = true := by
  decide +kernel

/-- No write has removed the snooze, but it has no effect any more. -/
theorem expiry_before_write :
    ∃ os s, (runtime (fun _ => "") sampleRfc3339 sampleStore ["db"] ∅ ⟨none⟩).Path os s ∧
      s.pc = .head ∧ s.state.snoozed["db.disk"]? = some (60 * 10 ^ 9) ∧
      sampleStore.snoozes sampleRfc3339 s.disk = .ok s.state.snoozed ∧
      s.state.isSnoozed "db.disk" (60 * 10 ^ 9) = false ∧
      (s.state.snapshot (60 * 10 ^ 9)).active.map (·.key) = ["db.disk"] :=
  ⟨_, _, Guarded.Path.exec .nil (Option.some_get overdue_runs).symm, by with_unfolding_all rfl,
    by decide +kernel, by with_unfolding_all rfl, by decide +kernel, by decide +kernel⟩

end Run

end Client
end Montray
