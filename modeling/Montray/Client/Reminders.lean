import Montray.Lib.Sequences
import Montray.Client.Snapshot

/-!
# Montray.Client.Reminders

What a snooze keeps quiet, and the reminder when it ends.

Suppression is the reducer's, reminders are the loop's. `LoopInv` ties both to the records of the
run: the live deadline of a key is what the committed writes left of it, and what is still to be
announced or written is due to the last event.

* `LoopInv.step`: kept by every step.
* `LoopInv.reminders`, `LoopInv.origin`: when a step emits a reminder, and for which snooze.
* `snooze_reminders`: the statement about runs.
-/

namespace Montray
namespace Client

open Lib

/-! ## Titles -/

/-- What stands before the key in the title of an incident's notification. -/
def incidentTitles : List String := ["OK: ", "ok: ", "warning: ", "error: "]

def reminderTitle : String := "Snooze ended: "

def titles : List String := incidentTitles ++ [reminderTitle, "Failed to "]

/-- The first character tells the titles apart. -/
theorem titles_inj {p q a b : String} (hp : p ∈ titles) (hq : q ∈ titles) (h : p ++ a = q ++ b) :
    p = q ∧ a = b := by
  have hlen : ∀ p ∈ titles, 1 ≤ p.toList.length := by decide
  have htake : ∀ p ∈ titles, ∀ q ∈ titles, p ≠ q → p.toList.take 1 ≠ q.toList.take 1 := by decide
  by_cases hpq : p = q
  · subst hpq
    exact ⟨rfl, (String.append_right_inj p).mp h⟩
  · exact absurd h
      (append_ne_append (hlen p hp) (hlen q hq) (htake p hp q hq hpq) a b)

theorem incidentTitles_subset {p : String} (h : p ∈ incidentTitles) : p ∈ titles :=
  List.mem_append_left _ h

theorem incidentTitle_ne {p q a b : String} (hp : p ∈ incidentTitles)
    (hq : q ∈ [reminderTitle, "Failed to "]) : p ++ a ≠ q ++ b := by
  intro h
  obtain ⟨rfl, -⟩ := titles_inj (incidentTitles_subset hp) (List.mem_append_right _ hq) h
  have hdisjoint : ∀ p ∈ incidentTitles, p ∉ [reminderTitle, "Failed to "] := by decide
  exact hdisjoint p hp hq

theorem stateName_title (state : IncidentState) : stateName state ++ ": " ∈ incidentTitles := by
  cases state <;> decide

theorem failure_title {action : SnoozeAction} {details title body : String}
    (h : (title, body) ∈ snoozeFailureNotification action details) :
    ∃ tail, title = "Failed to " ++ tail := by
  cases action with
  | set key deadline =>
    cases h
    exact ⟨"snooze incident " ++ key, by rw [← String.append_assoc]; rfl⟩
  | remove key =>
    cases h
    exact ⟨"unsnooze incident " ++ key, by rw [← String.append_assoc]; rfl⟩
  | expire keys => cases h

theorem expiry_title {action : SnoozeAction} {state : AppState} {now : OffsetDateTime}
    {title body : String} (h : (title, body) ∈ snoozeExpiryNotifications action state now) :
    ∃ tail, title = reminderTitle ++ tail := by
  cases action with
  | expire keys =>
    obtain ⟨key, -, hkey⟩ := List.mem_filterMap.mp h
    obtain ⟨i, -, heq⟩ := Option.map_eq_some_iff.mp hkey
    cases heq
    exact ⟨i.key, rfl⟩
  | _ => cases h

/-! ## Events -/

/-- The time that an event carries. -/
def Event.at? : Event → Option OffsetDateTime
  | .connected _ now => some now
  | .disconnected _ now _ => some now
  | .tunnelReady _ now => some now
  | .tunnelFailed _ now _ => some now
  | .heartbeat _ now => some now
  | .notification _ _ now => some now
  | .tick now => some now
  | _ => none

/-- A notification of an incident whose key is not snoozed. -/
def Audible (snoozed : String → Bool) (e : Effect) : Prop :=
  ∃ p ∈ incidentTitles, ∃ key body, e = .notify (p ++ key) body ∧ snoozed key = false

section Step

variable {formatIncidentTime : OffsetDateTime → String} {z : String → OffsetDateTime → Bool}

theorem resolvedEffects_audible {removed : Bool} {key : String} {now : OffsetDateTime} :
    ∀ e ∈ resolvedEffects removed (z key now) key, Audible (z · now) e := by
  intro e he
  unfold resolvedEffects at he
  split at he
  · rename_i h
    obtain rfl := List.mem_singleton.mp he
    exact ⟨"OK: ", by decide, key, "", rfl, by simpa using (Bool.and_eq_true_iff.mp h).2⟩
  · cases he

theorem failed_audible {key error : String} {now : OffsetDateTime} {o : Option Incident} :
    ∀ e ∈ (failed formatIncidentTime key now error (z key now) o).2.2, Audible (z · now) e := by
  intro e he
  unfold failed at he
  split at he
  · split at he <;> cases he
  · dsimp only at he
    split at he
    · cases he
    · rename_i h
      obtain rfl := List.mem_singleton.mp he
      exact ⟨"error: ", by decide, key, error, rfl, by simpa using h⟩

theorem notifyEffects_audible {snoozed : String → Bool} {id : String} {data : NotificationData} :
    ∀ e ∈ notifyEffects snoozed id data, Audible snoozed e := by
  intro e he
  rcases List.mem_append.mp he with he | he
  · obtain ⟨item, hitem, rfl⟩ := List.mem_map.mp he
    exact ⟨_, stateName_title item.state, item.key, _, rfl,
      by simpa using (List.mem_filter.mp hitem).2⟩
  · obtain ⟨item, hitem, rfl⟩ := List.mem_map.mp he
    exact ⟨"OK: ", by decide, item.key, _, rfl, by simpa using (List.mem_filter.mp hitem).2⟩

/-- An event announces nothing that is snoozed at its time. -/
theorem step_audible (v : ServerView) {e : Event} {t : OffsetDateTime} (ht : e.at? = some t) :
    ∀ e' ∈ (v.step formatIncidentTime z e).2.effects, Audible (z · t) e' := by
  unfold ServerView.step
  split
  · simp
  · cases e <;> simp only [Event.at?, Option.some.injEq, reduceCtorEq] at ht <;> subst ht <;>
      simp only [ServerView.stepKnown]
    case connected => exact resolvedEffects_audible
    case disconnected =>
      split
      · simp
      · exact failed_audible
    case tunnelReady => exact resolvedEffects_audible
    case tunnelFailed => exact failed_audible
    case notification => exact notifyEffects_audible
    all_goals simp

theorem at?_of_server {e : Event} {id : String} (he : e.server? = some id) :
    ∃ t, e.at? = some t := by
  cases e <;> first | exact ⟨_, rfl⟩ | cases he

end Step

/-! ## What is due -/

/-- What a committed action leaves of the deadline of a key. -/
def SnoozeAction.apply (action : SnoozeAction) (key : String) (old : Option OffsetDateTime) :
    Option OffsetDateTime :=
  match action with
  | .set k deadline => if k = key then some deadline else old
  | .remove k => if k = key then none else old
  | .expire keys => if key ∈ keys then none else old

/-- The state that an event found, and the event. -/
abbrev Origin := AppState × Event

/-- The origin does not need the notification kept quiet. -/
def Announced (origin : Option Origin) (e : Effect) : Prop :=
  ∃ s event t, origin = some (s, event) ∧ event.at? = some t ∧ Audible (s.isSnoozed · t) e

structure ProposedBy (live : KeyMap OffsetDateTime) (origin : Option Origin)
    (snoozes : KeyMap OffsetDateTime) (action : SnoozeAction) : Prop where
  lookup : ∀ key : String, snoozes[key]? = action.apply key live[key]?
  expired : ∀ keys, action = .expire keys → keys.Nodup ∧
    ∃ s t, origin = some (s, .tick t) ∧ ∀ key ∈ keys, ∃ deadline, live[key]? = some deadline ∧
      deadline ≤ t

inductive EffectsDue (live : KeyMap OffsetDateTime) (origin : Option Origin) :
    List Effect → Prop where
  | announce {effects : List Effect} (h : ∀ e ∈ effects, Announced origin e) :
      EffectsDue live origin effects
  | propose (snoozes : KeyMap OffsetDateTime) (action : SnoozeAction)
      (h : ProposedBy live origin snoozes action) :
      EffectsDue live origin [.persistSnoozes snoozes action]

section Due

variable {live : KeyMap OffsetDateTime} {origin : Option Origin}

theorem effectsDue_nil : EffectsDue live origin [] := .announce (by simp)

theorem Announced.notify {e : Effect} (h : Announced origin e) :
    ∃ title body, e = .notify title body := by
  obtain ⟨_, _, _, -, -, p, -, key, body, rfl, -⟩ := h
  exact ⟨_, _, rfl⟩

theorem EffectsDue.head_announced {title body : String} {rest : List Effect}
    (h : EffectsDue live origin (.notify title body :: rest)) :
    Announced origin (.notify title body) ∧ EffectsDue live origin rest := by
  cases h with
  | announce h =>
    exact ⟨h _ List.mem_cons_self, .announce fun e he => h e (List.mem_cons_of_mem _ he)⟩

theorem EffectsDue.head_proposed {snoozes : KeyMap OffsetDateTime} {action : SnoozeAction}
    {rest : List Effect} (h : EffectsDue live origin (.persistSnoozes snoozes action :: rest)) :
    ProposedBy live origin snoozes action ∧ rest = [] := by
  cases h with
  | announce h =>
    obtain ⟨_, _, heq⟩ := (h _ List.mem_cons_self).notify
    cases heq
  | propose _ _ h => exact ⟨h, rfl⟩

theorem effectsDue_reduce {formatIncidentTime : OffsetDateTime → String} (s : AppState)
    {e : Event} (hnot : ∀ snoozes, e ≠ .snoozesPersisted snoozes) :
    EffectsDue s.snoozed (some (s, e)) (reduce formatIncidentTime s e).2.effects := by
  cases he : e.server? with
  | some id =>
    rw [reduce_server formatIncidentTime he]
    obtain ⟨t, ht⟩ := at?_of_server he
    exact .announce fun e' he' => ⟨s, e, t, rfl, ht, step_audible (s.view id) ht e' he'⟩
  | none =>
    cases e <;> simp only [Event.server?, reduceCtorEq] at he <;> simp only [reduce]
    case snooze key deadline =>
      split
      · exact effectsDue_nil
      · refine .propose _ _ ⟨fun k => KeyMap.lookup_insert _ _ _ _, ?_⟩
        intro keys hkeys
        cases hkeys
    case unsnooze key =>
      split
      · exact effectsDue_nil
      · refine .propose _ _ ⟨fun k => KeyMap.lookup_erase _ _ _, ?_⟩
        intro keys hkeys
        cases hkeys
    case snoozesPersisted snoozes => exact absurd rfl (hnot snoozes)
    case forgetStale key => exact effectsDue_nil
    case tick now =>
      split
      · exact effectsDue_nil
      · refine .propose _ _ ⟨fun k => ?_, ?_⟩
        · rw [lookup_unexpired]
          simp only [SnoozeAction.apply]
          cases hs : s.snoozed[k]? with
          | none => simp
          | some deadline =>
            by_cases hle : deadline ≤ now
            · rw [if_pos (mem_expired.mpr ⟨deadline, hs, hle⟩)]
              simp [hle]
            · rw [if_neg]
              · simpa using hle
              · rw [mem_expired]
                rintro ⟨d, hd, hdle⟩
                rw [hs] at hd
                cases hd
                exact hle hdle
        · rintro keys hkeys
          cases hkeys
          refine ⟨?_, s, now, rfl, fun key hkey => mem_expired.mp hkey⟩
          exact (s.snoozed.nodup_toList_keys).sublist (List.filter_sublist.map _)

end Due

/-! ## Records of a run -/

abbrev LoopRecord := Guarded.Record Runtime RuntimeAction RuntimeOutput

/-- The last event of a run, with the state that it found. -/
def lastEvent (rs : List LoopRecord) : Option Origin :=
  (rs.filterMap fun r => r.action.event?.map fun e => (r.state.state, e)).getLast?

def savedActions (out : List RuntimeOutput) : List SnoozeAction :=
  out.filterMap fun
    | .saved action => some action
    | _ => none

/-- The successful writes of a run, in order. -/
def commits (rs : List LoopRecord) : List SnoozeAction :=
  rs.flatMap fun r => savedActions r.outputs

/-- What the successful writes of a run leave of the deadline of a key. -/
def committed (key : String) (initial : Option OffsetDateTime) (rs : List LoopRecord) :
    Option OffsetDateTime :=
  (commits rs).foldl (fun deadline action => action.apply key deadline) initial

/-- How many reminders for the key are among the outputs. -/
def reminders (key : String) (out : List RuntimeOutput) : ℕ :=
  out.countP fun
    | .notify title _ => title = reminderTitle ++ key
    | _ => false

section Records

variable {rs : List LoopRecord} {s : Runtime} {a : RuntimeAction} {out : List RuntimeOutput}

theorem lastEvent_quiet (ha : a.event? = none) :
    lastEvent (rs ++ [⟨s, a, out⟩]) = lastEvent rs := by
  simp [lastEvent, ha]

theorem lastEvent_event {e : Event} (ha : a.event? = some e) :
    lastEvent (rs ++ [⟨s, a, out⟩]) = some (s.state, e) := by
  simp [lastEvent, ha]

theorem committed_snoc (key : String) (initial : Option OffsetDateTime) :
    committed key initial (rs ++ [⟨s, a, out⟩]) =
      (savedActions out).foldl (fun deadline action => action.apply key deadline)
        (committed key initial rs) := by
  simp [committed, commits]

theorem committed_quiet {key : String} {initial : Option OffsetDateTime}
    (hout : savedActions out = []) :
    committed key initial (rs ++ [⟨s, a, out⟩]) = committed key initial rs := by
  rw [committed_snoc, hout, List.foldl_nil]

theorem savedActions_notify (l : List (String × String)) :
    savedActions (l.map fun p => .notify p.1 p.2) = [] := by
  simp [savedActions, List.filterMap_map]

theorem savedActions_saved (action : SnoozeAction) (l : List (String × String)) :
    savedActions (.saved action :: l.map fun p => .notify p.1 p.2) = [action] :=
  congrArg (action :: ·) (savedActions_notify l)

theorem savedActions_publish (b : Bool) (u : UiSnapshot) :
    savedActions (if b then [.publish u] else []) = [] := by
  cases b <;> rfl

end Records

/-! ## The invariant -/

/-- What the loop still has to do is due. -/
def RuntimePc.Due (live : KeyMap OffsetDateTime) (origin : Option Origin) : RuntimePc → Prop
  | .effects rest _ _ => EffectsDue live origin rest
  | .persist snoozes action rest _ _ => ProposedBy live origin snoozes action ∧ rest = []
  | .written snoozes action _ rest _ _ => ProposedBy live origin snoozes action ∧ rest = []
  | .head => True
  | .stopped => True

structure LoopInv (initial : KeyMap OffsetDateTime) (rs : List LoopRecord) (s : Runtime) :
    Prop where
  live : ∀ key : String, s.state.snoozed[key]? = committed key initial[key]? rs
  due : s.pc.Due s.state.snoozed (lastEvent rs)

section Loop

variable {formatIncidentTime : OffsetDateTime → String} {initial : KeyMap OffsetDateTime}
  {rs : List LoopRecord} {s s' : Runtime} {a : RuntimeAction} {out : List RuntimeOutput}

/-- A step that leaves the reducer alone and commits nothing. -/
theorem LoopInv.quiet (h : LoopInv initial rs s) (ha : a.event? = none)
    (hstate : s'.state = s.state) (hout : savedActions out = [])
    (hdue : s'.pc.Due s.state.snoozed (lastEvent rs)) :
    LoopInv initial (rs ++ [⟨s, a, out⟩]) s' := by
  refine ⟨fun key => ?_, ?_⟩
  · rw [hstate, committed_quiet hout]
    exact h.live key
  · rw [hstate, lastEvent_quiet ha]
    exact hdue

theorem LoopInv.step (h : LoopInv initial rs s) (hs : LoopStep formatIncidentTime s a s' out) :
    LoopInv initial (rs ++ [⟨s, a, out⟩]) s' := by
  have hdue := h.due
  cases hs with
  | aside ha hstate hpc hout =>
    subst hout
    exact h.quiet ha hstate rfl (by rw [hpc]; exact hdue)
  | start e refresh ha he hpc hs' hout =>
    subst hs' hout
    have hlive : (reduce formatIncidentTime s.state e).1.snoozed = s.state.snoozed := by
      rw [snoozed_reduce]
      cases e <;> first | rfl | exact absurd rfl (he _)
    refine ⟨fun key => ?_, ?_⟩
    · rw [committed_quiet rfl]
      exact (congrArg (·[key]?) hlive).trans (h.live key)
    · rw [lastEvent_event ha]
      show EffectsDue (reduce formatIncidentTime s.state e).1.snoozed _ _
      rw [hlive]
      exact effectsDue_reduce s.state he
  | stop ha hstate hpc hout =>
    subst hout
    exact h.quiet ha hstate rfl (by rw [hpc]; trivial)
  | announce title body rest changed refresh ha hpc hstate hpc' hout =>
    subst hout
    rw [hpc] at hdue
    exact h.quiet ha hstate rfl (by rw [hpc']; exact hdue.head_announced.2)
  | propose snoozes action rest changed refresh ha hpc hstate hpc' hout =>
    subst hout
    rw [hpc] at hdue
    exact h.quiet ha hstate rfl (by rw [hpc']; exact hdue.head_proposed)
  | postpone snoozes action rest changed refresh ha hpc hstate hpc' hout =>
    subst hout
    rw [hpc] at hdue
    refine h.quiet ha hstate rfl ?_
    rw [hpc', hdue.head_proposed.2]
    exact effectsDue_nil
  | work snoozes action result rest changed refresh ha hpc hstate hpc' hout =>
    subst hout
    rw [hpc] at hdue
    exact h.quiet ha hstate rfl (by rw [hpc']; exact hdue)
  | commit snoozes action rest changed refresh now ha hpc hs' =>
    cases hs'
    rw [hpc] at hdue
    obtain ⟨hproposed, rfl⟩ := hdue
    refine ⟨fun key => ?_, effectsDue_nil⟩
    rw [committed_snoc, ← h.live key, savedActions_saved]
    exact hproposed.lookup key
  | refuse snoozes action details rest changed refresh instant ha hpc hs' =>
    cases hs'
    rw [hpc] at hdue
    obtain ⟨-, rfl⟩ := hdue
    exact h.quiet ha rfl (savedActions_notify _) effectsDue_nil
  | publish now changed refresh ha hpc hstate hpc' hout =>
    subst hout
    exact h.quiet ha hstate (savedActions_publish _ _) (by rw [hpc']; trivial)

/-! ## Notifications of a step -/

theorem mem_savedActions {action : SnoozeAction} :
    action ∈ savedActions out ↔ .saved action ∈ out := by
  simp only [savedActions, List.mem_filterMap]
  constructor
  · rintro ⟨o, ho, heq⟩
    cases o <;> cases heq
    exact ho
  · intro ho
    exact ⟨_, ho, rfl⟩

/-- A title that no reminder has. -/
theorem reminders_other {title key : String} (h : title ≠ reminderTitle ++ key) (body : String) :
    reminders key [.notify title body] = 0 := by
  simp [reminders, h]

theorem reminders_refused (key : String) (action : SnoozeAction) (details : String) :
    reminders key ((snoozeFailureNotification action details).toList.map
      fun p => .notify p.1 p.2) = 0 := by
  cases hf : snoozeFailureNotification action details with
  | none => rfl
  | some p =>
    have hmem : (p.1, p.2) ∈ snoozeFailureNotification action details := by rw [hf]; rfl
    obtain ⟨tail, htitle⟩ := failure_title hmem
    simp only [Option.toList_some, List.map_cons, List.map_nil, htitle]
    refine reminders_other ?_ p.2
    intro heq
    exact absurd (titles_inj (by decide) (by decide) heq).1 (by decide)

/-- An expiry reminds of every key that has an active incident. -/
theorem reminders_expiry (keys : List String) (hnd : keys.Nodup) (state : AppState)
    (now : OffsetDateTime) (key : String) :
    reminders key ((snoozeExpiryNotifications (.expire keys) state now).map
        fun p => .notify p.1 p.2) =
      if key ∈ keys ∧ ∃ i ∈ (state.snapshot now).active, i.key = key then 1 else 0 := by
  generalize hactive : (state.snapshot now).active = active
  have hpred : ∀ k, (((active.find? fun i => i.key = k).map fun i =>
      (reminderTitle ++ i.key, i.details)).map fun p => decide (p.1 = reminderTitle ++ key)).getD
        false = (decide (k = key) && decide (∃ i ∈ active, i.key = key)) := by
    intro k
    cases hf : active.find? fun i => i.key = k with
    | none =>
      have hno := List.find?_eq_none.mp hf
      by_cases hk : k = key
      · subst hk
        simpa using hno
      · simp [hk]
    | some i =>
      have hkey : i.key = k := by simpa using List.find?_some hf
      have hmem := List.mem_of_find?_eq_some hf
      subst hkey
      by_cases hk : i.key = key
      · simp only [Option.map_some, Option.getD_some, hk, decide_true, Bool.true_and]
        exact (decide_eq_true ⟨i, hmem, hk⟩).symm
      · simp [hk, String.append_right_inj]
  have hcount : reminders key ((snoozeExpiryNotifications (.expire keys) state now).map
      fun p => .notify p.1 p.2) =
        keys.countP fun k => decide (k = key) && decide (∃ i ∈ active, i.key = key) := by
    simp only [reminders, snoozeExpiryNotifications, hactive, List.countP_map,
      List.countP_filterMap]
    exact List.countP_congr fun k _ => by rw [← hpred k]; rfl
  rw [hcount]
  by_cases hi : ∃ i ∈ active, i.key = key
  · simp only [hi, decide_true, Bool.and_true, and_true]
    exact hnd.count
  · simp [hi]

/-- The step takes the result of a successful write. -/
structure Commits (formatIncidentTime : OffsetDateTime → String) (s s' : Runtime)
    (out : List RuntimeOutput) (action : SnoozeAction) (now : OffsetDateTime) : Prop where
  snoozed : ∃ snoozes rest changed refresh,
    s.pc = .written snoozes action (.ok ()) rest changed refresh ∧
    s'.state = { s.state with snoozed := snoozes }
  out : out = .saved action ::
    (snoozeExpiryNotifications action s'.state now).map fun p => .notify p.1 p.2

/-- A step that takes no such result neither saves nor reminds. -/
theorem LoopInv.commits_or_quiet (h : LoopInv initial rs s)
    (hs : LoopStep formatIncidentTime s a s' out) :
    (∃ action now, Commits formatIncidentTime s s' out action now) ∨
      savedActions out = [] ∧ ∀ key, Client.reminders key out = 0 := by
  have hdue := h.due
  cases hs with
  | aside _ _ _ hout => exact .inr (by subst hout; exact ⟨rfl, fun _ => rfl⟩)
  | start _ _ _ _ _ _ hout => exact .inr (by subst hout; exact ⟨rfl, fun _ => rfl⟩)
  | stop _ _ _ hout => exact .inr (by subst hout; exact ⟨rfl, fun _ => rfl⟩)
  | announce title body rest changed refresh ha hpc hstate hpc' hout =>
    subst hout
    rw [hpc] at hdue
    obtain ⟨_, _, _, -, -, p, hp, tail, _, heq, -⟩ := hdue.head_announced.1
    cases heq
    exact .inr ⟨rfl, fun key => reminders_other (incidentTitle_ne hp (by decide)) _⟩
  | propose _ _ _ _ _ _ _ _ _ hout => exact .inr (by subst hout; exact ⟨rfl, fun _ => rfl⟩)
  | postpone _ _ _ _ _ _ _ _ _ hout => exact .inr (by subst hout; exact ⟨rfl, fun _ => rfl⟩)
  | work _ _ _ _ _ _ _ _ _ _ hout => exact .inr (by subst hout; exact ⟨rfl, fun _ => rfl⟩)
  | commit snoozes action rest changed refresh now ha hpc hs' =>
    cases hs'
    exact .inl ⟨action, now, ⟨snoozes, rest, changed, refresh, hpc, rfl⟩, rfl⟩
  | refuse snoozes action details rest changed refresh instant ha hpc hs' =>
    cases hs'
    exact .inr ⟨savedActions_notify _, fun key => reminders_refused key action details⟩
  | publish now changed refresh ha hpc hstate hpc' hout =>
    subst hout
    refine .inr ⟨savedActions_publish _ _, fun key => ?_⟩
    cases changed || refresh <;> rfl

theorem Commits.saved {action : SnoozeAction} {now : OffsetDateTime}
    (hc : Commits formatIncidentTime s s' out action now) : savedActions out = [action] := by
  rw [hc.out, savedActions_saved]

theorem LoopInv.proposed (h : LoopInv initial rs s) {action : SnoozeAction} {now : OffsetDateTime}
    (hc : Commits formatIncidentTime s s' out action now) :
    ProposedBy s.state.snoozed (lastEvent rs) s'.state.snoozed action := by
  obtain ⟨snoozes, rest, changed, refresh, hpc, hstate⟩ := hc.snoozed
  have hdue := h.due
  rw [hpc] at hdue
  rw [hstate]
  exact hdue.1

/-- Once its entry is gone, every incident with the key is active. -/
theorem active_of_expired {state : AppState} {key : String} (hnone : state.snoozed[key]? = none)
    (now : OffsetDateTime) :
    (∃ i ∈ (state.snapshot now).active, i.key = key) ↔ ∃ i ∈ state.allIncidents, i.key = key := by
  rw [snapshot_active]
  constructor
  · rintro ⟨i, hi, hkey⟩
    exact ⟨i, List.mem_of_mem_filter hi, hkey⟩
  · rintro ⟨i, hi, rfl⟩
    refine ⟨i, List.mem_filter.mpr ⟨hi, ?_⟩, rfl⟩
    simp [AppState.isSnoozed, AppState.snoozedUntil, hnone]

/-- An expired key of which some incident is still there. -/
def Ongoing (key : String) (out : List RuntimeOutput) (state : AppState) : Prop :=
  ∃ keys, .saved (.expire keys) ∈ out ∧ key ∈ keys ∧ ∃ i ∈ state.allIncidents, i.key = key

/-- A step reminds of the keys whose expiry it commits and that have an incident, once each. -/
theorem LoopInv.reminders (h : LoopInv initial rs s) (hs : LoopStep formatIncidentTime s a s' out)
    (key : String) :
    (Ongoing key out s'.state → Client.reminders key out = 1) ∧
      (¬ Ongoing key out s'.state → Client.reminders key out = 0) := by
  rcases h.commits_or_quiet hs with ⟨action, now, hc⟩ | ⟨hsaved, hquiet⟩
  · have hongoing : Ongoing key out s'.state ↔
        ∃ keys, action = .expire keys ∧ key ∈ keys ∧ ∃ i ∈ s'.state.allIncidents, i.key = key := by
      simp only [Ongoing, ← mem_savedActions, hc.saved, List.mem_singleton, @eq_comm _ _ action]
    have hcount : Client.reminders key out = Client.reminders key
        ((snoozeExpiryNotifications action s'.state now).map fun p => .notify p.1 p.2) := by
      rw [hc.out]
      rfl
    have hproposed := h.proposed hc
    rw [hongoing, hcount]
    cases action with
    | set k deadline =>
      refine ⟨?_, fun _ => rfl⟩
      rintro ⟨keys, heq, -⟩
      cases heq
    | remove k =>
      refine ⟨?_, fun _ => rfl⟩
      rintro ⟨keys, heq, -⟩
      cases heq
    | expire keys =>
      have hcond : (∃ keys', SnoozeAction.expire keys = .expire keys' ∧ key ∈ keys' ∧
          ∃ i ∈ s'.state.allIncidents, i.key = key) ↔
          key ∈ keys ∧ ∃ i ∈ (s'.state.snapshot now).active, i.key = key := by
        constructor
        · rintro ⟨_, heq, hmem, hi⟩
          cases heq
          have hgone := hproposed.lookup key
          rw [SnoozeAction.apply, if_pos hmem] at hgone
          exact ⟨hmem, (active_of_expired hgone now).mpr hi⟩
        · rintro ⟨hmem, i, hi, hkey⟩
          rw [snapshot_active] at hi
          exact ⟨keys, rfl, hmem, i, List.mem_of_mem_filter hi, hkey⟩
      rw [hcond, reminders_expiry keys (hproposed.expired keys rfl).1]
      exact ⟨fun hyes => if_pos hyes, fun hno => if_neg hno⟩
  · refine ⟨?_, fun _ => hquiet key⟩
    rintro ⟨keys, hmem, -⟩
    rw [← mem_savedActions, hsaved] at hmem
    cases hmem

/-- A reminder is for the snooze that was committed last, after its deadline. -/
theorem LoopInv.origin (h : LoopInv initial rs s) (hs : LoopStep formatIncidentTime s a s' out)
    {key : String} (hr : 0 < Client.reminders key out) :
    ∃ keys s₀ t deadline, savedActions out = [.expire keys] ∧ key ∈ keys ∧
      lastEvent rs = some (s₀, .tick t) ∧ committed key initial[key]? rs = some deadline ∧
      deadline ≤ t := by
  have hongoing : Ongoing key out s'.state := by
    by_contra hno
    rw [(h.reminders hs key).2 hno] at hr
    exact absurd hr (lt_irrefl 0)
  obtain ⟨keys, hmem, hkey, -⟩ := hongoing
  rw [← mem_savedActions] at hmem
  rcases h.commits_or_quiet hs with ⟨action, now, hc⟩ | ⟨hsaved, -⟩
  · rw [hc.saved, List.mem_singleton] at hmem
    subst hmem
    obtain ⟨-, s₀, t, hlast, hexpired⟩ := (h.proposed hc).expired keys rfl
    obtain ⟨deadline, hlive, hle⟩ := hexpired key hkey
    exact ⟨keys, s₀, t, deadline, hc.saved, hkey, hlast, (h.live key).symm.trans hlive, hle⟩
  · rw [hsaved] at hmem
    cases hmem

/-- No step announces an incident whose key was snoozed when the event came. -/
theorem LoopInv.suppressed (h : LoopInv initial rs s) (hs : LoopStep formatIncidentTime s a s' out)
    {title body p key : String} (hmem : .notify title body ∈ out) (hp : p ∈ incidentTitles)
    (htitle : title = p ++ key) :
    ∃ s₀ e t, lastEvent rs = some (s₀, e) ∧ e.at? = some t ∧ s₀.isSnoozed key t = false := by
  have hdue := h.due
  cases hs with
  | announce title' body' rest changed refresh ha hpc hstate hpc' hout =>
    subst hout
    cases List.mem_singleton.mp hmem
    rw [hpc] at hdue
    obtain ⟨s₀, e, t, hlast, ht, q, hq, key', _, heq, hquiet⟩ := hdue.head_announced.1
    cases heq
    obtain ⟨-, rfl⟩ :=
      titles_inj (incidentTitles_subset hp) (incidentTitles_subset hq) htitle.symm
    exact ⟨s₀, e, t, hlast, ht, hquiet⟩
  | commit snoozes action rest changed refresh now ha hpc hs' =>
    cases hs'
    rcases List.mem_cons.mp hmem with heq | hmem
    · cases heq
    · obtain ⟨⟨title', body'⟩, hexpiry, heq⟩ := List.mem_map.mp hmem
      cases heq
      obtain ⟨tail, htail⟩ := expiry_title hexpiry
      exact absurd (htitle.symm.trans htail) (incidentTitle_ne hp (by decide))
  | refuse snoozes action details rest changed refresh instant ha hpc hs' =>
    cases hs'
    obtain ⟨⟨title', body'⟩, hfail, heq⟩ := List.mem_map.mp hmem
    cases heq
    obtain ⟨tail, htail⟩ := failure_title (Option.mem_toList.mp hfail)
    exact absurd (htitle.symm.trans htail) (incidentTitle_ne hp (by decide))
  | publish now changed refresh ha hpc hstate hpc' hout =>
    subst hout
    split at hmem <;> simp at hmem
  | aside _ _ _ hout => subst hout; cases hmem
  | start _ _ _ _ _ _ hout => subst hout; cases hmem
  | stop _ _ _ hout => subst hout; cases hmem
  | propose _ _ _ _ _ _ _ _ _ hout => subst hout; cases hmem
  | postpone _ _ _ _ _ _ _ _ _ hout => subst hout; cases hmem
  | work _ _ _ _ _ _ _ _ _ _ hout => subst hout; cases hmem

end Loop

/-! ## The life of a snooze -/

def SnoozeAction.sets (action : SnoozeAction) (key : String) : Bool :=
  match action with
  | .set k _ => k = key
  | _ => false

/-- What follows a committed snooze of the key, until the key is snoozed again. -/
def life (key : String) (after : List LoopRecord) : List LoopRecord :=
  after.takeWhile fun r => !(savedActions r.outputs).any fun action => action.sets key

/-- The first successful write that concerns the key. -/
def firstCommit (key : String) (rs : List LoopRecord) : Option SnoozeAction :=
  (commits rs).find? fun action => action.concerns key

section Life

variable {key : String}

theorem apply_of_not_set {action : SnoozeAction} (h : action.sets key = false)
    (old : Option OffsetDateTime) :
    action.apply key old = if action.concerns key then none else old := by
  cases action with
  | set k deadline =>
    have hk : k ≠ key := by simpa [SnoozeAction.sets] using h
    simp [SnoozeAction.apply, SnoozeAction.concerns, hk]
  | remove k => simp [SnoozeAction.apply, SnoozeAction.concerns]
  | expire keys => simp [SnoozeAction.apply, SnoozeAction.concerns]

/-- Without another snooze, the first write that concerns the key ends its snooze. -/
theorem foldl_apply_of_not_set {actions : List SnoozeAction}
    (h : ∀ action ∈ actions, action.sets key = false) (old : Option OffsetDateTime) :
    actions.foldl (fun deadline action => action.apply key deadline) old =
      if actions.any (fun action => action.concerns key) then none else old := by
  induction actions generalizing old with
  | nil => rfl
  | cons action actions ih =>
    rw [List.foldl_cons, ih fun b hb => h b (List.mem_cons_of_mem _ hb),
      apply_of_not_set (h action List.mem_cons_self), List.any_cons]
    cases action.concerns key <;> simp

theorem commits_append (l r : List LoopRecord) : commits (l ++ r) = commits l ++ commits r :=
  List.flatMap_append

theorem life_split {rs before after xs ys : List LoopRecord} {r x : LoopRecord}
    (hrs : rs = before ++ r :: after) (hlife : life key after = xs ++ x :: ys) :
    ∃ zs, after = xs ++ x :: zs ∧ rs = (before ++ r :: xs) ++ x :: zs := by
  obtain ⟨zs, hafter⟩ : life key after <+: after := List.takeWhile_prefix _
  rw [hlife, List.append_assoc, List.cons_append] at hafter
  exact ⟨ys ++ zs, hafter.symm, by rw [hrs, ← hafter, List.append_assoc, List.cons_append]⟩

theorem mem_life {after : List LoopRecord} {r : LoopRecord} (h : r ∈ life key after) :
    ∀ action ∈ savedActions r.outputs, action.sets key = false := by
  have hr := List.mem_takeWhile_imp h
  simpa using hr

end Life

section Run

variable {formatIncidentTime : OffsetDateTime → String} {rfc3339 : Rfc3339} {store : Store}
  {serverIds : List String} {snoozes : KeyMap OffsetDateTime} {disk : Disk}

theorem loopInv_run {rs : List LoopRecord} {s : Runtime}
    (h : (runtime formatIncidentTime rfc3339 store serverIds snoozes disk).recorded.Path rs s) :
    LoopInv snoozes rs s := by
  have hinit : LoopInv snoozes []
      (runtime formatIncidentTime rfc3339 store serverIds snoozes disk).recorded.init :=
    ⟨fun key => rfl, effectsDue_nil⟩
  refine h.history (I := LoopInv snoozes) hinit ?_
  intro rs s a s' out hinv hstep
  obtain ⟨os, hs, rfl⟩ := Guarded.recorded_step hstep
  exact hinv.step (runtimeStep_cases hs)

/-- A reminder in the life of a snooze: until it comes, no write concerns the key. -/
theorem life_reminder {rs before after xs ys : List LoopRecord} {r x : LoopRecord} {s : Runtime}
    {key : String}
    (h : (runtime formatIncidentTime rfc3339 store serverIds snoozes disk).recorded.Path rs s)
    (hrs : rs = before ++ r :: after) (hlife : life key after = xs ++ x :: ys)
    (hx : 0 < reminders key x.outputs) :
    (∀ action ∈ commits xs, action.concerns key = false) ∧
      ∃ keys, savedActions x.outputs = [.expire keys] ∧ key ∈ keys := by
  obtain ⟨zs, -, hsplit⟩ := life_split hrs hlife
  obtain ⟨hpath, s', hstep⟩ := h.record hsplit
  obtain ⟨keys, -, -, deadline, hsaved, hkey, -, hcommitted, -⟩ :=
    (loopInv_run hpath).origin (runtimeStep_cases hstep) hx
  refine ⟨?_, keys, hsaved, hkey⟩
  have hnot : ∀ action ∈ commits xs, action.sets key = false := by
    intro action haction
    obtain ⟨y, hy, haction⟩ := List.mem_flatMap.mp haction
    exact mem_life (by rw [hlife]; exact List.mem_append_left _ hy) action haction
  rw [committed, List.append_cons, commits_append, List.foldl_append,
    foldl_apply_of_not_set hnot] at hcommitted
  split at hcommitted
  · cases hcommitted
  · rename_i hno
    simpa using hno

end Run

/-- **Suppression and reminders.** In every run of the loop, for every step of it:

* an incident's notification is announced only if its key was not snoozed, at the time of the event
  and by the snoozes then committed;
* a step reminds of the expired keys that still have an incident, once each, if it commits an
  expiry, and of no other key;
* a reminder is for the snooze that was committed last, and comes of a tick after its deadline.

And after a committed snooze of a key, until the key is snoozed again, there is one reminder for it
at most, and none unless the first write that concerns the key is its expiry. -/
theorem snooze_reminders (formatIncidentTime : OffsetDateTime → String) (rfc3339 : Rfc3339)
    (store : Store) (serverIds : List String) (snoozes : KeyMap OffsetDateTime) (disk : Disk) :
    let G := runtime formatIncidentTime rfc3339 store serverIds snoozes disk
    ∀ rs s, G.recorded.Path rs s →
      (∀ a s' out, G.step s a = some (s', out) →
        (∀ title body, .notify title body ∈ out → ∀ p ∈ incidentTitles, ∀ key, title = p ++ key →
          ∃ s₀ e t, lastEvent rs = some (s₀, e) ∧ e.at? = some t ∧ s₀.isSnoozed key t = false) ∧
        ∀ key,
          (Ongoing key out s'.state → reminders key out = 1) ∧
          (¬ Ongoing key out s'.state → reminders key out = 0) ∧
          (0 < reminders key out → ∃ s₀ t deadline, lastEvent rs = some (s₀, .tick t) ∧
            committed key snoozes[key]? rs = some deadline ∧ deadline ≤ t)) ∧
      ∀ before r after key deadline, rs = before ++ r :: after →
        .saved (.set key deadline) ∈ r.outputs →
        ((life key after).map fun r => reminders key r.outputs).sum ≤ 1 ∧
        ((∀ keys, firstCommit key after ≠ some (.expire keys)) →
          ∀ r' ∈ life key after, reminders key r'.outputs = 0) := by
  intro G rs s hpath
  refine ⟨?_, ?_⟩
  · intro a s' out hstep
    have hinv := loopInv_run hpath
    have hs := runtimeStep_cases hstep
    refine ⟨fun title body hmem p hp key htitle => hinv.suppressed hs hmem hp htitle,
      fun key => ⟨(hinv.reminders hs key).1, (hinv.reminders hs key).2, ?_⟩⟩
    intro hr
    obtain ⟨keys, s₀, t, deadline, -, -, hlast, hcommitted, hle⟩ := hinv.origin hs hr
    exact ⟨s₀, t, deadline, hlast, hcommitted, hle⟩
  · intro before r after key deadline hrs _
    refine ⟨sum_le_one ?_ ?_, ?_⟩
    · intro x hx
      obtain ⟨xs, ys, hlife⟩ := List.append_of_mem hx
      obtain ⟨zs, -, hsplit⟩ := life_split hrs hlife
      obtain ⟨hpath', s', hstep⟩ := hpath.record hsplit
      have hr := (loopInv_run hpath').reminders (runtimeStep_cases hstep) key
      by_cases hongoing : Ongoing key x.outputs s'.state
      · exact (hr.1 hongoing).le
      · exact (hr.2 hongoing).le.trans zero_le_one
    · intro xs x ys hlife hx y hy
      obtain ⟨hquiet, -⟩ := life_reminder hpath hrs hlife hx
      by_contra hpos
      obtain ⟨us, vs, rfl⟩ := List.append_of_mem hy
      -- Another reminder before this one would have come of an expiry of the key.
      obtain ⟨-, keys, hsaved, hkey⟩ := life_reminder hpath hrs
        (by rw [hlife, List.append_assoc, List.cons_append]) (Nat.pos_of_ne_zero hpos)
      have hconcerns := hquiet (.expire keys)
        (List.mem_flatMap.mpr ⟨y, hy, by rw [hsaved]; exact List.mem_singleton_self _⟩)
      simp [SnoozeAction.concerns, hkey] at hconcerns
    · intro hfirst x hx
      obtain ⟨xs, ys, hlife⟩ := List.append_of_mem hx
      by_contra hpos
      obtain ⟨hquiet, keys, hsaved, hkey⟩ :=
        life_reminder hpath hrs hlife (Nat.pos_of_ne_zero hpos)
      obtain ⟨zs, hafter, -⟩ := life_split hrs hlife
      refine hfirst keys ?_
      have hnone : (commits xs).find? (fun action => action.concerns key) = none := by
        rw [List.find?_eq_none]
        intro action haction
        simp [hquiet action haction]
      have hcommits : commits after = commits xs ++ .expire keys :: commits zs := by
        rw [hafter, commits_append]
        simp [commits, hsaved]
      rw [firstCommit, hcommits, List.find?_append, hnone]
      simp [SnoozeAction.concerns, hkey]

/-- An incident is snoozed for a minute; a tick after that finds the snooze expired, and the first
write of the expiry fails. -/
def reminderActions : List RuntimeAction :=
  [.publish 0,
    .network (.notification "db"
      { total := [{ key := "disk", state := .error, incidentStartedAt := "" }], added := [],
        removed := [], updated := [], numItemsOk := 0 } 0), .publish 0,
    .command (.snooze "db.disk" (60 * 10 ^ 9)) 0, .effect 0, .work {}, .resume 0 0, .publish 0,
    .tick (61 * 10 ^ 9), .effect (61 * 10 ^ 9),
    .work { saveError := some (.sync, "no space left") }, .resume (61 * 10 ^ 9) (61 * 10 ^ 9),
    .publish (61 * 10 ^ 9), .tick (72 * 10 ^ 9), .effect (72 * 10 ^ 9), .work {}]

theorem snooze_reminders_afterRetry :
    let G := runtime (fun _ => "") sampleRfc3339 sampleStore ["db"] ∅ ⟨none⟩
    ∃ rs s s' out, G.recorded.Path rs s ∧
      G.step s (.resume (72 * 10 ^ 9) (72 * 10 ^ 9)) = some (s', out) ∧
      Ongoing "db.disk" out s'.state ∧ reminders "db.disk" out = 1 := by
  intro G
  obtain ⟨rs, s, hpath, hp⟩ := Guarded.exists_path (G := G.recorded) (a := reminderActions)
    (p := fun r => (G.step r.2 (.resume (72 * 10 ^ 9) (72 * 10 ^ 9))).any fun q =>
      (savedActions q.2).contains (.expire ["db.disk"]) &&
        q.1.state.allIncidents.any fun i => i.key = "db.disk") (by decide +kernel)
  obtain ⟨⟨s', out⟩, hstep, hout⟩ := (Option.any_eq_true _ _).mp hp
  simp only [Bool.and_eq_true, List.contains_iff_mem, mem_savedActions, List.any_eq_true,
    decide_eq_true_eq] at hout
  have hongoing : Ongoing "db.disk" out s'.state := ⟨_, hout.1, by simp, hout.2⟩
  exact ⟨rs, s, s', out, hpath, hstep, hongoing,
    ((snooze_reminders (fun _ => "") sampleRfc3339 sampleStore ["db"] ∅ ⟨none⟩ rs s hpath).1 _ s'
      out hstep).2 "db.disk" |>.1 hongoing⟩

end Client
end Montray
