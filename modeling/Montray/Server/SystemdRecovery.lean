import Montray.Server.SystemdMonitor

/-!
# Montray.Server.SystemdRecovery

When a systemd incident ends. An incident that a condition with a resolve policy created ends only
when the timer of a recovery window fires, and only if the unit stayed in the policy's states from
the opening of that window on.

* `Opens`: an input opens a recovery window; `opens_unique`: no generation is used twice.
* `Window`: the history of the window that is open.
* `Outstanding`: what holds from the creation of the incident on, for as long as the tracker
  reports no removal.
* `delayed_recovery`: the statement for whole runs.
-/

namespace Montray
namespace Systemd

open Lib Tracker

/-- The tracker reports `k` as added. -/
def Adds (k : ItemKey) (out : Option Notification) : Prop :=
  ∃ n ∈ out, ∃ w ∈ n.ongoingIncidents.added, w.key = k

/-- The tracker reports the incident `r` of `k` as removed. -/
def Removes (k : ItemKey) (r : ItemWContext) (out : Option Notification) : Prop :=
  ∃ n ∈ out, r ∈ n.ongoingIncidents.removed ∧ r.key = k

variable (c : CollectorParams)

/-- The clock during the call that an input leads to. -/
def Input.clock {c : CollectorParams} : Input c → ItemKey → Time
  | .own _ r => r.clock
  | .other upd => upd.call.clock

/-- The input opens the recovery window `generation` of `k`. -/
def Opens (k : ItemKey) (generation : Nat) (s : System) (i : Input c) : Prop :=
  s.coll.pendingResolutions[k]? = none ∧
    ∃ q, (s.step c i).1.coll.pendingResolutions[k]? = some q ∧ q.generation = generation

/-- The unit is OK in one of the states that count as recovery. -/
def Observation.Recovers (policy : ConfigResolve) (o : Observation) : Prop :=
  o.item.state = .ok ∧ o.unit.state ∈ policy.states

section Slots

variable {b : Slot} {g : Nat} {unit : Unit} {item : Item} {resolve : Option ConfigResolve}

theorem Slot.publishDeferred_pending (policy : ConfigResolve) :
    (b.publishDeferred unit item policy).pending = b.pending ∧
      (b.publishDeferred unit item policy).resolve = b.resolve := by
  unfold Slot.publishDeferred
  split <;> exact ⟨rfl, rfl⟩

/-- A window is open after an observation only if the observation is a recovery; it is the window
that was open before it, or a new one. -/
theorem Slot.observe_pending {q : PendingResolution}
    (h : (b.observe g unit item resolve).pending = some q) :
    item.state = .ok ∧ ∃ policy, b.resolve = some (some policy) ∧ unit.state ∈ policy.states ∧
      q.generation = (b.pending.map (·.generation)).getD g := by
  unfold Slot.observe at h
  split at h
  · cases h
  · rename_i hs
    rw [ne_eq, not_not] at hs
    split at h
    · rename_i policy hpolicy
      unfold Slot.recover at h
      split at h
      · rename_i hc
        cases h
        refine ⟨hs, policy, hpolicy, ?_, ?_⟩
        · simpa [containsUnitState] using hc
        · rw [(Slot.publishDeferred_pending policy).1]
      · cases h
    · cases h

/-- No observation changes the policy of an incident that has one. -/
theorem Slot.observe_resolve {policy : ConfigResolve} (hb : b.resolve = some (some policy)) :
    (b.observe g unit item resolve).resolve = some (some policy) := by
  unfold Slot.observe
  split
  · simp [Slot.nonOK, hb]
  · rw [hb]
    dsimp only
    rw [(Slot.recover_fields _ _ _ _ _).1, (Slot.publishDeferred_pending policy).2, hb]

end Slots

/-! ## Generations -/

theorem nextGeneration_step (s : System) (i : Input c) :
    s.coll.nextGeneration ≤ (s.step c i).1.coll.nextGeneration := by
  cases i with
  | own event r => exact (handle_ok c s.coll s.ok event).2.1
  | other upd => exact Nat.le_refl _

theorem opens_generation {name : String} {g : Nat} {s : System} {i : Input c}
    (h : Opens c (itemKeyFromSystemdName c.id name) g s i) :
    s.coll.nextGeneration < g ∧ g ≤ (s.step c i).1.coll.nextGeneration := by
  obtain ⟨hnone, q, hq, rfl⟩ := h
  refine ⟨?_, ((s.step c i).1.ok _ q hq).2⟩
  cases i with
  | other upd =>
    rw [show (s.step c (.other upd)).1.coll = s.coll from rfl, hnone] at hq
    cases hq
  | own event r =>
    have hpending : ((handle c s.coll event).1.slot
        (sentItem (handle c s.coll event).2 (itemKeyFromSystemdName c.id name))
        (itemKeyFromSystemdName c.id name)).pending = some q := hq
    cases handle_keyStep c s.coll event name with
    | quiet hobs hslot =>
      rw [hslot] at hpending
      cases hnone.symm.trans hpending
    | expired pending hevent hp hslot => cases hnone.symm.trans hp
    | observed o generation hgen hobs hslot =>
      rw [hslot] at hpending
      obtain ⟨_, _, _, _, hq⟩ := Slot.observe_pending hpending
      have hbefore : (s.coll.slot none (itemKeyFromSystemdName c.id name)).pending = none := hnone
      rw [hbefore] at hq
      exact hq ▸ hgen

/-- No generation is used twice, not even for windows that were cancelled. -/
theorem opens_unique {name : String} {g : Nat} {inputs pre pre' : List (Input c)}
    {i i' : Input c} (hpre : pre ++ [i] <+: inputs) (hpre' : pre' ++ [i'] <+: inputs)
    (h : Opens c (itemKeyFromSystemdName c.id name) g ((monitor c).run pre) i)
    (h' : Opens c (itemKeyFromSystemdName c.id name) g ((monitor c).run pre') i') :
    pre = pre' := by
  have hmono := fun s i => nextGeneration_step c s i
  have hlt := opens_generation c h
  have hlt' := opens_generation c h'
  have hlen : pre.length = pre'.length := by
    by_contra hne
    rcases Nat.lt_or_gt_of_ne hne with hl | hl
    · have hp : pre ++ [i] <+: pre' := by
        refine List.prefix_of_prefix_length_le hpre ((List.prefix_append _ _).trans hpre') ?_
        simp only [List.length_append, List.length_singleton]
        omega
      have := (monitor c).run_mono (f := fun s => s.coll.nextGeneration) hmono hp
      rw [Mealy.run_snoc, monitor_step] at this
      omega
    · have hp : pre' ++ [i'] <+: pre := by
        refine List.prefix_of_prefix_length_le hpre' ((List.prefix_append _ _).trans hpre) ?_
        simp only [List.length_append, List.length_singleton]
        omega
      have := (monitor c).run_mono (f := fun s => s.coll.nextGeneration) hmono hp
      rw [Mealy.run_snoc, monitor_step] at this
      omega
  have h1 : pre <+: inputs := (List.prefix_append _ _).trans hpre
  have h2 : pre' <+: inputs := (List.prefix_append _ _).trans hpre'
  exact (List.prefix_of_prefix_length_le h1 h2 (by omega)).eq_of_length hlen

/-! ## What a step reports -/

theorem removes_iff {s : System} {i : Input c} {k : ItemKey} {r : ItemWContext} :
    Removes k r (s.step c i).2 ↔
      s.tracker.itemsNotOK[k]? = some r ∧ (s.step c i).1.tracker.itemsNotOK[k]? = none := by
  simp only [System.step, Removes]
  cases s.call c i with
  | none =>
    constructor
    · rintro ⟨n, hn, _⟩
      cases hn
    · rintro ⟨h1, h2⟩
      cases h1.symm.trans h2
  | some call => exact removed_iff s.keyed

theorem adds_new {s : System} {i : Input c} {k : ItemKey} (h : Adds k (s.step c i).2) :
    s.tracker.itemsNotOK[k]? = none ∧
      ∃ w, (s.step c i).1.tracker.itemsNotOK[k]? = some w := by
  simp only [System.step, Adds] at h ⊢
  cases hc : s.call c i with
  | none =>
    rw [hc] at h
    obtain ⟨n, hn, _⟩ := h
    cases hn
  | some call =>
    rw [hc] at h
    obtain ⟨n, hn, w, hw, rfl⟩ := h
    obtain ⟨hold, hnew⟩ := added_new s.keyed hn hw
    exact ⟨hold, w, hnew⟩

/-- An incident that goes on keeps its start. -/
theorem step_startedAt {s : System} {i : Input c} {name : String} {w w' : ItemWContext}
    (h : s.tracker.itemsNotOK[itemKeyFromSystemdName c.id name]? = some w)
    (h' : (s.step c i).1.tracker.itemsNotOK[itemKeyFromSystemdName c.id name]? = some w') :
    w'.incidentStartedAt = w.incidentStartedAt := by
  cases i with
  | other upd =>
    rw [other_notOK, h] at h'
    cases h'
    rfl
  | own event r =>
    rw [own_notOK, h] at h'
    split at h'
    · cases h'
      rfl
    · simp only [reported] at h'
      split at h'
      · cases h'
      · cases h'
        rfl

/-! ## The life of an incident -/

/-- The window `generation` of the unit was opened by one of the inputs `mid` that follow `pre`,
and every observation from its opening on is a recovery. -/
def Window (name : String) (policy : ConfigResolve) (pre : List (Input c)) (generation : Nat)
    (mid : List (Input c)) : Prop :=
  ∃ mid₁ opening mid₂ o, mid = mid₁ ++ opening :: mid₂ ∧
    Opens c (itemKeyFromSystemdName c.id name) generation ((monitor c).run (pre ++ mid₁)) opening ∧
    ((monitor c).run (pre ++ mid₁)).observes c name opening = some o ∧ o.Recovers policy ∧
    ∀ m₁ j m₂ o', mid₂ = m₁ ++ j :: m₂ →
      ((monitor c).run (pre ++ mid₁ ++ opening :: m₁)).observes c name j = some o' →
      o'.Recovers policy

/-- What holds after `pre ++ mid` if the incident was there after `pre`, started at `start`, and
was not removed during `mid`. -/
structure Outstanding (name : String) (policy : ConfigResolve) (start : Time)
    (pre mid : List (Input c)) : Prop where
  resolve : ((monitor c).run (pre ++ mid)).coll.incidentResolve[itemKeyFromSystemdName c.id name]? =
    some (some policy)
  incident : ∃ w, ((monitor c).run (pre ++ mid)).tracker.itemsNotOK[
    itemKeyFromSystemdName c.id name]? = some w ∧ w.incidentStartedAt = start
  window : ∀ q, ((monitor c).run (pre ++ mid)).coll.pendingResolutions[
    itemKeyFromSystemdName c.id name]? = some q → Window c name policy pre q.generation mid

variable {name : String} {policy : ConfigResolve} {start : Time} {pre mid : List (Input c)}

theorem Window.snoc {g : Nat} (h : Window c name policy pre g mid) {i : Input c}
    (hi : ∀ o, ((monitor c).run (pre ++ mid)).observes c name i = some o → o.Recovers policy) :
    Window c name policy pre g (mid ++ [i]) := by
  obtain ⟨mid₁, opening, mid₂, o, rfl, hopens, hobs, hrec, hlater⟩ := h
  refine ⟨mid₁, opening, mid₂ ++ [i], o, by simp, hopens, hobs, hrec, ?_⟩
  intro m₁ j m₂ o' heq ho'
  rcases List.eq_nil_or_concat m₂ with rfl | ⟨m₂, j', rfl⟩
  · -- the new input itself
    obtain ⟨rfl, hj⟩ := List.append_inj' heq rfl
    cases hj
    refine hi o' ?_
    rwa [List.append_assoc] at ho'
  · refine hlater m₁ j m₂ o' ?_ ho'
    have : mid₂ ++ [i] = (m₁ ++ j :: m₂) ++ [j'] := by simpa using heq
    exact (List.append_inj' this rfl).1

theorem resolve_isSome (name : String) (inputs : List (Input c)) :
    ((monitor c).run inputs).coll.incidentResolve[itemKeyFromSystemdName c.id name]?.isSome =
      ((monitor c).run inputs).tracker.itemsNotOK[itemKeyFromSystemdName c.id name]?.isSome := by
  obtain ⟨h1, h2, _⟩ := (sim_run c name inputs).agree
  simp only [State.slot] at h1 h2
  rw [← h1, h2, Option.isSome_map]

/-- While the tracker reports no removal, the incident keeps its policy and its start. -/
theorem Outstanding.step (h : Outstanding c name policy start pre mid) {i : Input c}
    (hkeep : ∀ r, ¬ Removes (itemKeyFromSystemdName c.id name) r
      (((monitor c).run (pre ++ mid)).step c i).2) :
    Outstanding c name policy start pre (mid ++ [i]) := by
  obtain ⟨w, hw, hstart⟩ := h.incident
  have hsome := resolve_isSome c name (pre ++ mid ++ [i])
  have hrun : (monitor c).run (pre ++ (mid ++ [i])) =
      (((monitor c).run (pre ++ mid)).step c i).1 := by
    rw [← List.append_assoc, Mealy.run_snoc, monitor_step]
  rw [List.append_assoc, hrun] at hsome
  obtain ⟨w', hw'⟩ : ∃ w', (((monitor c).run (pre ++ mid)).step c i).1.tracker.itemsNotOK[
      itemKeyFromSystemdName c.id name]? = some w' := by
    rw [← Option.ne_none_iff_exists']
    intro hnone
    exact hkeep w ((removes_iff c).mpr ⟨hw, hnone⟩)
  rw [hw', Option.isSome_some] at hsome
  have hincident := step_startedAt c hw hw'
  cases i with
  | other upd =>
    refine ⟨?_, ⟨w', hrun ▸ hw', hincident.trans hstart⟩, ?_⟩
    · rw [hrun]
      exact h.resolve
    · intro q hq
      rw [hrun] at hq
      refine (h.window q hq).snoc c ?_
      intro o ho
      cases ho
  | own event r =>
    have hkey := handle_keyStep c ((monitor c).run (pre ++ mid)).coll event name
    generalize hafter : (handle c ((monitor c).run (pre ++ mid)).coll event).1.slot _ _ = after
      at hkey
    have hres : (((monitor c).run (pre ++ mid)).step c (.own event r)).1.coll.incidentResolve[
        itemKeyFromSystemdName c.id name]? = after.resolve := by
      rw [← hafter]
      rfl
    have hpend : (((monitor c).run (pre ++ mid)).step c (.own event r)).1.coll.pendingResolutions[
        itemKeyFromSystemdName c.id name]? = after.pending := by
      rw [← hafter]
      rfl
    refine ⟨?_, ⟨w', hrun ▸ hw', hincident.trans hstart⟩, ?_⟩
    · rw [hrun, hres]
      cases hkey with
      | quiet hobs hslot => rw [hslot]; exact h.resolve
      | expired pending hevent hp hslot =>
        rw [hres, hslot] at hsome
        cases hsome
      | observed o g hgen hobs hslot => rw [hslot]; exact Slot.observe_resolve h.resolve
    · intro q hq
      rw [hrun, hpend] at hq
      cases hkey with
      | quiet hobs hslot =>
        rw [hslot] at hq
        refine (h.window q hq).snoc c ?_
        intro o ho
        cases hobs.symm.trans ho
      | expired pending hevent hp hslot =>
        rw [hslot] at hq
        cases hq
      | observed o g hgen hobs hslot =>
        rw [hslot] at hq
        obtain ⟨hok, policy', hpolicy', hstate, hg⟩ := Slot.observe_pending hq
        cases h.resolve.symm.trans hpolicy'
        cases hp : ((monitor c).run (pre ++ mid)).coll.pendingResolutions[
            itemKeyFromSystemdName c.id name]? with
        | some q' =>
          -- the window that was open goes on
          have hb : (((monitor c).run (pre ++ mid)).coll.slot none
              (itemKeyFromSystemdName c.id name)).pending = some q' := hp
          rw [hb, Option.map_some, Option.getD_some] at hg
          rw [hg]
          refine (h.window q' hp).snoc c ?_
          intro o' ho'
          cases hobs.symm.trans ho'
          exact ⟨hok, hstate⟩
        | none =>
          -- this observation opens a window
          refine ⟨mid, .own event r, [], o, rfl, ⟨hp, q, ?_, rfl⟩, hobs, ⟨hok, hstate⟩, ?_⟩
          · rw [hpend, hslot]
            exact hq
          · intro m₁ j m₂ o' heq
            simp at heq

/-- An observation that made the tracker add the incident is a failure, and its policy is the one
the collector keeps. -/
theorem Outstanding.created {created : Input c} {o : Observation}
    (hobs : ((monitor c).run pre).observes c name created = some o)
    (hpolicy : o.resolve = some policy)
    (hadds : Adds (itemKeyFromSystemdName c.id name) (((monitor c).run pre).step c created).2) :
    Outstanding c name policy (created.clock (itemKeyFromSystemdName c.id name))
      (pre ++ [created]) [] := by
  obtain ⟨hnone, w, hw⟩ := adds_new c hadds
  cases created with
  | other upd => cases hobs
  | own event r =>
    -- there was no incident before, in either copy
    have hclear : ((monitor c).run pre).coll.slot none (itemKeyFromSystemdName c.id name) =
        .clear none := by
      cases sim_run c name pre with
      | clear hb _ => exact hb
      | failing _ _ _ _ _ _ _ hw' _ => cases hnone.symm.trans hw'
      | deferred _ _ _ _ _ _ _ _ _ _ _ hw' _ => cases hnone.symm.trans hw'
    have hkey := handle_keyStep c ((monitor c).run pre).coll event name
    generalize hafter : (handle c ((monitor c).run pre).coll event).1.slot _ _ = after at hkey
    have hitem : after.item = sentItem (handle c ((monitor c).run pre).coll event).2
        (itemKeyFromSystemdName c.id name) := by
      rw [← hafter]
      rfl
    have hrun : (monitor c).run (pre ++ [.own event r] ++ []) =
        (((monitor c).run pre).step c (.own event r)).1 := by
      rw [List.append_nil, Mealy.run_snoc, monitor_step]
    have hfed := hw
    rw [own_notOK, ← hitem, hnone] at hfed
    cases hkey with
    | quiet hobs' hslot => cases hobs'.symm.trans hobs
    | expired pending hevent hp hslot =>
      subst hevent
      cases hobs
    | observed o' g hgen hobs' hslot =>
      cases hobs'.symm.trans hobs
      rw [hclear] at hslot
      by_cases hs : o.item.state = .ok
      · -- an OK item is published as such, and the tracker has nothing to add
        rw [show after = .clear (some o.item) by rw [hslot]; simp [Slot.observe, hs, Slot.clear]]
          at hfed
        simp [Slot.clear, reported, hs] at hfed
      · rw [show after = ⟨some (some policy), some o.item.state, none, none, some o.item⟩ by
          rw [hslot]; simp [Slot.observe, hs, Slot.nonOK, Slot.clear, hpolicy]] at hafter hfed
        simp only [reported, hs, if_false, Option.some.injEq] at hfed
        simp only [State.slot, Slot.mk.injEq] at hafter
        refine ⟨?_, ⟨w, hrun ▸ hw, ?_⟩, ?_⟩
        · rw [hrun]
          exact hafter.1
        · rw [← hfed]
          rfl
        · intro q hq
          rw [hrun] at hq
          cases hafter.2.2.1.symm.trans hq

/-- The incident is outstanding for as long as the tracker reports no removal. -/
theorem outstanding_run (h : Outstanding c name policy start pre [])
    (hkeep : ∀ out ∈ (monitor c).outputsFrom ((monitor c).run pre) mid,
      ∀ r, ¬ Removes (itemKeyFromSystemdName c.id name) r out) :
    Outstanding c name policy start pre mid := by
  induction mid using List.reverseRecOn with
  | nil => exact h
  | append_singleton mid i ih =>
    rw [Mealy.outputsFrom_append] at hkeep
    refine (ih fun out hout => hkeep out (List.mem_append_left _ hout)).step c ?_
    refine hkeep _ (List.mem_append_right _ ?_)
    have hrun : (monitor c).runFrom ((monitor c).run pre) mid = (monitor c).run (pre ++ mid) :=
      ((monitor c).runFrom_append _ pre mid).symm
    rw [hrun]
    exact List.mem_singleton.mpr rfl

/-- The step that removes an outstanding incident delivers the timer of its open window. -/
theorem Outstanding.removed (h : Outstanding c name policy start pre mid) {i : Input c}
    {r : ItemWContext} (hr : Removes (itemKeyFromSystemdName c.id name) r
      (((monitor c).run (pre ++ mid)).step c i).2) :
    ∃ g, (∃ readings, i = .own (.ready (itemKeyFromSystemdName c.id name) g) readings) ∧
      Window c name policy pre g mid := by
  obtain ⟨_, hgone⟩ := (removes_iff c).mp hr
  -- the collector forgets the incident in the same step
  have hsome := resolve_isSome c name (pre ++ mid ++ [i])
  rw [Mealy.run_snoc, monitor_step, hgone, Option.isSome_none, Option.isSome_eq_false_iff,
    Option.isNone_iff_eq_none] at hsome
  cases i with
  | other upd => cases h.resolve.symm.trans hsome
  | own event readings =>
    have hkey := handle_keyStep c ((monitor c).run (pre ++ mid)).coll event name
    have hres : ((handle c ((monitor c).run (pre ++ mid)).coll event).1.slot
        (sentItem (handle c ((monitor c).run (pre ++ mid)).coll event).2
          (itemKeyFromSystemdName c.id name)) (itemKeyFromSystemdName c.id name)).resolve = none :=
      hsome
    cases hkey with
    | quiet hobs hslot =>
      rw [hslot] at hres
      cases h.resolve.symm.trans hres
    | observed o g hgen hobs hslot =>
      rw [hslot, Slot.observe_resolve h.resolve] at hres
      cases hres
    | expired pending hevent hp hslot =>
      exact ⟨pending.generation, ⟨readings, by rw [hevent]⟩, h.window pending hp⟩

/-- **Delayed recovery.** The incident of a unit that an observation with the policy `policy`
created, after any inputs `mid` during which the tracker reported no removal of it, and at the next
input `i`. -/
theorem delayed_recovery (name : String) (policy : ConfigResolve) (pre : List (Input c))
    (created : Input c) (o : Observation) (mid : List (Input c))
    (hobs : ((monitor c).run pre).observes c name created = some o)
    (hpolicy : o.resolve = some policy)
    (hadds : Adds (itemKeyFromSystemdName c.id name) (((monitor c).run pre).step c created).2)
    (hkeep : ∀ out ∈ (monitor c).outputsFrom ((monitor c).run (pre ++ [created])) mid,
      ∀ r, ¬ Removes (itemKeyFromSystemdName c.id name) r out) :
    let inputs := pre ++ [created] ++ mid
    let s := (monitor c).run inputs
    let k := itemKeyFromSystemdName c.id name
    s.coll.incidentResolve[k]? = some (some policy) ∧
    (∃ w, s.tracker.itemsNotOK[k]? = some w ∧ w.incidentStartedAt = created.clock k) ∧
    ∀ i, ¬ Adds k (s.step c i).2 ∧
      ∀ r, Removes k r (s.step c i).2 →
        r.incidentStartedAt = created.clock k ∧
        ∃ g, (∃ readings, i = .own (.ready k g) readings) ∧
          Window c name policy (pre ++ [created]) g mid ∧
          ∀ p j p' j', p ++ [j] <+: inputs → p' ++ [j'] <+: inputs →
            Opens c k g ((monitor c).run p) j → Opens c k g ((monitor c).run p') j' → p = p' := by
  intro inputs s k
  have hout := outstanding_run c (Outstanding.created c hobs hpolicy hadds) hkeep
  obtain ⟨w, hw, hstart⟩ := hout.incident
  refine ⟨hout.resolve, ⟨w, hw, hstart⟩, ?_⟩
  intro i
  refine ⟨?_, ?_⟩
  · intro h
    obtain ⟨hnone, _⟩ := adds_new c h
    cases hnone.symm.trans hw
  · intro r hr
    obtain ⟨hold, _⟩ := (removes_iff c).mp hr
    cases hold.symm.trans hw
    obtain ⟨g, hi, hwindow⟩ := hout.removed c hr
    refine ⟨hstart, g, hi, hwindow, ?_⟩
    intro p j p' j' hp hp' hj hj'
    exact opens_unique c hp hp' hj hj'

/-- A failing service whose incident waits for a second of activity. -/
def sampleParams : CollectorParams where
  id := "sd"
  config := ⟨[{ names := ["a.service"],
                conditions := [{ state := "active", result := .ok },
                  { state := "failed", result := .error,
                    resolve := some ⟨1000000000, ["active"]⟩ }] }]⟩

def sampleReadings (now : Time) : Readings := ⟨.sorted _, .sorted _, fun _ => now, now⟩

def sampleUpdate (state : String) (now : Time) : Input sampleParams :=
  .own (.units (runSubscription ((∅ : KeyMap (Option UnitStatus)).insert "a.service"
    (some ⟨state, ""⟩))) (.sorted _)) (sampleReadings now)

/-- The service fails, is active again, and its window expires. -/
theorem delayed_recovery_sample :
    validateConfig sampleParams.config = .ok () ∧
    Window sampleParams "a.service" ⟨1000000000, ["active"]⟩ [sampleUpdate "failed" 5] 1
      [sampleUpdate "active" 6] := by
  have hquiet : ∀ out ∈ (monitor sampleParams).outputsFrom
      ((monitor sampleParams).run [sampleUpdate "failed" 5]) [sampleUpdate "active" 6],
      ∀ n ∈ out, n.ongoingIncidents.removed = [] := by decide
  obtain ⟨_, _, h⟩ := delayed_recovery sampleParams "a.service" ⟨1000000000, ["active"]⟩ []
    (sampleUpdate "failed" 5)
    ⟨⟨"a.service", "failed", ""⟩, ⟨"sd.a.service", .error, "Unit a.service is failed"⟩,
      some ⟨1000000000, ["active"]⟩⟩
    [sampleUpdate "active" 6] rfl rfl (by unfold Adds; decide) (by
      rintro out hout r ⟨n, hn, hr, _⟩
      rw [hquiet out hout n hn] at hr
      cases hr)
  obtain ⟨_, h⟩ := h (.own (.ready "sd.a.service" 1) (sampleReadings 7))
  obtain ⟨_, g, ⟨_, heq⟩, hwindow, _⟩ := h
    { key := "sd.a.service", state := .error
      details := "Unit a.service is active; incident resolves after 1s in this state"
      incidentStartedAt := 5 } (by unfold Removes; decide)
  cases heq
  exact ⟨rfl, hwindow⟩

end Systemd
end Montray
