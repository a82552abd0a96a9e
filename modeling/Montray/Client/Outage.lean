import Montray.Client.Reminders

/-!
# Montray.Client.Outage

The life of an incident that the client makes about its own connection or tunnel.

What an event does to such an incident is a function of the event and of the incident alone
(`OutageKind.next`), and so are the notifications about it (`raises`, `resolves`). `outage_reduce`
says that the reducer, with its four handlers, does just that.

* `outage_life_cycle`: the statement about a stretch of a run during which the incident is there.
-/

namespace Montray
namespace Client

open Lib

inductive OutageKind where
  | connection
  | tunnel
  deriving DecidableEq, Repr

namespace OutageKind

def key (kind : OutageKind) (id : String) : String :=
  match kind with
  | .connection => connectionKey id
  | .tunnel => tunnelKey id

/-- The time and the error of a failure of this kind. -/
def failure (kind : OutageKind) (id : String) : Event → Option (OffsetDateTime × String)
  | .disconnected a now error =>
    if kind = .connection ∧ a = id ∧ error ≠ "" then some (now, error) else none
  | .tunnelFailed a now error => if kind = .tunnel ∧ a = id then some (now, error) else none
  | _ => none

/-- The time of what resolves an incident of this kind. -/
def recovery (kind : OutageKind) (id : String) : Event → Option OffsetDateTime
  | .connected a now => if kind = .connection ∧ a = id then some now else none
  | .tunnelReady a now => if kind = .tunnel ∧ a = id then some now else none
  | _ => none

/-- A tunnel's failure is the root cause of the connection's, and so is what a disconnection
without an error stands for. -/
def superseded (kind : OutageKind) (id : String) : Event → Bool
  | .disconnected a _ error => kind = .connection ∧ a = id ∧ error = ""
  | .tunnelFailed a _ _ => kind = .connection ∧ a = id
  | _ => false

section Next

variable (formatIncidentTime : OffsetDateTime → String) (kind : OutageKind) (id : String)

/-- The incident after a failure: the old one with the new details, or a new one. -/
def afterFailure (now : OffsetDateTime) (error : String) : Option Incident → Incident
  | some incident => { incident with details := error }
  | none =>
    { key := kind.key id, state := .error, details := error,
      incidentStartedAt := formatIncidentTime now }

/-- The incident after an event. -/
def next (e : Event) (old : Option Incident) : Option Incident :=
  match kind.failure id e with
  | some (now, error) => some (kind.afterFailure formatIncidentTime id now error old)
  | none => if (kind.recovery id e).isSome || kind.superseded id e then none else old

/-- The event is announced as an error. -/
def raises (e : Event) (old : Option Incident) (snoozed : OffsetDateTime → Bool) : Bool :=
  (kind.failure id e).any fun p => old.isNone && !snoozed p.1

/-- The event is announced as a recovery. -/
def resolves (e : Event) (old : Option Incident) (snoozed : OffsetDateTime → Bool) : Bool :=
  (kind.recovery id e).any fun now => old.isSome && !snoozed now

end Next

end OutageKind

/-- The incident of the kind about a server. -/
def AppState.outage (s : AppState) (kind : OutageKind) (id : String) : Option Incident :=
  s.internalIncidents[kind.key id]?

/-- How many notifications with the title are among the effects. -/
def announced (title : String) (effects : List Effect) : ℕ :=
  effects.countP fun
    | .notify t _ => t = title
    | .persistSnoozes _ _ => false

section Announced

variable {formatIncidentTime : OffsetDateTime → String} {p key key' : String}

theorem title_eq_iff {q : String} (hp : p ∈ incidentTitles) (hq : q ∈ incidentTitles) :
    q ++ key' = p ++ key ↔ q = p ∧ key' = key := by
  constructor
  · exact titles_inj (incidentTitles_subset hq) (incidentTitles_subset hp)
  · rintro ⟨rfl, rfl⟩
    rfl

theorem announced_one {q : String} (hp : p ∈ incidentTitles) (hq : q ∈ incidentTitles)
    (body : String) :
    announced (p ++ key) [.notify (q ++ key') body] =
      (decide (q = p) && decide (key' = key)).toNat := by
  have htitle : decide (q ++ key' = p ++ key) = (decide (q = p) && decide (key' = key)) := by
    rw [← Bool.decide_and]
    exact decide_eq_decide.mpr (title_eq_iff hp hq)
  simp only [announced, List.countP_cons, List.countP_nil, htitle, zero_add]
  cases decide (q = p) && decide (key' = key) <;> rfl

theorem announced_resolved (hp : p ∈ incidentTitles) (removed snoozed : Bool) :
    announced (p ++ key) (resolvedEffects removed snoozed key') =
      (decide ("OK: " = p) && decide (key' = key) && (removed && !snoozed)).toNat := by
  unfold resolvedEffects
  split
  · rename_i h
    rw [announced_one hp (by decide), h, Bool.and_true]
  · rename_i h
    rw [Bool.not_eq_true] at h
    rw [h, Bool.and_false]
    rfl

theorem announced_failed (hp : p ∈ incidentTitles) (now : OffsetDateTime) (error : String)
    (snoozed : Bool) (o : Option Incident) :
    announced (p ++ key) (failed formatIncidentTime key' now error snoozed o).2.2 =
      (decide ("error: " = p) && decide (key' = key) && (o.isNone && !snoozed)).toNat := by
  cases o with
  | some incident =>
    rw [Option.isNone_some, Bool.false_and, Bool.and_false]
    simp only [failed]
    split <;> rfl
  | none =>
    cases snoozed with
    | true =>
      rw [Bool.not_true, Bool.and_false, Bool.and_false]
      rfl
    | false =>
      rw [Bool.not_false, Option.isNone_none, Bool.and_true, Bool.and_true]
      exact announced_one hp (by decide) error

/-- No notification of a server's items is about one of the client's own. -/
theorem announced_notify (hp : p ∈ incidentTitles) (hkey : isInternalKey key = true) {id : String}
    (hid : KeyId id) (snoozed : String → Bool) (data : NotificationData) :
    announced (p ++ key) (notifyEffects snoozed id data) = 0 := by
  have hother : ∀ q ∈ incidentTitles, ∀ item : Incident,
      q ++ (prefixedItem item id).key ≠ p ++ key := by
    intro q hq item heq
    obtain ⟨-, rfl⟩ := (title_eq_iff hp hq).mp heq
    have hnot := hid.not_internal item.key
    rw [show dotted id item.key = (prefixedItem item id).key from rfl, hkey] at hnot
    cases hnot
  refine List.countP_eq_zero.mpr ?_
  intro e he
  rcases List.mem_append.mp he with he | he
  · obtain ⟨item, hitem, rfl⟩ := List.mem_map.mp he
    obtain ⟨item, -, rfl⟩ := List.mem_map.mp (List.mem_of_mem_filter hitem)
    simpa using hother _ (stateName_title _) item
  · obtain ⟨item, hitem, rfl⟩ := List.mem_map.mp he
    obtain ⟨item, -, rfl⟩ := List.mem_map.mp (List.mem_of_mem_filter hitem)
    simpa using hother "OK: " (by decide) item

end Announced

theorem isInternalKey_key (kind : OutageKind) (id : String) :
    isInternalKey (kind.key id) = true := by
  cases kind with
  | connection => exact isInternalKey_connectionKey id
  | tunnel => exact isInternalKey_tunnelKey id

section Reduce

variable {formatIncidentTime : OffsetDateTime → String} {s : AppState}

/-- Events that are not the server's leave its incidents alone. -/
theorem outage_other {e : Event} {id : String} (he : e.server? ≠ some id) (kind : OutageKind) :
    kind.failure id e = none ∧ kind.recovery id e = none ∧ kind.superseded id e = false := by
  cases e <;>
    simp only [Event.server?, ne_eq, Option.some.injEq, reduceCtorEq, not_false_eq_true] at he <;>
    simp [OutageKind.failure, OutageKind.recovery, OutageKind.superseded, he]

theorem next_other {e : Event} {id : String} (he : e.server? ≠ some id) (kind : OutageKind)
    (old : Option Incident) : kind.next formatIncidentTime id e old = old := by
  obtain ⟨hfailure, hrecovery, hsuperseded⟩ := outage_other he kind
  simp [OutageKind.next, hfailure, hrecovery, hsuperseded]

theorem quiet_other {e : Event} {id : String} (he : e.server? ≠ some id) (kind : OutageKind)
    (old : Option Incident) (snoozed : OffsetDateTime → Bool) :
    kind.raises id e old snoozed = false ∧ kind.resolves id e old snoozed = false := by
  obtain ⟨hfailure, hrecovery, -⟩ := outage_other he kind
  simp [OutageKind.raises, OutageKind.resolves, hfailure, hrecovery]

theorem announced_user {e : Event} (he : e.server? = none) (title : String) :
    announced title (reduce formatIncidentTime s e).2.effects = 0 := by
  cases e <;> simp only [Event.server?, reduceCtorEq] at he <;> simp only [reduce] <;>
    first | rfl | (split <;> rfl)

theorem key_eq_connectionKey {kind : OutageKind} {a id : String} :
    connectionKey a = kind.key id ↔ kind = .connection ∧ a = id := by
  cases kind with
  | connection => simp [OutageKind.key, connectionKey_inj]
  | tunnel => simp [OutageKind.key, connectionKey_ne_tunnelKey]

theorem key_eq_tunnelKey {kind : OutageKind} {a id : String} :
    tunnelKey a = kind.key id ↔ kind = .tunnel ∧ a = id := by
  cases kind with
  | connection => simp [OutageKind.key, tunnelKey_ne_connectionKey]
  | tunnel => simp [OutageKind.key, tunnelKey_inj]

/-- The incident of the kind in a server's part. -/
def ServerView.outage (v : ServerView) : OutageKind → Option Incident
  | .connection => v.connection
  | .tunnel => v.tunnel

theorem outage_view (s : AppState) (kind : OutageKind) (id : String) :
    s.outage kind id = (s.view id).outage kind := by
  cases kind <;> rfl

theorem failed_eq_afterFailure (formatIncidentTime : OffsetDateTime → String) (kind : OutageKind)
    (id : String) (now : OffsetDateTime) (error : String) (snoozed : Bool) (o : Option Incident) :
    (failed formatIncidentTime (kind.key id) now error snoozed o).1 =
      kind.afterFailure formatIncidentTime id now error o := by
  cases o with
  | none => rfl
  | some incident =>
    simp only [failed]
    split
    · rename_i h
      subst h
      rfl
    · rfl

/-- What an event of the server does to its incidents. -/
theorem outage_step {v : ServerView} {z : String → OffsetDateTime → Bool} {server : ServerStatus}
    (hv : v.status = some server) {e : Event} {id : String} (he : e.server? = some id)
    (kind : OutageKind) :
    (v.step formatIncidentTime z e).1.outage kind =
      kind.next formatIncidentTime id e (v.outage kind) := by
  have hconnection := failed_eq_afterFailure formatIncidentTime .connection id
  have htunnel := failed_eq_afterFailure formatIncidentTime .tunnel id
  simp only [OutageKind.key] at hconnection htunnel
  simp only [ServerView.step, hv]
  cases e <;> simp only [Event.server?, Option.some.injEq, reduceCtorEq] at he <;> subst he <;>
    simp only [ServerView.stepKnown, OutageKind.next, OutageKind.failure, OutageKind.recovery,
      OutageKind.superseded]
  case connected now => cases kind <;> rfl
  case disconnected now error =>
    by_cases herror : error = ""
    · cases kind <;> simp [herror, ServerView.outage, ServerView.setOffline]
    · cases kind <;> simp [herror, ServerView.outage, ServerView.setOffline, hconnection]
  case tunnelReady now => cases kind <;> simp [ServerView.outage]
  case tunnelFailed now error => cases kind <;> simp [ServerView.outage, htunnel]
  case heartbeat now => rfl
  case notification data now => rfl

/-- How an event of the server `a` announces the incidents of the server `id`, of which there is
`old`. -/
theorem announced_step {v : ServerView} {z : String → OffsetDateTime → Bool}
    {server : ServerStatus} (hv : v.status = some server) {e : Event} {a : String}
    (he : e.server? = some a) (ha : KeyId a) (kind : OutageKind) (id : String)
    {old : Option Incident} (hold : a = id → v.outage kind = old) :
    announced ("error: " ++ kind.key id) (v.step formatIncidentTime z e).2.effects =
        (kind.raises id e old (z (kind.key id))).toNat ∧
      announced ("OK: " ++ kind.key id) (v.step formatIncidentTime z e).2.effects =
        (kind.resolves id e old (z (kind.key id))).toNat := by
  have herr : "error: " ∈ incidentTitles := by decide
  have hok : "OK: " ∈ incidentTitles := by decide
  have hinternal := isInternalKey_key kind id
  simp only [ServerView.step, hv]
  cases e <;> simp only [Event.server?, Option.some.injEq, reduceCtorEq] at he <;> subst he <;>
    simp only [ServerView.stepKnown, OutageKind.raises, OutageKind.resolves, OutageKind.failure,
      OutageKind.recovery]
  case connected a now =>
    rw [announced_resolved herr, announced_resolved hok]
    refine ⟨by simp, ?_⟩
    by_cases hk : kind = .connection ∧ a = id
    · obtain ⟨rfl, rfl⟩ := hk
      simp [OutageKind.key, ServerView.outage, ← hold rfl]
    · simp [hk, key_eq_connectionKey]
  case disconnected a now error =>
    by_cases herror : error = ""
    · simp [herror, announced]
    · rw [if_neg herror]
      dsimp only
      rw [announced_failed herr, announced_failed hok]
      refine ⟨?_, by simp⟩
      by_cases hk : kind = .connection ∧ a = id
      · obtain ⟨rfl, rfl⟩ := hk
        simp [OutageKind.key, ServerView.outage, ← hold rfl, herror]
      · have hfail : ¬ (kind = .connection ∧ a = id ∧ error ≠ "") := fun h => hk ⟨h.1, h.2.1⟩
        simp [hk, hfail, key_eq_connectionKey]
  case tunnelReady a now =>
    rw [announced_resolved herr, announced_resolved hok]
    refine ⟨by simp, ?_⟩
    by_cases hk : kind = .tunnel ∧ a = id
    · obtain ⟨rfl, rfl⟩ := hk
      simp [OutageKind.key, ServerView.outage, ← hold rfl]
    · simp [hk, key_eq_tunnelKey]
  case tunnelFailed a now error =>
    rw [announced_failed herr, announced_failed hok]
    refine ⟨?_, by simp⟩
    by_cases hk : kind = .tunnel ∧ a = id
    · obtain ⟨rfl, rfl⟩ := hk
      simp [OutageKind.key, ServerView.outage, ← hold rfl]
    · simp [hk, key_eq_tunnelKey]
  case heartbeat now => exact ⟨rfl, rfl⟩
  case notification data now =>
    exact ⟨announced_notify herr hinternal ha _ _, announced_notify hok hinternal ha _ _⟩

/-- The reducer treats the incidents of a known server as `OutageKind.next` says, and announces
them as `raises` and `resolves` say. -/
theorem outage_reduce (formatIncidentTime : OffsetDateTime → String)
    (hvalid : ∀ a : String, a ∈ s.servers → KeyId a) {id : String} (hid : id ∈ s.servers)
    (kind : OutageKind) (e : Event) :
    (reduce formatIncidentTime s e).1.outage kind id =
        kind.next formatIncidentTime id e (s.outage kind id) ∧
      announced ("error: " ++ kind.key id) (reduce formatIncidentTime s e).2.effects =
        (kind.raises id e (s.outage kind id) (s.isSnoozed (kind.key id))).toNat ∧
      announced ("OK: " ++ kind.key id) (reduce formatIncidentTime s e).2.effects =
        (kind.resolves id e (s.outage kind id) (s.isSnoozed (kind.key id))).toNat := by
  have hview : (reduce formatIncidentTime s e).1.outage kind id =
      kind.next formatIncidentTime id e (s.outage kind id) := by
    obtain ⟨server, hserver⟩ := KeyMap.mem_iff_lookup.mp hid
    rw [outage_view, view_reduce, outage_view]
    split
    · rename_i he
      exact outage_step (v := s.view id) hserver he kind
    · rename_i he
      rw [next_other he]
      cases e <;> cases kind <;> rfl
  refine ⟨hview, ?_⟩
  cases he : e.server? with
  | none =>
    obtain ⟨hraises, hresolves⟩ := quiet_other (by rw [he]; simp : e.server? ≠ some id) kind
      (s.outage kind id) (s.isSnoozed (kind.key id))
    rw [hraises, hresolves]
    exact ⟨announced_user he _, announced_user he _⟩
  | some a =>
    rw [reduce_server formatIncidentTime he]
    by_cases ha : a ∈ s.servers
    · obtain ⟨server, hserver⟩ := KeyMap.mem_iff_lookup.mp ha
      refine announced_step (v := s.view a) hserver he (hvalid a ha) kind id ?_
      rintro rfl
      exact (outage_view s kind a).symm
    · have hne : e.server? ≠ some id := by
        rw [he]
        rintro heq
        cases heq
        exact ha hid
      obtain ⟨hraises, hresolves⟩ := quiet_other hne kind (s.outage kind id)
        (s.isSnoozed (kind.key id))
      have hunknown : (s.view a).status = none := KeyMap.lookup_none_iff.mpr ha
      rw [hraises, hresolves]
      simp [ServerView.step, hunknown, announced]

end Reduce

/-! ## Stretches of a run -/

/-- The error of the last failure of the kind. -/
def lastError (kind : OutageKind) (id : String) (events : List Event) : Option String :=
  (events.filterMap (kind.failure id)).getLast?.map Prod.snd

section Next

variable {formatIncidentTime : OffsetDateTime → String} {kind : OutageKind} {id : String}
  {e : Event}

theorem next_none {i : Incident} (h : kind.next formatIncidentTime id e none = some i) :
    ∃ now error, kind.failure id e = some (now, error) ∧
      i.incidentStartedAt = formatIncidentTime now ∧ i.details = error := by
  unfold OutageKind.next at h
  split at h
  · rename_i now error hfailure
    cases h
    exact ⟨now, error, hfailure, rfl, rfl⟩
  · split at h <;> cases h

/-- An incident that stays keeps its start, and has the details of the last failure. -/
theorem next_some {i i' : Incident} (h : kind.next formatIncidentTime id e (some i) = some i')
    {events : List Event} (herror : lastError kind id events = some i.details) :
    i'.incidentStartedAt = i.incidentStartedAt ∧
      lastError kind id (events ++ [e]) = some i'.details := by
  unfold OutageKind.next at h
  split at h
  · rename_i now error hfailure
    cases h
    exact ⟨rfl, by simp [lastError, hfailure, OutageKind.afterFailure]⟩
  · rename_i hfailure
    split at h <;> cases h
    exact ⟨rfl, by simpa [lastError, hfailure] using herror⟩

theorem next_ends {i : Incident} (h : kind.next formatIncidentTime id e (some i) = none) :
    kind.failure id e = none ∧
      ((∃ now, kind.recovery id e = some now) ∨
        kind.recovery id e = none ∧ kind.superseded id e = true) := by
  unfold OutageKind.next at h
  split at h
  · cases h
  · rename_i hfailure
    refine ⟨hfailure, ?_⟩
    split at h
    · rename_i hends
      cases hrecovery : kind.recovery id e with
      | some now => exact .inl ⟨now, rfl⟩
      | none =>
        rw [hrecovery] at hends
        exact .inr ⟨rfl, hends⟩
    · cases h

end Next

/-- **The life of an outage.** Take a stretch of a run of the reducer: `e` makes the incident of the
kind about a configured server appear, and it is there after every event of `mid`. Then `e` is a
failure of the kind. Throughout the stretch the incident started at the time of `e` and has the
error of the last failure for its details. It is announced as an error by `e`, unless its key is
snoozed then, and by no later event. An event that ends the stretch is the recovery of the kind, and
then it is announced unless the key is snoozed, or the incident is superseded, which is silent. -/
theorem outage_life_cycle (formatIncidentTime : OffsetDateTime → String) (ids : List String)
    (hids : ∀ id ∈ ids, validateServerId id = .ok ()) (snoozes : KeyMap OffsetDateTime)
    (kind : OutageKind) (id : String) (hid : id ∈ ids) (before : List Event) (e : Event)
    (mid : List Event) :
    let M := start formatIncidentTime ids snoozes
    let incident (events : List Event) := (M.run events).outage kind id
    let announcedBy (title : String) (events : List Event) (e : Event) :=
      announced (title ++ kind.key id) (reduce formatIncidentTime (M.run events) e).2.effects
    let snoozedAt (events : List Event) (now : OffsetDateTime) :=
      (M.run events).isSnoozed (kind.key id) now
    incident before = none →
    (∀ m, m <+: mid → (incident (before ++ e :: m)).isSome = true) →
    ∃ now error, kind.failure id e = some (now, error) ∧
      (∀ m i, m <+: mid → incident (before ++ e :: m) = some i →
        i.incidentStartedAt = formatIncidentTime now ∧
          lastError kind id (e :: m) = some i.details) ∧
      announcedBy "error: " before e = (if snoozedAt before now then 0 else 1) ∧
      (∀ m e', m ++ [e'] <+: mid → announcedBy "error: " (before ++ e :: m) e' = 0) ∧
      ∀ e', incident (before ++ e :: mid ++ [e']) = none →
        announcedBy "error: " (before ++ e :: mid) e' = 0 ∧
        ((∃ now', kind.recovery id e' = some now' ∧ announcedBy "OK: " (before ++ e :: mid) e' =
            if snoozedAt (before ++ e :: mid) now' then 0 else 1) ∨
          kind.recovery id e' = none ∧ kind.superseded id e' = true ∧
            announcedBy "OK: " (before ++ e :: mid) e' = 0) := by
  intro M incident announcedBy snoozedAt habsent hpresent
  have hstep : ∀ events e',
      incident (events ++ [e']) = kind.next formatIncidentTime id e' (incident events) ∧
      announcedBy "error: " events e' =
        (kind.raises id e' (incident events) (snoozedAt events)).toNat ∧
      announcedBy "OK: " events e' =
        (kind.resolves id e' (incident events) (snoozedAt events)).toNat := by
    intro events e'
    have hreduce := outage_reduce (s := M.run events) formatIncidentTime
      (fun a ha => validateServerId_ok (hids a ((mem_servers_run _ _ _ events a).mp ha)))
      ((mem_servers_run _ _ _ events id).mpr hid) kind e'
    refine ⟨?_, hreduce.2⟩
    simp only [incident, M.run_snoc]
    exact hreduce.1
  obtain ⟨i₀, hi₀⟩ := Option.isSome_iff_exists.mp (hpresent [] List.nil_prefix)
  have hfirst := (hstep before e).1
  rw [hi₀, habsent] at hfirst
  obtain ⟨now, error, hfailure, hstarted, hdetails⟩ := next_none hfirst.symm
  -- Along the stretch: the incident keeps its start, and its details follow the failures.
  have hcourse : ∀ m i, m <+: mid → incident (before ++ e :: m) = some i →
      i.incidentStartedAt = formatIncidentTime now ∧
        lastError kind id (e :: m) = some i.details := by
    intro m
    induction m using List.reverseRecOn with
    | nil =>
      intro i _ hi
      rw [hi₀] at hi
      cases hi
      exact ⟨hstarted, by simp [lastError, hfailure, hdetails]⟩
    | append_singleton m e' ih =>
      intro i hm hi
      have hm' : m <+: mid := (List.prefix_append m [e']).trans hm
      obtain ⟨j, hj⟩ := Option.isSome_iff_exists.mp (hpresent m hm')
      obtain ⟨hjstarted, hjdetails⟩ := ih j hm' hj
      have hnext := (hstep (before ++ e :: m) e').1
      rw [hj, List.append_assoc, List.cons_append, hi] at hnext
      obtain ⟨hstart, hlast⟩ := next_some hnext.symm hjdetails
      exact ⟨hstart.trans hjstarted, hlast⟩
  -- While the incident is there, no event is announced as an error.
  have hquiet : ∀ m e', m <+: mid → announcedBy "error: " (before ++ e :: m) e' = 0 := by
    intro m e' hm
    obtain ⟨j, hj⟩ := Option.isSome_iff_exists.mp (hpresent m hm)
    rw [(hstep _ e').2.1, hj, OutageKind.raises]
    cases kind.failure id e' <;> rfl
  refine ⟨now, error, hfailure, hcourse, ?_, ?_, ?_⟩
  · rw [(hstep before e).2.1, habsent, OutageKind.raises, hfailure]
    cases hz : snoozedAt before now <;> simp [hz]
  · intro m e' hm
    exact hquiet m e' ((List.prefix_append m [e']).trans hm)
  · intro e' hends
    obtain ⟨j, hj⟩ := Option.isSome_iff_exists.mp (hpresent mid (List.prefix_refl mid))
    obtain ⟨hnext, -, hok⟩ := hstep (before ++ e :: mid) e'
    rw [hends, hj] at hnext
    rw [hj] at hok
    refine ⟨hquiet mid e' (List.prefix_refl mid), ?_⟩
    rcases (next_ends hnext.symm).2 with ⟨now', hrecovery⟩ | ⟨hrecovery, hsuperseded⟩
    · refine .inl ⟨now', hrecovery, ?_⟩
      rw [hok, OutageKind.resolves, hrecovery]
      cases hz : snoozedAt (before ++ e :: mid) now' <;> simp [hz]
    · refine .inr ⟨hrecovery, hsuperseded, ?_⟩
      rw [hok, OutageKind.resolves, hrecovery]
      rfl

/-- A connection fails twice and is then superseded by its tunnel's failure. -/
theorem outage_life_cycle_superseded :
    let M := start (fun now => toString now) ["db"] ∅
    let events := [Event.disconnected "db" 3 "refused", .disconnected "db" 5 "timed out"]
    (M.run events).outage .connection "db" = some
      { key := "internal.connection.db", state := .error, details := "timed out",
        incidentStartedAt := "3" } ∧
    (M.run (events ++ [.tunnelFailed "db" 7 "exit 255"])).outage .connection "db" = none ∧
    announced "OK: internal.connection.db"
      (reduce (fun now => toString now) (M.run events) (.tunnelFailed "db" 7 "exit 255")).2.effects =
        0 := by
  intro M events
  have hlife := outage_life_cycle (fun now => toString now) ["db"] (by decide) ∅ .connection "db"
    (by decide) [] (.disconnected "db" 3 "refused") [.disconnected "db" 5 "timed out"] rfl
    (by
      intro m hm
      rcases List.prefix_cons_iff.mp hm with rfl | ⟨tail, rfl, htail⟩
      · rfl
      · rw [List.prefix_nil.mp htail]
        rfl)
  obtain ⟨now, error, -, -, -, -, hends⟩ := hlife
  refine ⟨rfl, rfl, ?_⟩
  rcases (hends (.tunnelFailed "db" 7 "exit 255") rfl).2 with ⟨_, hrecovery, -⟩ | ⟨-, -, hok⟩
  · cases hrecovery
  · exact hok

end Client
end Montray
