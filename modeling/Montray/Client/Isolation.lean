import Montray.Client.Config
import Montray.Client.ServerView

/-!
# Montray.Client.Isolation

One server cannot influence another through the reducer.

* `Agree`: two states that agree on the parts of some servers and on the snoozes.
* `agree_purge`: deleting the events of the other servers keeps the agreement and what is seen of
  the events that remain.
* `reducer_isolates_servers`: the same for a validated configuration, with the consequence that
  interleavings with equal per-server streams end in one state.
-/

namespace Montray
namespace Client

open Lib

/-- `s` and `s'` have the same snoozes and the same parts of the servers in `P`. -/
structure Agree (P : String → Prop) (s s' : AppState) : Prop where
  snoozed : s.snoozed = s'.snoozed
  view : ∀ b, P b → s.view b = s'.view b

theorem Agree.refl {P : String → Prop} (s : AppState) : Agree P s s := ⟨rfl, fun _ _ => rfl⟩

theorem Agree.symm {P : String → Prop} {s s' : AppState} (h : Agree P s s') : Agree P s' s :=
  ⟨h.snoozed.symm, fun b hb => (h.view b hb).symm⟩

theorem Agree.trans {P : String → Prop} {s s' s'' : AppState} (h : Agree P s s')
    (h' : Agree P s' s'') : Agree P s s'' :=
  ⟨h.snoozed.trans h'.snoozed, fun b hb => (h.view b hb).trans (h'.view b hb)⟩

theorem Agree.isSnoozed {P : String → Prop} {s s' : AppState} (h : Agree P s s') :
    s.isSnoozed = s'.isSnoozed := by
  funext key now
  simp only [AppState.isSnoozed, AppState.snoozedUntil, h.snoozed]

/-- What is seen of an event's result: the effects, and the publication flag except for a forgotten
incident, which may be any server's. -/
def seen (e : Event) (t : Transition) : List Effect × Option Bool :=
  (t.effects, match e with
    | .forgetStale _ => none
    | _ => some t.changed)

section Reduce

variable (formatIncidentTime : OffsetDateTime → String) {P : String → Prop} {s s' : AppState}

/-- An event of a server outside `P` is not noticed. -/
theorem Agree.skip (h : Agree P s s') {e : Event} {a : String} (he : e.server? = some a)
    (ha : ¬ P a) : Agree P (reduce formatIncidentTime s e).1 s' := by
  rw [reduce_server formatIncidentTime he]
  refine ⟨h.snoozed, ?_⟩
  intro b hb
  have hab : a ≠ b := fun hab => ha (hab ▸ hb)
  exact (view_setView_ne s _ hab).trans (h.view b hb)

theorem seen_reduce_user {e : Event} (he : e.server? = none) (h : s.snoozed = s'.snoozed) :
    seen e (reduce formatIncidentTime s e).2 = seen e (reduce formatIncidentTime s' e).2 := by
  cases e <;> simp only [Event.server?, reduceCtorEq] at he <;> simp only [reduce, seen, h] <;>
    split <;> rfl

/-- Any other event acts alike on both. -/
theorem Agree.step (h : Agree P s s') {e : Event} (he : ∀ a, e.server? = some a → P a) :
    Agree P (reduce formatIncidentTime s e).1 (reduce formatIncidentTime s' e).1 ∧
      seen e (reduce formatIncidentTime s e).2 = seen e (reduce formatIncidentTime s' e).2 := by
  refine ⟨⟨?_, ?_⟩, ?_⟩
  · rw [snoozed_reduce, snoozed_reduce, h.snoozed]
  · intro b hb
    rw [view_reduce, view_reduce, h.view b hb, h.isSnoozed]
  · cases hs : e.server? with
    | none => exact seen_reduce_user formatIncidentTime hs h.snoozed
    | some a =>
      rw [reduce_server formatIncidentTime hs, reduce_server formatIncidentTime hs,
        h.view a (he a hs), h.isSnoozed]

/-- Deleting the events of servers outside `P` is not noticed. -/
theorem agree_purge {k : Event → Bool}
    (hskip : ∀ e, k e = false → ∃ a, e.server? = some a ∧ ¬ P a)
    (hkeep : ∀ e, k e = true → ∀ a, e.server? = some a → P a)
    (s0 : AppState) (events : List Event) :
    let R := reducer formatIncidentTime s0
    Agree P (R.run events) (R.run (events.filter k)) ∧
      ((events.zip (R.outputs events)).filter fun p => k p.1).map (fun p => seen p.1 p.2) =
        ((events.filter k).zip (R.outputs (events.filter k))).map fun p => seen p.1 p.2 := by
  intro R
  refine R.purge (R := Agree P) ?_ ?_ events (Agree.refl s0)
  · intro s s' e h hk
    obtain ⟨a, ha, hP⟩ := hskip e hk
    exact h.skip formatIncidentTime ha hP
  · intro s s' e h hk
    exact h.step formatIncidentTime (hkeep e hk)

theorem Agree.internal (h : Agree P s s') (hs : InternalNamed s) (hs' : InternalNamed s')
    {k : String} (hk : ∀ id, ¬ P id → connectionKey id ≠ k ∧ tunnelKey id ≠ k) :
    s.internalIncidents[k]? = s'.internalIncidents[k]? := by
  by_cases hex : ∃ b, connectionKey b = k ∨ tunnelKey b = k
  · obtain ⟨b, hb⟩ := hex
    have hP : P b := by
      by_contra hP
      exact hb.elim (hk b hP).1 (hk b hP).2
    rcases hb with rfl | rfl
    · exact congrArg ServerView.connection (h.view b hP)
    · exact congrArg ServerView.tunnel (h.view b hP)
  · have hnone : ∀ id, connectionKey id ≠ k ∧ tunnelKey id ≠ k :=
      fun id => ⟨fun hc => hex ⟨id, .inl hc⟩, fun ht => hex ⟨id, .inr ht⟩⟩
    rw [hs k hnone, hs' k hnone]

/-- States that agree on every server are equal. -/
theorem Agree.eq (h : Agree (fun _ => True) s s') (ho : s.serverOrder = s'.serverOrder)
    (hs : InternalNamed s) (hs' : InternalNamed s') : s = s' := by
  have hservers : s.servers = s'.servers :=
    Std.ExtTreeMap.ext_getElem? fun b => congrArg ServerView.status (h.view b trivial)
  have hincidents : s.incidents = s'.incidents :=
    Std.ExtTreeMap.ext_getElem? fun b => congrArg ServerView.incidents (h.view b trivial)
  have hinternal : s.internalIncidents = s'.internalIncidents :=
    Std.ExtTreeMap.ext_getElem? fun k => h.internal hs hs' fun _ hP => absurd trivial hP
  have hsnoozed := h.snoozed
  cases s
  cases s'
  simp_all

/-! ## Runs -/

/-- Whether an event concerns a server: its own, and those that come from no server. -/
def Event.concerns (e : Event) (id : String) : Bool := e.server? = none ∨ e.server? = some id

theorem Event.concerns_false {e : Event} {id : String} (h : e.concerns id = false) :
    ∃ a, e.server? = some a ∧ a ≠ id := by
  cases hs : e.server? with
  | none => simp [Event.concerns, hs] at h
  | some a => exact ⟨a, rfl, by simpa [Event.concerns, hs] using h⟩

section Run

variable (serverIds : List String) (snoozes : KeyMap OffsetDateTime)

/-- The part of a server follows from the events that concern it. -/
theorem agree_of_concerns {b : String} {events events' : List Event}
    (h : events.filter (·.concerns b) = events'.filter (·.concerns b)) :
    Agree (· = b) ((start formatIncidentTime serverIds snoozes).run events)
      ((start formatIncidentTime serverIds snoozes).run events') := by
  have hpurge (es : List Event) := (agree_purge formatIncidentTime (P := (· = b))
    (k := (·.concerns b)) (fun _ => Event.concerns_false) (by grind [Event.concerns])
    (AppState.new serverIds snoozes) es).1
  refine (hpurge events).trans ?_
  rw [h]
  exact (hpurge events').symm

/-- Nothing is ever recorded for a server that is not configured. -/
theorem view_run_unknown {b : String} (hb : b ∉ serverIds) (events : List Event) :
    ((start formatIncidentTime serverIds snoozes).run events).view b = ⟨none, none, none, none⟩ := by
  refine (start formatIncidentTime serverIds snoozes).invariant
    (I := fun s => s.view b = ⟨none, none, none, none⟩) ?_ ?_ events
  · exact (view_new serverIds snoozes b).trans (by simp [hb])
  · intro s e h
    refine (view_reduce formatIncidentTime e b).trans ?_
    rw [h]
    split
    · rfl
    · cases e <;> rfl

end Run

end Reduce

/-- One server cannot influence another. Deleting the events of a server leaves the parts of the
others, the internal incidents not named after it, the snoozes and what is seen of the remaining
events as they were. So two interleavings that agree on what each configured server and the user
did end in the same state. -/
theorem reducer_isolates_servers (formatIncidentTime : OffsetDateTime → String)
    (isLoopbackIp : String → Bool) (config : Config) (snoozes : KeyMap OffsetDateTime)
    (hvalid : config.validate isLoopbackIp = .ok ()) :
    let R := start formatIncidentTime (config.servers.map (·.id)) snoozes
    (∀ (a : String) (events : List Event),
      let kept := events.filter fun e => e.server? ≠ some a
      (∀ b : String, b ≠ a →
        (R.run events).servers[b]? = (R.run kept).servers[b]? ∧
        (R.run events).incidents[b]? = (R.run kept).incidents[b]?) ∧
      (∀ k : String, k ≠ connectionKey a → k ≠ tunnelKey a →
        (R.run events).internalIncidents[k]? = (R.run kept).internalIncidents[k]?) ∧
      (R.run events).snoozed = (R.run kept).snoozed ∧
      ((events.zip (R.outputs events)).filter fun p => p.1.server? ≠ some a).map
          (fun p => seen p.1 p.2) =
        (kept.zip (R.outputs kept)).map fun p => seen p.1 p.2) ∧
    ∀ events events' : List Event,
      (∀ server ∈ config.servers, events.filter (·.concerns server.id) =
        events'.filter (·.concerns server.id)) →
      R.run events = R.run events' := by
  intro R
  have hnamed := internalNamed_run formatIncidentTime (config.servers.map (·.id)) snoozes
  refine ⟨?_, ?_⟩
  · intro a events kept
    obtain ⟨hagree, hseen⟩ := agree_purge formatIncidentTime (P := fun b => b ≠ a)
      (k := fun e => e.server? ≠ some a) (by simp) (by grind)
      (AppState.new (config.servers.map (·.id)) snoozes) events
    refine ⟨?_, ?_, hagree.snoozed, hseen⟩
    · intro b hb
      exact ⟨congrArg ServerView.status (hagree.view b hb),
        congrArg ServerView.incidents (hagree.view b hb)⟩
    · intro k hc ht
      refine hagree.internal (hnamed events) (hnamed kept) ?_
      intro id hid
      have hid' : id = a := not_not.mp hid
      subst hid'
      exact ⟨hc.symm, ht.symm⟩
  · intro events events' hproj
    have hserver (server : ServerConfig) (hs : server ∈ config.servers) :=
      agree_of_concerns formatIncidentTime (config.servers.map (·.id)) snoozes (hproj server hs)
    obtain ⟨first, hfirst⟩ := List.exists_mem_of_ne_nil _ (validate_ok isLoopbackIp hvalid).1
    refine Agree.eq ⟨(hserver first hfirst).snoozed, ?_⟩ ?_ (hnamed events) (hnamed events')
    · intro b _
      by_cases hb : b ∈ config.servers.map (·.id)
      · obtain ⟨server, hs, rfl⟩ := List.mem_map.mp hb
        exact (hserver server hs).view _ rfl
      · exact (view_run_unknown formatIncidentTime _ snoozes hb events).trans
          (view_run_unknown formatIncidentTime _ snoozes hb events').symm
    · exact (serverOrder_run formatIncidentTime _ snoozes events).trans
        (serverOrder_run formatIncidentTime _ snoozes events').symm

/-- A configuration with one tunneled and one direct server. -/
def sampleConfig : Config where
  servers := [
    { id := "web", addr := "localhost:8080",
      tunnel := some { customCommand := some { command := ["forward"] } } },
    { id := "db", addr := "db:443", tls := some {} }]

theorem reducer_isolates_servers_sample :
    sampleConfig.validate (fun _ => false) = .ok () ∧
    let R := start (fun _ => "") ["web", "db"] ∅
    R.run [.connected "web" 1, .disconnected "db" 2 "refused"] =
      R.run [.disconnected "db" 2 "refused", .connected "web" 1] := by
  have hvalid : sampleConfig.validate (fun _ => false) = .ok () := by rfl
  exact ⟨hvalid, (reducer_isolates_servers (fun _ => "") (fun _ => false) sampleConfig ∅ hvalid).2
    _ _ (by decide)⟩

end Client
end Montray
