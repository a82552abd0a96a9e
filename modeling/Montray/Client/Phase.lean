import Montray.Client.Network

/-!
# Montray.Client.Phase

What a client's stream looks like: a small automaton over the events of one server, and the proof
that whatever the network, the tunnel process and the scheduler do, `runClient` keeps to it.

* `Phase.next`: which event may come in which phase. A tunneled server is `ready` between a
  `TunnelReady` and the first outcome of its socket; a direct one starts there.
* `emits_phase`: every stream of a client is a run of the automaton.
-/

namespace Montray
namespace Client

open Lib

inductive Phase where
  /-- No event yet. -/
  | fresh
  /-- The tunnel is ready and its socket has no outcome yet. -/
  | ready
  | up
  | down
  /-- The tunnel failed. -/
  | failed
  deriving DecidableEq, Repr

namespace Phase

/-- Where a connection task starts. -/
def base (tunneled : Bool) : Phase := if tunneled then .ready else .fresh

theorem base_ne_up (tunneled : Bool) : base tunneled ≠ .up := by
  cases tunneled <;> simp [base]

theorem base_ne_failed (tunneled : Bool) : base tunneled ≠ .failed := by
  cases tunneled <;> simp [base]

def next (tunneled : Bool) (p : Phase) : Event → Option Phase
  | .connected _ _ => if p = base tunneled ∨ p = .down then some .up else none
  | .disconnected _ _ _ => if p = base tunneled ∨ p = .down ∨ p = .up then some .down else none
  | .tunnelReady _ _ => if tunneled ∧ (p = .fresh ∨ p = .failed) then some .ready else none
  | .tunnelFailed _ _ _ => if tunneled then some .failed else none
  | .heartbeat _ _ => if p = .up then some .up else none
  | .notification _ _ _ => if p = .up then some .up else none
  | _ => none

def run (tunneled : Bool) (p : Phase) (events : List Event) : Option Phase :=
  events.foldlM (next tunneled) p

@[simp] theorem run_nil (tunneled : Bool) (p : Phase) : run tunneled p [] = some p := rfl

@[simp] theorem run_singleton (tunneled : Bool) (p : Phase) (e : Event) :
    run tunneled p [e] = next tunneled p e := by
  simp [run]

theorem run_append (tunneled : Bool) (p : Phase) (es es' : List Event) :
    run tunneled p (es ++ es') = (run tunneled p es).bind fun q => run tunneled q es' := by
  simp [run, List.foldlM_append, bind]

theorem run_of_append {tunneled : Bool} {p q : Phase} {es es' : List Event}
    (h : p.run tunneled (es ++ es') = some q) : ∃ p', p.run tunneled es = some p' := by
  rw [run_append] at h
  obtain ⟨p', hp', -⟩ := Option.bind_eq_some_iff.mp h
  exact ⟨p', hp'⟩

theorem run_snoc {tunneled : Bool} {p q : Phase} {es : List Event} {e : Event} :
    p.run tunneled (es ++ [e]) = some q ↔
      ∃ p', p.run tunneled es = some p' ∧ p'.next tunneled e = some q := by
  rw [run_append, Option.bind_eq_some_iff]
  simp only [run_singleton]

/-- `ready` is entered by a `TunnelReady`, and left by the next event. -/
theorem ready_last {tunneled : Bool} {es : List Event}
    (h : Phase.fresh.run tunneled es = some .ready) :
    ∃ id now, es.getLast? = some (.tunnelReady id now) := by
  rcases List.eq_nil_or_concat' es with rfl | ⟨es, e, rfl⟩
  · cases h
  · obtain ⟨p, -, hnext⟩ := run_snoc.mp h
    cases e <;> simp only [next, Option.ite_none_right_eq_some, Option.some.injEq, reduceCtorEq,
      and_false] at hnext
    simp

end Phase

/-! ## The connection task -/

/-- The phases a program point of the connection task may be in, while events are received. -/
def ConnectionPc.InPhase (tunneled : Bool) (id : String) (p : Phase) : ConnectionPc → Prop
  | .prepare => p = .base tunneled
  | .retry _ => p = .base tunneled ∨ p = .down
  | .request _ => p = .base tunneled ∨ p = .down
  | .connect _ => p = .base tunneled ∨ p = .down
  | .settle _ _ => p = .base tunneled ∨ p = .down ∨ p = .up
  | .send e .read => e.server? = some id ∧ p.next tunneled e = some .up
  | .send e _ => e.server? = some id ∧ p.next tunneled e = some .down
  | .read => p = .up
  | .stopped => p = .base tunneled ∨ p = .down ∨ p = .up

section Step

variable {decodeTextMessage : String → Except Chain (Option NotificationData)}
  {fromUtf8 : List UInt8 → Except String String} {options : ClientOptions} {server : ServerConfig}
  {tunneled : Bool} {p : Phase}

theorem receive_send {now : OffsetDateTime} {result : ReadResult} {e : Event}
    (h : receive decodeTextMessage fromUtf8 options server now result = .send e) :
    e.server? = some server.id ∧ Phase.up.next tunneled e = some .up := by
  have htext (text : String) (h : receiveText decodeTextMessage server now text = .send e) :
      e.server? = some server.id ∧ Phase.up.next tunneled e = some .up := by
    unfold receiveText at h
    split at h <;> cases h
    exact ⟨rfl, rfl⟩
  unfold receive at h
  split at h
  case h_4 =>
    cases h
    exact ⟨rfl, rfl⟩
  case h_5 =>
    split at h
    · cases h
    · exact htext _ h
  case h_6 =>
    split at h
    · cases h
    · exact htext _ h
  all_goals cases h

theorem connectionLost_inPhase (delay : Nat) (error : String) (now : OffsetDateTime)
    (hp : p = .base tunneled ∨ p = .down ∨ p = .up) :
    (connectionLost options server tunneled delay error now).InPhase tunneled server.id p := by
  unfold connectionLost
  split
  · exact hp
  · exact ⟨rfl, if_pos hp⟩

theorem preparingFailed_inPhase (chain : Chain) (now : OffsetDateTime)
    (hp : p = .base tunneled ∨ p = .down) :
    (preparingFailed server chain now).InPhase tunneled server.id p :=
  ⟨rfl, if_pos (hp.imp_right .inl)⟩

theorem AfterSend.ok_inPhase {e : Event} {next : AfterSend}
    (h : (ConnectionPc.send e next).InPhase tunneled server.id p) :
    ∃ p', p.next tunneled e = some p' ∧ next.ok.InPhase tunneled server.id p' := by
  cases next with
  | stop => exact ⟨_, h.2, .inr (.inl rfl)⟩
  | retry delay => exact ⟨_, h.2, .inr rfl⟩
  | read => exact ⟨_, h.2, rfl⟩

theorem ConnectionPc.InPhase.event_server {e : Event} {next : AfterSend}
    (h : (ConnectionPc.send e next).InPhase tunneled server.id p) : e.server? = some server.id := by
  cases next <;> exact h.1

/-- What a step of the connection task sends is a run of the automaton. -/
theorem connectionStep_inPhase {stop : Bool} {c c' : ConnectionPc} {a : ConnectionAction}
    {out : List Event}
    (h : connectionStep decodeTextMessage fromUtf8 options server tunneled stop true c a =
      some (c', out))
    (hp : c.InPhase tunneled server.id p) :
    (∃ p', p.run tunneled out = some p' ∧ c'.InPhase tunneled server.id p') ∧
      ∀ e ∈ out, e.server? = some server.id := by
  -- All but a completed send leave the phase as it is.
  have hsilent (hc : c'.InPhase tunneled server.id p) (ho : out = []) :
      (∃ p', p.run tunneled out = some p' ∧ c'.InPhase tunneled server.id p') ∧
        ∀ e ∈ out, e.server? = some server.id := by
    subst ho
    exact ⟨⟨p, rfl, hc⟩, by simp⟩
  cases c with
  | prepare =>
    cases a <;> simp only [connectionStep, reduceCtorEq] at h
    case prepared result now =>
      cases result <;> cases h
      · exact hsilent (preparingFailed_inPhase _ _ (.inl hp)) rfl
      · exact hsilent (.inl hp) rfl
  | retry delay =>
    cases a <;> simp only [connectionStep, reduceCtorEq] at h
    case slept => cases h; exact hsilent hp rfl
    case shutdown =>
      split at h <;> cases h
      exact hsilent (hp.imp_right .inl) rfl
  | request delay =>
    cases a <;> simp only [connectionStep, reduceCtorEq] at h
    case requested result now =>
      cases result <;> cases h
      · exact hsilent (preparingFailed_inPhase _ _ hp) rfl
      · exact hsilent hp rfl
  | connect delay =>
    cases a <;> simp only [connectionStep, reduceCtorEq] at h
    case connected result now =>
      split at h <;> cases h
      · exact hsilent ⟨rfl, if_pos hp⟩ rfl
      · exact hsilent (connectionLost_inPhase _ _ _ (hp.imp_right .inl)) rfl
    case shutdown =>
      split at h <;> cases h
      exact hsilent (hp.imp_right .inl) rfl
  | settle delay error =>
    cases a <;> simp only [connectionStep, reduceCtorEq] at h
    case settled now =>
      split at h <;> cases h
      · exact hsilent hp rfl
      · exact hsilent ⟨rfl, if_pos hp⟩ rfl
    case shutdown =>
      split at h <;> cases h
      exact hsilent hp rfl
  | read =>
    cases a <;> simp only [connectionStep, reduceCtorEq] at h
    case received result now =>
      split at h <;> cases h
      · rename_i hr
        cases hp
        exact hsilent (receive_send hr) rfl
      · exact hsilent hp rfl
      · exact hsilent (connectionLost_inPhase _ _ _ (.inr (.inr hp))) rfl
    case shutdown =>
      split at h <;> cases h
      exact hsilent (.inr (.inr hp)) rfl
  | send e next =>
    cases a <;> simp only [connectionStep, if_true, reduceCtorEq] at h
    cases h
    obtain ⟨p', hnext, hp'⟩ := AfterSend.ok_inPhase hp
    exact ⟨⟨p', by simpa using hnext, hp'⟩, by simpa using hp.event_server⟩
  | stopped => cases a <;> simp only [connectionStep, reduceCtorEq] at h

theorem connectionStep_dead {stop : Bool} {c c' : ConnectionPc} {a : ConnectionAction}
    {out : List Event}
    (h : connectionStep decodeTextMessage fromUtf8 options server tunneled stop false c a =
      some (c', out)) : out = [] := by
  unfold connectionStep at h
  split at h <;> (try split at h) <;> cases h <;> first | rfl | contradiction

/-! ## The supervisor -/

def TunnelPc.InPhase (id : String) (p : Phase) : TunnelPc → Prop
  | .top => p = .fresh ∨ p = .failed
  | .starting => p = .fresh ∨ p = .failed
  | .reap => p = .fresh ∨ p = .failed
  | .sendReady _ => p = .fresh ∨ p = .failed
  | .ready c => c.InPhase true id p
  | .join c _ => c.InPhase true id p
  | .leave c => c.InPhase true id p
  | .waitToRestart => p = .failed
  | .drain _ => True
  | .sendFailure _ _ => True
  | .stopped => True

theorem nestedStep_inPhase {stop : Bool} {c : ConnectionPc} {a : ConnectionAction}
    {f : ConnectionPc → TunnelPc} {t' : TunnelPc} {out : List Event}
    (h : (nestedStep decodeTextMessage fromUtf8 options server stop true c a).map
      (fun r => (f r.1, r.2)) = some (t', out))
    (hp : c.InPhase true server.id p)
    (hf : ∀ c q, c.InPhase true server.id q → (f c).InPhase server.id q) :
    (∃ p', p.run true out = some p' ∧ t'.InPhase server.id p') ∧
      ∀ e ∈ out, e.server? = some server.id := by
  obtain ⟨⟨c', out'⟩, hstep, heq⟩ := Option.map_eq_some_iff.mp h
  cases heq
  obtain ⟨⟨p', hrun, hp'⟩, hserver⟩ := connectionStep_inPhase hstep hp
  exact ⟨⟨p', hrun, hf _ _ hp'⟩, hserver⟩

theorem tunnelStep_inPhase {probe : Option String} {shutdown : Bool} {t t' : TunnelPc}
    {a : ClientAction} {out : List Event}
    (h : tunnelStep decodeTextMessage fromUtf8 options server probe shutdown true t a =
      some (t', out))
    (hp : t.InPhase server.id p) :
    (∃ p', p.run true out = some p' ∧ t'.InPhase server.id p') ∧
      ∀ e ∈ out, e.server? = some server.id := by
  have hsilent (ht : t'.InPhase server.id p) (ho : out = []) :
      (∃ p', p.run true out = some p' ∧ t'.InPhase server.id p') ∧
        ∀ e ∈ out, e.server? = some server.id := by
    subst ho
    exact ⟨⟨p, rfl, ht⟩, by simp⟩
  cases t with
  | top =>
    cases a <;> simp only [tunnelStep, reduceCtorEq] at h
    case spawned result now =>
      cases result <;> simp only at h <;> (repeat' split at h) <;> cases h
      · exact hsilent trivial rfl
      · exact hsilent hp rfl
      · exact hsilent hp rfl
    case shutdown =>
      split at h <;> cases h
      exact hsilent trivial rfl
  | starting =>
    cases a <;> simp only [tunnelStep, reduceCtorEq] at h
    case marker found now => cases found <;> cases h <;> exact hsilent hp rfl
    case exited status => cases h; exact hsilent trivial rfl
    case shutdown =>
      split at h <;> cases h
      exact hsilent trivial rfl
  | reap =>
    cases a <;> simp only [tunnelStep, reduceCtorEq] at h
    cases h
    exact hsilent trivial rfl
  | sendReady now =>
    cases a <;> simp only [tunnelStep, if_true, reduceCtorEq] at h
    cases h
    exact ⟨⟨.ready, by rw [Phase.run_singleton]; exact if_pos ⟨rfl, hp⟩, rfl⟩,
      by simp [Event.server?]⟩
  | ready c =>
    cases a <;> try simp only [tunnelStep, reduceCtorEq] at h
    case connection action => exact nestedStep_inPhase h hp fun _ _ hq => hq
    case exited status => cases h; exact hsilent hp rfl
    case joined => cases c <;> cases h; exact hsilent trivial rfl
    case shutdown =>
      split at h <;> cases h
      exact hsilent hp rfl
  | join c status =>
    cases a <;> try simp only [tunnelStep, reduceCtorEq] at h
    case connection action =>
      exact nestedStep_inPhase (f := fun c => .join c status) h hp fun _ _ hq => hq
    case joined => cases c <;> cases h; exact hsilent trivial rfl
  | leave c =>
    cases a <;> try simp only [tunnelStep, reduceCtorEq] at h
    case connection action => exact nestedStep_inPhase h hp fun _ _ hq => hq
    case joined => cases c <;> cases h; exact hsilent trivial rfl
  | drain status =>
    cases a <;> simp only [tunnelStep, reduceCtorEq] at h
    cases h
    exact hsilent trivial rfl
  | sendFailure now details =>
    cases a <;> simp only [tunnelStep, if_true, reduceCtorEq] at h
    cases h
    exact ⟨⟨.failed, rfl, rfl⟩, by simp [Event.server?]⟩
  | waitToRestart =>
    cases a <;> simp only [tunnelStep, reduceCtorEq] at h
    case slept => cases h; exact hsilent (.inr hp) rfl
    case shutdown =>
      split at h <;> cases h
      exact hsilent trivial rfl
  | stopped => cases a <;> simp only [tunnelStep, reduceCtorEq] at h

theorem tunnelStep_dead {probe : Option String} {shutdown : Bool} {t t' : TunnelPc}
    {a : ClientAction} {out : List Event}
    (h : tunnelStep decodeTextMessage fromUtf8 options server probe shutdown false t a =
      some (t', out)) : out = [] := by
  have hnested {stop : Bool} {c : ConnectionPc} {a : ConnectionAction}
      {f : ConnectionPc × List Event → TunnelPc × List Event} (hf : ∀ r, (f r).2 = r.2)
      (h : (nestedStep decodeTextMessage fromUtf8 options server stop false c a).map f =
        some (t', out)) : out = [] := by
    obtain ⟨⟨c', out'⟩, hstep, heq⟩ := Option.map_eq_some_iff.mp h
    have hout := hf (c', out')
    rw [heq] at hout
    exact hout.trans (connectionStep_dead hstep)
  unfold tunnelStep at h
  split at h <;> first | exact hnested (fun _ => rfl) h | skip
  all_goals (repeat' split at h) <;> cases h <;> first | rfl | contradiction

/-! ## The client -/

def Task.InPhase (tunneled : Bool) (id : String) (p : Phase) : Task → Prop
  | .direct c => tunneled = false ∧ c.InPhase false id p
  | .tunneled t => tunneled = true ∧ t.InPhase id p

/-- What is known of a client that has sent `events`: they are a run of the automaton, and as long
as they are received the task is where that run ends. -/
structure ClientState.Sent (tunneled : Bool) (id : String) (events : List Event) (s : ClientState) :
    Prop where
  server : ∀ e ∈ events, e.server? = some id
  phase : ∃ p, Phase.fresh.run tunneled events = some p ∧
    (s.alive = true → s.task.InPhase tunneled id p)

variable {s s' : ClientState} {events out : List Event}

/-- A step of a client is the environment's, the connection task's or the supervisor's. -/
theorem clientStep_cases {a : ClientAction}
    (hs : clientStep decodeTextMessage fromUtf8 options server s a = some (s', out)) :
    (out = [] ∧ s'.task = s.task ∧ (s'.alive = true → s.alive = true)) ∨
    (s'.alive = s.alive ∧ ∃ c c' action, s.task = .direct c ∧ s'.task = .direct c' ∧
      connectionStep decodeTextMessage fromUtf8 options server false s.shutdown s.alive c action =
        some (c', out)) ∨
    (s'.alive = s.alive ∧ ∃ t t', s.task = .tunneled t ∧ s'.task = .tunneled t' ∧
      tunnelStep decodeTextMessage fromUtf8 options server (readinessProbe server) s.shutdown
        s.alive t a = some (t', out)) := by
  unfold clientStep at hs
  split at hs
  · cases hs
    exact .inl ⟨rfl, rfl, id⟩
  · cases hs
    exact .inl ⟨rfl, rfl, fun h => absurd h (by simp)⟩
  · split at hs
    · rename_i c action htask _ _
      obtain ⟨⟨c', out'⟩, hstep, heq⟩ := Option.map_eq_some_iff.mp hs
      cases heq
      exact .inr (.inl ⟨rfl, c, c', action, htask, rfl, hstep⟩)
    · cases hs
    · rename_i t htask _ _
      obtain ⟨⟨t', out'⟩, hstep, heq⟩ := Option.map_eq_some_iff.mp hs
      cases heq
      exact .inr (.inr ⟨rfl, t, t', htask, rfl, hstep⟩)

/-- The step lemma of `ClientState.Sent`. -/
theorem ClientState.Sent.step {a : ClientAction} (h : s.Sent tunneled server.id events)
    (hs : clientStep decodeTextMessage fromUtf8 options server s a = some (s', out)) :
    s'.Sent tunneled server.id (events ++ out) := by
  obtain ⟨hserver, p, hrun, hp⟩ := h
  -- Once the receiver is gone nothing is sent, and the task no longer matters.
  have hdead (hd : s'.alive = false) (ho : out = []) :
      s'.Sent tunneled server.id (events ++ out) := by
    subst ho
    rw [List.append_nil]
    exact ⟨hserver, p, hrun, fun ha => by rw [hd] at ha; cases ha⟩
  have hlive (h : (∃ p', p.run tunneled out = some p' ∧ s'.task.InPhase tunneled server.id p') ∧
      ∀ e ∈ out, e.server? = some server.id) : s'.Sent tunneled server.id (events ++ out) := by
    obtain ⟨⟨p', hrun', hp'⟩, hserver'⟩ := h
    refine ⟨?_, p', ?_, fun _ => hp'⟩
    · intro e he
      exact (List.mem_append.mp he).elim (hserver e) (hserver' e)
    · rw [Phase.run_append, hrun]
      exact hrun'
  rcases clientStep_cases hs with ⟨rfl, htask, halive⟩ | ⟨halive, c, c', action, hc, hc', hstep⟩ |
    ⟨halive, t, t', ht, ht', hstep⟩
  · rw [List.append_nil]
    exact ⟨hserver, p, hrun, fun ha => htask ▸ hp (halive ha)⟩
  · cases ha : s.alive with
    | false =>
      rw [ha] at hstep
      exact hdead (halive.trans ha) (connectionStep_dead hstep)
    | true =>
      rw [ha] at hstep
      have htask := hp ha
      rw [hc] at htask
      obtain ⟨rfl, hin⟩ := htask
      obtain ⟨⟨p', hrun', hp'⟩, hserver'⟩ := connectionStep_inPhase hstep hin
      exact hlive ⟨⟨p', hrun', by rw [hc']; exact ⟨rfl, hp'⟩⟩, hserver'⟩
  · cases ha : s.alive with
    | false =>
      rw [ha] at hstep
      exact hdead (halive.trans ha) (tunnelStep_dead hstep)
    | true =>
      rw [ha] at hstep
      have htask := hp ha
      rw [ht] at htask
      obtain ⟨rfl, hin⟩ := htask
      obtain ⟨⟨p', hrun', hp'⟩, hserver'⟩ := tunnelStep_inPhase hstep hin
      exact hlive ⟨⟨p', hrun', by rw [ht']; exact ⟨rfl, hp'⟩⟩, hserver'⟩

theorem forServer_none : CommandSpec.forServer server = .ok none ↔ server.tunnel = none := by
  unfold CommandSpec.forServer
  cases server.tunnel with
  | none => simp
  | some tunnel =>
    simp only [reduceCtorEq, iff_false]
    repeat' split
    all_goals simp

variable (decodeTextMessage fromUtf8 options server) in
theorem runClient_sent_init :
    (runClient decodeTextMessage fromUtf8 options server).init.Sent server.tunnel.isSome
      server.id [] := by
  refine ⟨by simp, .fresh, rfl, fun _ => ?_⟩
  simp only [runClient]
  have htunneled (hne : CommandSpec.forServer server ≠ .ok none) : server.tunnel.isSome = true := by
    rw [← Option.ne_none_iff_isSome]
    exact fun hnone => hne (forServer_none.mpr hnone)
  split
  · rename_i hspec
    rw [forServer_none.mp hspec]
    exact ⟨rfl, rfl⟩
  · rename_i hspec
    exact ⟨htunneled (by rw [hspec]; simp), .inl rfl⟩
  · rename_i hspec
    exact ⟨htunneled (by rw [hspec]; simp), trivial⟩

/-- Every stream a client can send is a run of the automaton, and all its events are the
server's. -/
theorem emits_phase (h : Emits decodeTextMessage fromUtf8 options server events) :
    (∀ e ∈ events, e.server? = some server.id) ∧
      ∃ p, Phase.fresh.run server.tunnel.isSome events = some p := by
  obtain ⟨s, hpath⟩ := h
  have hsent : s.Sent server.tunnel.isSome server.id events :=
    hpath.history (I := fun events s => s.Sent server.tunnel.isSome server.id events)
      (runClient_sent_init decodeTextMessage fromUtf8 options server)
      fun _ _ _ _ _ hI hs => hI.step hs
  obtain ⟨hserver, p, hrun, -⟩ := hsent
  exact ⟨hserver, p, hrun⟩

end Step

end Client
end Montray
