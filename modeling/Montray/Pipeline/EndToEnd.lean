import Montray.Pipeline.Stages

/-!
# Montray.Pipeline.EndToEnd

What the desktop client shows is what the collectors observed last.

* `Inv`: every stage of the machine agrees with the one before it, up to what is on its way.
* `ui_shows_last_observations`: with nothing on its way the incidents held for the server are the
  keys whose last observation was not OK, one for one.
-/

namespace Montray

open Lib

namespace Pipeline

/-! ## The invariant -/

/-- What the fan-out was given to publish last. -/
def published (s : Fanout.Sys) : List ItemWContext :=
  match s.core with
  | .fed n => n.ongoingIncidents.total
  | _ => s.board

/-- The incidents held for the server once the events on their way have been reduced. -/
def World.held (w : World) (id : String) : Option (List Client.Incident) :=
  (w.events ++ w.client.hand).foldl (Client.onIncidents id) w.app.incidents[id]?

section Run

variable (marshalTime : Time → Option String) (text : Json → String)
  (parse : String → Except String Json) (config : Client.ServerConfig)
  (formatIncidentTime : Client.OffsetDateTime → String) (serverIds : List String)
  (snoozes : KeyMap Client.OffsetDateTime)

/-- What was written to a subscription has been read and is held, or is on its way. -/
structure Delivered (written : List (Nat × Fanout.Message)) (held : Option (List Client.Incident))
    (socket : Socket) : Prop where
  unsubscribed : socket.sub = none → socket.pipe = []
  subscribed : ∀ sub, socket.sub = some sub → ∃ seen rest,
    Fanout.sentTo written sub = seen ++ rest ∧
    List.Forall₂ (Framed marshalTime text parse) rest socket.pipe ∧
    Reflects marshalTime config.id seen held

structure Inv (os : List Out) (w : World) : Prop where
  server : Guarded.Path Fanout.fanout (wrote os) w.server
  tracker : w.tracker = Tracker.tracker.run (calls os)
  published : ∀ order,
    published w.server = Tracker.itemsMapToSortedSlice order w.tracker.itemsNotOK
  app : ∃ reduced, w.app = (Client.start formatIncidentTime serverIds snoozes).run reduced ∧
    w.client.Sent config.tunnel.isSome config.id
      (Client.ofServer config.id reduced ++ Client.ofServer config.id w.events)
  alive : w.client.alive = true
  attached : w.socket.isSome = true → w.client.attached = true
  socket : ∀ socket, w.socket = some socket →
    Delivered marshalTime text parse config (wrote os) (w.held config.id) socket

variable {marshalTime text parse config formatIncidentTime serverIds snoozes}
  {refusal : Json → String} {rfc3339 : Client.Rfc3339}
  {fromUtf8 : List UInt8 → Except String String} {options : Client.ClientOptions}
  {os out : List Out} {w w' : World}

theorem Delivered.prune {written : List (Nat × Fanout.Message)}
    {held held' : Option (List Client.Incident)} {socket : Socket}
    (h : Delivered marshalTime text parse config written held socket)
    (hp : Option.Rel Client.Pruned held held') :
    Delivered marshalTime text parse config written held' socket where
  unsubscribed := h.unsubscribed
  subscribed sub hsub := by
    obtain ⟨seen, rest, hsent, hrest, hseen⟩ := h.subscribed sub hsub
    exact ⟨seen, rest, hsent, hrest, hseen.prune hp⟩

@[simp] theorem wrote_append (os os' : List Out) : wrote (os ++ os') = wrote os ++ wrote os' :=
  List.filterMap_append

@[simp] theorem calls_append (os os' : List Out) : calls (os ++ os') = calls os ++ calls os' :=
  List.filterMap_append

/-! ### The server -/

/-- A call publishes the incidents of the tracker, or has not changed them. -/
theorem Inv.feed {call : Tracker.Call}
    (h : Inv marshalTime text parse config formatIncidentTime serverIds snoozes os w)
    (hs : w.feed call = some (w', out)) :
    Inv marshalTime text parse config formatIncidentTime serverIds snoozes (os ++ out) w' := by
  have hkeyed : Tracker.Keyed w.tracker.itemsNotOK := by
    rw [h.tracker]
    exact Tracker.keyed_itemsNotOK _
  have hrun : (Tracker.feedItems w.tracker call).1 =
      Tracker.tracker.run (calls (os ++ [.fed call])) := by
    rw [calls_append, show calls [.fed call] = [call] from rfl, Mealy.run_snoc, ← h.tracker]
    rfl
  have hwrote : wrote (os ++ [.fed call]) = wrote os := by
    rw [wrote_append]
    exact List.append_nil _
  unfold World.feed at hs
  split at hs
  · rename_i hidle
    simp only at hs
    split at hs
    · rename_i hnone
      cases hs
      have hsame := (Tracker.step_none_iff (c := call) hkeyed).mp hnone
      refine ⟨hwrote ▸ h.server, hrun, ?_, h.app, h.alive, h.attached, hwrote ▸ h.socket⟩
      intro order
      rw [h.published order]
      exact congrArg _ hsame.symm
    · rename_i n hsome
      obtain ⟨⟨s', out'⟩, hstep, heq⟩ := Option.map_eq_some_iff.mp hs
      cases heq
      have hstep' := hstep
      simp only [Fanout.step, Fanout.coreStep, hidle, Option.some_or, Option.map_some,
        Option.some.injEq, Prod.mk.injEq] at hstep'
      obtain ⟨rfl, rfl⟩ := hstep'
      refine ⟨?_, hrun, ?_, h.app, h.alive, h.attached, hwrote ▸ h.socket⟩
      · have hpath := Guarded.Path.step (G := Fanout.fanout) (a := .feed n) h.server hstep
        rw [List.append_nil] at hpath
        exact hwrote ▸ hpath
      · intro order
        show n.ongoingIncidents.total = _
        rw [Tracker.notification_eq hsome]
        exact Tracker.itemsMapToSortedSlice_order _ _ (hkeyed.feedItems call)
  · cases hs

theorem published_core {s s' : Fanout.Sys} {a : Fanout.Action} (ha : isFeed a = false)
    (hs : Fanout.coreStep s a = some s') : published s' = published s := by
  cases a <;> simp only [Fanout.coreStep, reduceCtorEq] at hs
  case feed n => cases ha
  case boardSet =>
    split at hs <;> cases hs
    rename_i n hcore
    simp [published, hcore]
  case send =>
    split at hs
    · rename_i u hcore
      split at hs <;> cases hs
      simp [published, hcore]
    · cases hs
  case delivered =>
    split at hs <;> cases hs
    rename_i hcore
    simp [published, hcore]

theorem published_web {s s' : Fanout.Sys} {a : Fanout.Action} (hs : Fanout.webStep s a = some s') :
    published s' = published s := by
  unfold Fanout.webStep at hs
  split at hs <;> (repeat' split at hs) <;> cases hs <;> rfl

/-- Until the next call the fan-out only passes on what it was given. -/
theorem published_step {s s' : Fanout.Sys} {a : Fanout.Action} {out : List (Nat × Fanout.Message)}
    (ha : isFeed a = false) (hs : Fanout.step s a = some (s', out)) :
    published s' = published s := by
  unfold Fanout.step at hs
  split at hs
  · cases hs
    rfl
  · split at hs
    · obtain ⟨r, -, heq⟩ := Option.map_eq_some_iff.mp hs
      cases heq
      rfl
    · cases hs
  · obtain ⟨s1, hor, heq⟩ := Option.map_eq_some_iff.mp hs
    cases heq
    rcases Option.or_eq_some_iff.mp hor with hcore | ⟨-, hweb⟩
    · exact published_core ha hcore
    · exact published_web hweb

theorem wrote_map (l : List (Nat × Fanout.Message)) :
    wrote (l.map fun p => Out.wrote p.1 p.2) = l := by
  induction l with
  | nil => rfl
  | cons p l ih => exact congrArg (p :: ·) ih

theorem wrote_encoded (js : List Json) : wrote (js.map .encoded) = [] := by
  induction js with
  | nil => rfl
  | cons j js ih => exact ih

theorem calls_wrote (l : List (Nat × Fanout.Message)) (js : List Json) :
    calls ((l.map fun p => Out.wrote p.1 p.2) ++ js.map .encoded) = [] := by
  rw [calls_append]
  refine List.append_eq_nil_iff.mpr ⟨?_, ?_⟩
  · induction l with
    | nil => rfl
    | cons p l ih => exact ih
  · induction js with
    | nil => rfl
    | cons j js ih => exact ih

/-- What the server writes to the connection is framed and on its way. -/
theorem Delivered.write {written new : List (Nat × Fanout.Message)}
    {held : Option (List Client.Incident)} {socket socket' : Socket} {stamp : Time}
    {js : List Json} (h : Delivered marshalTime text parse config written held socket)
    (hw : socket.write marshalTime text stamp new = some (socket', js))
    (hparse : ∀ j ∈ js, parse (text j) = .ok j) :
    Delivered marshalTime text parse config (written ++ new) held socket' := by
  unfold Socket.write at hw
  cases hsub : socket.sub with
  | none =>
    rw [hsub] at hw
    cases hw
    exact ⟨h.unsubscribed, fun sub heq => by rw [hsub] at heq; cases heq⟩
  | some sub =>
    rw [hsub] at hw
    obtain ⟨frames, hframes, heq⟩ := Option.map_eq_some_iff.mp hw
    cases heq
    rw [Json.mapM_eq_some_iff] at hframes
    obtain ⟨seen, rest, hsent, hrest, hseen⟩ := h.subscribed sub hsub
    refine ⟨by simp, ?_⟩
    intro sub' hsub'
    cases hsub'
    refine ⟨seen, rest ++ Fanout.sentTo new sub, ?_, List.rel_append hrest ?_, hseen⟩
    · rw [← List.append_assoc, ← hsent]
      simp [Fanout.sentTo]
    · rw [List.forall₂_map_right_iff]
      have hjs : ∀ p ∈ frames, ∀ j ∈ p.2, parse (text j) = .ok j := fun p hp j hj =>
        hparse j (List.mem_flatMap.mpr ⟨p, hp, hj⟩)
      clear hw hparse
      generalize Fanout.sentTo new sub = messages at hframes ⊢
      induction hframes with
      | nil => exact .nil
      | cons hframe _ ih =>
        exact .cons ⟨stamp, _, hframe, hjs _ List.mem_cons_self⟩
          (ih fun p hp => hjs p (List.mem_cons_of_mem _ hp))

theorem Inv.serverStep {a : Fanout.Action} {stamp : Time}
    (h : Inv marshalTime text parse config formatIncidentTime serverIds snoozes os w)
    (hs : w.serverStep marshalTime text a stamp = some (w', out))
    (hparse : ∀ j, Out.encoded j ∈ out → parse (text j) = .ok j) :
    Inv marshalTime text parse config formatIncidentTime serverIds snoozes (os ++ out) w' := by
  unfold World.serverStep at hs
  split at hs
  · cases hs
  · rename_i hfeed
    obtain ⟨⟨s', new⟩, hstep, hs⟩ := Option.bind_eq_some_iff.mp hs
    have hpub : ∀ order, Pipeline.published s' =
        Tracker.itemsMapToSortedSlice order w.tracker.itemsNotOK := fun order =>
      (published_step (Bool.not_eq_true _ ▸ hfeed) hstep).trans (h.published order)
    have hpath := Guarded.Path.step (G := Fanout.fanout) h.server hstep
    -- Whatever is on the connection, the outputs are the messages and the values of their texts.
    have hassemble (socket : Option Socket) (js : List Json)
        (hsome : socket.isSome = true → w.socket.isSome = true)
        (hdel : ∀ x, socket = some x →
          Delivered marshalTime text parse config (wrote os ++ new) (w.held config.id) x) :
        Inv marshalTime text parse config formatIncidentTime serverIds snoozes
          (os ++ ((new.map fun p => Out.wrote p.1 p.2) ++ js.map .encoded))
          { w with server := s', socket := socket } := by
      have hwrote : wrote (os ++ ((new.map fun p => Out.wrote p.1 p.2) ++ js.map .encoded)) =
          wrote os ++ new := by
        rw [wrote_append, wrote_append, wrote_map, wrote_encoded, List.append_nil]
      refine ⟨hwrote ▸ hpath, ?_, hpub, h.app, h.alive, fun hx => h.attached (hsome hx),
        hwrote ▸ hdel⟩
      rw [calls_append, calls_wrote, List.append_nil]
      exact h.tracker
    simp only at hs
    split at hs
    · rename_i hnone
      cases hs
      have hinv := hassemble w.socket [] id
        (fun x hx => by rw [hnone] at hx; cases hx)
      simpa using hinv
    · rename_i socket hsocket
      obtain ⟨⟨socket', js⟩, hwrite, heq⟩ := Option.map_eq_some_iff.mp hs
      cases heq
      refine hassemble _ _ (fun _ => by rw [hsocket]; rfl) fun x hx => ?_
      cases hx
      exact (h.socket socket hsocket).write hwrite fun j hj =>
        hparse j (List.mem_append_right _ (List.mem_map_of_mem hj))

/-! ### The connection and the task -/

theorem Inv.subscribe {pipe : List Client.Message}
    (h : Inv marshalTime text parse config formatIncidentTime serverIds snoozes os w)
    (hsocket : w.socket = some ⟨none, pipe⟩) {s' : Fanout.Sys} {new : List (Nat × Fanout.Message)}
    (hs : Fanout.step w.server .subscribe = some (s', new)) :
    Inv marshalTime text parse config formatIncidentTime serverIds snoozes os
      { w with server := s', socket := some ⟨some w.server.nextSubID, pipe⟩ } := by
  have hpath := Guarded.Path.step (G := Fanout.fanout) (a := .subscribe) h.server hs
  have hpub := published_step rfl hs
  have hnil : pipe = [] := (h.socket _ hsocket).unsubscribed rfl
  -- The number of the subscription is new, so nothing has been written to it.
  have hfresh : Fanout.sentTo (wrote os) w.server.nextSubID = [] :=
    Fanout.sentTo_fresh (Fanout.inv_path h.server).fresh
  cases hs
  rw [List.append_nil] at hpath
  refine ⟨hpath, h.tracker, fun order => hpub.trans (h.published order), h.app, h.alive,
    fun _ => h.attached (by rw [hsocket]; rfl), ?_⟩
  intro socket heq
  cases heq
  refine ⟨by simp, ?_⟩
  intro sub hsub
  cases hsub
  exact ⟨[], [], hfresh, by rw [hnil]; exact .nil, .nil⟩

theorem clientStep_alive {c c' : Client.ClientState} {a : Client.ClientAction}
    {events : List Client.Event}
    {decode : String → Except Client.Chain (Option Client.NotificationData)}
    (hs : Client.clientStep decode fromUtf8 options config c a = some (c', events))
    (ha : a ≠ .dropReceiver) : c'.alive = c.alive := by
  unfold Client.clientStep at hs
  split at hs
  · cases hs
    rfl
  · exact absurd rfl ha
  · split at hs
    · obtain ⟨r, -, heq⟩ := Option.map_eq_some_iff.mp hs
      cases heq
      rfl
    · cases hs
    · obtain ⟨r, -, heq⟩ := Option.map_eq_some_iff.mp hs
      cases heq
      rfl

theorem ofServer_self {id : String} {events : List Client.Event}
    (h : ∀ e ∈ events, e.server? = some id) : Client.ofServer id events = events := by
  rw [Client.ofServer, List.filter_eq_self]
  intro e he
  simpa using h e he

/-- A step of the task, with what the connection it goes on with has to satisfy. -/
theorem Inv.clientStep {a : Client.ClientAction} {socket : Option Socket}
    {decode : String → Except Client.Chain (Option Client.NotificationData)}
    (h : Inv marshalTime text parse config formatIncidentTime serverIds snoozes os w)
    (hs : w.clientStep decode fromUtf8 options config a socket = some (w', out))
    (ha : a ≠ .dropReceiver)
    (hdel : ∀ c' events x,
      Client.clientStep decode fromUtf8 options config w.client a = some (c', events) →
      c'.attached = true → socket = some x →
      Delivered marshalTime text parse config (wrote os)
        ((w.events ++ (events ++ c'.hand)).foldl (Client.onIncidents config.id)
          w.app.incidents[config.id]?) x) :
    Inv marshalTime text parse config formatIncidentTime serverIds snoozes (os ++ out) w' := by
  obtain ⟨⟨c', events⟩, hstep, hs⟩ := Option.bind_eq_some_iff.mp hs
  split at hs <;> cases hs
  obtain ⟨reduced, happ, hsent⟩ := h.app
  have hsent' := hsent.step hstep
  have hevents : Client.ofServer config.id events = events :=
    ofServer_self fun e he => hsent'.server e (List.mem_append_right _ he)
  rw [List.append_nil]
  refine ⟨h.server, h.tracker, h.published, ⟨reduced, happ, ?_⟩,
    (clientStep_alive hstep ha).trans h.alive, ?_, ?_⟩
  · rw [Client.ofServer_append, hevents, ← List.append_assoc]
    exact hsent'
  · simp only
    split
    · exact fun _ => ‹_›
    · simp
  · intro x hx
    simp only at hx
    split at hx
    · rename_i hattached
      have hheld := hdel c' events x hstep hattached hx
      rwa [← List.append_assoc] at hheld
    · cases hx

/-- A step that takes no frame of the server leaves what is held as it is. -/
theorem held_clientStep {a : Client.ClientAction} {c' : Client.ClientState}
    {decode : String → Except Client.Chain (Option Client.NotificationData)}
    {events : List Client.Event}
    (hs : Client.clientStep decode fromUtf8 options config w.client a = some (c', events))
    (hattached : w.client.attached = true) (hattached' : c'.attached = true)
    (ha : ∀ result now, a = .connection (.received result now) → reserved a = false) :
    (w.events ++ (events ++ c'.hand)).foldl (Client.onIncidents config.id)
      w.app.incidents[config.id]? = w.held config.id := by
  unfold World.held
  cases Client.clientStep_handed hs hattached hattached' with
  | kept _ hkept => rw [hkept]
  | connected now _ hnew =>
    rw [hnew, ← List.append_assoc, List.foldl_append]
    rfl
  | received result now haction hnil hout hnew =>
    have hnone : c'.hand = [] := by
      rcases hnew with ⟨e, hsend, -⟩ | ⟨-, hnone⟩
      · have hr := ha result now haction
        rw [haction] at hr
        cases result with
        | message m =>
          cases m with
          | text _ => cases hr
          | binary _ => cases hr
          | close => cases hsend
          | other => cases hsend
        | _ => cases hsend
      · exact hnone
    rw [hnil, hout, hnone]
    rfl

/-- Reading a frame takes the message from the way into what is held. -/
theorem Inv.read {sub : Option Nat} {f : Client.Message} {pipe : List Client.Message}
    {now : Client.OffsetDateTime}
    (h : Inv marshalTime text parse config formatIncidentTime serverIds snoozes os w)
    (hsocket : w.socket = some ⟨sub, f :: pipe⟩)
    (hs : w.clientStep (Client.Protocol.decodeTextMessage parse refusal rfc3339) fromUtf8 options
      config (.connection (.received (.message f) now)) (some ⟨sub, pipe⟩) = some (w', out)) :
    Inv marshalTime text parse config formatIncidentTime serverIds snoozes (os ++ out) w' := by
  have hattached := h.attached (by rw [hsocket]; rfl)
  have hdel := h.socket _ hsocket
  refine h.clientStep hs (by simp) ?_
  intro c' events x hstep hattached' hx
  cases hx
  refine ⟨fun hnone => ?_, fun id hid => ?_⟩
  · cases hdel.unsubscribed hnone
  obtain ⟨seen, rest, hsent, hrest, hseen⟩ := hdel.subscribed id hid
  cases hrest with
  | cons hframed hrest =>
    rename_i m rest
    refine ⟨seen ++ [m], rest, by rw [hsent, List.append_assoc]; rfl, hrest, ?_⟩
    cases Client.clientStep_handed hstep hattached hattached' with
    | kept hne _ => exact absurd rfl (hne _ _)
    | connected _ hne _ => exact absurd rfl (hne _ _)
    | received result now' haction hnil hout hnew =>
      cases haction
      unfold World.held at hseen
      rw [hnil, List.append_nil] at hseen
      rw [hout, List.nil_append, List.foldl_append]
      rcases receive_framed refusal rfc3339 fromUtf8 options config hframed now with
        ⟨error, hlost⟩ | ⟨e, hsend, hsaid⟩
      · rcases hnew with ⟨e, hsend, -⟩ | ⟨hignore, -⟩
        · cases hlost.symm.trans hsend
        · cases hlost.symm.trans hignore
      · have hhand : c'.hand = [e] := by
          rcases hnew with ⟨e', hsend', hhand⟩ | ⟨hignore, -⟩
          · cases hsend.symm.trans hsend'
            exact hhand
          · cases hsend.symm.trans hignore
        rw [hhand, List.foldl_cons, List.foldl_nil]
        rcases hsaid with ⟨hnone, hsame⟩ | ⟨total, shown, htotal, hshown, hset⟩
        · rw [hsame]
          exact hseen.silent hnone
        · rw [hset]
          exact .total htotal hshown

/-! ### The reducer -/

theorem Inv.take {e : Client.Event} {rest : List Client.Event} (hid : config.id ∈ serverIds)
    (h : Inv marshalTime text parse config formatIncidentTime serverIds snoozes os w)
    (hevents : w.events = e :: rest) :
    Inv marshalTime text parse config formatIncidentTime serverIds snoozes os
      { w with events := rest, app := (Client.reduce formatIncidentTime w.app e).1 } := by
  obtain ⟨reduced, happ, hsent⟩ := h.app
  obtain ⟨status, hstatus⟩ := Client.status_run formatIncidentTime snoozes hid reduced
  rw [← happ] at hstatus
  refine ⟨h.server, h.tracker, h.published, ⟨reduced ++ [e], ?_, ?_⟩, h.alive, h.attached, ?_⟩
  · rw [Mealy.run_snoc, ← happ]
    rfl
  · rw [Client.ofServer_append, List.append_assoc, ← Client.ofServer_append]
    rwa [hevents] at hsent
  · have hheld : w.held config.id =
        World.held { w with events := rest, app := (Client.reduce formatIncidentTime w.app e).1 }
          config.id := by
      simp only [World.held, hevents, List.cons_append, List.foldl_cons,
        Client.incidents_reduce formatIncidentTime hstatus e]
    exact hheld ▸ h.socket

theorem Inv.post {e : Client.Event}
    (h : Inv marshalTime text parse config formatIncidentTime serverIds snoozes os w)
    (he : e.server? ≠ none) (hother : e.server? ≠ some config.id) :
    Inv marshalTime text parse config formatIncidentTime serverIds snoozes os
      { w with events := w.events ++ [e] } := by
  obtain ⟨reduced, happ, hsent⟩ := h.app
  refine ⟨h.server, h.tracker, h.published, ⟨reduced, happ, ?_⟩, h.alive, h.attached, ?_⟩
  · have hnone : Client.ofServer config.id [e] = [] := by simp [Client.ofServer, hother]
    rwa [Client.ofServer_append, hnone, List.append_nil]
  · have hheld : w.held config.id = World.held { w with events := w.events ++ [e] } config.id := by
      simp only [World.held, List.append_assoc, List.foldl_append, List.foldl_cons, List.foldl_nil,
        Client.onIncidents_other he hother]
    exact hheld ▸ h.socket

theorem Inv.command {e : Client.Event} (hid : config.id ∈ serverIds)
    (h : Inv marshalTime text parse config formatIncidentTime serverIds snoozes os w)
    (he : e.server? = none) :
    Inv marshalTime text parse config formatIncidentTime serverIds snoozes os
      { w with app := (Client.reduce formatIncidentTime w.app e).1 } := by
  obtain ⟨reduced, happ, hsent⟩ := h.app
  obtain ⟨status, hstatus⟩ := Client.status_run formatIncidentTime snoozes hid reduced
  rw [← happ] at hstatus
  refine ⟨h.server, h.tracker, h.published, ⟨reduced ++ [e], ?_, ?_⟩, h.alive, h.attached, ?_⟩
  · rw [Mealy.run_snoc, ← happ]
    rfl
  · have hnone : Client.ofServer config.id [e] = [] := by simp [Client.ofServer, he]
    rwa [Client.ofServer_append, hnone, List.append_nil]
  · intro socket hsocket
    refine (h.socket socket hsocket).prune ?_
    unfold World.held
    rw [Client.incidents_reduce formatIncidentTime hstatus e]
    exact Client.foldl_onIncidents_pruned _ (Client.onIncidents_user he _)

/-! ### Runs -/

theorem Inv.step {a : Action} (hid : config.id ∈ serverIds)
    (h : Inv marshalTime text parse config formatIncidentTime serverIds snoozes os w)
    (hs : w.step marshalTime text (Client.Protocol.decodeTextMessage parse refusal rfc3339) fromUtf8
      options config formatIncidentTime a = some (w', out))
    (hparse : ∀ j, Out.encoded j ∈ out → parse (text j) = .ok j) :
    Inv marshalTime text parse config formatIncidentTime serverIds snoozes (os ++ out) w' := by
  -- A step of the task that takes no frame goes on with the connection as it is.
  have hclient {a : Client.ClientAction}
      (hs : w.clientStep (Client.Protocol.decodeTextMessage parse refusal rfc3339) fromUtf8 options
        config a w.socket = some (w', out)) (ha : a ≠ .dropReceiver)
      (hr : ∀ result now, a = .connection (.received result now) → reserved a = false) :
      Inv marshalTime text parse config formatIncidentTime serverIds snoozes (os ++ out) w' := by
    refine h.clientStep hs ha fun c' events x hstep hattached' hx => ?_
    rw [held_clientStep hstep (h.attached (by rw [hx]; rfl)) hattached' hr]
    exact h.socket x hx
  cases a <;> simp only [World.step] at hs
  case feed call => exact h.feed hs
  case server a stamp => exact h.serverStep hs hparse
  case upgrade =>
    split at hs <;> cases hs
    rename_i delay hconnection hnone
    rw [List.append_nil]
    refine ⟨h.server, h.tracker, h.published, h.app, h.alive, fun _ => ?_, ?_⟩
    · simp [Client.ClientState.attached, hconnection, Client.ConnectionPc.attached]
    · intro socket heq
      cases heq
      exact ⟨fun _ => rfl, by simp⟩
  case subscribe =>
    split at hs
    · rename_i pipe hsocket
      obtain ⟨⟨s', new⟩, hstep, heq⟩ := Option.map_eq_some_iff.mp hs
      cases heq
      rw [List.append_nil]
      exact h.subscribe hsocket hstep
    · cases hs
  case client a =>
    split at hs
    · cases hs
    · rename_i hreserved
      refine hclient hs ?_ fun _ _ _ => Bool.not_eq_true _ ▸ hreserved
      rintro rfl
      exact hreserved rfl
  case connected now =>
    split at hs
    · exact hclient hs (by simp) (by simp)
    · cases hs
  case read now =>
    split at hs
    · rename_i sub f pipe hsocket
      exact h.read hsocket hs
    · cases hs
  case take =>
    split at hs <;> cases hs
    rename_i e rest hevents
    rw [List.append_nil]
    exact h.take hid hevents
  case post e =>
    split at hs <;> cases hs
    rename_i he
    rw [List.append_nil]
    exact h.post he.1 he.2.1
  case command e =>
    split at hs <;> cases hs
    rename_i he
    rw [List.append_nil]
    exact h.command hid he

theorem inv_path (hid : config.id ∈ serverIds)
    (h : Guarded.Path (world marshalTime text
      (Client.Protocol.decodeTextMessage parse refusal rfc3339) fromUtf8 options config
      formatIncidentTime serverIds snoozes) os w)
    (hparse : ∀ j, Out.encoded j ∈ os → parse (text j) = .ok j) :
    Inv marshalTime text parse config formatIncidentTime serverIds snoozes os w := by
  refine h.history (I := fun os w => (∀ j, Out.encoded j ∈ os → parse (text j) = .ok j) →
    Inv marshalTime text parse config formatIncidentTime serverIds snoozes os w) ?_ ?_ hparse
  · intro _
    have hempty (order : RangeOrder ItemWContext) :
        Tracker.itemsMapToSortedSlice order Tracker.newItemStatesTracker.itemsNotOK = [] := by
      rw [List.eq_nil_iff_forall_not_mem]
      intro x hx
      have hentry := (Tracker.mem_itemsMapToSortedSlice (Tracker.keyed_itemsNotOK [])).mp hx
      simp [Tracker.tracker, Tracker.newItemStatesTracker] at hentry
    exact ⟨.nil, rfl, fun order => (hempty order).symm,
      ⟨[], rfl, Client.runClient_sent_init (Client.Protocol.decodeTextMessage parse refusal rfc3339)
        fromUtf8 options config⟩, rfl, by simp [world], by simp [world]⟩
  · intro os w a w' out hI hs hparse
    exact (hI fun j hj => hparse j (List.mem_append_left _ hj)).step hid hs fun j hj =>
      hparse j (List.mem_append_right _ hj)

/-- Nothing is on its way from the tracker to the reducer: the core waits for an update, the
client's subscription is served, and the task reads from an empty connection. -/
structure World.Quiet (w : World) (sub : Nat) : Prop where
  core : w.server.core = .idle
  subscribed : (w.server.clients sub).subscribed = true
  serving : (w.server.clients sub).tx = .select
  queue : (w.server.clients sub).queue = []
  flight : ¬ Fanout.InFlight w.server sub
  socket : w.socket = some ⟨some sub, []⟩
  reading : w.client.connection? = some .read
  events : w.events = []

/-- The last total that a quiet client was sent is the tracker's incidents. -/
theorem Inv.lastTotal {sub : Nat}
    (h : Inv marshalTime text parse config formatIncidentTime serverIds snoozes os w)
    (hq : w.Quiet sub) (order : RangeOrder ItemWContext) :
    Fanout.lastTotal (wrote os) sub =
      some (Tracker.itemsMapToSortedSlice order w.tracker.itemsNotOK) := by
  have hinv := Fanout.inv_path h.server
  obtain ⟨total, htotal⟩ := Option.isSome_iff_exists.mp (Fanout.lastTotal_select hinv hq.serving)
  have hboard := Fanout.lastTotal_settled hinv hq.subscribed hq.queue hq.flight htotal
  have hpub := h.published order
  simp only [Pipeline.published, hq.core] at hpub
  rw [htotal, hboard, hpub]

theorem Inv.mem_incidents {order : RangeOrder ItemWContext} {x : ItemWContext}
    (h : Inv marshalTime text parse config formatIncidentTime serverIds snoozes os w) :
    x ∈ Tracker.itemsMapToSortedSlice order w.tracker.itemsNotOK ↔
      Tracker.Incident (calls os) x := by
  rw [h.tracker, Tracker.mem_itemsMapToSortedSlice (Tracker.keyed_itemsNotOK _),
    (Tracker.history_run x.key (calls os)).notOK x]
  exact and_iff_right rfl

/-- A quiet client holds the tracker's incidents, one for one. -/
theorem Inv.holds {sub : Nat}
    (h : Inv marshalTime text parse config formatIncidentTime serverIds snoozes os w)
    (hq : w.Quiet sub) (order : RangeOrder ItemWContext) :
    ∃ incidents, w.app.incidents[config.id]? = some incidents ∧
      List.Forall₂ (Shows marshalTime config.id)
        (Tracker.itemsMapToSortedSlice order w.tracker.itemsNotOK) incidents := by
  obtain ⟨seen, rest, hsent, hrest, hseen⟩ := (h.socket _ hq.socket).subscribed sub rfl
  cases hrest
  have hlast := h.lastTotal hq order
  rw [Fanout.lastTotal, hsent, List.append_nil] at hlast
  obtain ⟨all, kept, hall, hheld, hpruned⟩ := hseen _ hlast
  have hhand : w.client.hand = [] := by
    simp [Client.ClientState.hand, hq.reading, Client.ConnectionPc.hand]
  have hkept : w.app.incidents[config.id]? = some kept := by
    simpa [World.held, hq.events, hhand] using hheld
  -- The tracker's incidents are fresh, so none of them can have been forgotten.
  have hfresh : ∀ i ∈ all, i.stale = false := by
    intro i hi
    obtain ⟨item, hitem, incident, hsame, rfl⟩ := forall₂_right hall hi
    exact hsame.stale.trans (h.mem_incidents.mp hitem).fresh
  rw [hpruned.eq_of_fresh hfresh] at hkept
  exact ⟨all, hkept, hall⟩

/-- The task of a quiet client is connected, and the reducer knows it. -/
theorem Inv.connected {sub : Nat} (hid : config.id ∈ serverIds)
    (h : Inv marshalTime text parse config formatIncidentTime serverIds snoozes os w)
    (hq : w.Quiet sub) :
    ∃ status, w.app.servers[config.id]? = some status ∧ status.connected = true := by
  obtain ⟨reduced, happ, hsent⟩ := h.app
  obtain ⟨status, hstatus⟩ := Client.status_run formatIncidentTime snoozes hid reduced
  obtain ⟨-, p, hp, hphase⟩ := hsent
  have hnone : Client.ofServer config.id [] = [] := rfl
  rw [hq.events, hnone, List.append_nil] at hp
  have hup : p = .up := by
    have htask := hphase h.alive
    have hreading := hq.reading
    unfold Client.ClientState.connection? at hreading
    cases ht : w.client.task with
    | direct c =>
      rw [ht] at htask hreading
      cases hreading
      exact htask.2
    | tunneled t =>
      rw [ht] at htask hreading
      cases t <;> cases hreading <;> exact htask.2
  refine ⟨status, by rw [happ]; exact hstatus, ?_⟩
  have hin := Client.statusIn_run formatIncidentTime serverIds snoozes hp
  exact (hin.connected status hstatus).mpr hup

end Run

/-! ## What is shown -/

/-- **What the client shows is what was observed last.** A server and a client of it have run in any
interleaving, with connections lost and made again; every text on the connection is read as the
value it was written for. Once nothing is on its way, the server is shown as connected, and the
incidents held for it are one for one those of the calls that the core has fed to the tracker. A
key whose last observation was not OK is shown with that observation's details unless it is
snoozed, and then the tray shows neither OK nor unknown. -/
theorem ui_shows_last_observations (marshalTime : Time → Option String) (text : Json → String)
    (parse : String → Except String Json) (refusal : Json → String) (rfc3339 : Client.Rfc3339)
    (fromUtf8 : List UInt8 → Except String String) (options : Client.ClientOptions)
    (config : Client.ServerConfig) (formatIncidentTime : Client.OffsetDateTime → String)
    (serverIds : List String) (snoozes : KeyMap Client.OffsetDateTime)
    (hid : config.id ∈ serverIds) {os : List Out} {w : World}
    (h : Guarded.Path (world marshalTime text
      (Client.Protocol.decodeTextMessage parse refusal rfc3339) fromUtf8 options config
      formatIncidentTime serverIds snoozes) os w)
    (hparse : ∀ j, Out.encoded j ∈ os → parse (text j) = .ok j)
    {sub : Nat} (hq : w.Quiet sub) :
    (∃ status, w.app.servers[config.id]? = some status ∧ status.connected = true) ∧
    (∃ items incidents, items.Pairwise (fun a b => a.key < b.key) ∧
      (∀ x, x ∈ items ↔ Tracker.Incident (calls os) x) ∧
      w.app.incidents[config.id]? = some incidents ∧
      List.Forall₂ (Shows marshalTime config.id) items incidents) ∧
    ∀ now k item, Tracker.lastFed k (calls os) = some item → item.state.text ≠ "ok" →
      w.app.isSnoozed (config.id ++ "." ++ k) now = false →
      (∃ i ∈ (w.app.snapshot now).active, i.key = config.id ++ "." ++ k ∧
        Client.stateName i.state = item.state.text ∧ i.details = item.details ∧
        i.stale = false) ∧
      (w.app.snapshot now).alertingState ≠ .ok ∧ (w.app.snapshot now).alertingState ≠ .unknown := by
  have hinv := inv_path hid h hparse
  have hkeyed : Tracker.Keyed w.tracker.itemsNotOK := by
    rw [hinv.tracker]
    exact Tracker.keyed_itemsNotOK _
  obtain ⟨incidents, hheld, hshows⟩ := hinv.holds hq (.sorted _)
  refine ⟨hinv.connected hid hq, ⟨_, incidents, Tracker.itemsMapToSortedSlice_sorted hkeyed,
    fun x => hinv.mem_incidents, hheld, hshows⟩, ?_⟩
  intro now k item hlast hstate hsnoozed
  have hne : item.state ≠ .ok := fun heq => hstate (by rw [heq]; rfl)
  obtain ⟨x, rfl, hincident⟩ := Tracker.exists_incident hlast hne
  obtain rfl : x.toItem = item := Option.some.inj (hincident.last.symm.trans hlast)
  obtain ⟨i, hi, incident, hsame, rfl⟩ := forall₂_left hshows (hinv.mem_incidents.mpr hincident)
  have hkey : (Client.prefixedItem incident config.id).key = config.id ++ "." ++ x.key := by
    rw [← hsame.key]
    rfl
  have horder : w.app.serverOrder = serverIds := by
    obtain ⟨reduced, happ, -⟩ := hinv.app
    rw [happ, Client.serverOrder_run]
  have hactive : Client.prefixedItem incident config.id ∈ (w.app.snapshot now).active := by
    rw [Client.snapshot_active, List.mem_filter, hkey, hsnoozed]
    refine ⟨List.mem_append_right _ (List.mem_flatMap.mpr ⟨config.id, ?_, ?_⟩), rfl⟩
    · rw [horder]
      exact hid
    · rw [hheld]
      exact hi
  have hbad : Client.overallState (w.app.snapshot now).active ≠ .ok := by
    intro hok
    have hstateOk : (Client.prefixedItem incident config.id).state = .ok :=
      Client.overallState_ok hok _ hactive
    have hname := hsame.state
    rw [show incident.state = .ok from hstateOk] at hname
    exact hstate hname.symm
  refine ⟨⟨_, hactive, hkey, hsame.state, hsame.details, hsame.stale.trans hincident.fresh⟩, ?_, ?_⟩
  · rw [Client.snapshot_alertingState, if_neg fun hboth => hbad hboth.1]
    exact hbad
  · exact fun hunknown => hbad ((Client.alertingState_unknown w.app now).mp hunknown).1

def sampleCall : Tracker.Call where
  newItems := (∅ : KeyMap Item).insert "disk" ⟨"disk", .error, "full"⟩
  key_eq k item h := by
    rw [KeyMap.lookup_insert] at h
    split at h
    · cases h
      assumption
    · simp at h
  order := .sorted _
  sliceOrder := .sorted _
  clock _ := 0
  time := 0

/-- The one text that is written in the run below. -/
def sampleText : String :=
  "\x7b\"event\":\"OngoingIncidentsSnapshot\",\"data\":\x7b\"time\":\"0001-01-01T00:00:00Z\"," ++
    "\"ongoingIncidents\":\x7b\"total\":[\x7b\"key\":\"disk\",\"state\":\"error\"," ++
    "\"details\":\"full\",\"incidentStartedAt\":\"0001-01-01T00:00:00Z\"\x7d],\"added\":null," ++
    "\"removed\":null,\"updated\":null,\"numItemsOK\":0\x7d\x7d\x7d\n"

def sampleValue : Json :=
  .obj [("event", .str "OngoingIncidentsSnapshot"), ("data", .obj [
    ("time", .str "0001-01-01T00:00:00Z"), ("ongoingIncidents", .obj [
      ("total", .arr [.obj [("key", .str "disk"), ("state", .str "error"), ("details", .str "full"),
        ("incidentStartedAt", .str "0001-01-01T00:00:00Z")]]),
      ("added", .null), ("removed", .null), ("updated", .null), ("numItemsOK", .int 0)])])]

/-- An incident is published, the client connects and reads the snapshot. -/
def sampleRun : List Action :=
  [.feed sampleCall, .server .boardSet 0, .server .send 0, .server .receive 0,
    .server (.copy []) 0, .server .finish 0, .server .delivered 0,
    .client (.connection (.prepared (.ok ()) 0)), .client (.connection .slept),
    .client (.connection (.requested (.ok ()) 0)), .upgrade, .subscribe, .connected 1,
    .client (.connection .sent), .server (.client 0 .txGet) 0,
    .server (.client 0 (.txSnapshot true)) 0, .read 2, .client (.connection .sent), .take, .take]

def sampleParse : String → Except String Json :=
  Client.Protocol.parseTexts [(sampleText, sampleValue)]

def sampleWorld : Guarded World Action Out :=
  world Client.Protocol.wireMarshal (fun _ => sampleText)
    (Client.Protocol.decodeTextMessage sampleParse (fun _ => "") Client.Protocol.wireRfc3339)
    (fun _ => .error "") {} { id := "db", addr := "db:443" }
    (fun _ => "") ["db"] ∅

def Out.json? : Out → Option Json
  | .encoded j => some j
  | _ => none

set_option maxRecDepth 20000 in
theorem ui_shows_last_observations_sample : ∃ os w, Guarded.Path sampleWorld os w ∧
    (∃ i ∈ (w.app.snapshot 3).active, i.key = "db.disk" ∧ i.details = "full") ∧
    (w.app.snapshot 3).alertingState ≠ .ok := by
  have hrun : ((sampleWorld.exec ([], sampleWorld.init) sampleRun).map fun r =>
      (r.1.filterMap Out.json?, Tracker.lastFed "disk" (calls r.1), r.2.server.core,
        (r.2.server.clients 0).subscribed, (r.2.server.clients 0).tx, (r.2.server.clients 0).queue,
        r.2.server.notificationsChan, r.2.server.web, r.2.socket, r.2.client.connection?,
        r.2.events, r.2.app.isSnoozed "db.disk" 3)) =
      some ([sampleValue], some ⟨"disk", .error, "full"⟩, .idle, true, .select, [], [], .idle,
        some ⟨some 0, []⟩, some .read, [], false) := by rfl
  obtain ⟨⟨os, w⟩, hexec, heq⟩ := Option.map_eq_some_iff.mp hrun
  simp only [Prod.mk.injEq] at heq
  obtain ⟨hjson, hlast, hcore, hsub, htx, hqueue, hchan, hweb, hsocket, hreading, hevents,
    hsnoozed⟩ := heq
  have hpath : Guarded.Path sampleWorld os w := Guarded.Path.nil.exec hexec
  have hquiet : w.Quiet 0 :=
    ⟨hcore, hsub, htx, hqueue,
      by simp [Fanout.InFlight, hcore, hchan, hweb, Fanout.WebPc.pending, Fanout.Client.hand, htx],
      hsocket, hreading, hevents⟩
  have hparse : ∀ j, Out.encoded j ∈ os → sampleParse sampleText = .ok j := by
    intro j hj
    have hmem : j ∈ os.filterMap Out.json? := List.mem_filterMap.mpr ⟨_, hj, rfl⟩
    rw [hjson, List.mem_singleton] at hmem
    rw [hmem]
    exact Client.Protocol.parseTexts_head ..
  obtain ⟨-, -, hshown⟩ := ui_shows_last_observations _ _ sampleParse _ _ _ _
    { id := "db", addr := "db:443" } _ ["db"] _ (List.mem_singleton_self _) hpath hparse hquiet
  obtain ⟨⟨i, hi, hkey, -, hdetails, -⟩, hok, -⟩ :=
    hshown 3 "disk" ⟨"disk", .error, "full"⟩ hlast (by decide) hsnoozed
  exact ⟨os, w, hpath, ⟨i, hi, hkey, hdetails⟩, hok⟩

end Pipeline
end Montray
