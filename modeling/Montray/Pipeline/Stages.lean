import Montray.Pipeline.World

/-!
# Montray.Pipeline.Stages

The stages between what the server writes and the incidents that the client holds.

* `decode_written`: a message that the client accepts lists what the server wrote.
* `onIncidents`, `Pruned`: what an event does to the incidents that are held for a server, and what
  forgetting stale incidents may take from them.
* `receive_framed`: the task takes a frame for what the message says, or gives up the connection.
* `Reflects`: the incidents held show the last total among the messages that were read.
-/

namespace Montray

open Lib

namespace Client

namespace Protocol

variable {marshalTime : Time → Option String}

theorem pointer_read {p : Option ItemWContext} {v : Json} {incident : Incident}
    (hv : Wire.pointerToJson marshalTime p = some v) (hr : readIncident v = some incident) :
    ∃ item, p = some item ∧ SameItem marshalTime item incident := by
  cases p with
  | none =>
    cases hv
    cases hr
  | some item =>
    obtain ⟨startedAt, hat, rfl⟩ := Option.map_eq_some_iff.mp hv
    refine ⟨item, rfl, ?_⟩
    cases hstale : item.stale <;>
      simp only [Wire.itemMembers, hstale, readIncident, Json.isRecord, Json.part_obj,
        List.append_nil, Bool.false_eq_true, if_true, if_false, List.reverse_cons,
        List.reverse_nil] at hr
    · simp [readString, readState, Option.bind_eq_some_iff, stateOfName_some] at hr
      obtain ⟨state, hstate, rfl⟩ := hr
      exact ⟨rfl, hstate.symm, rfl, hat, hstale.symm⟩
    · simp [readString, readState, readBool, Option.bind_eq_some_iff, stateOfName_some] at hr
      obtain ⟨state, hstate, rfl⟩ := hr
      exact ⟨rfl, hstate.symm, rfl, hat, hstale.symm⟩

theorem slice_read {slice : Wire.Slice} {v : Json} {l : List Incident}
    (hv : Wire.Slice.toJson marshalTime slice = some v) (hr : nullAsDefault v = some l) :
    SameList marshalTime slice l := by
  cases slice with
  | none =>
    cases hv
    cases hr
    exact .nil
  | some items =>
    obtain ⟨vs, hvs, rfl⟩ := Option.map_eq_some_iff.mp hv
    have hread : vs.mapM readIncident = some l := hr
    rw [Json.mapM_eq_some_iff] at hvs hread
    have hitems : List.Forall₂ (fun p incident => ∃ item, p = some item ∧ SameItem marshalTime item
        incident) items l := by
      clear hv hr
      induction hvs generalizing l with
      | nil =>
        cases hread
        exact .nil
      | cons hp _ ih =>
        cases hread with
        | cons hi hrest => exact .cons (pointer_read hp hi) (ih hrest)
    exact hitems

/-- A message of the server that is decoded lists what was written. -/
theorem decode_written {rfc3339 : Rfc3339} {parse : String → Except String Json}
    {refusal : Json → String} {event : Wire.WsEvent} {n : Wire.Notification} {j : Json}
    {text : String} {o : Option NotificationData}
    (hj : (Wire.WsTxMsg.mk event (some (some n))).toJson marshalTime = some j)
    (hp : parse text = .ok j) (hd : decodeTextMessage parse refusal rfc3339 text = .ok o) :
    ∃ data, o = some data ∧ SameList marshalTime n.ongoingIncidents.total data.total := by
  obtain ⟨d, hd', rfl⟩ := Option.map_eq_some_iff.mp hj
  simp only [Wire.Notification.toJson, Wire.OngoingIncidentsWDelta.toJson, Option.bind_eq_bind,
    Option.bind_eq_some_iff, Option.pure_def, Option.some.injEq] at hd'
  obtain ⟨time, -, incidents, ⟨t, ht, a, -, r, -, u, -, rfl⟩, rfl⟩ := hd'
  obtain ⟨envelope, henv, hcase⟩ := (decodeTextMessage_ok hp).mp hd
  cases henv
  rcases hcase with ⟨hunknown, -⟩ | ⟨-, data, ho, hdata⟩
  · exact absurd (text_mem_knownEvents event) hunknown
  · obtain ⟨m, hm, hvalid⟩ := decodeData_ok.mp hdata
    refine ⟨data, ho, ?_⟩
    have hongoing : OngoingIncidents.fromJson (.obj [("total", t), ("added", a), ("removed", r),
        ("updated", u), ("numItemsOK", .int n.ongoingIncidents.numItemsOK)]) =
          some m.ongoingIncidents := by
      simp only [Notification.fromJson, Json.isRecord, if_true, Option.bind_eq_bind,
        Option.bind_eq_some_iff, Json.part_obj] at hm
      simp at hm
      obtain ⟨_, -, _, hm, rfl⟩ := hm
      exact hm
    have htotal := (OngoingIncidents.fromJson_some hongoing).1
      ("total", 0, m.ongoingIncidents.total) (by simp [OngoingIncidents.lists])
    simp [Json.part_obj] at htotal
    rw [(Notification.validate_ok.mp hvalid).2.2.2]
    exact slice_read ht htotal

end Protocol

/-! ## The incidents of a server under events -/

/-- What an event does to the incidents that are held for the server `id`. -/
def onIncidents (id : String) (held : Option (List Incident)) : Event → Option (List Incident)
  | .notification a data _ =>
    if a = id then some (data.total.map fun item => prefixedItem item id) else held
  | .disconnected a _ _ => if a = id then held.map markStale else held
  | .tunnelFailed a _ _ => if a = id then held.map markStale else held
  | .forgetStale key => held.map (forget key)
  | _ => held

theorem incidents_reduce (formatIncidentTime : OffsetDateTime → String) {s : AppState} {id : String}
    {status : ServerStatus} (hk : s.servers[id]? = some status) (e : Event) :
    (reduce formatIncidentTime s e).1.incidents[id]? = onIncidents id s.incidents[id]? e := by
  have hview := congrArg ServerView.incidents (view_reduce formatIncidentTime (s := s) e id)
  have hstatus : (s.view id).status = some status := hk
  refine Eq.trans hview ?_
  cases e with
  | disconnected a now error =>
    simp only [Event.server?, Option.some.injEq, onIncidents]
    split
    · simp only [ServerView.step, hstatus, ServerView.stepKnown]
      split <;> rfl
    · rfl
  | connected a now =>
    simp only [Event.server?, Option.some.injEq, onIncidents, ServerView.step, hstatus,
      ServerView.stepKnown, ServerView.user]
    split <;> rfl
  | tunnelReady a now =>
    simp only [Event.server?, Option.some.injEq, onIncidents, ServerView.step, hstatus,
      ServerView.stepKnown, ServerView.user]
    split <;> rfl
  | tunnelFailed a now error =>
    simp only [Event.server?, Option.some.injEq, onIncidents, ServerView.step, hstatus,
      ServerView.stepKnown, ServerView.user]
    split <;> rfl
  | heartbeat a now =>
    simp only [Event.server?, Option.some.injEq, onIncidents, ServerView.step, hstatus,
      ServerView.stepKnown, ServerView.user]
    split <;> rfl
  | notification a data now =>
    simp only [Event.server?, Option.some.injEq, onIncidents, ServerView.step, hstatus,
      ServerView.stepKnown, ServerView.user]
    split
    · rename_i h
      rw [h]
    · rfl
  | _ => rfl

/-- Events of other servers do nothing to the incidents of this one. -/
theorem onIncidents_other {id : String} {held : Option (List Incident)} {e : Event}
    (h0 : e.server? ≠ none) (h : e.server? ≠ some id) : onIncidents id held e = held := by
  cases e with
  | notification a data now => exact if_neg fun ha => h (congrArg some ha)
  | disconnected a now error => exact if_neg fun ha => h (congrArg some ha)
  | tunnelFailed a now error => exact if_neg fun ha => h (congrArg some ha)
  | forgetStale key => exact absurd rfl h0
  | _ => rfl

/-- `kept` is `all` without some of its stale incidents. -/
structure Pruned (all kept : List Incident) : Prop where
  sublist : kept.Sublist all
  fresh : kept.filter (fun i => !i.stale) = all.filter fun i => !i.stale

theorem Pruned.refl (l : List Incident) : Pruned l l := ⟨List.Sublist.refl l, rfl⟩

theorem Pruned.trans {a b c : List Incident} (h : Pruned a b) (h' : Pruned b c) : Pruned a c :=
  ⟨h'.sublist.trans h.sublist, h'.fresh.trans h.fresh⟩

/-- Nothing is lost of a list that is all fresh. -/
theorem Pruned.eq_of_fresh {all kept : List Incident} (h : Pruned all kept)
    (hall : ∀ i ∈ all, i.stale = false) : kept = all := by
  have hkeep (l : List Incident) (hl : ∀ i ∈ l, i.stale = false) :
      l.filter (fun i => !i.stale) = l := by
    rw [List.filter_eq_self]
    intro i hi
    rw [hl i hi]
    rfl
  rw [← hkeep kept fun i hi => hall i (h.sublist.subset hi), h.fresh, hkeep all hall]

theorem filter_markStale (l : List Incident) : (markStale l).filter (fun i => !i.stale) = [] := by
  rw [List.filter_eq_nil_iff]
  intro i hi
  rw [markStale_stale l i hi]
  decide

theorem Pruned.markStale {a b : List Incident} (h : Pruned a b) :
    Pruned (markStale a) (markStale b) :=
  ⟨h.sublist.map _, by rw [filter_markStale, filter_markStale]⟩

theorem forget_pruned (key : String) (l : List Incident) : Pruned l (forget key l) := by
  refine ⟨List.filter_sublist, ?_⟩
  rw [forget, List.filter_filter]
  refine List.filter_congr fun i _ => ?_
  cases i.stale <;> simp

theorem Pruned.forget {a b : List Incident} (h : Pruned a b) (key : String) :
    Pruned (forget key a) (forget key b) :=
  ⟨h.sublist.filter _,
    (forget_pruned key b).fresh.trans (h.fresh.trans (forget_pruned key a).fresh.symm)⟩

/-- Pruning earlier is pruning later, and no more. -/
theorem onIncidents_pruned {id : String} {x y : Option (List Incident)}
    (h : Option.Rel Pruned x y) (e : Event) :
    Option.Rel Pruned (onIncidents id x e) (onIncidents id y e) := by
  have hmap (f : List Incident → List Incident) (hf : ∀ a b, Pruned a b → Pruned (f a) (f b)) :
      Option.Rel Pruned (x.map f) (y.map f) := by
    cases h with
    | none => exact .none
    | some hab => exact .some (hf _ _ hab)
  cases e with
  | notification a data now =>
    simp only [onIncidents]
    split
    · exact .some (Pruned.refl _)
    · exact h
  | disconnected a now error =>
    simp only [onIncidents]
    split
    · exact hmap _ fun _ _ hab => hab.markStale
    · exact h
  | tunnelFailed a now error =>
    simp only [onIncidents]
    split
    · exact hmap _ fun _ _ hab => hab.markStale
    · exact h
  | forgetStale key => exact hmap _ fun _ _ hab => hab.forget key
  | _ => exact h

theorem foldl_onIncidents_pruned {id : String} (es : List Event) {x y : Option (List Incident)}
    (h : Option.Rel Pruned x y) :
    Option.Rel Pruned (es.foldl (onIncidents id) x) (es.foldl (onIncidents id) y) := by
  induction es generalizing x y with
  | nil => exact h
  | cons e es ih => exact ih (onIncidents_pruned h e)

/-- An action of the user takes nothing but stale incidents. -/
theorem onIncidents_user {id : String} {e : Event} (he : e.server? = none)
    (x : Option (List Incident)) : Option.Rel Pruned x (onIncidents id x e) := by
  have hrefl : Option.Rel Pruned x x := by
    cases x with
    | none => exact .none
    | some l => exact .some (Pruned.refl l)
  cases e <;> simp only [Event.server?, reduceCtorEq] at he <;> try exact hrefl
  case forgetStale key =>
    cases x with
    | none => exact .none
    | some l => exact .some (forget_pruned key l)

end Client

namespace Pipeline

/-! ## One connection -/

section Connection

variable {marshalTime : Time → Option String} {text : Json → String}
  {parse : String → Except String Json} {refusal : Json → String} {rfc3339 : Client.Rfc3339}
  {fromUtf8 : List UInt8 → Except String String} {options : Client.ClientOptions}
  {config : Client.ServerConfig}

/-- The incident is the item, under the key that the client gives it. -/
def Shows (marshalTime : Time → Option String) (id : String) (item : ItemWContext)
    (i : Client.Incident) : Prop :=
  ∃ incident, Client.Protocol.SameItem marshalTime item incident ∧
    i = Client.prefixedItem incident id

/-- `f` is a frame of `m`, with a text that is read as the value it was written for. -/
def Framed (marshalTime : Time → Option String) (text : Json → String)
    (parse : String → Except String Json) (m : Fanout.Message) (f : Client.Message) : Prop :=
  ∃ stamp js, frame marshalTime text stamp m = some (f, js) ∧ ∀ j ∈ js, parse (text j) = .ok j

/-- What the client makes of a list of items that it was sent. -/
theorem shows_of_sameList {id : String} {items : List ItemWContext} {slice : Wire.Slice}
    {l : List Client.Incident} (hslice : slice.range = items.map some)
    (h : Client.Protocol.SameList marshalTime slice l) :
    List.Forall₂ (Shows marshalTime id) items (l.map fun item => Client.prefixedItem item id) := by
  unfold Client.Protocol.SameList at h
  rw [hslice, List.forall₂_map_left_iff] at h
  rw [List.forall₂_map_right_iff]
  refine h.imp ?_
  rintro item incident ⟨_, heq, hsame⟩
  cases heq
  exact ⟨incident, hsame, rfl⟩

/-- The notification of a message that carries a total. -/
theorem txMsg_total {stamp : Time} {m : Fanout.Message} {msg : Wire.WsTxMsg}
    (h : txMsg stamp m = some msg) :
    ∃ event n total, msg = ⟨event, some (some n)⟩ ∧ m.total? = some total ∧
      n.ongoingIncidents.total.range = total.map some := by
  cases m with
  | heartbeat => cases h
  | update u =>
    cases h
    exact ⟨_, _, _, rfl, rfl, rfl⟩
  | snapshot i total =>
    cases h
    refine ⟨_, _, _, rfl, rfl, ?_⟩
    simp only
    split
    · rename_i hnil
      rw [hnil.2]
      rfl
    · rfl

variable (refusal rfc3339 fromUtf8 options config) in
/-- The task takes a frame for what the message says, or gives up the connection. -/
theorem receive_framed {m : Fanout.Message} {f : Client.Message}
    (h : Framed marshalTime text parse m f) (now : Client.OffsetDateTime) :
    let r := Client.receive (Client.Protocol.decodeTextMessage parse refusal rfc3339) fromUtf8
      options config now (.message f)
    (∃ error, r = .lost error) ∨ ∃ e, r = .send e ∧
      ((m.total? = none ∧ ∀ held, Client.onIncidents config.id held e = held) ∨
        ∃ total shown, m.total? = some total ∧
          List.Forall₂ (Shows marshalTime config.id) total shown ∧
          ∀ held, Client.onIncidents config.id held e = some shown) := by
  intro r
  obtain ⟨stamp, js, hframe, hparse⟩ := h
  unfold frame at hframe
  cases hmsg : txMsg stamp m with
  | none =>
    rw [hmsg] at hframe
    cases hframe
    have hnone : m.total? = none := by
      cases m <;> first | rfl | cases hmsg
    exact .inr ⟨_, rfl, .inl ⟨hnone, fun _ => rfl⟩⟩
  | some msg =>
    rw [hmsg] at hframe
    obtain ⟨j, hj, heq⟩ := Option.map_eq_some_iff.mp hframe
    cases heq
    obtain ⟨event, n, total, rfl, htotal, hrange⟩ := txMsg_total hmsg
    simp only [r, Client.receive, Client.receiveText]
    split_ifs
    · exact .inl ⟨_, rfl⟩
    · cases hd : Client.Protocol.decodeTextMessage parse refusal rfc3339 (text j) with
      | error chain => exact .inl ⟨_, rfl⟩
      | ok o =>
        obtain ⟨data, rfl, hsame⟩ :=
          Client.Protocol.decode_written hj (hparse j (List.mem_singleton_self j)) hd
        exact .inr ⟨_, rfl, .inr ⟨total, _, htotal, shows_of_sameList hrange hsame,
          fun _ => if_pos rfl⟩⟩

/-- The incidents that are held show the last total among the messages, except for stale ones that
were forgotten. -/
def Reflects (marshalTime : Time → Option String) (id : String) (seen : List Fanout.Message)
    (held : Option (List Client.Incident)) : Prop :=
  ∀ total, (seen.filterMap Fanout.Message.total?).getLast? = some total →
    ∃ all kept, List.Forall₂ (Shows marshalTime id) total all ∧ held = some kept ∧
      Client.Pruned all kept

variable {id : String} {seen : List Fanout.Message} {held held' : Option (List Client.Incident)}

theorem Reflects.nil : Reflects marshalTime id [] held := by
  intro total h
  cases h

theorem Reflects.prune (h : Reflects marshalTime id seen held)
    (hp : Option.Rel Client.Pruned held held') : Reflects marshalTime id seen held' := by
  intro total ht
  obtain ⟨all, kept, hall, rfl, hkept⟩ := h total ht
  cases hp with
  | some hp => exact ⟨all, _, hall, rfl, hkept.trans hp⟩

theorem Reflects.silent (h : Reflects marshalTime id seen held) {m : Fanout.Message}
    (hm : m.total? = none) : Reflects marshalTime id (seen ++ [m]) held := by
  intro total ht
  rw [List.filterMap_append, List.filterMap_cons_none hm, List.filterMap_nil,
    List.append_nil] at ht
  exact h total ht

theorem Reflects.total {m : Fanout.Message} {total : List ItemWContext}
    {shown : List Client.Incident} (hm : m.total? = some total)
    (hshown : List.Forall₂ (Shows marshalTime id) total shown) :
    Reflects marshalTime id (seen ++ [m]) (some shown) := by
  intro total' ht
  rw [List.filterMap_append, List.filterMap_cons_some hm, List.filterMap_nil,
    List.getLast?_concat] at ht
  cases ht
  exact ⟨shown, shown, hshown, rfl, Client.Pruned.refl shown⟩

end Connection

end Pipeline
end Montray
