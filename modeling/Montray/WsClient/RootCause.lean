import Montray.WsClient.CombinerProofs
import Montray.WsClient.TunnelProofs
import Montray.WsClient.EventLoop

/-!
# Montray.WsClient.RootCause

The incidents `internal.tunnel.<id>` and `internal.connection.<id>` of a tunneled server.

The combiner applies the events of the server in channel order, so the incidents it shows run
through the states in which the channel's history leaves them (`Applied`). What the producers may
still send depends on the gate of the tunnel (`Attributed`): a failure is sent only while the gate is
shut, a connection error only while it is open. So the two incidents exclude each other as long as
the gate is shut only while no connection error stands (`tunnel_incident_alone`).

Nothing in the code sees to that. `tunnel_incident_beside` is a run in which the dial fails while the
supervisor has yet to learn that its process is gone: the error is reported as the connection's own,
and stays beside the tunnel's failure until the tunnel is ready again.
-/

namespace Montray
namespace WsClient

open Lib Tracker

/-! ## The two incidents -/

theorem connectionKey_inj {a b : String} : connectionKey a = connectionKey b ↔ a = b :=
  String.append_right_inj _

theorem tunnelKey_inj {a b : String} : tunnelKey a = tunnelKey b ↔ a = b :=
  String.append_right_inj _

theorem connectionKey_ne_tunnelKey (a b : String) : connectionKey a ≠ tunnelKey b :=
  append_ne_append (n := 10) (by decide) (by decide) (by decide) a b

/-- Which of the two incidents of a server are ongoing. -/
structure Status where
  tunnel : Bool := false
  connection : Bool := false
  deriving DecidableEq, Repr

def Status.both (st : Status) : Bool := st.tunnel && st.connection

/-- What a section does to the incidents of `id`. -/
def Status.feed (id : String) (st : Status) : Section → Status
  | .feed key err =>
    if key = tunnelKey id then { st with tunnel := err ≠ "" }
    else if key = connectionKey id then { st with connection := err ≠ "" }
    else st
  | _ => st

/-- The sections leave the incidents of `id` in `st`. -/
def Status.after (id : String) (st : Status) (sections : List Section) : Status :=
  sections.foldl (Status.feed id) st

/-- They never run through a state in which both incidents are ongoing. -/
def Exclusive (id : String) (st : Status) (sections : List Section) : Prop :=
  Throughout (fun st => st.both = false) (Status.feed id) st sections

theorem Exclusive.head {id : String} {st : Status} {sections : List Section}
    (h : Exclusive id st sections) : st.both = false :=
  Throughout.head (P := fun st : Status => st.both = false) h

/-- Where the events that were sent leave the incidents of `id`. -/
def sentStatus (id : String) (sent : List ServerEvent) : Status :=
  Status.after id {} (sent.flatMap (applyServerEvent id))

theorem sentStatus_append (id : String) (sent events : List ServerEvent) :
    sentStatus id (sent ++ events) =
      (sentStatus id sent).after id (events.flatMap (applyServerEvent id)) := by
  simp [sentStatus, Status.after]

def trackerStatus (id : String) (ist : ItemStatesTracker) : Status where
  tunnel := ist.itemsNotOK[tunnelKey id]?.isSome
  connection := ist.itemsNotOK[connectionKey id]?.isSome

theorem isSome_feedItems (ist : ItemStatesTracker) (key : ItemKey) (err : String) (r : Reading)
    (k : ItemKey) :
    (feedItems ist (internalCall key err r)).1.itemsNotOK[k]?.isSome =
      if key = k then decide (err ≠ "") else ist.itemsNotOK[k]?.isSome := by
  rw [feedItems_notOK]
  simp only [internalCall, KeyMap.lookup_insert]
  by_cases hk : key = k
  · simp only [hk, if_true, reported, internalItem]
    by_cases herr : err = ""
    · simp [herr]
    · cases ist.itemsNotOK[k]? <;> simp [herr]
  · simp [hk]

theorem trackerStatus_feedItems (id : String) (ist : ItemStatesTracker) (key : ItemKey)
    (err : String) (r : Reading) :
    trackerStatus id (feedItems ist (internalCall key err r)).1 =
      (trackerStatus id ist).feed id (.feed key err) := by
  simp only [trackerStatus, isSome_feedItems, Status.feed]
  by_cases ht : key = tunnelKey id
  · subst ht
    simp [(connectionKey_ne_tunnelKey id id).symm]
  · by_cases hc : key = connectionKey id
    · subst hc
      simp [connectionKey_ne_tunnelKey]
    · simp [ht, hc]

/-- Whether a total lists both incidents. -/
def beside (id : String) (total : List ItemWContext) : Bool :=
  total.any (·.key = tunnelKey id) && total.any (·.key = connectionKey id)

theorem beside_iff {id : String} {total : List ItemWContext} :
    beside id total = true ↔
      (∃ w ∈ total, w.key = tunnelKey id) ∧ ∃ w ∈ total, w.key = connectionKey id := by
  simp [beside]

theorem any_internalPart {key : ItemKey} (h : under idInternal key = true)
    (total : List ItemWContext) :
    (internalPart total).any (·.key = key) = total.any (·.key = key) := by
  rw [internalPart, List.any_filter]
  congr 1
  funext w
  by_cases hw : w.key = key
  · simp [hw, h]
  · simp [hw]

theorem beside_internalPart (id : String) (total : List ItemWContext) :
    beside id (internalPart total) = beside id total := by
  rw [beside, any_internalPart (under_tunnelKey id), any_internalPart (under_connectionKey id),
    beside]

theorem any_internalItems {ist : ItemStatesTracker} (h : TrackerOk ist) (key : ItemKey) :
    (internalItems ist).any (·.key = key) = ist.itemsNotOK[key]?.isSome := by
  rw [Bool.eq_iff_iff, List.any_eq_true, Option.isSome_iff_exists]
  constructor
  · rintro ⟨w, hw, hkey⟩
    rw [← of_decide_eq_true hkey]
    exact ⟨w, (mem_itemsMapToSortedSlice h.keyed).mp hw⟩
  · rintro ⟨w, hw⟩
    have hkey := h.keyed key w hw
    exact ⟨w, (mem_itemsMapToSortedSlice h.keyed).mpr (by rw [hkey]; exact hw), by simpa using hkey⟩

theorem beside_internalItems {ist : ItemStatesTracker} (h : TrackerOk ist) (id : String) :
    beside id (internalItems ist) = (trackerStatus id ist).both := by
  rw [beside, any_internalItems h, any_internalItems h]
  rfl

/-! ## The combiner -/

/-- A section of the loop of `id` feeds the incidents of `id` only. -/
def Section.Own (id : String) : Section → Prop
  | .feed key _ => key = connectionKey id ∨ key = tunnelKey id
  | _ => True

theorem applyServerEvent_own (id : String) (event : ServerEvent) :
    ∀ sec ∈ applyServerEvent id event, sec.Own id := by
  cases event with
  | connection event =>
    rw [applyServerEvent]
    split <;> simp [Section.Own]
  | ongoingIncidents wire =>
    rw [applyServerEvent]
    split <;> simp [Section.Own]
  | connectionError error => simp [applyServerEvent, Section.Own]
  | tunnel event =>
    rw [applyServerEvent]
    split <;> simp [Section.Own]

/-- The sections of another server leave the incidents of `id` alone. -/
theorem Section.Own.feed_other {id id' : String} {sec : Section} (h : sec.Own id') (hne : id' ≠ id)
    (st : Status) : st.feed id sec = st := by
  cases sec with
  | feed key err =>
    rcases h with rfl | rfl
    · simp [Status.feed, connectionKey_inj, connectionKey_ne_tunnelKey, hne]
    · simp [Status.feed, tunnelKey_inj, (connectionKey_ne_tunnelKey _ _).symm, hne]
  | _ => rfl

/-- What running a section does, as far as the client's own incidents go: `p` is the publication that
feeding the tracker may leave to be done. -/
structure SectionRun (s : Sys) (id : String) (sec : Section) (rest : List Section) (s' : Sys)
    (p : List Section) : Prop where
  loops : s'.loops = s.loops.insert id (p ++ rest)
  publish : ∀ q ∈ p, ∃ n notif, q = .publish n notif ∧
    notif.ongoingIncidents.total = internalItems s'.internalTracker
  status : ∀ id', trackerStatus id' s'.internalTracker =
    (trackerStatus id' s.internalTracker).feed id' sec
  internal : internalTotal s'.totalByID = internalTotal s.totalByID ∨
    ∃ n notif, sec = .publish n notif ∧
      internalTotal s'.totalByID = notif.ongoingIncidents.total

theorem runSection_cases {os : List Notification} {s : Sys} (h : Wf os s) {id : String}
    {sec : Section} {rest : List Section} (hloop : s.loops[id]? = some (sec :: rest))
    (r : Reading) :
    ∃ p, SectionRun s id sec rest (runSection s id rest r sec).1 p := by
  have hok := h.loops id _ hloop
  have hne := (validateServerID_ok hok.valid).2
  cases sec with
  | apply notif =>
    exact ⟨[], rfl, by simp, fun _ => rfl, .inl (internalTotal_insert hne _)⟩
  | markStale eventTime =>
    exact ⟨[], rfl, by simp, fun _ => rfl, .inl (internalTotal_markStale h.totals hne eventTime)⟩
  | feed key err =>
    have hstatus := fun id' => trackerStatus_feedItems id' s.internalTracker key err r
    have htracker := h.tracker.feed (hok.sections _ List.mem_cons_self) err r
    simp only [WsClient.runSection]
    split
    · rename_i ist heq
      rw [heq] at hstatus
      exact ⟨[], rfl, by simp, hstatus, .inl rfl⟩
    · rename_i ist notif heq
      have htotal := feedItems_total htracker.keyed (congrArg Prod.snd heq)
      rw [heq] at hstatus htotal
      refine ⟨[.publish (s.fed + 1) notif], rfl, fun q hq => ?_, hstatus, .inl rfl⟩
      exact ⟨_, notif, List.mem_singleton.mp hq, htotal⟩
  | publish n notif =>
    refine ⟨[], rfl, by simp, fun _ => rfl, .inr ⟨n, notif, rfl, ?_⟩⟩
    rw [WsClient.runSection, applyNotification, internalTotal, KeyMap.lookup_insert, if_pos rfl]
    rfl

theorem SectionRun.after {s s' : Sys} {id : String} {sec : Section} {rest p : List Section}
    (h : SectionRun s id sec rest s' p) (id' : String) (st : Status) :
    p.foldl (Status.feed id') st = st := by
  have hp := h.publish
  clear h
  induction p with
  | nil => rfl
  | cons q p ih =>
    obtain ⟨n, notif, rfl, -⟩ := hp q List.mem_cons_self
    exact ih fun q hq => hp q (List.mem_cons_of_mem _ hq)

/-- At most one notification is passed to the handler in a step. -/
theorem step_out {s s' : Sys} {a : Action} {out : List Notification}
    (hs : step s a = some (s', out)) : out = [] ∨ ∃ n, out = [n] := by
  have hlen : out.length ≤ 1 := by
    cases a with
    | event id event =>
      simp only [step] at hs
      split at hs <;> cases hs
      simp
    | run id r =>
      simp only [step] at hs
      split at hs
      · rename_i sec rest hloop
        have hs := Option.some.inj hs
        obtain rfl : (runSection s id rest r sec).2 = out := by rw [hs]
        cases sec with
        | feed key err =>
          simp only [runSection]
          split <;> simp
        | markStale eventTime =>
          simp only [runSection, markServerIncidentsStale]
          split <;> simp
        | _ => simp [runSection, applyNotification]
      · cases hs
    | forget key order now =>
      have hs := Option.some.inj hs
      obtain rfl : (forgetStaleIncident order now s.totalByID key).2 = out :=
        congrArg Prod.snd hs
      unfold forgetStaleIncident
      split <;> simp
  rcases out with _ | ⟨n, _ | ⟨m, rest⟩⟩
  · exact .inl rfl
  · exact .inr ⟨n, rfl⟩
  · simp at hlen

/-- The combiner, with the sections `ahead` of `id` still in its channel. -/
structure Applied (id : String) (ahead : List Section) (sent : Status) (os : List Notification)
    (c : Sys) : Prop where
  wf : Wf os c
  own : KeyMap.All c.loops fun id' sections => ∀ sec ∈ sections, sec.Own id'
  exclusive : Exclusive id (trackerStatus id c.internalTracker) (c.loops[id]?.getD [] ++ ahead)
  after : (trackerStatus id c.internalTracker).after id (c.loops[id]?.getD [] ++ ahead) = sent
  pending : ∀ n total, Pending c.loops n total → beside id total = false
  internal : beside id (internalTotal c.totalByID) = false
  handled : ∀ n ∈ os, beside id n.ongoingIncidents.total = false

section Applied

variable {id : String} {ahead : List Section} {sent : Status} {os out : List Notification}
  {c c' : Sys}

/-- More events go into the channel. -/
theorem Applied.put (h : Applied id ahead sent os c) {new : List Section}
    (hnew : Exclusive id sent new) : Applied id (ahead ++ new) (sent.after id new) os c := by
  refine ⟨h.wf, h.own, ?_, ?_, h.pending, h.internal, h.handled⟩
  · rw [← List.append_assoc]
    refine Throughout.append h.exclusive ?_
    have hafter : (c.loops[id]?.getD [] ++ ahead).foldl (Status.feed id)
        (trackerStatus id c.internalTracker) = sent := h.after
    rw [hafter]
    exact hnew
  · rw [← List.append_assoc, ← h.after]
    simp [Status.after]

/-- The total of every notification passed to the handler is the combination of what is cached. -/
theorem Applied.handled_step (h : Applied id ahead sent os c) {a : Action}
    (hs : step c a = some (c', out)) (hinternal : beside id (internalTotal c'.totalByID) = false) :
    ∀ n ∈ os ++ out, beside id n.ongoingIncidents.total = false := by
  have hlast := (h.wf.step hs).last
  intro n hn
  rcases List.mem_append.mp hn with hn | hn
  · exact h.handled n hn
  · obtain rfl | ⟨m, rfl⟩ := step_out hs
    · cases hn
    · obtain rfl := List.mem_singleton.mp hn
      rw [lastTotal_snoc] at hlast
      rw [← beside_internalPart, hlast]
      exact hinternal

/-- The loop of some server runs a section. -/
theorem Applied.runSection (h : Applied id ahead sent os c) {id' : String} {sec : Section}
    {rest : List Section} {r : Reading} (hloop : c.loops[id']? = some (sec :: rest))
    (hs : step c (.run id' r) = some (c', out)) : Applied id ahead sent (os ++ out) c' := by
  have hwf := h.wf.step hs
  have hrest := nextPublish_rest (h.wf.loops id' _ hloop)
  have hown := h.own id' _ hloop
  have hrun : ∃ p, SectionRun c id' sec rest c' p := by
    have hcases := runSection_cases h.wf hloop r
    simp only [step, hloop] at hs
    rwa [Option.some.inj hs] at hcases
  obtain ⟨p, hrun⟩ := hrun
  -- where the sections that are left lead is where they led with this one before them
  have hleft : Exclusive id (trackerStatus id c'.internalTracker)
        (c'.loops[id]?.getD [] ++ ahead) ∧
      (trackerStatus id c'.internalTracker).after id (c'.loops[id]?.getD [] ++ ahead) = sent := by
    have hex := h.exclusive
    have haf := h.after
    rw [hrun.loops, hrun.status, KeyMap.lookup_insert]
    by_cases hid : id' = id
    · subst hid
      rw [hloop] at hex haf
      rw [if_pos rfl, Option.getD_some, List.append_assoc]
      refine ⟨Throughout.append ?_ ?_, ?_⟩
      · have hhead := Exclusive.head hex.2
        have hp := hrun.publish
        clear hrun
        induction p with
        | nil => exact hhead
        | cons q p ih =>
          obtain ⟨n, notif, rfl, -⟩ := hp q List.mem_cons_self
          exact ⟨hhead, ih fun q hq => hp q (List.mem_cons_of_mem _ hq)⟩
      · rw [hrun.after]
        exact hex.2
      · rw [Status.after, List.foldl_append, hrun.after]
        exact haf
    · rw [if_neg hid, (hown sec List.mem_cons_self).feed_other hid]
      exact ⟨hex, haf⟩
  have hitems : beside id (internalItems c'.internalTracker) = false := by
    rw [beside_internalItems hwf.tracker]
    exact hleft.1.head
  have hinternal : beside id (internalTotal c'.totalByID) = false := by
    rcases hrun.internal with heq | ⟨n, notif, rfl, heq⟩
    · rw [heq]
      exact h.internal
    · rw [heq]
      exact h.pending n _ ⟨id', _, hloop, rfl⟩
  refine ⟨hwf, ?_, hleft.1, hleft.2, ?_, hinternal, h.handled_step hs hinternal⟩
  · rw [hrun.loops]
    refine h.own.insert fun q hq => ?_
    rcases List.mem_append.mp hq with hq | hq
    · obtain ⟨n, notif, rfl, -⟩ := hrun.publish q hq
      trivial
    · exact hown q (List.mem_cons_of_mem _ hq)
  · intro n total hp
    rw [hrun.loops] at hp
    rcases KeyMap.Has.of_put (o := some _) hp with hp | hp
    · exact h.pending n total hp
    · cases p with
      | nil => simp [hrest] at hp
      | cons q p =>
        obtain ⟨m, notif, rfl, htotal⟩ := hrun.publish q List.mem_cons_self
        cases hp
        rw [htotal]
        exact hitems

/-- The loop of some server takes an event: `new` is what it has to do now. -/
theorem Applied.event (h : Applied id ahead sent os c) {id' : String} {event : ServerEvent}
    {ahead' : List Section}
    (hahead : if id' = id then ahead = applyServerEvent id event ++ ahead' else ahead' = ahead)
    (hs : step c (.event id' event) = some (c', out)) : Applied id ahead' sent (os ++ out) c' := by
  have hwf := h.wf.step hs
  simp only [step] at hs
  split at hs
  · rename_i hloop
    cases hs
    rw [List.append_nil] at hwf ⊢
    have hex := h.exclusive
    have haf := h.after
    have hleft : c.loops[id]?.getD [] ++ ahead =
        (c.loops.insert id' (applyServerEvent id' event))[id]?.getD [] ++ ahead' := by
      rw [KeyMap.lookup_insert]
      by_cases hid : id' = id
      · subst hid
        rw [if_pos rfl] at hahead
        rw [hloop, hahead]
        simp
      · rw [if_neg hid] at hahead
        rw [if_neg hid, hahead]
    rw [hleft] at hex haf
    refine ⟨hwf, h.own.insert (applyServerEvent_own id' event), hex, haf, ?_, h.internal, h.handled⟩
    intro n total hp
    exact h.pending n total
      ((pending_insert hloop rfl (nextPublish_applyServerEvent id' event) n total).mp hp)
  · cases hs

theorem Applied.forget (h : Applied id ahead sent os c) {key : ItemKey}
    {order : RangeOrder (List ItemWContext)} {now : Time}
    (hs : step c (.forget key order now) = some (c', out)) :
    Applied id ahead sent (os ++ out) c' := by
  have hwf := h.wf.step hs
  have hinternal : beside id (internalTotal c'.totalByID) = false := by
    have heq := internalTotal_forget h.wf.totals order now key
    cases hs
    show beside id (internalTotal (forgetStaleIncident order now c.totalByID key).1) = false
    rw [heq]
    exact h.internal
  have hhandled := h.handled_step hs hinternal
  cases hs
  exact ⟨hwf, h.own, h.exclusive, h.after, h.pending, hinternal, hhandled⟩

/-- Anything in the combiner but taking an event of `id`. -/
theorem Applied.step (h : Applied id ahead sent os c) {a : Action} (ha : a.takes id = false)
    (hs : WsClient.step c a = some (c', out)) : Applied id ahead sent (os ++ out) c' := by
  cases a with
  | event id' event =>
    have hne : id' ≠ id := of_decide_eq_false ha
    exact h.event (by rw [if_neg hne]) hs
  | run id' r =>
    have hsome : ∃ sec rest, c.loops[id']? = some (sec :: rest) := by
      simp only [WsClient.step] at hs
      split at hs
      · exact ⟨_, _, ‹_›⟩
      · cases hs
    obtain ⟨sec, rest, hloop⟩ := hsome
    exact h.runSection hloop hs
  | forget key order now => exact h.forget hs

end Applied

/-! ## The producers -/

/-- The loop is past `WaitReady` and about to send an error of the connection. -/
def EventLoop.reporting (c : EventLoop) : Bool :=
  match c.pc with
  | .sendError _ => c.connError ≠ ""
  | _ => false

/-- The sender's side: `st` is where the events sent so far leave the incidents. -/
structure Attributed (probe : List UInt8) (trace : List Trace) (st : Status) (t : Supervisor)
    (c : EventLoop) : Prop where
  supervisor : SupervisorOk probe trace t
  failed : st.tunnel = true → lastKind trace = some .failed
  reporting : c.reporting = true → t.gate.ready = true
  shut : t.gate.ready = false → st.connection = false
  cleared : c.pc = .clearError → c.connError = ""

section Attributed

variable {probe : List UInt8} {trace out : List Trace} {st : Status} {t t' : Supervisor}
  {c c' : EventLoop}

theorem Attributed.exclusive (h : Attributed probe trace st t c) : st.both = false := by
  by_contra hboth
  simp only [Status.both, Bool.not_eq_false, Bool.and_eq_true] at hboth
  have hready : t.gate.ready = true := by
    by_contra hr
    rw [h.shut (Bool.eq_false_iff.mpr hr)] at hboth
    cases hboth.2
  have hlast := h.supervisor.gate.announced_last (.inl hready)
  rw [h.failed hboth.1] at hlast
  cases hlast

/-- What a step of the supervisor sends, and what it does to the gate. -/
inductive SupervisorStep (t : Supervisor) (a : TunnelAction) (t' : Supervisor) :
    List Trace → Prop where
  | quiet {out : List Trace} (hkind : out.filterMap Trace.kind? = [])
      (hready : t.gate.ready = true → t'.gate.ready = true) : SupervisorStep t a t' out
  | setUnready {out : List Trace} {m : Meets} {g : Nat} {error : String}
      (hkind : out.filterMap Trace.kind? = []) (ha : a = .loop m)
      (hrun : t.run = .setUnready g error) : SupervisorStep t a t' out
  | event {g : Nat} {e : TunnelEvent} (hready : t'.gate.ready = t.gate.ready) :
      SupervisorStep t a t' [.event g e]

theorem MarkStep.supervisorStep {caller : Caller} {now : Time} {gate : Gate} {returned : Bool}
    (hs : MarkStep t.gate caller now gate returned out) (a : TunnelAction)
    (hgate : t'.gate = gate) : SupervisorStep t a t' out := by
  cases hs with
  | announce hmtx => exact .event (by rw [hgate])
  | opened hmtx hc => exact .quiet rfl fun _ => by rw [hgate]
  | ignore hmtx hcheck => exact .quiet rfl fun h => by rwa [hgate]
  | enter hmtx hready hcaller => exact .quiet rfl fun h => by rwa [hgate]
  | skip hmtx hc => exact .quiet rfl fun h => by rwa [hgate]
  | abandon hmtx hc => exact .quiet rfl fun h => by rwa [hgate]

theorem Supervisor.step_cases {a : TunnelAction} (hs : t.step probe a = some (t', out)) :
    SupervisorStep t a t' out := by
  cases a with
  | cancel =>
    cases hs
    exact .quiet rfl id
  | loop m =>
    simp only [Supervisor.step, Supervisor.loop] at hs
    split at hs
    · split at hs <;> cases hs
      exact .quiet rfl id
    · split at hs
      · cases hs
        exact .quiet rfl id
      · split at hs <;> cases hs <;> exact .quiet rfl id
    · split at hs <;> cases hs <;> exact .quiet rfl id
    · split at hs
      · cases hs
      · rename_i hmark
        cases hs
        exact (markReady_cases hmark).supervisorStep _ rfl
    · cases hs
      exact .quiet rfl id
    · split at hs <;> cases hs <;> exact .quiet rfl id
    · rename_i g error hrun
      split at hs
      · cases hs
      · cases hs
        exact .setUnready rfl rfl hrun
    · split at hs
      · cases hs
        exact .event rfl
      · split at hs <;> cases hs
        exact .quiet rfl id
    · split at hs
      · cases hs
        exact .quiet rfl id
      · split at hs <;> cases hs
        exact .quiet rfl id
    · cases hs
  | write g stream p =>
    simp only [Supervisor.step] at hs
    split at hs <;> cases hs
    exact .quiet rfl id
  | callback g stream m =>
    simp only [Supervisor.step] at hs
    split at hs
    · split at hs
      · cases hs
      · rename_i hmark
        cases hs
        exact (markReady_cases hmark).supervisorStep _ rfl
    · cases hs

/-- The gate is shut only while no error of the connection stands or is about to be sent. -/
def shutsUnreported (st : Status) (c : EventLoop) (t : Supervisor) : TunnelAction → Bool
  | .loop _ =>
    match t.run with
    | .setUnready _ _ => !st.connection && !c.reporting
    | _ => true
  | _ => true

/-- The sections that the events of a step of the supervisor amount to. -/
def traceSections (id : String) (out : List Trace) : List Section :=
  (out.filterMap Trace.event?).flatMap (applyServerEvent id)

theorem traceSections_quiet (id : String) {out : List Trace}
    (h : out.filterMap Trace.kind? = []) : traceSections id out = [] := by
  have hnone : out.filterMap Trace.event? = [] := by
    refine List.filterMap_eq_nil_iff.mpr fun x hx => ?_
    have hkind := List.filterMap_eq_nil_iff.mp h x hx
    cases x <;> simp_all [Trace.kind?, Trace.event?]
  rw [traceSections, hnone]
  rfl

/-- Where an event of the tunnel leaves the incidents. -/
theorem after_event (id : String) (st : Status) (g : Nat) (e : TunnelEvent) :
    st.after id (traceSections id [.event g e]) =
      { st with tunnel := e.kind = .failed && e.error ≠ "" } := by
  cases hk : e.kind <;>
    simp [traceSections, Trace.event?, applyServerEvent, hk, Status.after, Status.feed]

theorem Attributed.tunnel (h : Attributed probe trace st t c) {a : TunnelAction} (id : String)
    (hquiet : shutsUnreported st c t a = true) (hs : t.step probe a = some (t', out)) :
    Attributed probe (trace ++ out) (st.after id (traceSections id out)) t' c := by
  have hok := h.supervisor.step hs
  cases Supervisor.step_cases hs with
  | quiet hkind hready =>
    rw [traceSections_quiet id hkind]
    refine ⟨hok, ?_, fun hr => hready (h.reporting hr), fun hr => h.shut ?_, h.cleared⟩
    · rw [lastKind_append hkind]
      exact h.failed
    · by_contra hne
      rw [hready (by simpa using hne)] at hr
      cases hr
  | setUnready hkind ha hrun =>
    subst ha
    simp only [shutsUnreported, hrun, Bool.and_eq_true, Bool.not_eq_true'] at hquiet
    rw [traceSections_quiet id hkind]
    refine ⟨hok, ?_, fun hr => ?_, fun _ => hquiet.1, h.cleared⟩
    · rw [lastKind_append hkind]
      exact h.failed
    · rw [hquiet.2] at hr
      cases hr
  | event hready =>
    rw [after_event]
    refine ⟨hok, fun hfailed => ?_, fun hr => ?_, fun hr => h.shut (hready ▸ hr), h.cleared⟩
    · simp only [Bool.and_eq_true, decide_eq_true_eq] at hfailed
      rw [lastKind_event, hfailed.1]
    · rw [hready]
      exact h.reporting hr

/-- A step between two states without both incidents runs through none with both. -/
theorem exclusive_traceSections (id : String) {a : TunnelAction}
    (hs : t.step probe a = some (t', out)) (hst : st.both = false)
    (hafter : (st.after id (traceSections id out)).both = false) :
    Exclusive id st (traceSections id out) := by
  have hquiet : out.filterMap Trace.kind? = [] → Exclusive id st (traceSections id out) := by
    intro hkind
    rw [traceSections_quiet id hkind]
    exact hst
  cases Supervisor.step_cases hs with
  | quiet hkind hready => exact hquiet hkind
  | setUnready hkind ha hrun => exact hquiet hkind
  | @event g e hready =>
    have hsections : traceSections id [.event g e] = applyServerEvent id (.tunnel e) := by
      simp [traceSections, Trace.event?]
    rw [hsections] at hafter ⊢
    rw [applyServerEvent] at hafter ⊢
    cases hk : e.kind with
    | ready =>
      rw [hk] at hafter
      exact ⟨hst, hafter⟩
    | failed =>
      rw [hk] at hafter
      exact ⟨hst, hst, hafter⟩

/-- The event does not touch the two incidents. -/
def ServerEvent.plain : ServerEvent → Bool
  | .connection _ => true
  | .ongoingIncidents _ => true
  | _ => false

theorem after_plain {e : ServerEvent} (h : e.plain = true) (id : String) (st : Status) :
    st.after id (applyServerEvent id e) = st ∧
      (st.both = false → Exclusive id st (applyServerEvent id e)) := by
  cases e with
  | connection event =>
    rw [applyServerEvent]
    split
    · exact ⟨rfl, fun hst => ⟨hst, hst⟩⟩
    · exact ⟨rfl, fun hst => hst⟩
  | ongoingIncidents wire =>
    rw [applyServerEvent]
    split
    · exact ⟨rfl, fun hst => hst⟩
    · exact ⟨rfl, fun hst => ⟨hst, hst⟩⟩
  | connectionError error => cases h
  | tunnel event => cases h

/-- What a step of the event loop sends. -/
inductive Sends (c : EventLoop) : List ServerEvent → Prop where
  | nothing : Sends c []
  | plain {e : ServerEvent} (he : e.plain = true) : Sends c [e]
  | error (hc : c.reporting = true ∨ c.connError = "") : Sends c [.connectionError c.connError]

structure EventLoopStep (t : Supervisor) (c c' : EventLoop) (events : List ServerEvent) : Prop where
  reporting : c'.reporting = true → t.gate.ready = true
  cleared : c'.pc = .clearError → c'.connError = ""
  sends : Sends c events

theorem EventLoop.send_cases {x : Sees} {event : ServerEvent} {sent : EventLoop} {refused : LoopPc}
    {events : List ServerEvent} (hs : c.send x event sent refused = some (c', events)) :
    c' = { c with pc := refused } ∧ events = [] ∨ c' = sent ∧ events = [event] := by
  unfold EventLoop.send at hs
  split at hs
  · split at hs <;> cases hs
    exact .inl ⟨rfl, rfl⟩
  · cases hs
    exact .inr ⟨rfl, rfl⟩

/-- A step to a place from which no error of the connection is sent. -/
theorem EventLoopStep.goto {events : List ServerEvent} (hpc : c'.reporting = false)
    (hcleared : c'.pc = .clearError → c'.connError = "") (hsends : Sends c events) :
    EventLoopStep t c c' events := by
  refine ⟨fun h => ?_, hcleared, hsends⟩
  rw [hpc] at h
  cases h

theorem EventLoop.receive_pc (c : EventLoop) (r : ReadResult) (hpc : c.pc = .read) :
    (c.receive r).reporting = false ∧ (c.receive r).pc ≠ .clearError := by
  cases r with
  | incidents event data =>
    rw [EventLoop.receive]
    split <;> exact ⟨rfl, nofun⟩
  | unsupported event => simp [EventLoop.receive, EventLoop.reporting, hpc]
  | _ => exact ⟨rfl, nofun⟩

theorem EventLoop.waitReady_cases {tunnelWasReady : Bool} {x : Sees} {wait : WaitPc}
    (hs : c.waitReady t tunnelWasReady x wait = some c') :
    (c'.reporting = true → t.gate.ready = true) ∧ c'.pc ≠ .clearError := by
  cases wait with
  | top =>
    simp only [EventLoop.waitReady] at hs
    split at hs
    · cases hs
    · split at hs
      · rename_i hready
        cases hs
        exact ⟨fun _ => hready, nofun⟩
      · cases hs
        exact ⟨nofun, nofun⟩
  | select readyCh =>
    simp only [EventLoop.waitReady] at hs
    split at hs
    · split at hs <;> cases hs
      exact ⟨nofun, nofun⟩
    · split at hs <;> cases hs
      exact ⟨nofun, nofun⟩

theorem EventLoop.step_cases {bearerTokenProvided : Bool} {x : Sees} {events : List ServerEvent}
    (hcleared : c.pc = .clearError → c.connError = "")
    (hs : c.step bearerTokenProvided (some t) x = some (c', events)) :
    EventLoopStep t c c' events := by
  unfold EventLoop.step at hs
  split at hs
  · dsimp only at hs
    split at hs <;> cases hs
    exact .goto rfl nofun .nothing
  · obtain ⟨c₁, hwait, heq⟩ := Option.map_eq_some_iff.mp hs
    cases heq
    obtain ⟨hready, hpc⟩ := EventLoop.waitReady_cases hwait
    exact ⟨hready, fun h => absurd h hpc, .nothing⟩
  · rename_i tunnelWasReady hpc
    have herror : c.reporting = true ∨ c.connError = "" := by
      by_cases he : c.connError = ""
      · exact .inr he
      · exact .inl (by simp [EventLoop.reporting, hpc, he])
    obtain ⟨rfl, rfl⟩ | ⟨rfl, rfl⟩ := EventLoop.send_cases hs
    · exact .goto rfl nofun .nothing
    · -- the loop goes on to the delay or to the dial
      split
      · exact .goto rfl nofun (.error herror)
      · exact .goto rfl nofun (.error herror)
  · split at hs
    · split at hs <;> cases hs
      exact .goto rfl nofun .nothing
    · cases hs
      exact .goto rfl nofun .nothing
  · split at hs <;> cases hs <;> exact .goto rfl nofun .nothing
  · split at hs <;> cases hs <;> exact .goto rfl nofun .nothing
  · obtain ⟨rfl, rfl⟩ | ⟨rfl, rfl⟩ := EventLoop.send_cases hs
    · exact .goto rfl nofun .nothing
    · exact .goto rfl nofun (.plain rfl)
  · obtain ⟨rfl, rfl⟩ | ⟨rfl, rfl⟩ := EventLoop.send_cases hs
    · exact .goto rfl nofun .nothing
    · exact .goto rfl (fun _ => rfl) (.plain rfl)
  · rename_i hpc
    obtain ⟨rfl, rfl⟩ | ⟨rfl, rfl⟩ := EventLoop.send_cases hs
    · exact .goto rfl nofun .nothing
    · exact .goto rfl nofun (.error (.inr (hcleared hpc)))
  · rename_i hpc
    obtain ⟨hreporting, hclear⟩ := c.receive_pc x.read hpc
    cases hs
    exact .goto hreporting (fun h => absurd h hclear) .nothing
  · obtain ⟨rfl, rfl⟩ | ⟨rfl, rfl⟩ := EventLoop.send_cases hs
    · exact .goto rfl nofun .nothing
    · exact .goto rfl nofun (.plain rfl)
  · obtain ⟨rfl, rfl⟩ | ⟨rfl, rfl⟩ := EventLoop.send_cases hs
    · exact .goto rfl nofun .nothing
    · exact .goto rfl nofun (.plain rfl)
  · split at hs <;> cases hs <;> exact .goto rfl nofun .nothing
  · obtain ⟨rfl, rfl⟩ | ⟨rfl, rfl⟩ := EventLoop.send_cases hs
    · exact .goto rfl nofun .nothing
    · exact .goto rfl nofun (.plain rfl)
  · split at hs
    · split at hs <;> cases hs
      exact .goto rfl nofun .nothing
    · cases hs
      exact .goto rfl nofun .nothing
  · cases hs

theorem after_connectionError (id : String) (st : Status) (err : String) :
    st.after id (applyServerEvent id (.connectionError err)) =
      { st with connection := err ≠ "" } := by
  simp [applyServerEvent, Status.after, Status.feed, connectionKey_ne_tunnelKey]

theorem Attributed.client (h : Attributed probe trace st t c) {bearerTokenProvided : Bool} {x : Sees}
    {events : List ServerEvent} (id : String)
    (hs : c.step bearerTokenProvided (some t) x = some (c', events)) :
    Attributed probe trace (st.after id (events.flatMap (applyServerEvent id))) t c' ∧
      Exclusive id st (events.flatMap (applyServerEvent id)) := by
  have hst := h.exclusive
  obtain ⟨hreporting, hcleared, hsends⟩ := EventLoop.step_cases h.cleared hs
  cases hsends with
  | nothing => exact ⟨⟨h.supervisor, h.failed, hreporting, h.shut, hcleared⟩, hst⟩
  | @plain e he =>
    obtain ⟨hafter, hex⟩ := after_plain he id st
    simp only [List.flatMap_cons, List.flatMap_nil, List.append_nil, hafter]
    exact ⟨⟨h.supervisor, h.failed, hreporting, h.shut, hcleared⟩, hex hst⟩
  | error herror =>
    simp only [List.flatMap_cons, List.flatMap_nil, List.append_nil, after_connectionError]
    have hshut : t.gate.ready = false → decide (c.connError ≠ "") = false := by
      intro hr
      rcases herror with hrep | he
      · rw [h.reporting hrep] at hr
        cases hr
      · simp [he]
    have hnext : Attributed probe trace { st with connection := c.connError ≠ "" } t c' :=
      ⟨h.supervisor, h.failed, hreporting, hshut, hcleared⟩
    refine ⟨hnext, hst, ?_⟩
    have hafter := after_connectionError id st c.connError
    simp only [applyServerEvent, Status.after, List.foldl_cons, List.foldl_nil] at hafter
    show (st.feed id _).both = false
    rw [hafter]
    exact hnext.exclusive

end Attributed

/-! ## Every run -/

/-- The condition on a step of the whole system. -/
def failsUnreported (id : String) (s : Tunneled) : TunneledAction → Bool
  | .tunnel a => shutsUnreported (sentStatus id s.sent) s.client s.tunnel a
  | _ => true

/-- The sections still in the channel. -/
def Tunneled.ahead (id : String) (s : Tunneled) : List Section :=
  s.serverEventCh.flatMap (applyServerEvent id)

structure Tunneled.Ok (probe : List UInt8) (id : String) (os : List Notification) (s : Tunneled) :
    Prop where
  attributed : ∃ trace, Attributed probe trace (sentStatus id s.sent) s.tunnel s.client
  applied : Applied id (s.ahead id) (sentStatus id s.sent) os s.combiner

section Run

variable {probe : List UInt8} {id : String} {os out : List Notification} {s s' : Tunneled}

/-- A step of one of the senders. -/
theorem Tunneled.Ok.put (h : Tunneled.Ok probe id os s) {tunnel : Supervisor} {client : EventLoop}
    {events : List ServerEvent} {trace : List Trace}
    (hatt : Attributed probe trace
      ((sentStatus id s.sent).after id (events.flatMap (applyServerEvent id))) tunnel client)
    (hex : Exclusive id (sentStatus id s.sent) (events.flatMap (applyServerEvent id)))
    (hs : { s with tunnel, client }.put events = some (s', out)) :
    Tunneled.Ok probe id (os ++ out) s' := by
  unfold Tunneled.put at hs
  split at hs
  · cases hs
    have happ := h.applied.put hex
    rw [← sentStatus_append] at hatt happ
    rw [List.append_nil]
    refine ⟨⟨trace, hatt⟩, ?_⟩
    simpa [Tunneled.ahead] using happ
  · cases hs

theorem Tunneled.combine_some {serverEventCh : List ServerEvent} {a : Action}
    (hs : s.combine serverEventCh a = some (s', out)) :
    ∃ c, WsClient.step s.combiner a = some (c, out) ∧
      s' = { s with combiner := c, serverEventCh } := by
  obtain ⟨⟨c, out'⟩, hstep, heq⟩ := Option.map_eq_some_iff.mp hs
  cases heq
  exact ⟨c, hstep, rfl⟩

theorem Tunneled.Ok.step (h : Tunneled.Ok probe id os s) {bearerTokenProvided : Bool}
    {a : TunneledAction} (hcond : failsUnreported id s a = true)
    (hs : s.step probe bearerTokenProvided id a = some (s', out)) :
    Tunneled.Ok probe id (os ++ out) s' := by
  obtain ⟨⟨trace, hatt⟩, happ⟩ := h
  cases a with
  | tunnel a =>
    simp only [Tunneled.step] at hs
    split at hs
    · cases hs
    · rename_i tunnel traced hstep
      have hnext := hatt.tunnel id hcond hstep
      have hex := exclusive_traceSections id hstep hatt.exclusive hnext.exclusive
      exact Tunneled.Ok.put ⟨⟨trace, hatt⟩, happ⟩ hnext hex hs
  | client x =>
    simp only [Tunneled.step] at hs
    split at hs
    · cases hs
    · rename_i client events hstep
      obtain ⟨hnext, hex⟩ := hatt.client id hstep
      exact Tunneled.Ok.put ⟨⟨trace, hatt⟩, happ⟩ hnext hex hs
  | interrupt =>
    cases hs
    rw [List.append_nil]
    exact ⟨⟨trace, hatt.supervisor, hatt.failed, hatt.reporting, hatt.shut, hatt.cleared⟩, happ⟩
  | take =>
    simp only [Tunneled.step] at hs
    split at hs
    · cases hs
    · rename_i event rest hch
      obtain ⟨c, hstep, rfl⟩ := Tunneled.combine_some hs
      refine ⟨⟨trace, hatt⟩, happ.event ?_ hstep⟩
      simp [Tunneled.ahead, hch]
  | combiner a =>
    simp only [Tunneled.step] at hs
    split at hs
    · cases hs
    · rename_i htakes
      obtain ⟨c, hstep, rfl⟩ := Tunneled.combine_some hs
      exact ⟨⟨trace, hatt⟩, happ.step (Bool.eq_false_iff.mpr htakes) hstep⟩

theorem Tunneled.Ok.init (config : ServerIDs) (bearerTokenProvided : Bool) :
    Tunneled.Ok probe id [] (tunneled probe bearerTokenProvided config id).init := by
  have hempty : KeyMap.All (WsClient.combiner config).init.loops fun _ sections => sections = [] :=
    KeyMap.all_ofEntries fun p hp => by
      obtain ⟨a, -, rfl⟩ := List.mem_map.mp hp
      rfl
  have hnil : (WsClient.combiner config).init.loops[id]?.getD [] = [] := by
    cases hl : (WsClient.combiner config).init.loops[id]? with
    | none => rfl
    | some sections => exact hempty id sections hl
  have hstatus : trackerStatus id (WsClient.combiner config).init.internalTracker = {} := by
    simp [trackerStatus, WsClient.combiner, newItemStatesTracker]
  refine ⟨⟨[], SupervisorOk.init, (by rintro ⟨⟩), (by rintro ⟨⟩), fun _ => rfl, (by rintro ⟨⟩)⟩, wf_run config .nil,
    hempty.imp fun _ _ h => by simp [h], ?_, ?_, ?_, rfl, by simp⟩
  · show Exclusive id (trackerStatus id (WsClient.combiner config).init.internalTracker)
      ((WsClient.combiner config).init.loops[id]?.getD [] ++ [])
    rw [hnil, hstatus]
    rfl
  · show (trackerStatus id (WsClient.combiner config).init.internalTracker).after id
      ((WsClient.combiner config).init.loops[id]?.getD [] ++ []) = {}
    rw [hnil, hstatus]
    rfl
  · rintro n total ⟨a, sections, hl, hp⟩
    rw [hempty a sections hl] at hp
    cases hp

end Run

/-- **A tunnel failure is the root cause.** The combiner never has both incidents of the server, and
never shows both, if the gate is shut only while no error of the connection stands. -/
theorem tunnel_incident_alone (probe : List UInt8) (bearerTokenProvided : Bool) (config : ServerIDs)
    (id : String) {os : List Notification} {s : Tunneled}
    (h : Guarded.Path ((tunneled probe bearerTokenProvided config id).only
      fun s a => failsUnreported id s a) os s) :
    ¬ (tunnelKey id ∈ s.combiner.internalTracker.itemsNotOK ∧
        connectionKey id ∈ s.combiner.internalTracker.itemsNotOK) ∧
      ∀ n ∈ os, ¬ ((∃ w ∈ n.ongoingIncidents.total, w.key = tunnelKey id) ∧
        ∃ w ∈ n.ongoingIncidents.total, w.key = connectionKey id) := by
  have hok : Tunneled.Ok probe id os s := by
    refine Guarded.Path.history (I := Tunneled.Ok probe id) ?_ ?_ h
    · exact Tunneled.Ok.init config bearerTokenProvided
    · intro os s a s' out ih hs
      obtain ⟨hcond, hs⟩ := Guarded.only_step.mp hs
      exact ih.step hcond hs
  have hboth := hok.applied.exclusive.head
  constructor
  · rintro ⟨ht, hc⟩
    simp only [Status.both, trackerStatus, Std.ExtTreeMap.isSome_getElem?_iff_mem.mpr ht,
      Std.ExtTreeMap.isSome_getElem?_iff_mem.mpr hc] at hboth
    cases hboth
  · intro n hn hshown
    have hbeside := hok.applied.handled n hn
    rw [← beside_iff, hbeside] at hshown
    cases hshown

def oneServer : ServerIDs := ⟨["db"], by decide⟩

/-- A tunnel without a probe is started, and the loop is past `WaitReady`. -/
def opening : List TunneledAction :=
  List.replicate 5 (.tunnel (.loop {})) ++ List.replicate 3 (.client {})

/-- The process ends and its failure is sent. -/
def exits : List TunneledAction :=
  [.tunnel (.loop { err := some "exit status 255" }), .tunnel (.loop {}), .tunnel (.loop {}),
   .tunnel (.loop {})]

/-- The combiner takes an event and runs its sections. -/
def applies (sections : Nat) : List TunneledAction :=
  .take :: List.replicate sections (.combiner (.run "db" someReading))

/-- The connection breaks with the tunnel, and the supervisor is the first to notice. -/
def attributed : List TunneledAction :=
  opening ++ List.replicate 3 (.client {}) ++
    [.client { read := .failed "EOF" }] ++ exits ++ [.client {}] ++
    applies 1 ++ applies 1 ++ applies 0 ++ applies 1 ++ applies 3

theorem tunnel_incident_alone_attributed :
    ∃ os s, Guarded.Path ((tunneled [] false oneServer "db").only
        fun s a => failsUnreported "db" s a) os s ∧
      s.client.pc = .disconnected ∧
      tunnelKey "db" ∈ s.combiner.internalTracker.itemsNotOK ∧
      connectionKey "db" ∉ s.combiner.internalTracker.itemsNotOK := by
  obtain ⟨os, s, hpath, hp⟩ := Guarded.exists_path
    (G := (tunneled [] false oneServer "db").only fun s a => failsUnreported "db" s a)
    (a := attributed)
    (p := fun r => r.2.client.pc = .disconnected &&
      r.2.combiner.internalTracker.itemsNotOK.contains (tunnelKey "db")) (by decide)
  simp only [Bool.and_eq_true, decide_eq_true_eq, Std.ExtTreeMap.contains_iff_mem] at hp
  have hexcl := (tunnel_incident_alone [] false oneServer "db" hpath).1
  exact ⟨os, s, hpath, hp.1, hp.2, fun hc => hexcl ⟨hp.2, hc⟩⟩

/-- The dial fails, the tunnel still counts as ready after the settle delay, and only then is its
process seen to have exited. -/
def noticedLate : List TunneledAction :=
  opening ++ [.client { dial := .failed "connection refused" none }] ++
    List.replicate 5 (.client {}) ++ exits ++
    applies 1 ++ applies 1 ++ applies 1 ++ applies 2 ++ applies 3

/-- Everything sent has been applied, and the last total shows both incidents. -/
theorem tunnel_incident_beside :
    ∃ os s, Guarded.Path (tunneled [] false oneServer "db") os s ∧
      s.serverEventCh = [] ∧ s.combiner.idle = true ∧
      (internalItems s.combiner.internalTracker).map (·.key) =
        ["internal.connection.db", "internal.tunnel.db"] ∧
      (lastTotal os).map (·.key) = ["internal.connection.db", "internal.tunnel.db"] := by
  obtain ⟨os, s, hpath, hp⟩ := Guarded.exists_path (G := tunneled [] false oneServer "db")
    (a := noticedLate)
    (p := fun r => r.2.serverEventCh = [] && r.2.combiner.idle &&
      (internalItems r.2.combiner.internalTracker).map (·.key) =
        ["internal.connection.db", "internal.tunnel.db"] &&
      (lastTotal r.1).map (·.key) = ["internal.connection.db", "internal.tunnel.db"]) (by decide)
  simp only [Bool.and_eq_true, decide_eq_true_eq, and_assoc] at hp
  exact ⟨os, s, hpath, hp⟩

end WsClient
end Montray
