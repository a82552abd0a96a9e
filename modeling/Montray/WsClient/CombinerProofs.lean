import Montray.Lib.Relay
import Montray.Server.TrackerDeltas
import Montray.WsClient.Combiner

/-!
# Montray.WsClient.CombinerProofs

The client's own incidents in the combiner.

In every run the totals keep the servers apart: what is cached for a server never looks like one of
the client's own incidents, and the client's own are never stale (`wf_run`). So the internal part of
a combined total is what is cached under `internal` (`internalPart_combinedTotal`).

What is cached under `internal` is the tracker's set of incidents once no call of
`applyInternalItem` is between its two sections, provided the calls publish in the order in which
they fed the tracker (`internal_current`). They need not: `internal_overtaken` is a run of two
servers in which the older notification is published last.
-/

namespace Montray
namespace WsClient

open Lib Tracker

/-! ## The totals -/

def internalPart (total : List ItemWContext) : List ItemWContext :=
  total.filter fun w => under idInternal w.key

/-- The total passed to the handler last. -/
def lastTotal (os : List Notification) : List ItemWContext :=
  (os.getLast?.map fun n => n.ongoingIncidents.total).getD []

@[simp] theorem lastTotal_snoc (os : List Notification) (n : Notification) :
    lastTotal (os ++ [n]) = n.ongoingIncidents.total := by
  simp [lastTotal]

/-- What may be cached under an id. -/
def ItemsOk (id : String) (items : List ItemWContext) : Prop :=
  if id = idInternal then ∀ w ∈ items, under idInternal w.key = true ∧ w.stale = false
  else ∀ w ∈ items, under idInternal w.key = false

theorem itemsOk_internal {items : List ItemWContext} :
    ItemsOk idInternal items ↔ ∀ w ∈ items, under idInternal w.key = true ∧ w.stale = false := by
  simp [ItemsOk]

theorem itemsOk_server {id : String} (hid : id ≠ idInternal) {items : List ItemWContext} :
    ItemsOk id items ↔ ∀ w ∈ items, under idInternal w.key = false := by
  simp [ItemsOk, hid]

def TotalsOk (totalByID : Totals) : Prop := KeyMap.All totalByID ItemsOk

def internalTotal (totalByID : Totals) : List ItemWContext := totalByID[idInternal]?.getD []

theorem internalPart_combinedTotal {totalByID : Totals} (h : TotalsOk totalByID) :
    internalPart (combinedTotal totalByID) = internalTotal totalByID := by
  have hother : ∀ p ∈ totalByID.toList, p.1 ≠ idInternal → internalPart p.2 = [] := by
    intro p hp hne
    have hok := (itemsOk_server hne).mp (h p.1 p.2 (KeyMap.mem_toList.mp hp))
    exact List.filter_eq_nil_iff.mpr fun w hw => by simp [hok w hw]
  have hflat : internalPart (combinedTotal totalByID) =
      totalByID.toList.flatMap fun p => internalPart p.2 := by
    simp [internalPart, combinedTotal, List.filter_flatMap]
  rw [hflat, KeyMap.flatMap_toList hother, internalTotal]
  cases hk : totalByID[idInternal]? with
  | none => rfl
  | some items =>
    have hok := itemsOk_internal.mp (h idInternal items hk)
    exact List.filter_eq_self.mpr fun w hw => (hok w hw).1

/-- A section that replaces the totals cached under one id and publishes the new combination. -/
theorem last_insert {totalByID : Totals} (h : TotalsOk totalByID) {id : String}
    {items : List ItemWContext} (hok : ItemsOk id items) {n : Notification}
    (hn : n.ongoingIncidents.total = combinedTotal (totalByID.insert id items))
    (os : List Notification) :
    internalPart (lastTotal (os ++ [n])) = internalTotal (totalByID.insert id items) := by
  rw [lastTotal_snoc, hn]
  exact internalPart_combinedTotal (h.insert hok)

theorem internalTotal_insert {totalByID : Totals} {id : String} (hid : id ≠ idInternal)
    (items : List ItemWContext) :
    internalTotal (totalByID.insert id items) = internalTotal totalByID := by
  rw [internalTotal, KeyMap.lookup_insert, if_neg hid, internalTotal]

theorem markServerIncidentsStale_cases {totalByID : Totals} (h : TotalsOk totalByID)
    {id : String} (hid : id ≠ idInternal) (eventTime : Time) :
    markServerIncidentsStale totalByID id eventTime = (totalByID, []) ∨
      ∃ updated n, ItemsOk id updated ∧
        markServerIncidentsStale totalByID id eventTime = (totalByID.insert id updated, [n]) ∧
        n.ongoingIncidents.total = combinedTotal (totalByID.insert id updated) := by
  unfold markServerIncidentsStale
  dsimp only
  split
  · exact .inl rfl
  · refine .inr ⟨_, _, (itemsOk_server hid).mpr fun w hw => ?_, rfl, rfl⟩
    obtain ⟨v, hv, rfl⟩ := List.mem_map.mp hw
    cases hl : totalByID[id]? with
    | none => simp [hl] at hv
    | some items =>
      rw [hl] at hv
      exact (itemsOk_server hid).mp (h id items hl) v hv

theorem internalTotal_markStale {totalByID : Totals} (h : TotalsOk totalByID) {id : String}
    (hid : id ≠ idInternal) (eventTime : Time) :
    internalTotal (markServerIncidentsStale totalByID id eventTime).1 = internalTotal totalByID := by
  obtain heq | ⟨updated, n, -, heq, -⟩ := markServerIncidentsStale_cases h hid eventTime
  · rw [heq]
  · rw [heq]
    exact internalTotal_insert hid updated

theorem dropStale_some {key : ItemKey} {items updated : List ItemWContext}
    (h : dropStale key items = some updated) :
    updated.Sublist items ∧ ∃ w ∈ items, w.key = key ∧ w.stale = true := by
  induction items generalizing updated with
  | nil => cases h
  | cons item rest ih =>
    rw [dropStale] at h
    split at h
    · obtain ⟨tail, htail, rfl⟩ := Option.map_eq_some_iff.mp h
      obtain ⟨hsub, w, hw, hkey⟩ := ih htail
      exact ⟨hsub.cons_cons item, w, List.mem_cons_of_mem _ hw, hkey⟩
    · rename_i hitem
      cases h
      simp only [ne_eq, not_or, not_not] at hitem
      exact ⟨List.sublist_cons_self item rest, item, List.mem_cons_self, hitem⟩

theorem findStale_some {key : ItemKey} {entries : List (String × List ItemWContext)}
    {id : String} {updated : List ItemWContext} (h : findStale key entries = some (id, updated)) :
    ∃ items, (id, items) ∈ entries ∧ dropStale key items = some updated := by
  induction entries with
  | nil => cases h
  | cons entry rest ih =>
    obtain ⟨a, items⟩ := entry
    rw [findStale] at h
    split at h
    · rename_i hd
      cases h
      exact ⟨items, List.mem_cons_self, hd⟩
    · obtain ⟨items', hmem, hd⟩ := ih h
      exact ⟨items', List.mem_cons_of_mem _ hmem, hd⟩

/-- The client's own incidents are never stale, so they are never forgotten. -/
theorem forgetStaleIncident_cases {totalByID : Totals} (h : TotalsOk totalByID)
    (order : RangeOrder (List ItemWContext)) (now : Time) (key : ItemKey) :
    forgetStaleIncident order now totalByID key = (totalByID, []) ∨
      ∃ id updated n, id ≠ idInternal ∧ ItemsOk id updated ∧
        forgetStaleIncident order now totalByID key = (totalByID.insert id updated, [n]) ∧
        n.ongoingIncidents.total = combinedTotal (totalByID.insert id updated) := by
  unfold forgetStaleIncident
  split
  · exact .inl rfl
  · rename_i id updated hfind
    obtain ⟨items, hmem, hdrop⟩ := findStale_some hfind
    have hitems := h id items (order.mem_visit.mp hmem)
    obtain ⟨hsub, w, hw, -, hstale⟩ := dropStale_some hdrop
    have hid : id ≠ idInternal := by
      rintro rfl
      have := (itemsOk_internal.mp hitems w hw).2
      simp [hstale] at this
    refine .inr ⟨id, updated, _, hid, (itemsOk_server hid).mpr fun v hv => ?_, rfl, rfl⟩
    exact (itemsOk_server hid).mp hitems v (hsub.subset hv)

theorem internalTotal_forget {totalByID : Totals} (h : TotalsOk totalByID)
    (order : RangeOrder (List ItemWContext)) (now : Time) (key : ItemKey) :
    internalTotal (forgetStaleIncident order now totalByID key).1 = internalTotal totalByID := by
  obtain heq | ⟨id, updated, n, hid, -, heq, -⟩ := forgetStaleIncident_cases h order now key
  · rw [heq]
  · rw [heq]
    exact internalTotal_insert hid updated

/-! ## Every run -/

/-- The incidents of the client itself: filed under their keys, never stale. -/
def TrackerOk (ist : ItemStatesTracker) : Prop :=
  KeyMap.All ist.itemsNotOK fun k w => w.key = k ∧ under idInternal k = true ∧ w.stale = false

theorem TrackerOk.keyed {ist : ItemStatesTracker} (h : TrackerOk ist) : Keyed ist.itemsNotOK :=
  fun k w hw => (h k w hw).1

theorem TrackerOk.feed {ist : ItemStatesTracker} (h : TrackerOk ist) {key : ItemKey}
    (hkey : under idInternal key = true) (err : String) (r : Reading) :
    TrackerOk (feedItems ist (internalCall key err r)).1 := by
  intro k w hw
  have hold := h k
  rw [feedItems_notOK] at hw
  simp only [internalCall, KeyMap.lookup_insert] at hw
  by_cases hk : key = k
  · subst hk
    simp only [if_true, reported] at hw
    split at hw
    · cases hw
    · split at hw
      · cases hw
        exact ⟨rfl, hkey, rfl⟩
      · rename_i exItem hex
        cases hw
        exact ⟨rfl, hkey, (hold exItem hex).2.2⟩
  · simp only [if_neg hk, Std.ExtTreeMap.getElem?_empty] at hw
    exact hold w hw

/-- The tracker's set of non-OK items, in the order in which it is published. -/
def internalItems (ist : ItemStatesTracker) : List ItemWContext :=
  itemsMapToSortedSlice (RangeOrder.sorted _) ist.itemsNotOK

theorem TrackerOk.items {ist : ItemStatesTracker} (h : TrackerOk ist) :
    ItemsOk idInternal (internalItems ist) := by
  refine itemsOk_internal.mpr fun w hw => ?_
  exact (h w.key w ((mem_itemsMapToSortedSlice h.keyed).mp hw)).2

/-- What the tracker returns is its new set of incidents. -/
theorem feedItems_total {ist : ItemStatesTracker} {c : Call} {notif : Notification}
    (hkeyed : Keyed (feedItems ist c).1.itemsNotOK) (h : (feedItems ist c).2 = some notif) :
    notif.ongoingIncidents.total = internalItems (feedItems ist c).1 := by
  have hstep : (tracker.step ist c).2 = some notif := h
  rw [notification_eq hstep]
  exact itemsMapToSortedSlice_order _ _ hkeyed

theorem feedItems_none {ist : ItemStatesTracker} {c : Call} (hkeyed : Keyed ist.itemsNotOK)
    (h : (feedItems ist c).2 = none) : internalItems (feedItems ist c).1 = internalItems ist := by
  have heq : (tracker.step ist c).1.itemsNotOK = ist.itemsNotOK := (step_none_iff hkeyed).mp h
  exact congrArg (itemsMapToSortedSlice (RangeOrder.sorted _)) heq

/-- What the loop of a server may still have to do. -/
def SectionOk (id : String) : Section → Prop
  | .apply notif => ItemsOk id notif.ongoingIncidents.total
  | .markStale _ => True
  | .feed key _ => under idInternal key = true
  | .publish _ notif => ItemsOk idInternal notif.ongoingIncidents.total

def Section.isPublish : Section → Bool
  | .publish _ _ => true
  | _ => false

/-- The loop of a server; only the section it runs next may be a publication. -/
structure LoopOk (id : String) (pending : List Section) : Prop where
  valid : validateServerID id = .ok ()
  sections : ∀ sec ∈ pending, SectionOk id sec
  later : ∀ sec ∈ pending.tail, sec.isPublish = false

theorem idInternal_no_dot : '.' ∉ idInternal.toList := by decide

theorem under_getPrefixedItem {id : String} (hid : validateServerID id = .ok ())
    (item : ItemWContext) : under idInternal (getPrefixedItem item id).key = false := by
  obtain ⟨hdot, hne⟩ := validateServerID_ok hid
  rw [Bool.eq_false_iff]
  intro h
  exact hne ((under_dotted idInternal_no_dot hdot).mp h).symm

theorem under_append {head : String} (h : under idInternal head = true) (tail : String) :
    under idInternal (head ++ tail) = true := by
  rw [under, List.isPrefixOf_iff_prefix] at h ⊢
  rw [String.toList_append]
  exact h.trans (List.prefix_append _ _)

theorem under_connectionKey (id : String) : under idInternal (connectionKey id) = true :=
  under_append (by decide) id

theorem under_tunnelKey (id : String) : under idInternal (tunnelKey id) = true :=
  under_append (by decide) id

theorem getPrefixedNotif_itemsOk {id : String} (hid : validateServerID id = .ok ())
    {wire : Option Wire.Notification} {notif : Notification}
    (h : getPrefixedNotif wire id = .ok notif) : ItemsOk id notif.ongoingIncidents.total := by
  cases hv : validateNotification wire with
  | error e =>
    simp only [getPrefixedNotif, hv] at h
    cases h
  | ok valid =>
    simp only [getPrefixedNotif, hv] at h
    cases h
    refine (itemsOk_server (validateServerID_ok hid).2).mpr fun w hw => ?_
    obtain ⟨item, -, rfl⟩ := List.mem_map.mp hw
    exact under_getPrefixedItem hid item

theorem applyServerEvent_loopOk {id : String} (hid : validateServerID id = .ok ())
    (event : ServerEvent) : LoopOk id (applyServerEvent id event) := by
  cases event with
  | connection event =>
    rw [applyServerEvent]
    split
    · exact ⟨hid, by simp [SectionOk], by simp⟩
    · exact ⟨hid, by simp, by simp⟩
  | ongoingIncidents wire =>
    rw [applyServerEvent]
    split
    · exact ⟨hid, by simp, by simp⟩
    · rename_i notif hn
      refine ⟨hid, ?_, by simp⟩
      simpa [SectionOk] using getPrefixedNotif_itemsOk hid hn
  | connectionError error =>
    exact ⟨hid, by simp [applyServerEvent, SectionOk, under_connectionKey], by
      simp [applyServerEvent]⟩
  | tunnel event =>
    rw [applyServerEvent]
    split
    · exact ⟨hid, by simp [SectionOk, under_tunnelKey], by simp⟩
    · exact ⟨hid, by simp [SectionOk, under_tunnelKey], by simp [Section.isPublish]⟩

structure Wf (os : List Notification) (s : Sys) : Prop where
  tracker : TrackerOk s.internalTracker
  loops : KeyMap.All s.loops LoopOk
  totals : TotalsOk s.totalByID
  last : internalPart (lastTotal os) = internalTotal s.totalByID

theorem LoopOk.rest {id : String} {sec : Section} {rest : List Section}
    (h : LoopOk id (sec :: rest)) : LoopOk id rest where
  valid := h.valid
  sections sec hsec := h.sections sec (List.mem_cons_of_mem _ hsec)
  later sec hsec := h.later sec (List.mem_of_mem_tail hsec)

theorem LoopOk.publish {id : String} {sec : Section} {rest : List Section}
    (h : LoopOk id (sec :: rest)) {n : Nat} {notif : Notification}
    (hn : ItemsOk idInternal notif.ongoingIncidents.total) :
    LoopOk id (.publish n notif :: rest) where
  valid := h.valid
  sections := by
    intro sec hsec
    rcases List.mem_cons.mp hsec with rfl | hsec
    · exact hn
    · exact h.rest.sections sec hsec
  later := h.later

theorem Wf.runSection {os : List Notification} {s : Sys} (h : Wf os s) {id : String}
    {sec : Section} {rest : List Section} (hloop : s.loops[id]? = some (sec :: rest))
    (r : Reading) :
    Wf (os ++ (runSection s id rest r sec).2) (runSection s id rest r sec).1 := by
  have hok := h.loops id _ hloop
  have hsec := hok.sections sec List.mem_cons_self
  have hne := (validateServerID_ok hok.valid).2
  cases sec with
  | apply notif =>
    exact ⟨h.tracker, h.loops.insert hok.rest, h.totals.insert hsec,
      last_insert h.totals hsec rfl os⟩
  | markStale eventTime =>
    have hcases := markServerIncidentsStale_cases h.totals hne eventTime
    simp only [WsClient.runSection]
    obtain heq | ⟨updated, n, hup, heq, hn⟩ := hcases
    · rw [heq]
      exact ⟨h.tracker, h.loops.insert hok.rest, h.totals, by simpa using h.last⟩
    · rw [heq]
      exact ⟨h.tracker, h.loops.insert hok.rest, h.totals.insert hup,
        last_insert h.totals hup hn os⟩
  | feed key err =>
    have htracker := h.tracker.feed hsec err r
    simp only [WsClient.runSection]
    split
    · rename_i ist heq
      rw [heq] at htracker
      refine ⟨htracker, h.loops.insert hok.rest, h.totals, ?_⟩
      simpa using h.last
    · rename_i ist notif heq
      have htotal := feedItems_total htracker.keyed (congrArg Prod.snd heq)
      rw [heq] at htracker htotal
      refine ⟨htracker, h.loops.insert (hok.publish ?_), h.totals, ?_⟩
      · rw [htotal]
        exact htracker.items
      · simpa using h.last
  | publish n notif =>
    exact ⟨h.tracker, h.loops.insert hok.rest, h.totals.insert hsec,
      last_insert h.totals hsec rfl os⟩

theorem Wf.step {os : List Notification} {s s' : Sys} {a : Action} {out : List Notification}
    (h : Wf os s) (hs : step s a = some (s', out)) : Wf (os ++ out) s' := by
  cases a with
  | event id event =>
    simp only [WsClient.step] at hs
    split at hs
    · rename_i hloop
      cases hs
      have hok := h.loops id _ hloop
      refine ⟨h.tracker, h.loops.insert (applyServerEvent_loopOk hok.valid event), h.totals, ?_⟩
      simpa using h.last
    · cases hs
  | run id r =>
    simp only [WsClient.step] at hs
    split at hs
    · rename_i sec rest hloop
      have hwf := h.runSection hloop r
      rw [Option.some.inj hs] at hwf
      exact hwf
    · cases hs
  | forget key order now =>
    simp only [WsClient.step] at hs
    obtain heq | ⟨id, updated, n, -, hup, heq, hn⟩ :=
      forgetStaleIncident_cases h.totals order now key
    · rw [heq] at hs
      cases hs
      exact ⟨h.tracker, h.loops, h.totals, by simpa using h.last⟩
    · rw [heq] at hs
      cases hs
      exact ⟨h.tracker, h.loops, h.totals.insert hup, last_insert h.totals hup hn os⟩

theorem wf_run (config : ServerIDs) {os : List Notification} {s : Sys}
    (h : Guarded.Path (combiner config) os s) : Wf os s := by
  refine Guarded.Path.history (I := Wf) ?_ ?_ h
  · refine ⟨KeyMap.all_empty, ?_, KeyMap.all_empty, rfl⟩
    refine KeyMap.all_ofEntries fun p hp => ?_
    obtain ⟨id, hid, rfl⟩ := List.mem_map.mp hp
    exact ⟨validateIDs_ok config.valid id hid, by simp, by simp⟩
  · intro os s a s' out hwf hs
    exact hwf.step hs

/-! ## Publishing in order -/

/-- The notification that a loop publishes in its next section: its number and its total. -/
def nextPublish : List Section → Option (Nat × List ItemWContext)
  | .publish n notif :: _ => some (n, notif.ongoingIncidents.total)
  | _ => none

/-- Some loop has fed the tracker, got the `n`-th notification, with that total, and has yet to
publish it. -/
def Pending (loops : KeyMap (List Section)) (n : Nat) (total : List ItemWContext) : Prop :=
  KeyMap.Has loops nextPublish (n, total)

/-- A notification of the tracker is published only while no later one has been. -/
def publishesInOrder (s : Sys) : Action → Bool
  | .run id _ =>
    match s.loops[id]?.bind nextPublish with
    | some (n, _) => s.published < n
    | none => true
  | _ => true

theorem pending_insert {loops : KeyMap (List Section)} {id : String} {old new : List Section}
    (hold : loops[id]? = some old) (ho : nextPublish old = none) (hn : nextPublish new = none)
    (n : Nat) (total : List ItemWContext) :
    Pending (loops.insert id new) n total ↔ Pending loops n total :=
  KeyMap.has_put_iff (o := some new) (by rw [hold]; exact hn.trans ho.symm)

theorem nextPublish_of_later {l : List Section} (h : ∀ sec ∈ l, sec.isPublish = false) :
    nextPublish l = none := by
  unfold nextPublish
  split
  · have := h _ List.mem_cons_self
    cases this
  · rfl

theorem nextPublish_rest {id : String} {sec : Section} {rest : List Section}
    (h : LoopOk id (sec :: rest)) : nextPublish rest = none :=
  nextPublish_of_later h.later

/-- Publication follows production: the last notification produced is published or on its way. -/
def InOrder (s : Sys) : Prop :=
  Relay s.fed s.published False (Pending s.loops) (internalTotal s.totalByID)
    (internalItems s.internalTracker)

/-- A step that neither feeds the tracker with a change nor publishes one of its notifications. -/
theorem InOrder.aside {s : Sys} (h : InOrder s) {loops : KeyMap (List Section)} {totalByID : Totals}
    {ist : ItemStatesTracker} (hloops : ∀ n total, Pending loops n total ↔ Pending s.loops n total)
    (htotals : internalTotal totalByID = internalTotal s.totalByID)
    (hitems : internalItems ist = internalItems s.internalTracker) :
    InOrder { s with loops, totalByID, internalTracker := ist } := by
  have hkeep := Relay.keep h id hloops
  rw [← htotals, ← hitems] at hkeep
  exact hkeep

/-- Feeding the tracker with a change: a notification with the next number is on its way. -/
theorem InOrder.fed {s : Sys} (h : InOrder s) (id : String) (rest : List Section)
    {ist : ItemStatesTracker} {notif : Notification}
    (htotal : notif.ongoingIncidents.total = internalItems ist) :
    InOrder { s with internalTracker := ist, fed := s.fed + 1,
                     loops := s.loops.insert id (.publish (s.fed + 1) notif :: rest) } := by
  refine Relay.issue h (x := internalItems ist) ?_ ?_
  · exact KeyMap.has_put (o := some _) (by rw [← htotal]; rfl)
  · intro m total hp
    rcases KeyMap.Has.of_put (o := some _) hp with hp | hp
    · exact .inl hp
    · cases hp
      exact .inr ⟨rfl, htotal⟩

/-- Publishing in order. -/
theorem InOrder.publish {s : Sys} (h : InOrder s) {id : String} {rest : List Section} {n : Nat}
    {notif : Notification} (hloop : s.loops[id]? = some (.publish n notif :: rest))
    (hrest : nextPublish rest = none) (hlt : s.published < n) :
    InOrder { s with published := n, loops := s.loops.insert id rest,
                     totalByID := s.totalByID.insert idInternal notif.ongoingIncidents.total } := by
  have hpending : Pending s.loops n notif.ongoingIncidents.total := ⟨id, _, hloop, rfl⟩
  have htotal : internalTotal (s.totalByID.insert idInternal notif.ongoingIncidents.total) =
      notif.ongoingIncidents.total := by
    rw [internalTotal, KeyMap.lookup_insert, if_pos rfl]
    rfl
  unfold InOrder
  rw [htotal]
  refine Relay.deliver h hpending hlt.le ?_ ?_
  · intro m total hp
    rcases KeyMap.Has.of_put (o := some rest) hp with hp | hp
    · exact hp
    · simp [hrest] at hp
  · intro m total hp hm
    refine KeyMap.Has.put (o := some rest) hp ?_
    rw [hloop]
    intro heq
    cases heq
    exact hm rfl

theorem InOrder.runSection {os : List Notification} {s : Sys} (hwf : Wf os s) (h : InOrder s)
    {id : String} {sec : Section} {rest : List Section}
    (hloop : s.loops[id]? = some (sec :: rest)) (r : Reading)
    (hord : ∀ n notif, sec = .publish n notif → s.published < n) :
    InOrder (runSection s id rest r sec).1 := by
  have hok := hwf.loops id _ hloop
  have hne := (validateServerID_ok hok.valid).2
  have hrest := nextPublish_rest hok
  cases sec with
  | apply notif =>
    exact h.aside (pending_insert hloop rfl hrest) (internalTotal_insert hne _) rfl
  | markStale eventTime =>
    exact h.aside (pending_insert hloop rfl hrest)
      (internalTotal_markStale hwf.totals hne eventTime) rfl
  | feed key err =>
    have htracker := hwf.tracker.feed (hok.sections _ List.mem_cons_self) err r
    simp only [WsClient.runSection]
    split
    · -- nothing changed, so nothing is owed for this call
      rename_i ist heq
      have hitems := feedItems_none hwf.tracker.keyed (congrArg Prod.snd heq)
      rw [heq] at hitems
      exact h.aside (pending_insert hloop rfl hrest) rfl hitems
    · rename_i ist notif heq
      have htotal := feedItems_total htracker.keyed (congrArg Prod.snd heq)
      rw [heq] at htotal
      exact h.fed id rest htotal
  | publish n notif => exact h.publish hloop hrest (hord n notif rfl)

theorem nextPublish_applyServerEvent (id : String) (event : ServerEvent) :
    nextPublish (applyServerEvent id event) = none := by
  cases event with
  | connection event =>
    rw [applyServerEvent]
    split <;> rfl
  | ongoingIncidents wire =>
    rw [applyServerEvent]
    split <;> rfl
  | connectionError error => rfl
  | tunnel event =>
    rw [applyServerEvent]
    split <;> rfl

theorem InOrder.step {os : List Notification} {s s' : Sys} {a : Action} {out : List Notification}
    (hwf : Wf os s) (h : InOrder s) (hord : publishesInOrder s a = true)
    (hs : step s a = some (s', out)) : InOrder s' := by
  cases a with
  | event id event =>
    simp only [WsClient.step] at hs
    split at hs
    · rename_i hloop
      cases hs
      exact h.aside (pending_insert hloop rfl (nextPublish_applyServerEvent id event)) rfl rfl
    · cases hs
  | run id r =>
    simp only [WsClient.step] at hs
    split at hs
    · rename_i sec rest hloop
      have hnext : InOrder (WsClient.runSection s id rest r sec).1 := by
        refine h.runSection hwf hloop r ?_
        rintro n notif rfl
        simpa [publishesInOrder, hloop, nextPublish] using hord
      rw [Option.some.inj hs] at hnext
      exact hnext
    · cases hs
  | forget key order now =>
    cases hs
    exact h.aside (fun _ _ => Iff.rfl) (internalTotal_forget hwf.totals order now key) rfl

theorem inOrder_run (config : ServerIDs) {os : List Notification} {s : Sys}
    (h : Guarded.Path ((combiner config).only fun s a => publishesInOrder s a) os s) :
    InOrder s := by
  have hinv : Wf os s ∧ InOrder s := by
    refine Guarded.Path.history (I := fun os s => Wf os s ∧ InOrder s) ?_ ?_ h
    · have hnone : ∀ n total, ¬ Pending (combiner config).init.loops n total := by
        rintro n total ⟨id, pending, hl, hp⟩
        have hall : KeyMap.All (combiner config).init.loops fun _ pending => pending = [] :=
          KeyMap.all_ofEntries fun p hp => by
            obtain ⟨id, -, rfl⟩ := List.mem_map.mp hp
            rfl
        rw [hall id pending hl] at hp
        cases hp
      refine ⟨wf_run config .nil, Relay.keep Relay.init id fun n total => ?_⟩
      exact iff_of_false (hnone n total) id
    · intro os s a s' out ih hs
      obtain ⟨hord, hs⟩ := Guarded.only_step.mp hs
      exact ⟨ih.1.step hs, ih.2.step ih.1 hord hs⟩
  exact hinv.2

/-- **Internal incidents are current.** Once no call of `applyInternalItem` is between its two
sections, what is cached under `internal` and the internal part of the last total passed to the
handler are the tracker's non-OK items, if every publication was in order. -/
theorem internal_current (config : ServerIDs) {os : List Notification} {s : Sys}
    (h : Guarded.Path ((combiner config).only fun s a => publishesInOrder s a) os s)
    (hreturned : ∀ n total, ¬ Pending s.loops n total) :
    internalTotal s.totalByID = internalItems s.internalTracker ∧
      internalPart (lastTotal os) = internalItems s.internalTracker := by
  have hcurrent := (inOrder_run config h).settled id hreturned
  exact ⟨hcurrent, (wf_run config h.of_only).last.trans hcurrent⟩

def twoServers : ServerIDs := ⟨["db", "web"], by decide⟩

def someReading : Reading := ⟨.sorted _, .sorted _, fun _ => 7, 8⟩

/-- Both servers refuse the connection; the calls publish in the order in which they fed. -/
def inTurn : List Action :=
  [.event "db" (.connectionError "refused"), .event "web" (.connectionError "refused"),
   .run "db" someReading, .run "web" someReading, .run "db" someReading, .run "web" someReading]

/-- Whether every loop waits for its next event. -/
def Sys.idle (s : Sys) : Bool := s.loops.toList.all fun p => p.2 = []

theorem Sys.not_pending_of_idle {s : Sys} (h : s.idle = true) (n : Nat)
    (total : List ItemWContext) : ¬ Pending s.loops n total := by
  rintro ⟨id, pending, hl, hp⟩
  have hnil := List.all_eq_true.mp h (id, pending) (KeyMap.mem_toList.mpr hl)
  simp only [decide_eq_true_eq] at hnil
  rw [hnil] at hp
  cases hp

theorem internal_current_inTurn :
    ∃ os s, Guarded.Path ((combiner twoServers).only fun s a => publishesInOrder s a) os s ∧
      (internalItems s.internalTracker).map (·.key) =
        ["internal.connection.db", "internal.connection.web"] ∧
      internalTotal s.totalByID = internalItems s.internalTracker ∧
      internalPart (lastTotal os) = internalItems s.internalTracker := by
  obtain ⟨os, s, hpath, hp⟩ := Guarded.exists_path
    (G := (combiner twoServers).only fun s a => publishesInOrder s a) (a := inTurn)
    (p := fun r => r.2.idle && (internalItems r.2.internalTracker).map (·.key) =
      ["internal.connection.db", "internal.connection.web"]) (by decide)
  simp only [Bool.and_eq_true, decide_eq_true_eq] at hp
  exact ⟨os, s, hpath, hp.2, internal_current twoServers hpath (Sys.not_pending_of_idle hp.1)⟩

/-- The same, with the notification of `db` overtaken by that of `web`. -/
def overtaken : List Action :=
  [.event "db" (.connectionError "refused"), .event "web" (.connectionError "refused"),
   .run "db" someReading, .run "web" someReading, .run "web" someReading, .run "db" someReading]

/-- Everything has returned, both servers are down, and only `db` is shown. -/
theorem internal_overtaken :
    ∃ os s, Guarded.Path (combiner twoServers) os s ∧ s.idle = true ∧
      (internalItems s.internalTracker).map (·.key) =
        ["internal.connection.db", "internal.connection.web"] ∧
      (internalTotal s.totalByID).map (·.key) = ["internal.connection.db"] ∧
      (internalPart (lastTotal os)).map (·.key) = ["internal.connection.db"] := by
  obtain ⟨os, s, hpath, hp⟩ := Guarded.exists_path (G := combiner twoServers) (a := overtaken)
    (p := fun r => r.2.idle && (internalItems r.2.internalTracker).map (·.key) =
        ["internal.connection.db", "internal.connection.web"] &&
      (internalTotal r.2.totalByID).map (·.key) = ["internal.connection.db"] &&
      (internalPart (lastTotal r.1)).map (·.key) = ["internal.connection.db"]) (by decide)
  simp only [Bool.and_eq_true, decide_eq_true_eq, and_assoc] at hp
  exact ⟨os, s, hpath, hp⟩

end WsClient
end Montray
