import Montray.Lib.Dotted
import Montray.Server.Collectors
import Montray.Client.Config
import Montray.Client.ServerView

/-!
# Montray.Client.Keys

An incident's key tells where it comes from.

A displayed key is `serverId.collectorId.name` or one of the client's own. Neither kind of id holds
a dot, so the parts can be read back (`displayedKey_inj`), and no server is called `internal`. In
every state that the reducer reaches, what is cached for a server has that server's name in front,
whatever the server sent, and the client's own incidents were made for a failure (`KeysInv`).

* `keys_identify_origin`: injectivity, the prefix `internal.`, and what `ForgetStale` removes.
-/

namespace Montray
namespace Client

open Lib Collectors

/-! ## Ids -/

theorem validateServerId_ok {id : String} (h : validateServerId id = .ok ()) :
    '.' ∉ id.toList ∧ id ≠ "internal" := by
  unfold validateServerId at h
  split at h
  · cases h
  · split at h
    · cases h
    · rename_i hchars
      split at h
      · cases h
      · rename_i hid
        refine ⟨fun hdot => ?_, hid⟩
        have hdot := List.all_eq_true.mp (not_not.mp hchars) '.' hdot
        revert hdot
        decide

/-- An id that may stand in front of a key. -/
def KeyId (id : String) : Prop := '.' ∉ id.toList ∧ id ≠ "internal"

theorem isInternalKey_eq (key : String) : isInternalKey key = under "internal" key := rfl

theorem KeyId.not_internal {id : String} (h : KeyId id) (k : String) :
    isInternalKey (dotted id k) = false := by
  rw [isInternalKey_eq, Bool.eq_false_iff]
  intro hunder
  exact h.2 ((under_dotted (by decide) h.1).mp hunder).symm

/-- A key has at most one server's name in front. -/
theorem KeyId.unique {id id' key : String} (h : KeyId id) (h' : KeyId id')
    (hunder : under id key = true) (hunder' : under id' key = true) : id = id' := by
  rw [under, List.isPrefixOf_iff_prefix] at hunder hunder'
  obtain ⟨x, hx⟩ := hunder
  obtain ⟨y, hy⟩ := hunder'
  rw [← hy, List.append_assoc, List.append_assoc] at hx
  exact String.toList_inj.mp (append_sep_inj h.1 h'.1 hx).1

theorem isInternalKey_append {head : String} (h : isInternalKey head = true) (tail : String) :
    isInternalKey (head ++ tail) = true := by
  rw [isInternalKey, List.isPrefixOf_iff_prefix] at h ⊢
  rw [String.toList_append]
  exact h.trans (List.prefix_append _ _)

theorem isInternalKey_connectionKey (id : String) : isInternalKey (connectionKey id) = true :=
  isInternalKey_append (by decide) id

theorem isInternalKey_tunnelKey (id : String) : isInternalKey (tunnelKey id) = true :=
  isInternalKey_append (by decide) id

/-! ## Displayed keys -/

section Displayed

variable {σ ε : Type}

/-- The key under which the client shows an item of a collector of a server. -/
def displayedKey (server : ServerConfig) (collector : Collector σ ε) (name : String) : String :=
  (prefixedItem { key := collector.itemKey name, state := .error, incidentStartedAt := "" }
    server.id).key

theorem displayedKey_eq (server : ServerConfig) (collector : Collector σ ε) (name : String) :
    displayedKey server collector name = dotted server.id (dotted collector.id name) := by
  rw [displayedKey, prefixedItem, Collector.itemKey]
  split <;> rfl

theorem displayedKey_inj {server server' : ServerConfig} {collector collector' : Collector σ ε}
    {name name' : String} (hs : KeyId server.id) (hs' : KeyId server'.id)
    (hc : checkID collector.id = .ok ()) (hc' : checkID collector'.id = .ok ())
    (h : displayedKey server collector name = displayedKey server' collector' name') :
    server.id = server'.id ∧ collector.id = collector'.id ∧ name = name' := by
  rw [displayedKey_eq, displayedKey_eq] at h
  obtain ⟨hserver, hrest⟩ := dotted_inj hs.1 hs'.1 h
  exact ⟨hserver, dotted_inj (checkID_no_dot hc) (checkID_no_dot hc') hrest⟩

end Displayed

def UiSnapshot.displayed (u : UiSnapshot) : List Incident :=
  u.active ++ u.snoozed.map (·.incident)

theorem mem_displayed {s : AppState} {now : OffsetDateTime} {i : Incident} :
    i ∈ (s.snapshot now).displayed ↔ i ∈ s.allIncidents := by
  simp only [UiSnapshot.displayed, AppState.snapshot, List.mem_append, List.mem_map,
    List.mem_filter, List.mem_filterMap, Option.map_eq_some_iff]
  constructor
  · rintro (⟨hi, -⟩ | ⟨w, ⟨j, hj, d, -, rfl⟩, rfl⟩)
    · exact hi
    · exact hj
  · intro hi
    cases hd : s.snoozedUntil i.key now with
    | none => exact .inl ⟨hi, rfl⟩
    | some d => exact .inr ⟨⟨i, d⟩, ⟨i, hi, d, hd, rfl⟩, rfl⟩

/-! ## Every state -/

/-- The key of the incident that a failure makes. -/
def Event.failureKey : Event → Option String
  | .disconnected id _ error => if error = "" then none else some (connectionKey id)
  | .tunnelFailed id _ _ => some (tunnelKey id)
  | _ => none

/-- A failure of one of the servers that makes the incident `key`. -/
def FailureIn (ids : List String) (events : List Event) (key : String) : Prop :=
  ∃ e ∈ events, e.failureKey = some key ∧ ∃ id ∈ ids, e.server? = some id

theorem FailureIn.snoc {ids : List String} {events : List Event} {key : String}
    (h : FailureIn ids events key) (e : Event) : FailureIn ids (events ++ [e]) key := by
  obtain ⟨e', hmem, hkey⟩ := h
  exact ⟨e', List.mem_append_left _ hmem, hkey⟩

/-- What a server's part says about keys. -/
structure ViewKeys (ids : List String) (events : List Event) (id : String) (v : ServerView) :
    Prop where
  known : v.status.isSome = true → id ∈ ids
  incidents : ∀ items, v.incidents = some items →
    id ∈ ids ∧ ∀ i ∈ items, ∃ k, i.key = dotted id k
  connection : ∀ i, v.connection = some i →
    i.key = connectionKey id ∧ FailureIn ids events (connectionKey id)
  tunnel : ∀ i, v.tunnel = some i → i.key = tunnelKey id ∧ FailureIn ids events (tunnelKey id)

section Step

variable {formatIncidentTime : OffsetDateTime → String} {z : String → OffsetDateTime → Bool}
  {ids : List String} {events : List Event} {id : String} {v : ServerView}

theorem ViewKeys.snoc (h : ViewKeys ids events id v) (e : Event) :
    ViewKeys ids (events ++ [e]) id v where
  known := h.known
  incidents := h.incidents
  connection i hi := ⟨(h.connection i hi).1, (h.connection i hi).2.snoc e⟩
  tunnel i hi := ⟨(h.tunnel i hi).1, (h.tunnel i hi).2.snoc e⟩

theorem ViewKeys.user (h : ViewKeys ids events id v) (e : Event) :
    ViewKeys ids events id (v.user e) := by
  cases e with
  | forgetStale key =>
    refine ⟨h.known, fun items hi => ?_, h.connection, h.tunnel⟩
    obtain ⟨old, hold, rfl⟩ := Option.map_eq_some_iff.mp hi
    obtain ⟨hid, hkeys⟩ := h.incidents old hold
    exact ⟨hid, fun i hmem => hkeys i (List.mem_of_mem_filter hmem)⟩
  | _ => exact h

theorem ViewKeys.setOffline (h : ViewKeys ids events id v) {server : ServerStatus}
    (hs : v.status = some server) (now : OffsetDateTime) :
    ViewKeys ids events id (v.setOffline server now) := by
  refine ⟨fun _ => h.known (by rw [hs]; rfl), fun items hi => ?_, h.connection, h.tunnel⟩
  obtain ⟨old, hold, rfl⟩ := Option.map_eq_some_iff.mp hi
  obtain ⟨hid, hkeys⟩ := h.incidents old hold
  refine ⟨hid, fun i hmem => ?_⟩
  obtain ⟨j, hj, rfl⟩ := List.mem_map.mp hmem
  exact hkeys j hj

theorem failed_key {key : String} {now : OffsetDateTime} {error : String} {snoozed : Bool}
    {o : Option Incident} (h : ∀ i, o = some i → i.key = key) :
    (failed formatIncidentTime key now error snoozed o).1.key = key := by
  unfold failed
  split
  · rename_i incident
    have hkey := h incident rfl
    split <;> exact hkey
  · rfl

theorem ViewKeys.step (h : ViewKeys ids events id v) {e : Event} (he : e.server? = some id) :
    ViewKeys ids (events ++ [e]) id (v.step formatIncidentTime z e).1 := by
  have hsnoc := h.snoc e
  unfold ServerView.step
  split
  · exact hsnoc
  · rename_i server hs
    have hid : id ∈ ids := h.known (by rw [hs]; rfl)
    have hfailure : ∀ key, e.failureKey = some key → FailureIn ids (events ++ [e]) key :=
      fun key hkey => ⟨e, by simp, hkey, id, hid, he⟩
    cases e <;> simp only [Event.server?, Option.some.injEq, reduceCtorEq] at he <;> subst he <;>
      simp only [ServerView.stepKnown]
    case connected now => exact ⟨fun _ => hid, hsnoc.incidents, (by simp), hsnoc.tunnel⟩
    case disconnected now error =>
      have hoff := hsnoc.setOffline hs now
      split
      · exact ⟨hoff.known, hoff.incidents, (by simp), hoff.tunnel⟩
      · rename_i herror
        refine ⟨hoff.known, hoff.incidents, fun i hi => ?_, hoff.tunnel⟩
        cases hi
        exact ⟨failed_key fun i hi => (h.connection i hi).1,
          hfailure _ (by simp [Event.failureKey, herror])⟩
    case tunnelReady now => exact ⟨hsnoc.known, hsnoc.incidents, hsnoc.connection, (by simp)⟩
    case tunnelFailed now error =>
      have hoff := hsnoc.setOffline hs now
      refine ⟨hoff.known, hoff.incidents, (by simp), fun i hi => ?_⟩
      cases hi
      exact ⟨failed_key fun i hi => (h.tunnel i hi).1, hfailure _ rfl⟩
    case heartbeat now => exact ⟨fun _ => hid, hsnoc.incidents, hsnoc.connection, hsnoc.tunnel⟩
    case notification data now =>
      refine ⟨hsnoc.known, fun items hi => ⟨hid, fun i hmem => ?_⟩, hsnoc.connection, hsnoc.tunnel⟩
      cases hi
      obtain ⟨item, -, rfl⟩ := List.mem_map.mp hmem
      exact ⟨item.key, rfl⟩

end Step

structure KeysInv (ids : List String) (events : List Event) (s : AppState) : Prop where
  views : ∀ id, ViewKeys ids events id (s.view id)
  named : InternalNamed s

section Run

variable {formatIncidentTime : OffsetDateTime → String} {ids : List String} {events : List Event}
  {s : AppState}

theorem KeysInv.step (h : KeysInv ids events s) (e : Event) :
    KeysInv ids (events ++ [e]) (reduce formatIncidentTime s e).1 := by
  refine ⟨fun id => ?_, h.named.reduce formatIncidentTime e⟩
  rw [view_reduce]
  split
  · rename_i he
    exact (h.views id).step he
  · exact ((h.views id).snoc e).user e

theorem keysInv_run (formatIncidentTime : OffsetDateTime → String) (ids : List String)
    (snoozes : KeyMap OffsetDateTime) (events : List Event) :
    KeysInv ids events ((start formatIncidentTime ids snoozes).run events) := by
  refine (start formatIncidentTime ids snoozes).history (I := KeysInv ids) ?_ ?_ events
  · refine ⟨fun id => ?_, internalNamed_new ids snoozes⟩
    show ViewKeys ids [] id ((AppState.new ids snoozes).view id)
    rw [view_new]
    refine ⟨fun hs => ?_, nofun, nofun, nofun⟩
    by_contra hid
    simp [hid] at hs
  · intro events e h
    exact h.step e

/-- The client's own incidents are filed under their keys and were made for a failure. -/
theorem KeysInv.internal (h : KeysInv ids events s) {k : String} {i : Incident}
    (hi : s.internalIncidents[k]? = some i) :
    i.key = k ∧ isInternalKey k = true ∧ FailureIn ids events k := by
  have hname : ∃ id, k = connectionKey id ∨ k = tunnelKey id := by
    by_contra hno
    simp only [not_exists, not_or] at hno
    rw [h.named k fun id => ⟨fun heq => (hno id).1 heq.symm, fun heq => (hno id).2 heq.symm⟩] at hi
    cases hi
  obtain ⟨id, rfl | rfl⟩ := hname
  · obtain ⟨hkey, hfail⟩ := (h.views id).connection i hi
    exact ⟨hkey, isInternalKey_connectionKey id, hfail⟩
  · obtain ⟨hkey, hfail⟩ := (h.views id).tunnel i hi
    exact ⟨hkey, isInternalKey_tunnelKey id, hfail⟩

/-- A displayed incident is one of the client's own, or one of a server. -/
theorem mem_allIncidents {i : Incident} (h : i ∈ s.allIncidents) :
    (∃ k : String, s.internalIncidents[k]? = some i) ∨
      ∃ (id : String) (items : List Incident), s.incidents[id]? = some items ∧ i ∈ items := by
  rcases List.mem_append.mp h with hi | hi
  · obtain ⟨⟨k, j⟩, hmem, rfl⟩ := List.mem_map.mp hi
    exact .inl ⟨k, KeyMap.mem_toList.mp hmem⟩
  · obtain ⟨id, -, hi⟩ := List.mem_flatMap.mp hi
    cases hl : s.incidents[id]? with
    | none => simp [hl] at hi
    | some items => exact .inr ⟨id, items, hl, by simpa [hl] using hi⟩

theorem KeysInv.displayed (h : KeysInv ids events s) (hids : ∀ id ∈ ids, KeyId id) {i : Incident}
    (hi : i ∈ s.allIncidents) :
    isInternalKey i.key = true ↔
      s.internalIncidents[i.key]? = some i ∧ FailureIn ids events i.key := by
  constructor
  · intro hint
    rcases mem_allIncidents hi with ⟨k, hk⟩ | ⟨id, items, hitems, hmem⟩
    · obtain ⟨rfl, -, hfail⟩ := h.internal hk
      exact ⟨hk, hfail⟩
    · obtain ⟨hid, hkeys⟩ := (h.views id).incidents items hitems
      obtain ⟨k, hkey⟩ := hkeys i hmem
      rw [hkey, (hids id hid).not_internal] at hint
      cases hint
  · rintro ⟨hk, -⟩
    exact (h.internal hk).2.1

/-- `ForgetStale` drops the stale incidents with its key, and has none to drop at a server that the
key does not name. -/
theorem KeysInv.forgetStale (h : KeysInv ids events s) (key id : String) :
    (reduce formatIncidentTime s (.forgetStale key)).1.incidents[id]? =
        (s.incidents[id]?.map fun items => items.filter fun i => !(i.key = key && i.stale)) ∧
      (under id key = false →
        (reduce formatIncidentTime s (.forgetStale key)).1.incidents[id]? = s.incidents[id]?) := by
  have hlookup : (reduce formatIncidentTime s (.forgetStale key)).1.incidents[id]? =
      s.incidents[id]?.map fun items => items.filter fun i => !(i.key = key && i.stale) := by
    simp only [reduce, Std.ExtTreeMap.getElem?_map, forget]
    congr 1
    funext items
    congr 1
    funext i
    by_cases hk : i.key = key <;> simp [hk]
  refine ⟨hlookup, fun hunder => ?_⟩
  rw [hlookup]
  cases hl : s.incidents[id]? with
  | none => rfl
  | some items =>
    refine congrArg some (List.filter_eq_self.mpr fun i hmem => ?_)
    obtain ⟨k, hkey⟩ := ((h.views id).incidents items hl).2 i hmem
    have hne : i.key ≠ key := by
      rintro rfl
      rw [hkey, under, toList_dotted] at hunder
      rw [List.isPrefixOf_iff_prefix.mpr ⟨k.toList, by simp⟩] at hunder
      cases hunder
    simp [hne]

end Run

/-- **Keys identify their origin.** For a client configuration that is accepted, of servers whose
collectors are accepted: the displayed key tells the server, the collector and the name; it begins
with `internal.` just when the client made the incident for a failure of one of its servers; and
`ForgetStale` removes stale incidents of the one server that the key names. -/
theorem keys_identify_origin (isLoopbackIp : String → Bool) (config : Config)
    (hvalid : config.validate isLoopbackIp = .ok ()) {σ ε γ : Type}
    (newSystemd : String → σ → Except String γ) (newExec : String → ε → Except String γ)
    (collectors : ServerConfig → List (Collector σ ε))
    (haccepted : ∀ server ∈ config.servers, ∃ created,
      createCollectors newSystemd newExec (collectors server) = .ok created)
    (formatIncidentTime : OffsetDateTime → String) (snoozes : KeyMap OffsetDateTime) :
    let ids := config.servers.map (·.id)
    (∀ server ∈ config.servers, ∀ server' ∈ config.servers,
      ∀ collector ∈ collectors server, ∀ collector' ∈ collectors server', ∀ name name',
        displayedKey server collector name = displayedKey server' collector' name' →
          server = server' ∧ collector = collector' ∧ name = name') ∧
    ∀ events,
      let s := (start formatIncidentTime ids snoozes).run events
      (∀ now, ∀ i ∈ (s.snapshot now).displayed,
        isInternalKey i.key = true ↔
          s.internalIncidents[i.key]? = some i ∧ FailureIn ids events i.key) ∧
      ∀ key,
        let s' := (reduce formatIncidentTime s (.forgetStale key)).1
        s'.internalIncidents = s.internalIncidents ∧
        (∀ id : String, s'.incidents[id]? =
            (s.incidents[id]?.map fun items => items.filter fun i => !(i.key = key && i.stale)) ∧
          (under id key = false → s'.incidents[id]? = s.incidents[id]?)) ∧
        ∀ id ∈ ids, ∀ id' ∈ ids, under id key = true → under id' key = true → id = id' := by
  obtain ⟨-, hnd, hservers⟩ := validate_ok isLoopbackIp hvalid
  have hids : ∀ id ∈ config.servers.map (·.id), KeyId id := by
    intro id hid
    obtain ⟨server, hmem, rfl⟩ := List.mem_map.mp hid
    exact validateServerId_ok (hservers server hmem)
  refine ⟨?_, fun events => ?_⟩
  · intro server hs server' hs' collector hc collector' hc' name name' heq
    obtain ⟨created, hcreated⟩ := haccepted server hs
    obtain ⟨created', hcreated'⟩ := haccepted server' hs'
    obtain ⟨hcheck, hcnd⟩ := createCollectors_ok hcreated
    obtain ⟨hcheck', -⟩ := createCollectors_ok hcreated'
    obtain ⟨h1, h2, h3⟩ := displayedKey_inj (hids _ (List.mem_map_of_mem hs))
      (hids _ (List.mem_map_of_mem hs')) (hcheck collector hc) (hcheck' collector' hc') heq
    obtain rfl := List.inj_on_of_nodup_map hnd hs hs' h1
    exact ⟨rfl, List.inj_on_of_nodup_map hcnd hc hc' h2, h3⟩
  · have hinv := keysInv_run formatIncidentTime (config.servers.map (·.id)) snoozes events
    refine ⟨fun now i hi => hinv.displayed hids (mem_displayed.mp hi), fun key => ⟨?_, ?_, ?_⟩⟩
    · exact internal_reduce_user formatIncidentTime rfl
    · exact fun id => hinv.forgetStale key id
    · exact fun id hid id' hid' => (hids id hid).unique (hids id' hid')

def originServer (id : String) : ServerConfig := { id, addr := "localhost:8080" }

def originConfig : Config where
  servers := [originServer "db", originServer "web"]

def originCollectors : List (Collector Unit Unit) :=
  [{ id := "disk", exec := some () }, { id := "units", systemd := some () }]

/-- The server `db` sends a key that reads like a client's own; `web` cannot be reached. -/
def originEvents : List Event :=
  [.notification "db"
      { total := [{ key := "internal.connection.web", state := .error, incidentStartedAt := "" }],
        added := [], removed := [], updated := [], numItemsOk := 0 } 1,
    .disconnected "web" 2 "refused"]

theorem keys_identify_origin_spoofed :
    originConfig.validate (fun _ => false) = .ok () ∧
    createCollectors (fun id _ => .ok id) (fun id _ => .ok id) originCollectors =
      .ok ["disk", "units"] ∧
    let s := (start (fun _ => "") ["db", "web"] ∅).run originEvents
    (s.snapshot 3).displayed.map (·.key) =
      ["internal.connection.web", "db.internal.connection.web"] ∧
    ∀ i ∈ (s.snapshot 3).displayed, isInternalKey i.key = true ↔
      s.internalIncidents[i.key]? = some i ∧ FailureIn ["db", "web"] originEvents i.key := by
  have hvalid : originConfig.validate (fun _ => false) = .ok () := by rfl
  have hcreated : createCollectors (fun id _ => .ok id) (fun id _ => .ok id) originCollectors =
      .ok ["disk", "units"] := by rfl
  exact ⟨hvalid, hcreated, by decide,
    ((keys_identify_origin (fun _ => false) originConfig hvalid (fun id _ => .ok id)
      (fun id _ => .ok id) (fun _ => originCollectors) (fun _ _ => ⟨_, hcreated⟩)
      (fun _ => "") ∅).2 originEvents).1 3⟩

end Client
end Montray
