import Montray.Server.Wire
import Montray.Client.Network
import Montray.Client.Persistence
import Montray.Client.Reducer

/-!
# Montray.Client.Protocol

`decode_text_message` of the Rust client, and what it makes of the messages of the Go server.

The JSON library is the parameter `parse`, from a text to the value it denotes, with the texts of
its own errors. What the derived decoders do with a value is modelled: a record is read from an
object or from an array, and the `data` of an envelope has become a value, in which no name occurs
twice, before it is looked at.

* `decode_sent`: what the server sends is decoded to the same four lists and the same count.
* `decode_wellFormed`: in a message that is decoded, every item of every list is well formed.
* `wire_round_trip`: both, and what the connection loop does with the message.
-/

namespace Montray
namespace Client
namespace Protocol

open Lib

structure Envelope where
  event : String
  data : Json

structure OngoingIncidents where
  total : List Incident
  added : List Incident
  removed : List Incident
  updated : List Incident
  numItemsOk : Int
  deriving DecidableEq, Repr

structure Notification where
  time : Option String
  ongoingIncidents : OngoingIncidents
  deriving DecidableEq, Repr

/-! ## Reading a value -/

def readI64 : Json → Option Int
  | .int n => if 0 ≤ n + 2 ^ 63 ∧ (n + 2 ^ 63).toNat < 2 ^ 64 then some n else none
  | _ => none

def stateOfName (name : String) : Option IncidentState :=
  if name = "ok" then some .ok
  else if name = "warning" then some .warning
  else if name = "error" then some .error
  else none

/-- A unit variant is its name, or an object with the name as the one member. -/
def readState : Json → Option IncidentState
  | .str name => stateOfName name
  | .obj members =>
    match (KeyMap.ofEntries members).toList with
    | [(name, .null)] => stateOfName name
    | _ => none
  | _ => none

def readIncident (j : Json) : Option Incident :=
  if j.isRecord 5 then do
    let key ← Json.required readString (j.part "key" 0)
    let state ← Json.required readState (j.part "state" 1)
    let details ← Json.optional readString "" (j.part "details" 2)
    let incidentStartedAt ← Json.required readString (j.part "incidentStartedAt" 3)
    let stale ← Json.optional readBool false (j.part "stale" 4)
    pure { key, state, details, incidentStartedAt, stale }
  else none

def nullAsDefault : Json → Option (List Incident)
  | .null => some []
  | .arr items => items.mapM readIncident
  | _ => none

def OngoingIncidents.fromJson (j : Json) : Option OngoingIncidents :=
  if j.isRecord 5 then do
    let total ← Json.optional nullAsDefault [] (j.part "total" 0)
    let added ← Json.optional nullAsDefault [] (j.part "added" 1)
    let removed ← Json.optional nullAsDefault [] (j.part "removed" 2)
    let updated ← Json.optional nullAsDefault [] (j.part "updated" 3)
    let numItemsOk ← Json.optional readI64 0 (j.part "numItemsOK" 4)
    pure { total, added, removed, updated, numItemsOk }
  else none

def readTime : Json → Option (Option String)
  | .null => some none
  | j => (readString j).map some

def Notification.fromJson (j : Json) : Option Notification :=
  if j.isRecord 2 then do
    let time ← Json.optional readTime none (j.part "time" 0)
    let ongoingIncidents ← Json.required OngoingIncidents.fromJson (j.part "ongoingIncidents" 1)
    pure { time, ongoingIncidents }
  else none

/-- The envelope is read from the text, where a name that occurs twice is an error. -/
def Envelope.fromJson : Json → Option Envelope
  | .obj members => do
    let event ← Json.required readString (← Json.field members "event")
    let data ← Json.optional some .null (← Json.field members "data")
    pure { event, data }
  | .arr [event] => do pure { event := ← readString event, data := .null }
  | .arr [event, data] => do pure { event := ← readString event, data }
  | _ => none

/-! ## Decoding a message -/

def knownEvents : List String := ["OngoingIncidentsSnapshot", "OngoingIncidentsUpdate"]

section Decode

-- What the library says about a value that it cannot read.
variable (parse : String → Except String Json) (refusal : Json → String) (rfc3339 : Rfc3339)

def fromValue {α : Type} (read : Json → Option α) (j : Json) : Except Chain α :=
  match read j with
  | some a => .ok a
  | none => bail (refusal j)

def readEnvelope (text : String) : Except Chain Envelope :=
  match parse text with
  | .error e => bail e
  | .ok j => fromValue refusal Envelope.fromJson j

def validateTimestamp (timestamp : String) : Except Chain PUnit :=
  match rfc3339.parse timestamp with
  | .error e => bail e
  | .ok _ => .ok ()

def validateTime (time : Option String) : Except Chain PUnit :=
  match time with
  | none => .ok ()
  | some timestamp =>
    withContext "notification time is invalid" (validateTimestamp rfc3339 timestamp)

def validateItem (name : String) (index : Nat) (item : Incident) : Except Chain PUnit := do
  refuse (item.key = "") s!"ongoingIncidents.{name}[{index}].key is empty"
  withContext s!"ongoingIncidents.{name}[{index}].incidentStartedAt is invalid"
    (validateTimestamp rfc3339 item.incidentStartedAt)

def validateItems (name : String) : Nat → List Incident → Except Chain PUnit
  | _, [] => .ok ()
  | index, item :: rest => do
    validateItem rfc3339 name index item
    validateItems name (index + 1) rest

def Notification.validate (n : Notification) : Except Chain NotificationData := do
  validateTime rfc3339 n.time
  let ongoing := n.ongoingIncidents
  refuse (ongoing.numItemsOk < 0) "ongoingIncidents.numItemsOK is negative"
  validateItems rfc3339 "total" 0 ongoing.total
  validateItems rfc3339 "added" 0 ongoing.added
  validateItems rfc3339 "removed" 0 ongoing.removed
  validateItems rfc3339 "updated" 0 ongoing.updated
  pure {
    total := ongoing.total
    added := ongoing.added
    removed := ongoing.removed
    updated := ongoing.updated
    numItemsOk := ongoing.numItemsOk.toNat }

/-- What is done with the data of a known event. -/
def decodeData (event : String) (data : Json) : Except Chain NotificationData := do
  refuse (data matches .null) ("decoding " ++ event ++ " data: notification is null")
  let notification ← withContext ("decoding " ++ event ++ " data")
    (fromValue refusal Notification.fromJson data)
  notification.validate rfc3339

def decodeTextMessage (text : String) : Except Chain (Option NotificationData) := do
  let envelope ← withContext "decoding server message" (readEnvelope parse refusal text)
  if envelope.event ∉ knownEvents then pure none
  else some <$> decodeData refusal rfc3339 envelope.event envelope.data

variable {parse refusal rfc3339}

theorem fromValue_ok {α : Type} {read : Json → Option α} {j : Json} {a : α} :
    fromValue refusal read j = .ok a ↔ read j = some a := by
  unfold fromValue bail
  split
  · simp [*]
  · simp [*]

theorem validateTimestamp_ok {timestamp : String} {u : PUnit} :
    validateTimestamp rfc3339 timestamp = .ok u ↔ ∃ t, rfc3339.parse timestamp = .ok t := by
  unfold validateTimestamp bail
  split
  · simp [*]
  · simp [*]

/-- What is asked of an item that has been read. -/
def Valid (rfc3339 : Rfc3339) (item : Incident) : Prop :=
  item.key ≠ "" ∧ ∃ t, rfc3339.parse item.incidentStartedAt = .ok t

theorem validateItem_ok {name : String} {index : Nat} {item : Incident} {u : PUnit} :
    validateItem rfc3339 name index item = .ok u ↔ Valid rfc3339 item := by
  simp only [validateItem, bind_ok, refuse_ok, withContext_ok, validateTimestamp_ok, Valid,
    exists_const]

theorem validateItems_ok {name : String} {index : Nat} {items : List Incident} {u : PUnit} :
    validateItems rfc3339 name index items = .ok u ↔ ∀ item ∈ items, Valid rfc3339 item := by
  induction items generalizing index with
  | nil => simp [validateItems]
  | cons item rest ih =>
    simp only [validateItems, bind_ok, validateItem_ok, ih, exists_const, List.forall_mem_cons]

/-- The four lists, each with its name and its place in a record. -/
def OngoingIncidents.lists (ongoing : OngoingIncidents) : List (String × Nat × List Incident) :=
  [("total", 0, ongoing.total), ("added", 1, ongoing.added), ("removed", 2, ongoing.removed),
    ("updated", 3, ongoing.updated)]

theorem Notification.validate_ok {n : Notification} {data : NotificationData} :
    n.validate rfc3339 = .ok data ↔
      (∀ timestamp, n.time = some timestamp → ∃ t, rfc3339.parse timestamp = .ok t) ∧
      0 ≤ n.ongoingIncidents.numItemsOk ∧
      (∀ l ∈ n.ongoingIncidents.lists, ∀ item ∈ l.2.2, Valid rfc3339 item) ∧
      data = {
        total := n.ongoingIncidents.total
        added := n.ongoingIncidents.added
        removed := n.ongoingIncidents.removed
        updated := n.ongoingIncidents.updated
        numItemsOk := n.ongoingIncidents.numItemsOk.toNat } := by
  have htime : ∀ u : PUnit, validateTime rfc3339 n.time = .ok u ↔
      ∀ timestamp, n.time = some timestamp → ∃ t, rfc3339.parse timestamp = .ok t := by
    intro u
    cases n.time with
    | none => simp [validateTime]
    | some timestamp => simp [validateTime, withContext_ok, validateTimestamp_ok]
  simp only [Notification.validate, bind_ok, htime, refuse_ok, validateItems_ok, exists_const,
    OngoingIncidents.lists, List.forall_mem_cons, List.not_mem_nil, false_implies, implies_true,
    and_true, not_lt, pure, Except.pure, Except.ok.injEq, and_assoc, @eq_comm _ data]

theorem decodeData_ok {event : String} {data : Json} {d : NotificationData} :
    decodeData refusal rfc3339 event data = .ok d ↔
      ∃ n, Notification.fromJson data = some n ∧ n.validate rfc3339 = .ok d := by
  simp only [decodeData, bind_ok, refuse_ok, withContext_ok, fromValue_ok, exists_const]
  refine ⟨And.right, fun h => ⟨?_, h⟩⟩
  obtain ⟨n, hn, -⟩ := h
  cases data <;> simp_all [Notification.fromJson, Json.isRecord]

/-- The two results of decoding a text that is JSON. -/
theorem decodeTextMessage_ok {text : String} {j : Json} (hj : parse text = .ok j)
    {o : Option NotificationData} :
    decodeTextMessage parse refusal rfc3339 text = .ok o ↔
      ∃ envelope, Envelope.fromJson j = some envelope ∧
        ((envelope.event ∉ knownEvents ∧ o = none) ∨
          (envelope.event ∈ knownEvents ∧ ∃ d, o = some d ∧
            decodeData refusal rfc3339 envelope.event envelope.data = .ok d)) := by
  simp only [decodeTextMessage, bind_ok, withContext_ok, readEnvelope, hj, fromValue_ok]
  refine exists_congr fun envelope => and_congr_right fun _ => ?_
  by_cases hknown : envelope.event ∈ knownEvents
  · simp only [hknown, not_true_eq_false, if_false, false_and, true_and, false_or]
    cases decodeData refusal rfc3339 envelope.event envelope.data with
    | error chain => simp [Functor.map, Except.map]
    | ok d => simp [Functor.map, Except.map, eq_comm]
  · simp [hknown, pure, Except.pure, eq_comm]

end Decode

/-! ## What a value that is read looks like -/

theorem readString_some {j : Json} {text : String} : readString j = some text ↔ j = .str text := by
  cases j <;> simp [readString]

theorem readI64_some {j : Json} {n : Int} (h : readI64 j = some n) : j = .int n := by
  unfold readI64 at h
  split at h
  · split at h
    · cases h
      rfl
    · cases h
  · cases h

/-- The spellings of a state. -/
def Spells (state : IncidentState) (j : Json) : Prop :=
  j = .str (stateName state) ∨
    ∃ members, j = .obj members ∧ (KeyMap.ofEntries members).toList = [(stateName state, .null)]

theorem stateOfName_some {name : String} {state : IncidentState} :
    stateOfName name = some state ↔ name = stateName state := by
  unfold stateOfName
  split_ifs <;> cases state <;> simp_all [stateName]

theorem readState_spells {j : Json} {state : IncidentState} (h : readState j = some state) :
    Spells state j := by
  unfold readState at h
  split at h
  · exact .inl (congrArg Json.str (stateOfName_some.mp h))
  · rename_i members
    split at h
    · rename_i name hlist
      exact .inr ⟨members, rfl, by rw [hlist, stateOfName_some.mp h]⟩
    · cases h
  · cases h

theorem required_some_iff {α : Type} {read : Json → Option α} {o : Option Json} {a : α} :
    Json.required read o = some a ↔ ∃ j, o = some j ∧ read j = some a := by
  simp [Json.required, Option.bind_eq_some_iff]

theorem readIncident_some {j : Json} {item : Incident} (h : readIncident j = some item) :
    j.part "key" 0 = some (.str item.key) ∧
      (∃ v, j.part "state" 1 = some v ∧ Spells item.state v) ∧
      j.part "incidentStartedAt" 3 = some (.str item.incidentStartedAt) := by
  unfold readIncident at h
  split at h
  · simp only [Option.bind_eq_bind, Option.bind_eq_some_iff, required_some_iff, readString_some,
      Option.pure_def, Option.some.injEq] at h
    obtain ⟨key, ⟨_, hkey, rfl⟩, state, ⟨v, hv, hstate⟩, _, -, startedAt, ⟨_, hat, rfl⟩, _, -,
      rfl⟩ := h
    exact ⟨hkey, ⟨v, hv, readState_spells hstate⟩, hat⟩
  · cases h

theorem OngoingIncidents.fromJson_some {j : Json} {ongoing : OngoingIncidents}
    (h : OngoingIncidents.fromJson j = some ongoing) :
    (∀ l ∈ ongoing.lists, Json.optional nullAsDefault [] (j.part l.1 l.2.1) = some l.2.2) ∧
      Json.optional readI64 0 (j.part "numItemsOK" 4) = some ongoing.numItemsOk := by
  unfold OngoingIncidents.fromJson at h
  split at h
  · simp only [Option.bind_eq_bind, Option.bind_eq_some_iff, Option.pure_def,
      Option.some.injEq] at h
    obtain ⟨total, htotal, added, hadded, removed, hremoved, updated, hupdated, count, hcount,
      rfl⟩ := h
    simp only [OngoingIncidents.lists, List.forall_mem_cons]
    exact ⟨⟨htotal, hadded, hremoved, hupdated, nofun⟩, hcount⟩
  · cases h

theorem Notification.fromJson_some {j : Json} {n : Notification}
    (h : Notification.fromJson j = some n) :
    ∃ o, j.part "ongoingIncidents" 1 = some o ∧
      OngoingIncidents.fromJson o = some n.ongoingIncidents := by
  unfold Notification.fromJson at h
  split at h
  · simp only [Option.bind_eq_bind, Option.bind_eq_some_iff, required_some_iff, Option.pure_def,
      Option.some.injEq] at h
    obtain ⟨time, -, _, ⟨o, ho, hread⟩, rfl⟩ := h
    exact ⟨o, ho, hread⟩
  · cases h

theorem Envelope.fromJson_some {j : Json} {envelope : Envelope}
    (h : Envelope.fromJson j = some envelope) :
    j.part "event" 0 = some (.str envelope.event) ∧
      (j.part "data" 1 = some envelope.data ∨ envelope.data = .null) := by
  unfold Envelope.fromJson at h
  split at h
  · simp only [Option.bind_eq_bind, Option.bind_eq_some_iff, required_some_iff, readString_some,
      Option.pure_def, Option.some.injEq] at h
    obtain ⟨o, ho, event, ⟨_, rfl, rfl⟩, o', ho', data, hdata, rfl⟩ := h
    refine ⟨Json.part_of_field 0 ho, ?_⟩
    rw [Json.part_of_field 1 ho']
    cases o' with
    | none => exact .inr (Option.some.inj hdata).symm
    | some d => exact .inl hdata
  · simp only [Option.bind_eq_bind, Option.bind_eq_some_iff, readString_some, Option.pure_def,
      Option.some.injEq] at h
    obtain ⟨event, rfl, rfl⟩ := h
    exact ⟨rfl, .inr rfl⟩
  · simp only [Option.bind_eq_bind, Option.bind_eq_some_iff, readString_some, Option.pure_def,
      Option.some.injEq] at h
    obtain ⟨event, rfl, rfl⟩ := h
    exact ⟨rfl, .inl rfl⟩
  · cases h

/-! ## Defective messages -/

section Defects

variable (rfc3339 : Rfc3339)

/-- What may be wrong with an element of a list. -/
inductive Defect (j : Json) : Prop where
  | null (h : j = .null)
  | emptyKey (h : j.part "key" 0 = some (.str ""))
  | unknownState (h : ∀ v, j.part "state" 1 = some v → ∀ state, ¬ Spells state v)
  | unparsableTimestamp
      (h : ∀ text, j.part "incidentStartedAt" 3 = some (.str text) →
        ∀ t, rfc3339.parse text ≠ .ok t)

def listFields : List (String × Nat) :=
  [("total", 0), ("added", 1), ("removed", 2), ("updated", 3)]

def ongoingIncidents (j : Json) : Option Json :=
  (j.part "data" 1).bind (Json.part "ongoingIncidents" 1)

/-- A message with a defective element in one of its lists, or with a count that is negative or no
integer. -/
inductive Defective (j : Json) : Prop where
  | element (field : String × Nat) (hfield : field ∈ listFields) (items : List Json)
      (h : (ongoingIncidents j).bind (Json.part field.1 field.2) = some (.arr items))
      (x : Json) (hx : x ∈ items) (hdefect : Defect rfc3339 x)
  | count (v : Json) (h : (ongoingIncidents j).bind (Json.part "numItemsOK" 4) = some v)
      (hv : ∀ n, v = .int n → n < 0)

variable {rfc3339}

/-- An element that is read and passes the checks has no defect. -/
theorem not_defect {j : Json} {item : Incident} (h : readIncident j = some item)
    (hvalid : Valid rfc3339 item) : ¬ Defect rfc3339 j := by
  obtain ⟨hkey, ⟨v, hv, hspells⟩, hat⟩ := readIncident_some h
  obtain ⟨hne, t, ht⟩ := hvalid
  rintro (rfl | hempty | hstate | htime)
  · cases hkey
  · rw [hkey] at hempty
    exact hne (Json.str.inj (Option.some.inj hempty))
  · exact hstate v hv _ hspells
  · exact htime _ hat t ht

theorem nullAsDefault_arr {items : List Json} {l : List Incident}
    (h : nullAsDefault (.arr items) = some l) {x : Json} (hx : x ∈ items) :
    ∃ item ∈ l, readIncident x = some item := by
  have hall := Json.mapM_eq_some_iff.mp h
  clear h
  induction hall with
  | nil => cases hx
  | @cons y item ys l hread _ ih =>
    rcases List.mem_cons.mp hx with rfl | hx
    · exact ⟨item, List.mem_cons_self, hread⟩
    · obtain ⟨item', hmem, hread'⟩ := ih hx
      exact ⟨item', List.mem_cons_of_mem _ hmem, hread'⟩

theorem decode_wellFormed {refusal : Json → String} {event : String} {j o : Json}
    {data : NotificationData} (ho : j.part "ongoingIncidents" 1 = some o)
    (h : decodeData refusal rfc3339 event j = .ok data) :
    (∀ field ∈ listFields, ∀ items, o.part field.1 field.2 = some (.arr items) →
      ∀ x ∈ items, ¬ Defect rfc3339 x) ∧
    ∀ v, o.part "numItemsOK" 4 = some v → ∃ n, v = .int n ∧ 0 ≤ n := by
  obtain ⟨n, hn, hvalidate⟩ := decodeData_ok.mp h
  obtain ⟨o', ho', hread⟩ := Notification.fromJson_some hn
  rw [ho] at ho'
  cases ho'
  obtain ⟨hlists, hcount⟩ := OngoingIncidents.fromJson_some hread
  obtain ⟨-, hnum, hvalid, -⟩ := Notification.validate_ok.mp hvalidate
  refine ⟨fun field hfield items hitems x hx => ?_, fun v hv => ?_⟩
  · have hl : ∃ l ∈ n.ongoingIncidents.lists, (l.1, l.2.1) = field := by
      simp only [listFields, List.mem_cons, List.not_mem_nil, or_false] at hfield
      rcases hfield with rfl | rfl | rfl | rfl <;> simp [OngoingIncidents.lists]
    obtain ⟨l, hl, rfl⟩ := hl
    have hlist := hlists l hl
    rw [hitems] at hlist
    obtain ⟨item, hitem, hincident⟩ := nullAsDefault_arr hlist hx
    exact not_defect hincident (hvalid l hl item hitem)
  · rw [hv, Json.optional_some] at hcount
    exact ⟨_, readI64_some hcount, hnum⟩

/-- Nothing is made of a defective message. -/
theorem decode_defective {parse : String → Except String Json} {refusal : Json → String}
    {text : String} {j : Json} (hj : parse text = .ok j) (hdefective : Defective rfc3339 j)
    (data : NotificationData) : decodeTextMessage parse refusal rfc3339 text ≠ .ok (some data) := by
  intro h
  obtain ⟨envelope, henvelope, ⟨-, hnone⟩ | ⟨-, d, -, hdata⟩⟩ := (decodeTextMessage_ok hj).mp h
  · cases hnone
  · have hongoing : ∃ o, ongoingIncidents j = some o ∧
        envelope.data.part "ongoingIncidents" 1 = some o := by
      obtain ⟨n, hn, -⟩ := decodeData_ok.mp hdata
      obtain ⟨o, ho, -⟩ := Notification.fromJson_some hn
      obtain ⟨-, hpart | hnull⟩ := Envelope.fromJson_some henvelope
      · exact ⟨o, by simp [ongoingIncidents, hpart, ho], ho⟩
      · rw [hnull] at ho
        cases ho
    obtain ⟨o, hj, ho⟩ := hongoing
    obtain ⟨hlists, hcount⟩ := decode_wellFormed ho hdata
    rcases hdefective with ⟨field, hfield, items, hitems, x, hx, hdefect⟩ | ⟨v, hv, hneg⟩
    · rw [hj] at hitems
      exact hlists field hfield items hitems x hx hdefect
    · rw [hj] at hv
      obtain ⟨n, heq, hnn⟩ := hcount v hv
      have hlt := hneg n heq
      omega

/-- A defective message of a known event is rejected. -/
theorem decode_rejects {parse : String → Except String Json} {refusal : Json → String}
    {text : String} {j : Json} (hj : parse text = .ok j) (hdefective : Defective rfc3339 j)
    {event : String} (hevent : j.part "event" 0 = some (.str event))
    (hknown : event ∈ knownEvents) :
    ∃ chain, decodeTextMessage parse refusal rfc3339 text = .error chain := by
  cases h : decodeTextMessage parse refusal rfc3339 text with
  | error chain => exact ⟨chain, rfl⟩
  | ok o =>
    cases o with
    | some data => exact absurd h (decode_defective hj hdefective data)
    | none =>
      obtain ⟨envelope, henvelope, ⟨hunknown, -⟩ | ⟨-, d, hd, -⟩⟩ := (decodeTextMessage_ok hj).mp h
      · have heq := (Envelope.fromJson_some henvelope).1
        rw [hevent] at heq
        cases heq
        exact absurd hknown hunknown
      · cases hd

end Defects

/-! ## What the server sends -/

section Sent

variable (marshalTime : Time → Option String)

/-- The incident is the item, with the text that was sent for its time. -/
structure SameItem (item : ItemWContext) (incident : Incident) : Prop where
  key : incident.key = item.key
  state : stateName incident.state = item.state.text
  details : incident.details = item.details
  startedAt : marshalTime item.incidentStartedAt = some incident.incidentStartedAt
  stale : incident.stale = item.stale

def SameList (slice : Wire.Slice) (incidents : List Incident) : Prop :=
  List.Forall₂ (fun p incident => ∃ item, p = some item ∧ SameItem marshalTime item incident)
    slice.range incidents

structure SameNotification (n : Wire.Notification) (data : NotificationData) : Prop where
  total : SameList marshalTime n.ongoingIncidents.total data.total
  added : SameList marshalTime n.ongoingIncidents.added data.added
  removed : SameList marshalTime n.ongoingIncidents.removed data.removed
  updated : SameList marshalTime n.ongoingIncidents.updated data.updated
  numItemsOK : (data.numItemsOk : Int) = n.ongoingIncidents.numItemsOK

variable {marshalTime} {rfc3339 : Rfc3339}

theorem readState_text {state : ItemState} (h : state.isItemStateValid = true) :
    ∃ s, readState (.str state.text) = some s ∧ stateName s = state.text := by
  cases state with
  | ok => exact ⟨.ok, rfl, rfl⟩
  | warning => exact ⟨.warning, rfl, rfl⟩
  | error => exact ⟨.error, rfl, rfl⟩
  | other text => cases h

theorem pointer_sent
    (hlaw : ∀ t text, marshalTime t = some text → ∃ t', rfc3339.parse text = .ok t')
    {p : Option ItemWContext}
    (h : ∃ item, p = some item ∧ Wire.ItemSendable marshalTime item) :
    ∃ v incident, Wire.pointerToJson marshalTime p = some v ∧ readIncident v = some incident ∧
      (∃ item, p = some item ∧ SameItem marshalTime item incident) ∧ Valid rfc3339 incident := by
  obtain ⟨item, rfl, hkey, hstate, hat⟩ := h
  obtain ⟨startedAt, hat⟩ := Option.isSome_iff_exists.mp hat
  obtain ⟨state, hread, hname⟩ := readState_text hstate
  refine ⟨.obj (Wire.itemMembers item startedAt),
    ⟨item.key, state, item.details, startedAt, item.stale⟩, ?_, ?_,
    ⟨item, rfl, rfl, hname, rfl, hat, rfl⟩, hkey, hlaw _ _ hat⟩
  · rw [Wire.pointerToJson, Wire.itemToJson, hat, Option.map_some]
  · cases hstale : item.stale <;>
      simp [Wire.itemMembers, hstale, readIncident, Json.isRecord, Json.part_obj, readString,
        readBool, hread]

theorem slice_sent
    (hlaw : ∀ t text, marshalTime t = some text → ∃ t', rfc3339.parse text = .ok t')
    {slice : Wire.Slice} (h : Wire.Slice.Sendable marshalTime slice) :
    ∃ v l, Wire.Slice.toJson marshalTime slice = some v ∧ nullAsDefault v = some l ∧
      SameList marshalTime slice l ∧ ∀ incident ∈ l, Valid rfc3339 incident := by
  cases slice with
  | none => exact ⟨.null, [], rfl, rfl, .nil, nofun⟩
  | some items =>
    suffices hitems : ∃ vs l, items.mapM (Wire.pointerToJson marshalTime) = some vs ∧
        vs.mapM readIncident = some l ∧ SameList marshalTime (some items) l ∧
        ∀ incident ∈ l, Valid rfc3339 incident by
      obtain ⟨vs, l, hvs, hl, hsame, hvalid⟩ := hitems
      exact ⟨.arr vs, l, by simp [Wire.Slice.toJson, hvs], hl, hsame, hvalid⟩
    have hall : ∀ p ∈ items, ∃ item, p = some item ∧ Wire.ItemSendable marshalTime item := h
    clear h
    induction items with
    | nil => exact ⟨[], [], rfl, rfl, .nil, nofun⟩
    | cons p items ih =>
      obtain ⟨v, incident, hv, hread, hsame, hvalid⟩ :=
        pointer_sent hlaw (hall p List.mem_cons_self)
      obtain ⟨vs, l, hvs, hl, hsames, hvalids⟩ := ih fun q hq => hall q (List.mem_cons_of_mem _ hq)
      exact ⟨v :: vs, incident :: l, by simp [hv, hvs], by simp [hread, hl], .cons hsame hsames,
        List.forall_mem_cons.mpr ⟨hvalid, hvalids⟩⟩

theorem text_mem_knownEvents (event : Wire.WsEvent) : event.text ∈ knownEvents := by
  cases event <;> decide

theorem readI64_count {n : Int} (h : 0 ≤ n ∧ n.toNat < 2 ^ 63) : readI64 (.int n) = some n := by
  rw [readI64, if_pos]
  omega

/-- The message of a notification is encoded, and decoded to the same notification. -/
theorem decode_sent
    (hlaw : ∀ t text, marshalTime t = some text → ∃ t', rfc3339.parse text = .ok t')
    (event : Wire.WsEvent) {n : Wire.Notification} (h : n.Sendable marshalTime) :
    ∃ j data, (Wire.WsTxMsg.mk event (some (some n))).toJson marshalTime = some j ∧
      SameNotification marshalTime n data ∧
      ∀ (parse : String → Except String Json) (refusal : Json → String) (text : String),
        parse text = .ok j → decodeTextMessage parse refusal rfc3339 text = .ok (some data) := by
  obtain ⟨time, htime⟩ := Option.isSome_iff_exists.mp h.time
  obtain ⟨t, total, ht, hrt, hst, hvt⟩ := slice_sent hlaw h.total
  obtain ⟨a, added, ha, hra, hsa, hva⟩ := slice_sent hlaw h.added
  obtain ⟨r, removed, hr, hrr, hsr, hvr⟩ := slice_sent hlaw h.removed
  obtain ⟨u, updated, hu, hru, hsu, hvu⟩ := slice_sent hlaw h.updated
  have hcount := readI64_count h.numItemsOK
  obtain ⟨hnn, -⟩ := h.numItemsOK
  let ongoing : Json := .obj [("total", t), ("added", a), ("removed", r), ("updated", u),
    ("numItemsOK", .int n.ongoingIncidents.numItemsOK)]
  let notification : Notification :=
    ⟨some time, ⟨total, added, removed, updated, n.ongoingIncidents.numItemsOK⟩⟩
  have hongoing : OngoingIncidents.fromJson ongoing = some notification.ongoingIncidents := by
    simp [ongoing, notification, OngoingIncidents.fromJson, Json.isRecord, Json.part_obj, hrt, hra,
      hrr, hru, hcount]
  have hnotification : Notification.fromJson
      (.obj [("time", .str time), ("ongoingIncidents", ongoing)]) = some notification := by
    simp [Notification.fromJson, Json.isRecord, Json.part_obj, readTime, readString, hongoing,
      notification]
  refine ⟨.obj [("event", .str event.text),
      ("data", .obj [("time", .str time), ("ongoingIncidents", ongoing)])],
    ⟨total, added, removed, updated, n.ongoingIncidents.numItemsOK.toNat⟩, ?_,
    ⟨hst, hsa, hsr, hsu, Int.toNat_of_nonneg hnn⟩, ?_⟩
  · simp [Wire.WsTxMsg.toJson, Wire.Notification.toJson, Wire.OngoingIncidentsWDelta.toJson, htime,
      ht, ha, hr, hu, ongoing]
  · intro parse refusal text htext
    refine (decodeTextMessage_ok htext).mpr ⟨⟨event.text, _⟩, rfl, .inr ⟨?_, _, rfl, ?_⟩⟩
    · exact text_mem_knownEvents event
    · refine decodeData_ok.mpr ⟨notification, hnotification, Notification.validate_ok.mpr ?_⟩
      refine ⟨fun timestamp heq => ?_, hnn, ?_, rfl⟩
      · cases heq
        exact hlaw _ _ htime
      · simp only [OngoingIncidents.lists, List.forall_mem_cons]
        exact ⟨hvt, hva, hvr, hvu, nofun⟩

end Sent

/-- **The wire round trip, all or nothing.** The message of a notification that the server can send
is decoded to the same lists and the same count, and the connection loop passes it on. A message
with a defect in any of its lists, or in its count, is rejected as a whole: the loop drops the
connection and sends no notification. -/
theorem wire_round_trip (marshalTime : Time → Option String) (rfc3339 : Rfc3339)
    (hlaw : ∀ t text, marshalTime t = some text → ∃ t', rfc3339.parse text = .ok t')
    (parse : String → Except String Json) (refusal : Json → String)
    (fromUtf8 : List UInt8 → Except String String) (server : ServerConfig) (now : OffsetDateTime) :
    let decode := decodeTextMessage parse refusal rfc3339
    let receive := fun text => receive decode fromUtf8 {} server now (.message (.text text))
    (∀ (event : Wire.WsEvent) (n : Wire.Notification), n.Sendable marshalTime →
      ∃ j data, (Wire.WsTxMsg.mk event (some (some n))).toJson marshalTime = some j ∧
        SameNotification marshalTime n data ∧
        ∀ text, parse text = .ok j →
          decode text = .ok (some data) ∧
          (text.utf8ByteSize ≤ 2 ^ 20 → receive text = .send (.notification server.id data now))) ∧
    ∀ text j, parse text = .ok j → Defective rfc3339 j →
      (∀ data, decode text ≠ .ok (some data)) ∧
      (∀ id data at_, receive text ≠ .send (.notification id data at_)) ∧
      ∀ event ∈ knownEvents, j.part "event" 0 = some (.str event) →
        (∃ chain, decode text = .error chain) ∧ ∃ error, receive text = .lost error := by
  intro decode receive
  refine ⟨fun event n hn => ?_, fun text j hj hdefective => ?_⟩
  · obtain ⟨j, data, hjson, hsame, hdecode⟩ := decode_sent hlaw event hn
    refine ⟨j, data, hjson, hsame, fun text htext => ?_⟩
    have hdecode : decode text = .ok (some data) := hdecode parse refusal text htext
    refine ⟨hdecode, fun hsize => ?_⟩
    have hfits : ¬ text.utf8ByteSize > (1 <<< 20 : Nat) := by
      simpa using hsize
    simp only [receive, Client.receive, if_neg hfits, receiveText, hdecode]
  · have hnone : ∀ data, decode text ≠ .ok (some data) := decode_defective hj hdefective
    refine ⟨hnone, fun id data at_ h => ?_, fun event hknown hevent => ?_⟩
    · simp only [receive, Client.receive, receiveText] at h
      split at h
      · cases h
      · split at h
        · rename_i data' hdata
          exact hnone data' hdata
        · cases h
        · cases h
    · have hrejects : ∃ chain, decode text = .error chain :=
        decode_rejects hj hdefective hevent hknown
      refine ⟨hrejects, ?_⟩
      obtain ⟨chain, hchain⟩ := hrejects
      simp only [receive, Client.receive, receiveText, hchain]
      split
      · exact ⟨_, rfl⟩
      · exact ⟨_, rfl⟩

/-- RFC 3339 on Go's zero time. -/
def wireRfc3339 : Rfc3339 := .single (-62135596800 * 10 ^ 9) "0001-01-01T00:00:00Z"

def wireMarshal (t : Time) : Option String :=
  if t = 0 then some "0001-01-01T00:00:00Z" else none

theorem wireMarshal_parses {t : Time} {text : String} (h : wireMarshal t = some text) :
    ∃ t', wireRfc3339.parse text = .ok t' := by
  unfold wireMarshal at h
  split at h
  · cases h
    exact ⟨_, rfl⟩
  · cases h

/-- The JSON library on some texts. -/
def parseTexts (values : List (String × Json)) (text : String) : Except String Json :=
  match values.lookup text with
  | some j => .ok j
  | none => .error "expected value at line 1 column 1"

theorem parseTexts_head (text : String) (j : Json) (values : List (String × Json)) :
    parseTexts ((text, j) :: values) text = .ok j := by
  simp [parseTexts]

/-- One stale item; the slices of the deltas are empty or nil. -/
def wireNotification : Wire.Notification where
  time := 0
  ongoingIncidents := {
    total := .of [{ key := "disk.root", state := .error, details := "full", stale := true }]
    added := .of []
    numItemsOK := 2 }

theorem wireNotification_sendable : wireNotification.Sendable wireMarshal where
  time := rfl
  total p hp := by
    cases List.mem_singleton.mp hp
    exact ⟨_, rfl, by decide, rfl, rfl⟩
  added := nofun
  removed := nofun
  updated := nofun
  numItemsOK := by decide

/-- What `WriteJSON` writes for it. -/
def wireText : String :=
  "\x7b\"event\":\"OngoingIncidentsUpdate\",\"data\":\x7b\"time\":\"0001-01-01T00:00:00Z\"," ++
    "\"ongoingIncidents\":\x7b\"total\":[\x7b\"key\":\"disk.root\",\"state\":\"error\"," ++
    "\"details\":\"full\",\"incidentStartedAt\":\"0001-01-01T00:00:00Z\",\"stale\":true\x7d]," ++
    "\"added\":[],\"removed\":null,\"updated\":null,\"numItemsOK\":2\x7d\x7d\x7d\n"

def wireValue : Json :=
  .obj [("event", .str "OngoingIncidentsUpdate"), ("data", .obj [
    ("time", .str "0001-01-01T00:00:00Z"), ("ongoingIncidents", .obj [
      ("total", .arr [.obj [("key", .str "disk.root"), ("state", .str "error"),
        ("details", .str "full"), ("incidentStartedAt", .str "0001-01-01T00:00:00Z"),
        ("stale", .bool true)]]),
      ("added", .arr []), ("removed", .null), ("updated", .null), ("numItemsOK", .int 2)])])]

/-- An update in which the second removed item is null. -/
def defectiveText : String :=
  "\x7b\"event\":\"OngoingIncidentsUpdate\",\"data\":\x7b\"ongoingIncidents\":\x7b" ++
    "\"total\":null,\"removed\":[\x7b\"key\":\"disk\",\"state\":\"ok\"," ++
    "\"incidentStartedAt\":\"0001-01-01T00:00:00Z\"\x7d,null]\x7d\x7d\x7d"

def wireDefective : Json :=
  .obj [("event", .str "OngoingIncidentsUpdate"), ("data", .obj [("ongoingIncidents", .obj [
    ("total", .null), ("removed", .arr [.obj [("key", .str "disk"), ("state", .str "ok"),
      ("incidentStartedAt", .str "0001-01-01T00:00:00Z")], .null])])])]

def wireParse : String → Except String Json :=
  parseTexts [(wireText, wireValue), (defectiveText, wireDefective)]

theorem wireParse_defectiveText : wireParse defectiveText = .ok wireDefective := by
  have hne : (defectiveText == wireText) = false := by decide +kernel
  simp [wireParse, parseTexts, List.lookup_cons, hne]

theorem wire_round_trip_sent_and_null :
    (∃ data,
      (Wire.WsTxMsg.mk .ongoingIncidentsUpdate (some (some wireNotification))).toJson wireMarshal =
        some wireValue ∧ SameNotification wireMarshal wireNotification data ∧
      decodeTextMessage wireParse (fun _ => "") wireRfc3339 wireText = .ok (some data)) ∧
    ∃ chain, decodeTextMessage wireParse (fun _ => "") wireRfc3339 defectiveText =
      .error chain := by
  obtain ⟨hsent, hrefused⟩ := wire_round_trip wireMarshal wireRfc3339
    (fun _ _ => wireMarshal_parses) wireParse (fun _ => "") (fun _ => .error "") { id := "db" } 1
  constructor
  · obtain ⟨j, data, hjson, hsame, hdecode⟩ :=
      hsent .ongoingIncidentsUpdate wireNotification wireNotification_sendable
    obtain rfl : wireValue = j := Option.some.inj hjson
    exact ⟨data, hjson, hsame, (hdecode wireText (parseTexts_head ..)).1⟩
  · have hdefective : Defective wireRfc3339 wireDefective :=
      .element ("removed", 2) (by decide) _ rfl .null (by simp) (.null rfl)
    exact (hrefused defectiveText wireDefective wireParse_defectiveText hdefective).2.2
      "OngoingIncidentsUpdate" (by decide) rfl |>.1

end Protocol
end Client
end Montray
