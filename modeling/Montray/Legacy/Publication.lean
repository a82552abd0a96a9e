import Montray.Lib.Relay
import Montray.Legacy.IncidentState

/-!
# Montray.Legacy.Publication

What the legacy client shows once every call has returned.

Both stages of a publication are relays: a call changes the incidents or the deadlines and later
reads them into a snapshot, which it stores later still (`Snapshots`); a stored snapshot is in turn
read into a message and queued to the clients later (`Messages`). `Timely` is about the clock: the
last snapshot was begun after the last call started, or no deadline lies in between.

If snapshots are stored in the order in which they were begun, messages queued to a client in the
order in which they were built, and no write fails while a deadline has passed, then the stored
snapshot and the last message of every connected client classify the current incidents by the
current deadlines (`publication_converges`). Otherwise they need not: in
`publication_overtaken` a snooze has been acknowledged and the incident is shown as alerting.
-/

namespace Montray
namespace Legacy

open Lib

/-! ## Snapshots -/

/-- The snapshot that a call is going to store if nothing changes before, with its number. -/
def Op.promise (items : List ItemWContext) (snoozed : Snoozes) : Op → Option (Nat × IncidentSnapshot)
  | .read n now => some (n, snapshotAt items snoozed now)
  | .classify n now todo acc => some (n, Legacy.classify snoozed now acc todo)
  | .store n x => some (n, x)
  | _ => none

/-- A call that is about to begin a snapshot. -/
def Op.atSnapshot : Op → Option PUnit
  | .snapshot => some ()
  | _ => none

def Promised (items : List ItemWContext) (snoozed : Snoozes) (ops : KeyMap Op) (n : Nat)
    (x : IncidentSnapshot) : Prop :=
  KeyMap.Has ops (Op.promise items snoozed) (n, x)

def AtSnapshot (ops : KeyMap Op) : Prop := KeyMap.Has ops Op.atSnapshot ()

/-- The snapshot begun last is stored or going to be, and is up to date unless some call has made
its change and has yet to begin its snapshot. -/
def Snapshots (s : Sys) : Prop :=
  Relay s.begun s.stored (AtSnapshot s.ops) (Promised s.items s.snoozed s.ops) s.snapshot
    (snapshotAt s.items s.snoozed s.began)

theorem promise_fst (items items' : List ItemWContext) (snoozed snoozed' : Snoozes) (op : Op) :
    (op.promise items snoozed).map Prod.fst = (op.promise items' snoozed').map Prod.fst := by
  cases op <;> rfl

theorem Promised.change {items items' : List ItemWContext} {snoozed snoozed' : Snoozes}
    {ops : KeyMap Op} {n : Nat} {x : IncidentSnapshot} (h : Promised items snoozed ops n x) :
    ∃ y, Promised items' snoozed' ops n y := by
  obtain ⟨i, op, hi, hop⟩ := h
  have hfst := promise_fst items items' snoozed snoozed' op
  rw [hop] at hfst
  obtain ⟨p, hp, hn⟩ := Option.map_eq_some_iff.mp hfst.symm
  refine ⟨p.2, i, op, hi, hp.trans ?_⟩
  rw [show n = p.1 from hn.symm]

section Run

variable {s : Sys} {i : String} {op : Op} {next : Option Op}

/-- A section after which the call promises what it promised before. -/
theorem Snapshots.aside (h : Snapshots s) (hi : s.ops[i]? = some op)
    (hpromise : next.bind (Op.promise s.items s.snoozed) = op.promise s.items s.snoozed)
    (hop : op ≠ .snapshot) : Snapshots { s with ops := KeyMap.put s.ops i next } := by
  refine Relay.keep h ?_ fun n x => KeyMap.has_put_iff (by rw [hi]; exact hpromise)
  intro hat
  refine KeyMap.Has.put hat ?_
  rw [hi]
  intro hsome
  cases op <;> simp [Op.atSnapshot] at hsome hop

/-- A call changes what is shown. -/
theorem Snapshots.change (h : Snapshots s) (hi : s.ops[i]? = some op)
    (hop : op.promise s.items s.snoozed = none) (items : List ItemWContext) (snoozed : Snoozes) :
    Snapshots { s with items, snoozed, ops := KeyMap.put s.ops i (some .snapshot) } := by
  have hput : ∀ n x, Promised s.items s.snoozed (KeyMap.put s.ops i (some .snapshot)) n x ↔
      Promised s.items s.snoozed s.ops n x :=
    fun n x => KeyMap.has_put_iff (by rw [hi]; exact hop.symm)
  refine Relay.change h (KeyMap.has_put rfl) ?_ ?_
  · intro n x hx
    have hold : ∃ y, Promised s.items s.snoozed (KeyMap.put s.ops i (some .snapshot)) n y :=
      hx.change
    obtain ⟨y, hy⟩ := hold
    exact ⟨y, (hput n y).mp hy⟩
  · intro n x hx
    exact ((hput n x).mpr hx).change

theorem Snapshots.begin (h : Snapshots s) (i : String) :
    Snapshots { s with begun := s.begun + 1, began := s.clock,
                       ops := KeyMap.put s.ops i (some (.read (s.begun + 1) s.clock)) } := by
  refine Relay.issue h (x := snapshotAt s.items s.snoozed s.clock) (KeyMap.has_put rfl) ?_
  intro n x hx
  rcases KeyMap.Has.of_put hx with hx | hx
  · exact .inl hx
  · cases hx
    exact .inr ⟨rfl, rfl⟩

theorem Snapshots.store {n : Nat} {snapshot : IncidentSnapshot} (h : Snapshots s)
    (hi : s.ops[i]? = some (.store n snapshot)) (hord : s.stored < n) :
    Snapshots { s with snapshot, stored := n, ops := KeyMap.put s.ops i (some .message) } := by
  have hdeliver : Relay s.begun n (AtSnapshot s.ops)
      (Promised s.items s.snoozed (KeyMap.put s.ops i (some .message))) snapshot
      (snapshotAt s.items s.snoozed s.began) := by
    refine Relay.deliver h ⟨i, _, hi, rfl⟩ hord.le ?_ ?_
    · intro m x hx
      rcases KeyMap.Has.of_put hx with hx | hx
      · exact hx
      · cases hx
    · intro m x hx hm
      refine KeyMap.Has.put hx ?_
      rw [hi]
      intro heq
      cases heq
      exact hm rfl
  refine hdeliver.keep ?_ fun m x => Iff.rfl
  exact fun hat => KeyMap.Has.put hat (by rw [hi]; nofun)

end Run

/-! ## Messages -/

/-- The incidents in the message that a call has built, with the number of the message. They are
given in the form in which they would be the last of a client. -/
def Op.carries : Op → Option (Nat × Option IncidentSnapshot)
  | .broadcast m msg => some (m, some msg.ongoingIncidents)
  | .send m msg _ => some (m, some msg.ongoingIncidents)
  | .evict m msg _ _ => some (m, some msg.ongoingIncidents)
  | .close m msg _ _ => some (m, some msg.ongoingIncidents)
  | _ => none

/-- The same, for a client to which the call has still to queue it. -/
def Op.owes (c : String) : Op → Option (Nat × Option IncidentSnapshot)
  | .broadcast m msg => some (m, some msg.ongoingIncidents)
  | .send m msg todo => if c ∈ todo then some (m, some msg.ongoingIncidents) else none
  | .evict m msg d todo => if c = d ∨ c ∈ todo then some (m, some msg.ongoingIncidents) else none
  | .close m msg _ todo => if c ∈ todo then some (m, some msg.ongoingIncidents) else none
  | _ => none

theorem carries_of_owes {c : String} {op : Op} {y : Nat × Option IncidentSnapshot}
    (h : op.owes c = some y) : op.carries = some y := by
  cases op with
  | broadcast m msg => exact h
  | send m msg todo =>
    simp only [Op.owes] at h
    split at h
    · exact h
    · cases h
  | evict m msg d todo =>
    simp only [Op.owes] at h
    split at h
    · exact h
    · cases h
  | close m msg d todo =>
    simp only [Op.owes] at h
    split at h
    · exact h
    · cases h
  | _ => cases h

/-- A call that is about to build a message. -/
def Op.atMessage : Op → Option PUnit
  | .message => some ()
  | _ => none

def Carried (ops : KeyMap Op) (m : Nat) (y : Option IncidentSnapshot) : Prop :=
  KeyMap.Has ops Op.carries (m, y)

def OwedTo (c : String) (ops : KeyMap Op) (m : Nat) (y : Option IncidentSnapshot) : Prop :=
  KeyMap.Has ops (Op.owes c) (m, y)

def AtMessage (ops : KeyMap Op) : Prop := KeyMap.Has ops Op.atMessage ()

theorem OwedTo.carried {c : String} {ops : KeyMap Op} {m : Nat} {y : Option IncidentSnapshot}
    (h : OwedTo c ops m y) : Carried ops m y := by
  obtain ⟨i, op, hi, hop⟩ := h
  exact ⟨i, op, hi, carries_of_owes hop⟩

/-- The incidents in the message queued last. -/
def Client.last (client : Client) : Option IncidentSnapshot :=
  client.queued.getLast?.map (·.ongoingIncidents)

/-- The message built last has been queued to every connected client or is going to be, and is up
to date unless some call has stored a snapshot and has yet to build its message. -/
structure Messages (built : Nat) (snapshot : IncidentSnapshot) (clients : KeyMap Client)
    (ops : KeyMap Op) : Prop where
  carried : Readings built (AtMessage ops) (Carried ops) (some snapshot)
  served : KeyMap.All clients fun c client => client.connected = true →
    Relay built client.ticket (AtMessage ops) (OwedTo c ops) client.last (some snapshot)

section Messages

variable {built : Nat} {snapshot : IncidentSnapshot} {clients : KeyMap Client} {ops : KeyMap Op}
  {i : String} {op : Op}

/-- A section that leaves what the call carries, and owes to the connected clients, as it was. -/
theorem Messages.aside (h : Messages built snapshot clients ops) (hi : ops[i]? = some op)
    (next : Option Op)
    (hcarries : ∀ y, next.bind Op.carries = some y → op.carries = some y)
    (howes : ∀ (c : String) (client : Client), clients[c]? = some client →
      client.connected = true → next.bind (Op.owes c) = op.owes c)
    (hop : op ≠ .message) : Messages built snapshot clients (KeyMap.put ops i next) := by
  have hat : AtMessage ops → AtMessage (KeyMap.put ops i next) := by
    intro hat
    refine KeyMap.Has.put hat ?_
    rw [hi]
    intro hsome
    cases op <;> simp [Op.atMessage] at hsome hop
  refine ⟨h.carried.keep hat ?_, ?_⟩
  · intro m y hy
    rcases KeyMap.Has.of_put hy with hy | hy
    · exact hy
    · exact ⟨i, op, hi, hcarries _ hy⟩
  · intro c client hc hconn
    refine (h.served c client hc hconn).keep hat fun m y => ?_
    exact KeyMap.has_put_iff (by rw [hi]; exact howes c client hc hconn)

theorem owes_of_carries_none {op : Op} (h : op.carries = none) (c : String) : op.owes c = none := by
  cases op <;> simp [Op.carries] at h <;> rfl

/-- A section of a call that carries no message yet. -/
theorem Messages.before (h : Messages built snapshot clients ops) (hi : ops[i]? = some op)
    (hop : op ≠ .message) (hold : op.carries = none) (next : Option Op)
    (hnew : next.bind Op.carries = none) :
    Messages built snapshot clients (KeyMap.put ops i next) := by
  refine h.aside hi next (by simp [hnew]) (fun c client _ _ => ?_) hop
  rw [owes_of_carries_none hold]
  cases next with
  | none => rfl
  | some op' => exact owes_of_carries_none hnew c

/-- The clients change, but no connected one in what it was sent. -/
theorem Messages.sent (h : Messages built snapshot clients ops) {clients' : KeyMap Client}
    (hclients : ∀ (c : String) (client : Client), clients'[c]? = some client →
      client.connected = true → ∃ old : Client, clients[c]? = some old ∧ old.connected = true ∧
        old.ticket = client.ticket ∧ old.last = client.last) :
    Messages built snapshot clients' ops := by
  refine ⟨h.carried, fun c client hc hconn => ?_⟩
  obtain ⟨old, hold, hconn', hticket, hlast⟩ := hclients c client hc hconn
  have hserved := h.served c old hold hconn'
  rw [hticket, hlast] at hserved
  exact hserved

/-- A client that is disconnected, by its removal or by closing it. -/
theorem Messages.drop (h : Messages built snapshot clients ops) (c : String) {f : Client → Client}
    (hf : ∀ client, (f client).connected = false) :
    Messages built snapshot (clients.modify c f) ops := by
  refine h.sent fun c' client hc hconn => ?_
  rw [KeyMap.lookup_modify] at hc
  split at hc
  · obtain ⟨old, hold, rfl⟩ := Option.map_eq_some_iff.mp hc
    rw [hf] at hconn
    cases hconn
  · exact ⟨client, hc, hconn, rfl, rfl⟩

/-- A call stores a snapshot and is going to build a message. -/
theorem Messages.change (h : Messages built snapshot clients ops) (hi : ops[i]? = some op)
    (hold : op.carries = none) (snapshot' : IncidentSnapshot) :
    Messages built snapshot' clients (KeyMap.put ops i (some .message)) := by
  have hat : AtMessage (KeyMap.put ops i (some .message)) := KeyMap.has_put rfl
  refine ⟨h.carried.change hat ?_, ?_⟩
  · intro m y hy
    rcases KeyMap.Has.of_put hy with hy | hy
    · exact ⟨y, hy⟩
    · cases hy
  · intro c client hc hconn
    have hput : ∀ m y, OwedTo c (KeyMap.put ops i (some .message)) m y ↔ OwedTo c ops m y :=
      fun m y => KeyMap.has_put_iff (by rw [hi]; exact (owes_of_carries_none hold c).symm)
    exact (h.served c client hc hconn).change hat (fun m y hy => ⟨y, (hput m y).mp hy⟩)
      (fun m y hy => ⟨y, (hput m y).mpr hy⟩)

theorem Messages.build (h : Messages built snapshot clients ops) (i : String)
    {msg : StatusWebsocketMessage} (hmsg : msg.ongoingIncidents = snapshot) :
    Messages (built + 1) snapshot clients
      (KeyMap.put ops i (some (.broadcast (built + 1) msg))) := by
  subst hmsg
  refine ⟨h.carried.issue ?_, ?_⟩
  · intro m y hy
    rcases KeyMap.Has.of_put hy with hy | hy
    · exact .inl hy
    · cases hy
      exact .inr ⟨rfl, rfl⟩
  · intro c client hc hconn
    refine (h.served c client hc hconn).issue (x := some msg.ongoingIncidents)
      (KeyMap.has_put rfl) ?_
    intro m y hy
    rcases KeyMap.Has.of_put hy with hy | hy
    · exact .inl hy
    · cases hy
      exact .inr ⟨rfl, rfl⟩

theorem owes_send_cons {m : Nat} {msg : StatusWebsocketMessage} {c c' : String} {todo : List String}
    (hne : c' ≠ c) :
    (Op.send m msg (c :: todo)).owes c' = (Op.send m msg todo).owes c' := by
  simp [Op.owes, hne]

/-- The message is queued to a client; no later one has been. -/
theorem Messages.enqueue (h : Messages built snapshot clients ops) {m : Nat}
    {msg : StatusWebsocketMessage} {c : String} {todo : List String}
    (hi : ops[i]? = some (.send m msg (c :: todo))) {client : Client}
    (hc : clients[c]? = some client) (hord : client.ticket ≤ m) :
    Messages built snapshot
      (clients.insert c { client with queued := client.queued ++ [msg], ticket := m })
      (KeyMap.put ops i (some (.send m msg todo))) := by
  have hat : AtMessage ops → AtMessage (KeyMap.put ops i (some (.send m msg todo))) :=
    fun hat => KeyMap.Has.put hat (by rw [hi]; nofun)
  have howes : ∀ (todo : List String) (k : Nat) (y : Option IncidentSnapshot),
      (Op.send m msg todo).owes c = some (k, y) → m = k ∧ some msg.ongoingIncidents = y := by
    intro todo k y hy
    have hcar := carries_of_owes hy
    cases hcar
    exact ⟨rfl, rfl⟩
  refine ⟨h.carried.keep hat ?_, ?_⟩
  · intro k y hy
    rcases KeyMap.Has.of_put hy with hy | hy
    · exact hy
    · exact ⟨i, _, hi, hy⟩
  · intro c' client' hc' hconn
    rw [KeyMap.lookup_insert] at hc'
    split at hc'
    · -- the client that is served
      rename_i heq
      cases heq
      cases hc'
      have hx : OwedTo c ops m (some msg.ongoingIncidents) := ⟨i, _, hi, by simp [Op.owes]⟩
      have hlast : Client.last { client with queued := client.queued ++ [msg], ticket := m } =
          some msg.ongoingIncidents := by
        simp [Client.last]
      rw [hlast]
      refine ((h.served c client hc hconn).deliver hx hord ?_ ?_).keep hat fun _ _ => Iff.rfl
      · intro k y hy
        rcases KeyMap.Has.of_put hy with hy | hy
        · exact hy
        · obtain ⟨rfl, rfl⟩ := howes todo k y hy
          exact hx
      · intro k y hy hk
        refine KeyMap.Has.put hy ?_
        rw [hi]
        intro heq
        exact hk (howes _ k y heq).1.symm
    · rename_i hne
      refine (h.served c' client' hc' hconn).keep hat fun k y => KeyMap.has_put_iff ?_
      rw [hi]
      exact (owes_send_cons fun heq => hne heq.symm).symm

/-- A client joins with the message that is built for it. -/
theorem Messages.join (h : Messages built snapshot clients ops) (c : String)
    {msg : StatusWebsocketMessage} (hmsg : msg.ongoingIncidents = snapshot) :
    Messages built snapshot (clients.insert c { queued := [msg], ticket := built }) ops := by
  subst hmsg
  refine ⟨h.carried, fun c' client hc hconn => ?_⟩
  rw [KeyMap.lookup_insert] at hc
  split at hc
  · cases hc
    exact Relay.start (h.carried.keep id fun m y hy => hy.carried)
  · exact h.served c' client hc hconn

end Messages

theorem mem_registered {s : Sys} {order : RangeOrder Client} {c : String} {client : Client}
    (hc : s.clients[c]? = some client) (hconn : client.connected = true) :
    c ∈ s.registered order := by
  have hreg : client.registered = true := by
    rw [Client.connected, Bool.and_eq_true] at hconn
    exact hconn.1
  exact List.mem_map.mpr ⟨(c, client), List.mem_filter.mpr ⟨order.mem_visit.mpr hc, hreg⟩, rfl⟩

theorem connected_unregistered (client : Client) :
    Client.connected { client with registered := false } = false := rfl

theorem connected_done (client : Client) : Client.connected { client with done := true } = false := by
  simp [Client.connected]

/-! ## The clock -/

/-- The last snapshot was begun after the last call started, or is going to be, or no deadline lies
in between. -/
structure Timely (clock began lastStart : Time) (lastCall : String) (snoozed : Snoozes)
    (ops : KeyMap Op) : Prop where
  start_le : lastStart ≤ clock
  began_le : began ≤ clock
  reading : ∀ now, ops[lastCall]? = some (.change (.expireAt now)) → lastStart ≤ now
  fresh : lastStart ≤ began ∨ (∃ c, ops[lastCall]? = some (.change c)) ∨ AtSnapshot ops ∨
    KeyMap.All snoozed fun _ deadline => lastStart < deadline

section Timely

variable {clock began lastStart : Time} {lastCall i : String} {snoozed : Snoozes}
  {ops : KeyMap Op} {op : Op} {next : Option Op}

theorem Timely.tick (h : Timely clock began lastStart lastCall snoozed ops) (elapsed : Nat) :
    Timely (clock + elapsed) began lastStart lastCall snoozed ops where
  start_le := Int.le_trans h.start_le (Int.le_add_of_nonneg_right (Int.natCast_nonneg elapsed))
  began_le := Int.le_trans h.began_le (Int.le_add_of_nonneg_right (Int.natCast_nonneg elapsed))
  reading := h.reading
  fresh := h.fresh

/-- A section that is not the last call's own change, and begins no snapshot. -/
theorem Timely.aside (h : Timely clock began lastStart lastCall snoozed ops)
    (hi : ops[i]? = some op) (hop : op ≠ .snapshot)
    (hlast : i = lastCall → (∀ c, op ≠ .change c) ∧ ∀ c, next ≠ some (.change c)) :
    Timely clock began lastStart lastCall snoozed (KeyMap.put ops i next) where
  start_le := h.start_le
  began_le := h.began_le
  reading now hnow := by
    rw [KeyMap.lookup_put] at hnow
    split at hnow
    · rename_i heq
      exact absurd hnow ((hlast heq).2 _)
    · exact h.reading now hnow
  fresh := by
    rcases h.fresh with hf | ⟨c, hc⟩ | hf | hf
    · exact .inl hf
    · refine .inr (.inl ⟨c, ?_⟩)
      rw [KeyMap.lookup_put, if_neg, hc]
      rintro rfl
      rw [hi] at hc
      cases hc
      exact (hlast rfl).1 c rfl
    · refine .inr (.inr (.inl (KeyMap.Has.put hf ?_)))
      rw [hi]
      intro hsome
      cases op <;> simp [Op.atSnapshot] at hsome hop
    · exact .inr (.inr (.inr hf))

/-- The clock is read for the change to come. -/
theorem Timely.prepare (h : Timely clock began lastStart lastCall snoozed ops) {c c' : Change}
    (hi : ops[i]? = some (.change c)) (hc' : ∀ now, c' = .expireAt now → lastStart ≤ now) :
    Timely clock began lastStart lastCall snoozed (KeyMap.put ops i (some (.change c'))) := by
  by_cases hlast : i = lastCall
  · subst hlast
    have hget : (KeyMap.put ops i (some (.change c')))[i]? = some (.change c') := by
      rw [KeyMap.lookup_put, if_pos rfl]
    refine ⟨h.start_le, h.began_le, fun now hnow => ?_, .inr (.inl ⟨c', hget⟩)⟩
    rw [hget] at hnow
    cases hnow
    exact hc' now rfl
  · exact h.aside hi (by simp) (fun heq => absurd heq hlast)

/-- The change is not made: its write has failed, or nothing has expired. -/
theorem Timely.unchanged (h : Timely clock began lastStart lastCall snoozed ops) {c : Change}
    (hi : ops[i]? = some (.change c))
    (hdeadlines : i = lastCall → KeyMap.All snoozed fun _ deadline => lastStart < deadline) :
    Timely clock began lastStart lastCall snoozed (KeyMap.put ops i none) := by
  by_cases hlast : i = lastCall
  · refine ⟨h.start_le, h.began_le, fun now hnow => ?_, .inr (.inr (.inr (hdeadlines hlast)))⟩
    rw [KeyMap.lookup_put, if_pos hlast] at hnow
    cases hnow
  · exact h.aside hi (by simp) (fun heq => absurd heq hlast)

/-- The change is made, and the snapshot of the call is still to come. -/
theorem Timely.changed (h : Timely clock began lastStart lastCall snoozed ops) (i : String)
    (snoozed' : Snoozes) :
    Timely clock began lastStart lastCall snoozed' (KeyMap.put ops i (some .snapshot)) where
  start_le := h.start_le
  began_le := h.began_le
  reading now hnow := by
    rw [KeyMap.lookup_put] at hnow
    split at hnow
    · cases hnow
    · exact h.reading now hnow
  fresh := .inr (.inr (.inl (KeyMap.has_put rfl)))

theorem Timely.begin (h : Timely clock began lastStart lastCall snoozed ops) (i : String)
    (n : Nat) (now : Time) :
    Timely clock clock lastStart lastCall snoozed (KeyMap.put ops i (some (.read n now))) where
  start_le := h.start_le
  began_le := Int.le_refl clock
  reading now hnow := by
    rw [KeyMap.lookup_put] at hnow
    split at hnow
    · cases hnow
    · exact h.reading now hnow
  fresh := .inl h.start_le

end Timely

/-! ## Runs -/

/-- Snapshots are stored in the order in which they were begun, messages queued to a client in the
order in which they were built, and a write fails only while no deadline has passed. -/
def orderly (s : Sys) : Action → Bool
  | .run i written _ =>
    match s.ops[i]? with
    | some (.store n _) => s.stored < n
    | some (.send m _ (c :: _)) =>
      s.clients[c]?.all fun client => client.done || client.ticket ≤ m
    | some (.change _) => written || s.snoozed.toList.all fun entry => s.clock < entry.2
    | _ => true
  | _ => true

structure Inv (s : Sys) : Prop where
  snapshots : Snapshots s
  messages : Messages s.built s.snapshot s.clients s.ops
  timely : Timely s.clock s.began s.lastStart s.lastCall s.snoozed s.ops

theorem expiredKeys_nil {snoozed : Snoozes} {now : Time} (h : expiredKeys snoozed now = []) :
    KeyMap.All snoozed fun _ deadline => now < deadline := by
  intro k deadline hk
  rw [expiredKeys, List.map_eq_nil_iff, List.filter_eq_nil_iff] at h
  simpa using h (k, deadline) (KeyMap.mem_toList.mpr hk)

theorem Inv.runChange {s : Sys} (h : Inv s) {i : String} {c : Change} {written : Bool}
    (hi : s.ops[i]? = some (.change c))
    (hord : written = true ∨ KeyMap.All s.snoozed fun _ deadline => s.clock < deadline) :
    Inv { (runChange s written c).1 with
          ops := KeyMap.put s.ops i (runChange s written c).2 } := by
  -- a call that goes on without a change, or ends without one
  have hprepare : ∀ c', (∀ now, c' = .expireAt now → s.lastStart ≤ now) →
      Inv { s with ops := KeyMap.put s.ops i (some (.change c')) } := fun c' hc' =>
    ⟨h.snapshots.aside hi rfl (by simp), h.messages.before hi (by simp) rfl (some (.change c')) rfl,
      h.timely.prepare hi hc'⟩
  have hunchanged : (i = s.lastCall → KeyMap.All s.snoozed fun _ d => s.lastStart < d) →
      Inv { s with ops := KeyMap.put s.ops i none } := fun hd =>
    ⟨h.snapshots.aside hi rfl (by simp), h.messages.before hi (by simp) rfl none rfl,
      h.timely.unchanged hi hd⟩
  have hchanged : ∀ items snoozed,
      Inv { s with items, snoozed, ops := KeyMap.put s.ops i (some .snapshot) } :=
    fun items snoozed =>
    ⟨h.snapshots.change hi rfl items snoozed,
      h.messages.before hi (by simp) rfl (some .snapshot) rfl,
      h.timely.changed i snoozed⟩
  have hfailed : written ≠ true → Inv { s with ops := KeyMap.put s.ops i none } := by
    intro hw
    refine hunchanged fun _ => (hord.resolve_left hw).imp fun k d hd => ?_
    exact Int.lt_of_le_of_lt h.timely.start_le hd
  cases c with
  | update items => exact hchanged (items.filterMap id) s.snoozed
  | snooze key duration => exact hprepare _ nofun
  | snoozeUntil key deadline =>
    simp only [Legacy.runChange]
    split
    · exact hchanged s.items _
    · rename_i hw
      exact hfailed hw
  | unsnooze key =>
    simp only [Legacy.runChange]
    split
    · exact hchanged s.items _
    · rename_i hw
      exact hfailed hw
  | expire =>
    refine hprepare _ fun now hnow => ?_
    cases hnow
    exact h.timely.start_le
  | expireAt now =>
    simp only [Legacy.runChange]
    split
    · rename_i hnone
      refine hunchanged fun hlast => (expiredKeys_nil hnone).imp fun k d hd => ?_
      exact Int.lt_of_le_of_lt (h.timely.reading now (hlast ▸ hi)) hd
    · split
      · exact hchanged s.items _
      · rename_i hw
        exact hfailed hw

/-- A section of a call that has its snapshot behind it, or has none to take. -/
theorem Timely.later {s : Sys} (h : Inv s) {i : String} {op : Op} (hi : s.ops[i]? = some op)
    (next : Option Op) (hsnapshot : op ≠ .snapshot) (hop : ∀ c, op ≠ .change c)
    (hnext : ∀ c, next ≠ some (.change c)) :
    Timely s.clock s.began s.lastStart s.lastCall s.snoozed (KeyMap.put s.ops i next) :=
  h.timely.aside hi hsnapshot fun _ => ⟨hop, hnext⟩

/-- A section of a call that holds a snapshot or a message and hands on nothing. -/
theorem Inv.aside {s : Sys} (h : Inv s) {i : String} {op : Op} (hi : s.ops[i]? = some op)
    (next : Option Op)
    (hpromise : next.bind (Op.promise s.items s.snoozed) = op.promise s.items s.snoozed)
    (hcarries : ∀ y, next.bind Op.carries = some y → op.carries = some y)
    (howes : ∀ (c : String) (client : Client), s.clients[c]? = some client →
      client.connected = true → next.bind (Op.owes c) = op.owes c)
    (hsnapshot : op ≠ .snapshot) (hmessage : op ≠ .message) (hop : ∀ c, op ≠ .change c)
    (hnext : ∀ c, next ≠ some (.change c)) :
    Inv { s with ops := KeyMap.put s.ops i next } :=
  ⟨h.snapshots.aside hi hpromise hsnapshot, h.messages.aside hi next hcarries howes hmessage,
    Timely.later h hi next hsnapshot hop hnext⟩

theorem Inv.send {s : Sys} (h : Inv s) {i : String} {m : Nat} {msg : StatusWebsocketMessage}
    {todo : List String} {written : Bool} {order : RangeOrder Client}
    (hi : s.ops[i]? = some (.send m msg todo))
    (hord : ∀ c rest client, todo = c :: rest → s.clients[c]? = some client →
      client.done = true ∨ client.ticket ≤ m) :
    Inv { (runOp s written order (.send m msg todo)).1 with
          ops := KeyMap.put s.ops i (runOp s written order (.send m msg todo)).2 } := by
  cases todo with
  | nil =>
    exact h.aside hi none rfl nofun (fun _ _ _ _ => by simp [Op.owes]) nofun nofun nofun nofun
  | cons c rest =>
    -- the client is passed over
    have hskip : (∀ client, s.clients[c]? = some client → client.connected ≠ true) →
        Inv { s with ops := KeyMap.put s.ops i (some (.send m msg rest)) } := by
      intro hc
      refine h.aside hi _ rfl (fun y hy => hy) (fun c' client hc' hconn => ?_) nofun nofun nofun nofun
      refine (owes_send_cons ?_).symm
      rintro rfl
      exact hc client hc' hconn
    simp only [runOp]
    split
    · rename_i hnone
      exact hskip fun client hc => by simp [hnone] at hc
    · rename_i client hc
      split
      · rename_i hdone
        refine hskip fun client' hc' => ?_
        rw [hc] at hc'
        cases hc'
        simp [Client.connected, hdone]
      · rename_i hdone
        split
        · refine h.aside hi (some (.evict m msg c rest)) rfl (fun y hy => hy)
            (fun c' client' _ _ => ?_) nofun nofun nofun nofun
          simp [Op.owes]
        · have hticket : client.ticket ≤ m := (hord c rest client rfl hc).resolve_left hdone
          exact ⟨h.snapshots.aside hi rfl nofun, h.messages.enqueue hi hc hticket,
            Timely.later h hi (some (.send m msg rest)) nofun nofun nofun⟩

theorem Inv.runOp {s : Sys} (h : Inv s) {i : String} {op : Op} {written : Bool}
    {order : RangeOrder Client} (hi : s.ops[i]? = some op)
    (hord : orderly s (.run i written order) = true) :
    Inv { (runOp s written order op).1 with
          ops := KeyMap.put s.ops i (runOp s written order op).2 } := by
  simp only [orderly, hi] at hord
  cases op with
  | change c =>
    refine h.runChange hi ?_
    simp only [Bool.or_eq_true, List.all_eq_true, decide_eq_true_eq] at hord
    exact hord.imp_right fun hall k d hk => hall (k, d) (KeyMap.mem_toList.mpr hk)
  | snapshot =>
    exact ⟨h.snapshots.begin i,
      h.messages.before hi nofun rfl (some (.read (s.begun + 1) s.clock)) rfl,
      h.timely.begin i (s.begun + 1) s.clock⟩
  | read n now =>
    exact h.aside hi (some (.classify n now s.items {})) rfl nofun (fun _ _ _ _ => rfl)
      nofun nofun nofun nofun
  | classify n now todo acc =>
    cases todo with
    | nil =>
      exact h.aside hi (some (.store n acc)) rfl nofun (fun _ _ _ _ => rfl) nofun nofun nofun nofun
    | cons item todo =>
      exact h.aside hi (some (.classify n now todo _)) rfl nofun (fun _ _ _ _ => rfl)
        nofun nofun nofun nofun
  | store n snapshot =>
    have hlt : s.stored < n := by simpa using hord
    exact ⟨h.snapshots.store hi hlt, h.messages.change hi rfl snapshot,
      Timely.later h hi (some .message) nofun nofun nofun⟩
  | setServerStatuses statuses =>
    exact ⟨h.snapshots.aside hi rfl nofun, h.messages.change hi rfl s.snapshot,
      Timely.later h hi (some .message) nofun nofun nofun⟩
  | message =>
    exact ⟨h.snapshots.aside hi rfl nofun, h.messages.build i rfl,
      Timely.later h hi (some (.broadcast (s.built + 1) s.message)) nofun nofun nofun⟩
  | broadcast m msg =>
    refine h.aside hi (some (.send m msg (s.registered order))) rfl (fun y hy => hy)
      (fun c client hc hconn => ?_) nofun nofun nofun nofun
    simp [Op.owes, mem_registered hc hconn]
  | send m msg todo =>
    refine h.send hi ?_
    rintro c rest client rfl hc
    simpa [hc] using hord
  | evict m msg c todo =>
    refine ⟨h.snapshots.aside hi rfl nofun, ?_,
      Timely.later h hi (some (.close m msg c todo)) nofun nofun nofun⟩
    refine (h.messages.drop c connected_unregistered).aside hi (some (.close m msg c todo))
      (fun y hy => hy)
      (fun c' client hc hconn => ?_) nofun
    have hne : c' ≠ c := by
      rintro rfl
      rw [KeyMap.lookup_modify, if_pos rfl] at hc
      obtain ⟨old, -, rfl⟩ := Option.map_eq_some_iff.mp hc
      cases hconn
    simp [Op.owes, hne]
  | close m msg c todo =>
    refine ⟨h.snapshots.aside hi rfl nofun, ?_,
      Timely.later h hi (some (.send m msg todo)) nofun nofun nofun⟩
    exact (h.messages.drop c connected_done).aside hi (some (.send m msg todo)) (fun y hy => hy)
      (fun _ _ _ _ => rfl) nofun

theorem first_promise (c : Call) (items : List ItemWContext) (snoozed : Snoozes) :
    c.first.promise items snoozed = none := by
  cases c <;> rfl

theorem first_carries (c : Call) : c.first.carries = none := by
  cases c <;> rfl

theorem first_publishes {c : Call} (h : c.publishes = true) :
    (∃ d, c.first = .change d ∧ ∀ now, d ≠ .expireAt now) ∨ c.first = .snapshot := by
  cases c with
  | update items => exact .inl ⟨_, rfl, nofun⟩
  | snooze key duration => exact .inl ⟨_, rfl, nofun⟩
  | unsnooze key => exact .inl ⟨_, rfl, nofun⟩
  | expire => exact .inl ⟨_, rfl, nofun⟩
  | refresh => exact .inr rfl
  | setServerStatuses statuses => cases h

/-- A call comes in. -/
theorem Inv.call {s : Sys} (h : Inv s) {i : String} (hi : s.ops[i]? = none) (c : Call) :
    Snapshots { s with ops := s.ops.insert i c.first } ∧
      Messages s.built s.snapshot s.clients (s.ops.insert i c.first) := by
  have hsnapshot : AtSnapshot s.ops → AtSnapshot (s.ops.insert i c.first) :=
    fun hat => KeyMap.Has.put (o := some c.first) hat (by simp [hi])
  have hmessage : AtMessage s.ops → AtMessage (s.ops.insert i c.first) :=
    fun hat => KeyMap.Has.put (o := some c.first) hat (by simp [hi])
  refine ⟨Relay.keep h.snapshots hsnapshot fun n x => ?_, h.messages.carried.keep hmessage ?_, ?_⟩
  · exact KeyMap.has_put_iff (o := some c.first) (by rw [hi]; exact first_promise c _ _)
  · intro m y hy
    rcases KeyMap.Has.of_put (o := some c.first) hy with hy | hy
    · exact hy
    · exact absurd ((first_carries c).symm.trans hy) nofun
  · intro d client hd hconn
    refine (h.messages.served d client hd hconn).keep hmessage fun m y => ?_
    refine KeyMap.has_put_iff (o := some c.first) ?_
    rw [hi]
    exact owes_of_carries_none (first_carries c) d

theorem Timely.call {s : Sys} (h : Inv s) {i : String} {c : Call} (hc : c.publishes = true) :
    Timely s.clock s.began s.clock i s.snoozed (s.ops.insert i c.first) := by
  have hget : (s.ops.insert i c.first)[i]? = some c.first := by
    rw [KeyMap.lookup_insert, if_pos rfl]
  obtain ⟨d, hd, hne⟩ | hd := first_publishes hc
  · refine ⟨Int.le_refl _, h.timely.began_le, fun now hnow => ?_, .inr (.inl ⟨d, hget.trans ?_⟩)⟩
    · rw [hget, hd] at hnow
      cases hnow
      exact absurd rfl (hne now)
    · rw [hd]
  · refine ⟨Int.le_refl _, h.timely.began_le, fun now hnow => ?_, .inr (.inr (.inl ?_))⟩
    · rw [hget, hd] at hnow
      cases hnow
    · exact ⟨i, _, hget, by rw [hd]; rfl⟩

theorem Timely.call_other {s : Sys} (h : Inv s) {i : String} (hi : s.ops[i]? = none)
    (statuses : List ServerStatus) :
    Timely s.clock s.began s.lastStart s.lastCall s.snoozed
      (s.ops.insert i (.setServerStatuses statuses)) where
  start_le := h.timely.start_le
  began_le := h.timely.began_le
  reading now hnow := by
    rw [KeyMap.lookup_insert] at hnow
    split at hnow
    · cases hnow
    · exact h.timely.reading now hnow
  fresh := by
    rcases h.timely.fresh with hf | ⟨c, hc⟩ | hf | hf
    · exact .inl hf
    · refine .inr (.inl ⟨c, ?_⟩)
      rw [KeyMap.lookup_insert, if_neg, hc]
      rintro rfl
      rw [hi] at hc
      cases hc
    · exact .inr (.inr (.inl (KeyMap.Has.put (o := some _) hf (by simp [hi]))))
    · exact .inr (.inr (.inr hf))

theorem Inv.step {s s' : Sys} {a : Action} {out : List Empty} (h : Inv s)
    (hord : orderly s a = true) (hs : step s a = some (s', out)) : Inv s' := by
  cases a with
  | tick elapsed =>
    cases hs
    exact ⟨h.snapshots, h.messages, h.timely.tick elapsed⟩
  | call i c =>
    simp only [Legacy.step] at hs
    split at hs
    · cases hs
    · rename_i hi
      obtain ⟨hsnapshots, hmessages⟩ := h.call hi c
      cases hs
      split
      · rename_i hc
        exact ⟨hsnapshots, hmessages, Timely.call h hc⟩
      · rename_i hc
        cases c with
        | setServerStatuses statuses =>
          exact ⟨hsnapshots, hmessages, Timely.call_other h hi statuses⟩
        | _ => exact absurd rfl hc
  | run i written order =>
    simp only [Legacy.step] at hs
    split at hs
    · cases hs
    · rename_i op hi
      cases hs
      exact h.runOp hi hord
  | connect c =>
    simp only [Legacy.step] at hs
    split at hs
    · cases hs
    · split at hs
      · cases hs
        exact h
      · cases hs
        exact ⟨h.snapshots, h.messages.join c rfl, h.timely⟩
  | take c =>
    simp only [Legacy.step] at hs
    split at hs
    · cases hs
    · rename_i client hc
      split at hs
      · cases hs
        refine ⟨h.snapshots, h.messages.sent fun d client' hd hconn => ?_, h.timely⟩
        rw [KeyMap.lookup_insert] at hd
        split at hd
        · rename_i heq
          cases heq
          cases hd
          exact ⟨client, hc, hconn, rfl, rfl⟩
        · exact ⟨client', hd, hconn, rfl, rfl⟩
      · cases hs
  | close c =>
    cases hs
    exact ⟨h.snapshots, h.messages.drop c connected_done, h.timely⟩
  | leave c =>
    cases hs
    exact ⟨h.snapshots, h.messages.drop c connected_unregistered, h.timely⟩
  | closeClients =>
    cases hs
    refine ⟨h.snapshots, h.messages.sent fun c client hc hconn => ?_, h.timely⟩
    rw [Std.ExtTreeMap.getElem?_map] at hc
    obtain ⟨old, -, rfl⟩ := Option.map_eq_some_iff.mp hc
    cases hconn

theorem inv_init (now : Time) (snoozed : Snoozes) : Inv (publication now snoozed).init where
  snapshots := Relay.init.keep id fun n x => by simp [Promised, KeyMap.Has, publication]
  messages :=
    ⟨Readings.init.keep id fun m y hy => by simp [Carried, KeyMap.Has, publication] at hy,
      KeyMap.all_empty⟩
  timely := ⟨Int.le_refl _, Int.le_refl _, by simp [publication], .inl (Int.le_refl _)⟩

theorem inv_run {now : Time} {snoozed : Snoozes} {os : List Empty} {s : Sys}
    (h : Guarded.Path ((publication now snoozed).only fun s a => orderly s a) os s) : Inv s := by
  refine Guarded.Path.history (I := fun _ s => Inv s) ?_ ?_ h
  · exact inv_init now snoozed
  · intro os s a s' out hinv hs
    obtain ⟨hord, hs⟩ := Guarded.only_step.mp hs
    exact hinv.step hord hs

/-! ## Convergence -/

theorem classify_congr {snoozed : Snoozes} {now now' : Time}
    (h : ∀ key, snoozedUntil snoozed key now = snoozedUntil snoozed key now')
    (items : List ItemWContext) (acc : IncidentSnapshot) :
    classify snoozed now acc items = classify snoozed now' acc items := by
  induction items generalizing acc with
  | nil => rfl
  | cons item items ih =>
    simp only [classify]
    rw [h, ih]

/-- Between two instants before every deadline nothing is classified differently. -/
theorem snapshotAt_congr {snoozed : Snoozes} {now now' : Time}
    (h : KeyMap.All snoozed fun _ deadline => now < deadline ∧ now' < deadline)
    (items : List ItemWContext) : snapshotAt items snoozed now = snapshotAt items snoozed now' := by
  refine classify_congr (fun key => ?_) items {}
  unfold snoozedUntil
  cases hk : snoozed[key]? with
  | none => rfl
  | some deadline =>
    obtain ⟨h1, h2⟩ := h key deadline hk
    simp [Option.filter, h1, h2]

/-- The snapshot begun last is what should be shown at some instant after the last call started. -/
theorem Timely.classified {s : Sys} (h : Inv s) (hquiet : ∀ i : String, s.ops[i]? = none) :
    ∃ now, s.lastStart ≤ now ∧ now ≤ s.clock ∧
      snapshotAt s.items s.snoozed s.began = snapshotAt s.items s.snoozed now := by
  by_cases hbegan : s.lastStart ≤ s.began
  · exact ⟨s.began, hbegan, h.timely.began_le, rfl⟩
  · refine ⟨s.lastStart, Int.le_refl _, h.timely.start_le, ?_⟩
    rcases h.timely.fresh with hf | ⟨c, hc⟩ | ⟨i, op, hi, -⟩ | hf
    · exact absurd hf hbegan
    · rw [hquiet] at hc
      cases hc
    · rw [hquiet] at hi
      cases hi
    · refine snapshotAt_congr (fun k d hk => ⟨?_, hf k d hk⟩) s.items
      exact Int.lt_trans (Int.not_le.mp hbegan) (hf k d hk)

/-- **Publication converges.** Once every call has returned, the stored snapshot and the last
message of every connected client classify the current incidents by the current deadlines, at an
instant not before the start of the last call, if every step was orderly. -/
theorem publication_converges (now : Time) (snoozed : Snoozes) {os : List Empty} {s : Sys}
    (h : Guarded.Path ((publication now snoozed).only fun s a => orderly s a) os s)
    (hquiet : ∀ i : String, s.ops[i]? = none) :
    ∃ t, s.lastStart ≤ t ∧ t ≤ s.clock ∧ s.snapshot = snapshotAt s.items s.snoozed t ∧
      ∀ (c : String) (client : Client), s.clients[c]? = some client → client.connected = true →
        client.last = some (snapshotAt s.items s.snoozed t) := by
  have hinv := inv_run h
  have hnone : ∀ {γ : Type} {f : Op → Option γ} {y : γ}, ¬ KeyMap.Has s.ops f y := by
    rintro γ f y ⟨i, op, hi, -⟩
    rw [hquiet] at hi
    cases hi
  have hsnapshot := hinv.snapshots.settled hnone fun _ _ => hnone
  obtain ⟨t, hstart, hclock, heq⟩ := Timely.classified hinv hquiet
  refine ⟨t, hstart, hclock, hsnapshot.trans heq, fun c client hc hconn => ?_⟩
  have hlast := (hinv.messages.served c client hc hconn).settled hnone fun _ _ => hnone
  rw [hlast, hsnapshot, heq]

def diskFull : ItemWContext :=
  { key := "db.disk.root", state := .error, details := "full", incidentStartedAt := 3 }

def inKeyOrder : RangeOrder Client := .sorted _

def runs (n : Nat) (i : String) : List Action := List.replicate n (.run i true inKeyOrder)

/-- A page is open, the disk of `db` fills up, and the incident is snoozed; one call after the
other. -/
def inTurn : List Action :=
  [.connect "page", .call "combiner" (.update [some diskFull])] ++ runs 10 "combiner" ++
    [.call "http" (.snooze "db.disk.root" 900)] ++ runs 11 "http"

theorem publication_converges_inTurn :
    ∃ os s, Guarded.Path ((publication 5 ∅).only fun s a => orderly s a) os s ∧
      s.items = [diskFull] ∧ s.snoozed["db.disk.root"]? = some 905 ∧
      s.clients["page"]?.map Client.connected = some true ∧
      ∃ t, s.lastStart ≤ t ∧ t ≤ s.clock ∧ s.snapshot = snapshotAt s.items s.snoozed t ∧
        ∀ (c : String) (client : Client), s.clients[c]? = some client → client.connected = true →
          client.last = some (snapshotAt s.items s.snoozed t) := by
  obtain ⟨os, s, hpath, hp⟩ := Guarded.exists_path
    (G := (publication 5 ∅).only fun s a => orderly s a) (a := inTurn)
    (p := fun r => r.2.ops.isEmpty && r.2.items = [diskFull] &&
      r.2.snoozed["db.disk.root"]? = some 905 &&
      r.2.clients["page"]?.map Client.connected = some true) (by decide)
  simp only [Bool.and_eq_true, decide_eq_true_eq, and_assoc] at hp
  obtain ⟨hquiet, hitems, hsnoozed, hpage⟩ := hp
  refine ⟨os, s, hpath, hitems, hsnoozed, hpage, publication_converges 5 ∅ hpath fun i => ?_⟩
  rw [Std.ExtTreeMap.isEmpty_iff] at hquiet
  simp [hquiet]

/-- The same, but the combiner is about to store its snapshot when the incident is snoozed. -/
def overtaken : List Action :=
  [.connect "page", .call "combiner" (.update [some diskFull])] ++ runs 5 "combiner" ++
    [.call "http" (.snooze "db.disk.root" 900)] ++ runs 11 "http" ++ runs 5 "combiner"

/-- Everything has returned, the incident is snoozed, and it is shown as alerting. -/
theorem publication_overtaken :
    ∃ os s, Guarded.Path (publication 5 ∅) os s ∧ s.ops.isEmpty = true ∧ s.items = [diskFull] ∧
      s.lastStart = 5 ∧ s.clock = 5 ∧ s.snoozed["db.disk.root"]? = some 905 ∧
      s.snapshot = { alerting := [diskFull], snoozed := [] } ∧
      s.clients["page"]?.map (fun client => (client.connected, client.last)) =
        some (true, some { alerting := [diskFull], snoozed := [] }) ∧
      (snapshotAt s.items s.snoozed 5).alerting = [] := by
  obtain ⟨os, s, hpath, hp⟩ := Guarded.exists_path (G := publication 5 ∅) (a := overtaken)
    (p := fun r => r.2.ops.isEmpty && r.2.items = [diskFull] && r.2.lastStart = 5 &&
      r.2.clock = 5 &&
      r.2.snoozed["db.disk.root"]? = some 905 &&
      r.2.snapshot = { alerting := [diskFull], snoozed := [] } &&
      r.2.clients["page"]?.map (fun client => (client.connected, client.last)) =
        some (true, some { alerting := [diskFull], snoozed := [] }) &&
      (snapshotAt r.2.items r.2.snoozed 5).alerting = []) (by decide)
  simp only [Bool.and_eq_true, decide_eq_true_eq, and_assoc] at hp
  exact ⟨os, s, hpath, hp⟩

end Legacy
end Montray
