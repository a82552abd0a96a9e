import Montray.Server.Fanout

/-!
# Montray.Server.FanoutClient

One client of the fan-out: what has been written to it, what its send loop has in hand, and its
queue.

* `Client.step_move`: the moves a client can make.
* `Client.Move.line`: a move neither reorders nor drops nor repeats an update.
* `Client.Move.told`: the totals a client was sent stay those of its snapshot and its updates.
-/

namespace Montray
namespace Fanout

open Lib

/-! ## What is written to a client -/

def Message.update? : Message → Option Numbered
  | .update u => some u
  | _ => none

def Message.total? : Message → Option (List ItemWContext)
  | .snapshot _ total => some total
  | .update u => some u.notif.ongoingIncidents.total
  | .heartbeat => none

/-- The messages written to the client `id`. -/
def sentTo (os : List (Nat × Message)) (id : Nat) : List Message :=
  (os.filter fun w => w.1 = id).map Prod.snd

/-- The updates written to the client `id`. -/
def written (os : List (Nat × Message)) (id : Nat) : List Numbered :=
  (sentTo os id).filterMap Message.update?

/-- The last total that the client `id` was sent. -/
def lastTotal (os : List (Nat × Message)) (id : Nat) : Option (List ItemWContext) :=
  ((sentTo os id).filterMap Message.total?).getLast?

theorem sentTo_append_self (os : List (Nat × Message)) (id : Nat) (out : List Message) :
    sentTo (os ++ out.map fun m => (id, m)) id = sentTo os id ++ out := by
  simp [sentTo, List.filter_map, Function.comp_def]

theorem sentTo_append_other (os : List (Nat × Message)) {id id' : Nat} (h : id ≠ id')
    (out : List Message) : sentTo (os ++ out.map fun m => (id, m)) id' = sentTo os id' := by
  simp [sentTo, List.filter_map, Function.comp_def, h]

theorem sentTo_fresh {os : List (Nat × Message)} {id : Nat} (h : ∀ w ∈ os, w.1 < id) :
    sentTo os id = [] := by
  unfold sentTo
  rw [List.map_eq_nil_iff, List.filter_eq_nil_iff]
  intro w hw
  have := h w hw
  simp only [decide_eq_true_eq]
  omega

/-! ## One client -/

/-- The notification that the send loop has taken from the queue and not written. -/
def Client.hand (c : Client) : List Numbered :=
  match c.tx with
  | .writing u => [u]
  | .removing lost => lost
  | .cancelling lost => lost
  | .done lost => lost
  | _ => []

/-- What one step of a client's loops can do. -/
inductive Client.Move (seq : Nat) (board : List ItemWContext) (c : Client) :
    Client → List Message → Prop where
  | rxEnd (hrx : c.rx = .reading) : Client.Move seq board c { c with rx := .removing } []
  | rxRemove (hrx : c.rx = .removing) : Client.Move seq board c
      { c with subscribed := false, rx := if c.subscribed then .cancelling else .done } []
  | rxCancel (hrx : c.rx = .cancelling) : Client.Move seq board c { c.cancel with rx := .done } []
  | txGet (htx : c.tx = .start) : Client.Move seq board c
      { c with tx := .snapshot seq board, taken := some seq } []
  | txSnapshot (i : Nat) (total : List ItemWContext) (htx : c.tx = .snapshot i total) :
      Client.Move seq board c { c with tx := .select } [.snapshot i total]
  | txTake (u : Numbered) (rest : List Numbered) (htx : c.tx = .select)
      (hqueue : c.queue = u :: rest) :
      Client.Move seq board c { c with tx := .writing u, queue := rest } []
  | txWrite (u : Numbered) (htx : c.tx = .writing u) :
      Client.Move seq board c { c with tx := .select } [.update u]
  | txHeartbeat (htx : c.tx = .select) : Client.Move seq board c c [.heartbeat]
  | txEnd (htx : c.tx ≠ .start) : Client.Move seq board c { c with tx := .removing c.hand } []
  | txRemove (lost : List Numbered) (htx : c.tx = .removing lost) : Client.Move seq board c
      { c with subscribed := false,
               tx := if c.subscribed then .cancelling lost else .done lost } []
  | txCancel (lost : List Numbered) (htx : c.tx = .cancelling lost) :
      Client.Move seq board c { c.cancel with tx := .done lost } []

theorem Client.step_move {seq : Nat} {board : List ItemWContext} {c c' : Client}
    {a : ClientAction} {out : List Message} (h : c.step seq board a = some (c', out)) :
    Client.Move seq board c c' out := by
  cases a with
  | rxEnd =>
    simp only [Client.step] at h
    split at h
    · rename_i hrx; cases h; exact .rxEnd hrx
    · cases h
  | rxRemove =>
    simp only [Client.step] at h
    split at h
    · rename_i hrx; cases h; exact .rxRemove hrx
    · cases h
  | rxCancel =>
    simp only [Client.step] at h
    split at h
    · rename_i hrx; cases h; exact .rxCancel hrx
    · cases h
  | txGet =>
    simp only [Client.step] at h
    split at h
    · rename_i htx; cases h; exact .txGet htx
    · cases h
  | txSnapshot success =>
    simp only [Client.step] at h
    split at h
    · rename_i i total htx
      split at h
      · cases h; exact .txSnapshot i total htx
      · cases h
        have hhand : c.hand = [] := by simp [Client.hand, htx]
        exact hhand ▸ .txEnd (by simp [htx])
    · cases h
  | txDone =>
    simp only [Client.step] at h
    split at h
    · rename_i htx
      split at h
      · cases h
        have hhand : c.hand = [] := by simp [Client.hand, htx]
        exact hhand ▸ .txEnd (by simp [htx])
      · cases h
    · cases h
  | txTake =>
    simp only [Client.step] at h
    split at h
    · rename_i u rest htx hqueue; cases h; exact .txTake u rest htx hqueue
    · cases h
  | txWrite success =>
    simp only [Client.step] at h
    split at h
    · rename_i u htx
      split at h
      · cases h; exact .txWrite u htx
      · cases h
        have hhand : c.hand = [u] := by simp [Client.hand, htx]
        exact hhand ▸ .txEnd (by simp [htx])
    · cases h
  | txHeartbeat success =>
    simp only [Client.step] at h
    split at h
    · rename_i htx
      split at h
      · cases h; exact .txHeartbeat htx
      · cases h
        have hhand : c.hand = [] := by simp [Client.hand, htx]
        exact hhand ▸ .txEnd (by simp [htx])
    · cases h
  | txRemove =>
    simp only [Client.step] at h
    split at h
    · rename_i lost htx; cases h; exact .txRemove lost htx
    · cases h
  | txCancel =>
    simp only [Client.step] at h
    split at h
    · rename_i lost htx; cases h; exact .txCancel lost htx
    · cases h

section ClientMoves

variable {seq : Nat} {board : List ItemWContext} {c c' : Client} {out : List Message}

/-- No step of a client reorders, drops or repeats an update. -/
theorem Client.Move.line (h : Client.Move seq board c c' out) :
    out.filterMap Message.update? ++ c'.hand ++ c'.queue = c.hand ++ c.queue ∧
      c'.base = c.base := by
  cases h with
  | rxEnd hrx => exact ⟨rfl, rfl⟩
  | rxRemove hrx => exact ⟨rfl, rfl⟩
  | rxCancel hrx => exact ⟨rfl, rfl⟩
  | txGet htx => simp [Client.hand, htx]
  | txSnapshot i total htx => simp [Client.hand, htx, Message.update?]
  | txTake u rest htx hqueue => simp [Client.hand, htx, hqueue]
  | txWrite u htx => simp [Client.hand, htx, Message.update?]
  | txHeartbeat htx => simp [Message.update?]
  | txEnd htx => exact ⟨rfl, rfl⟩
  | txRemove lost htx =>
    refine ⟨?_, rfl⟩
    cases c.subscribed <;> simp [Client.hand, htx]
  | txCancel lost htx =>
    refine ⟨?_, rfl⟩
    simp [Client.hand, Client.cancel, htx]

/-- A subscription is never taken up again, and its context is cancelled only after it ended. -/
structure Client.Gone (c : Client) : Prop where
  ctx : c.ctxDone → c.subscribed = false
  rx : c.rx = .cancelling → c.subscribed = false
  tx : ∀ lost, c.tx = .cancelling lost → c.subscribed = false

theorem Client.Move.gone (h : Client.Move seq board c c' out) (hc : c.Gone) :
    c'.Gone ∧ (c'.subscribed → c.subscribed) := by
  cases h with
  | rxEnd hrx => exact ⟨⟨hc.ctx, by simp, hc.tx⟩, id⟩
  | rxRemove hrx => exact ⟨⟨fun _ => rfl, fun _ => rfl, fun _ _ => rfl⟩, by simp⟩
  | rxCancel hrx =>
    have hsub := hc.rx hrx
    exact ⟨⟨fun _ => hsub, fun _ => hsub, fun _ _ => hsub⟩, id⟩
  | txGet htx => exact ⟨⟨hc.ctx, hc.rx, by simp⟩, id⟩
  | txSnapshot i total htx => exact ⟨⟨hc.ctx, hc.rx, by simp⟩, id⟩
  | txTake u rest htx hqueue => exact ⟨⟨hc.ctx, hc.rx, by simp⟩, id⟩
  | txWrite u htx => exact ⟨⟨hc.ctx, hc.rx, by simp⟩, id⟩
  | txHeartbeat htx => exact ⟨hc, id⟩
  | txEnd htx => exact ⟨⟨hc.ctx, hc.rx, by simp⟩, id⟩
  | txRemove lost htx => exact ⟨⟨fun _ => rfl, fun _ => rfl, fun _ _ => rfl⟩, by simp⟩
  | txCancel lost htx =>
    have hsub := hc.tx lost htx
    exact ⟨⟨fun _ => hsub, fun _ => hsub, fun _ _ => hsub⟩, id⟩

/-- What the board holds once notification `i` has been set. -/
def totalAt (produced : List Numbered) (i : Nat) : List ItemWContext :=
  ((produced.take i).getLast?.map (·.notif.ongoingIncidents.total)).getD []

theorem totalAt_prefix {produced produced' : List Numbered} (h : produced <+: produced') {i : Nat}
    (hi : i ≤ produced.length) : totalAt produced' i = totalAt produced i := by
  obtain ⟨more, rfl⟩ := h
  rw [totalAt, totalAt, List.take_append_of_le_length hi]

/-- The totals a client has been sent: nothing before the snapshot, then the snapshot and the
totals of the updates. -/
structure Client.Told (produced : List Numbered) (msgs : List Message) (c : Client) : Prop where
  taken : ∀ i, c.taken = some i → c.base ≤ i ∧ i ≤ produced.length
  start : c.tx = .start → msgs.filterMap Message.total? = []
  snapshot : ∀ i total, c.tx = .snapshot i total →
    c.taken = some i ∧ total = totalAt produced i ∧ msgs.filterMap Message.total? = []
  totals : msgs.filterMap Message.total? = [] ∨ ∃ i, c.taken = some i ∧
    msgs.filterMap Message.total? = totalAt produced i ::
      (msgs.filterMap Message.update?).map (·.notif.ongoingIncidents.total)
  sent : (c.tx = .select ∨ ∃ u, c.tx = .writing u) → msgs.filterMap Message.total? ≠ []

theorem updates_nil {msgs : List Message} (h : msgs.filterMap Message.total? = []) :
    msgs.filterMap Message.update? = [] := by
  rw [List.filterMap_eq_nil_iff] at h ⊢
  intro m hm
  have := h m hm
  cases m with
  | snapshot i total => rfl
  | update u => cases this
  | heartbeat => rfl

theorem Client.Told.opened {produced : List Numbered} {msgs : List Message} {c : Client}
    (h : c.Told produced msgs) (htx : c.tx = .select ∨ ∃ u, c.tx = .writing u) :
    ∃ i, c.taken = some i ∧ msgs.filterMap Message.total? = totalAt produced i ::
      (msgs.filterMap Message.update?).map (·.notif.ongoingIncidents.total) :=
  h.totals.resolve_left (h.sent htx)

theorem Client.Told.mono {produced produced' : List Numbered} {msgs : List Message} {c : Client}
    (h : c.Told produced msgs) (hp : produced <+: produced') : c.Told produced' msgs := by
  have hlen := hp.length_le
  refine ⟨?_, h.start, ?_, ?_, h.sent⟩
  · intro i hi
    obtain ⟨h1, h2⟩ := h.taken i hi
    exact ⟨h1, by omega⟩
  · intro i total htx
    obtain ⟨h1, h2, h3⟩ := h.snapshot i total htx
    exact ⟨h1, by rw [h2, totalAt_prefix hp (h.taken i h1).2], h3⟩
  · refine h.totals.imp id ?_
    rintro ⟨i, h1, h2⟩
    exact ⟨i, h1, by rw [h2, totalAt_prefix hp (h.taken i h1).2]⟩

theorem Client.Move.told {produced : List Numbered} {msgs : List Message}
    (h : Client.Move produced.length (totalAt produced produced.length) c c' out)
    (hc : c.Told produced msgs) (hbase : c.base ≤ produced.length) :
    c'.Told produced (msgs ++ out) := by
  cases h with
  | rxEnd hrx =>
    rw [List.append_nil]
    exact ⟨hc.taken, hc.start, hc.snapshot, hc.totals, hc.sent⟩
  | rxRemove hrx =>
    rw [List.append_nil]
    exact ⟨hc.taken, hc.start, hc.snapshot, hc.totals, hc.sent⟩
  | rxCancel hrx =>
    rw [List.append_nil]
    exact ⟨hc.taken, hc.start, hc.snapshot, hc.totals, hc.sent⟩
  | txGet htx =>
    refine ⟨?_, by simp, ?_, .inl ?_, by simp⟩
    · rintro i ⟨⟩
      exact ⟨hbase, Nat.le_refl _⟩
    · rintro i total ⟨⟩
      simpa using hc.start htx
    · simpa using hc.start htx
  | txSnapshot i total htx =>
    obtain ⟨h1, h2, h3⟩ := hc.snapshot i total htx
    refine ⟨hc.taken, by simp, by simp, .inr ⟨i, h1, ?_⟩, fun _ => ?_⟩
    · simp [h2, h3, updates_nil h3, Message.total?, Message.update?]
    · simp [Message.total?]
  | txTake u rest htx hqueue =>
    rw [List.append_nil]
    exact ⟨hc.taken, by simp, by simp, hc.totals, fun _ => hc.sent (.inl htx)⟩
  | txWrite u htx =>
    obtain ⟨i, h1, h2⟩ := hc.opened (.inr ⟨u, htx⟩)
    refine ⟨hc.taken, by simp, by simp, .inr ⟨i, h1, ?_⟩, fun _ => ?_⟩
    · simp [h2, Message.total?, Message.update?]
    · simp [Message.total?]
  | txHeartbeat htx =>
    obtain ⟨i, h1, h2⟩ := hc.opened (.inl htx)
    refine ⟨hc.taken, by simp [htx], by simp [htx], .inr ⟨i, h1, ?_⟩, fun _ => ?_⟩
    · simp [h2, List.filterMap_cons, Message.total?, Message.update?]
    · simp [h2]
  | txEnd htx =>
    rw [List.append_nil]
    exact ⟨hc.taken, by simp, by simp, hc.totals, by simp⟩
  | txRemove lost htx =>
    rw [List.append_nil]
    refine ⟨hc.taken, ?_, ?_, hc.totals, ?_⟩
    · cases c.subscribed <;> simp
    · cases c.subscribed <;> simp
    · cases c.subscribed <;> simp
  | txCancel lost htx =>
    rw [List.append_nil]
    exact ⟨hc.taken, by simp, by simp, hc.totals, by simp⟩

end ClientMoves

end Fanout
end Montray
