import Montray.Server.FanoutInv

/-!
# Montray.Server.FanoutProofs

No client misses an update, in any interleaving.

* `InFlight`: an update that is on its way to a client, outside the client's queue.
* `fanout_never_loses`: the statement about what is written.
-/

namespace Montray
namespace Fanout

open Lib

/-! ## What a client sees -/

/-- A notification that has been set on the board is still on its way to the client `id`, outside
the client's own queue. -/
def InFlight (s : Sys) (id : Nat) : Prop :=
  (∃ u, s.core = .sending u) ∨ s.notificationsChan ≠ [] ∨ (∃ u, s.web = .received u) ∨
    id ∈ s.web.pending ∨ (s.clients id).hand ≠ []

theorem consecutive_left {l l' : List Numbered} {a : Nat}
    (h : (l ++ l').map (·.seq) = List.range' a (l ++ l').length) :
    l.map (·.seq) = List.range' a l.length := by
  have := congrArg (List.take l.length) h
  rw [List.length_append, ← List.range'_append_1, List.map_append,
    List.take_left' (List.length_map _), List.take_left' List.length_range'] at this
  exact this

theorem consecutive_last {l : List Numbered} {u : Numbered} {a : Nat}
    (h : (l ++ [u]).map (·.seq) = List.range' a (l ++ [u]).length) : u.seq = a + l.length := by
  rw [List.length_append, List.length_singleton, List.range'_1_concat, List.map_append] at h
  have := List.append_inj_right' h rfl
  simpa using this

/-- The notification with the highest number is the last one produced. -/
theorem totalAt_last {produced : List Numbered}
    (hnum : produced.map (·.seq) = List.range' 1 produced.length) {u : Numbered}
    (hu : u ∈ produced) (hseq : u.seq = produced.length) :
    totalAt produced produced.length = u.notif.ongoingIncidents.total := by
  rcases List.eq_nil_or_concat' produced with rfl | ⟨init, v, rfl⟩
  · cases hu
  · have huv : u = v := by
      rcases List.mem_append.mp hu with hu | hu
      · have hmem : u.seq ∈ init.map (·.seq) := List.mem_map_of_mem hu
        rw [consecutive_left hnum, List.mem_range'_1] at hmem
        rw [List.length_append, List.length_singleton] at hseq
        omega
      · exact List.mem_singleton.mp hu
    rw [totalAt, List.take_of_length_le (Nat.le_refl _), List.getLast?_concat, huv]
    rfl

theorem settled {s : Sys} {id : Nat} (h : SysInv s) (hflight : ¬ InFlight s id) :
    s.copied = s.produced.length := by
  simp only [InFlight, not_or, not_not] at hflight
  obtain ⟨hcore, hchan, hweb, _⟩ := hflight
  have hcount := h.count
  have hholds : s.core.holds = 0 := by
    cases hc : s.core with
    | sending u => exact absurd ⟨u, hc⟩ hcore
    | _ => rfl
  have hcopied : s.copied = s.received := by
    unfold Sys.copied
    split
    · rename_i u hu
      exact absurd ⟨u, hu⟩ hweb
    · rfl
  rw [hchan, hholds] at hcount
  rw [hcopied, hcount]
  rfl

/-- The last total a settled client was sent is the board. -/
theorem lastTotal_settled {os : List (Nat × Message)} {s : Sys} {id : Nat} (h : Inv os s)
    (hsub : (s.clients id).subscribed) (hqueue : (s.clients id).queue = [])
    (hflight : ¬ InFlight s id) {total : List ItemWContext} (hlast : lastTotal os id = some total) :
    total = s.board := by
  have hc := h.client id
  have hpend : id ∉ s.web.pending := fun hmem => hflight (.inr (.inr (.inr (.inl hmem))))
  have hhand : (s.clients id).hand = [] :=
    by_contra fun hne => hflight (.inr (.inr (.inr (.inr hne))))
  have hline : lineOf os s id = written os id := by
    simp [lineOf, hqueue, hhand]
  have hserved := hc.served hsub hpend
  have hseq := hc.line
  have hmem := hc.mem
  rw [hline, settled h.sys hflight] at hserved
  rw [hline] at hseq hmem
  have hsent : (sentTo os id).filterMap Message.total? ≠ [] := by
    intro hnil
    rw [lastTotal, hnil] at hlast
    cases hlast
  obtain ⟨i, hi, htotals⟩ := hc.told.totals.resolve_left hsent
  obtain ⟨hbase, hle⟩ := hc.told.taken i hi
  suffices heq : lastTotal os id = some s.board from Option.some.inj (hlast.symm.trans heq)
  rw [lastTotal, htotals, h.sys.board]
  rcases List.eq_nil_or_concat' (written os id) with hnil | ⟨init, u, hconcat⟩
  · -- no update since the snapshot, so the snapshot is as recent as the board
    have hi' : i = s.produced.length := by
      rw [hnil] at hserved
      simp only [List.length_nil] at hserved
      omega
    rw [show (sentTo os id).filterMap Message.update? = [] from hnil, hi']
    rfl
  · rw [hconcat] at hseq hserved
    have hu : u.seq = s.produced.length := by
      have := consecutive_last hseq
      rw [List.length_append, List.length_singleton] at hserved
      omega
    rw [totalAt_last h.sys.numbered (hmem u (by simp [hconcat])) hu,
      show (sentTo os id).filterMap Message.update? = init ++ [u] from hconcat,
      List.map_append, ← List.cons_append]
    exact List.getLast?_concat

theorem lastTotal_select {os : List (Nat × Message)} {s : Sys} {id : Nat} (h : Inv os s)
    (htx : (s.clients id).tx = .select) : (lastTotal os id).isSome := by
  rw [lastTotal, List.getLast?_isSome]
  exact (h.client id).told.sent (.inl htx)

/-- **Fan-out never loses an update.** The snapshot of the client was taken with the board at `i`.
In the select of the send loop the snapshot has been written and no write has failed. -/
theorem fanout_never_loses {os : List (Nat × Message)} {s : Sys} (h : Guarded.Path fanout os s)
    (id i : Nat) (htaken : (s.clients id).taken = some i) :
    s.produced.map (·.seq) = List.range' 1 s.produced.length ∧
    (∀ u ∈ written os id, u ∈ s.produced) ∧
    (∃ j, j ≤ i + 1 ∧ (written os id).map (·.seq) = List.range' j (written os id).length) ∧
    ((s.clients id).subscribed → (s.clients id).queue = [] → ¬ InFlight s id →
      ∀ total, lastTotal os id = some total → total = s.board) ∧
    ((s.clients id).tx = .select → (lastTotal os id).isSome) := by
  have hinv := inv_path h
  have hc := hinv.client id
  refine ⟨hinv.sys.numbered, ?_, ?_,
    fun hsub hqueue hflight total => lastTotal_settled hinv hsub hqueue hflight,
    lastTotal_select hinv⟩
  · intro u hu
    exact hc.mem u (List.mem_append_left _ (List.mem_append_left _ hu))
  · obtain ⟨hbase, _⟩ := hc.told.taken i htaken
    refine ⟨(s.clients id).base + 1, by omega, ?_⟩
    have hline := hc.line
    rw [lineOf, List.append_assoc] at hline
    exact consecutive_left hline

/-- A client subscribes before notification 1, takes its snapshot after it was set on the board,
and is then sent the notification once more. -/
def sampleRun : List Action :=
  let incident : ItemWContext := { key := "a", state := .error, details := "down" }
  [.subscribe, .feed ⟨5, ⟨[incident], [incident], [], [], 0⟩⟩, .boardSet, .client 0 .txGet,
    .client 0 (.txSnapshot true), .send, .receive, .copy [0], .check, .enqueue, .finish,
    .delivered, .client 0 .txTake, .client 0 (.txWrite true)]

theorem fanout_never_loses_sample : ∃ os s, Guarded.Path fanout os s ∧
    (s.clients 0).taken = some 1 ∧ (written os 0).map (·.seq) = [1] ∧
    lastTotal os 0 = some s.board := by
  have hrun : ((fanout.exec ([], fanout.init) sampleRun).map fun r =>
      ((r.2.clients 0).taken, (written r.1 0).map (·.seq), (r.2.clients 0).subscribed,
        (r.2.clients 0).tx, (r.2.clients 0).queue, r.2.core, r.2.notificationsChan, r.2.web)) =
      some (some 1, [1], true, .select, [], .idle, [], .idle) := by rfl
  obtain ⟨⟨os, s⟩, hexec, heq⟩ := Option.map_eq_some_iff.mp hrun
  simp only [Prod.mk.injEq] at heq
  obtain ⟨htaken, hwritten, hsub, htx, hqueue, hcore, hchan, hweb⟩ := heq
  have hpath : Guarded.Path fanout os s := Guarded.Path.nil.exec hexec
  refine ⟨os, s, hpath, htaken, hwritten, ?_⟩
  obtain ⟨_, _, _, hsettled, hsome⟩ := fanout_never_loses hpath 0 1 htaken
  obtain ⟨total, htotal⟩ := Option.isSome_iff_exists.mp (hsome htx)
  have hflight : ¬ InFlight s 0 := by
    simp [InFlight, hcore, hchan, hweb, WebPc.pending, Client.hand, htx]
  rw [htotal, hsettled hsub hqueue hflight total htotal]

end Fanout
end Montray
