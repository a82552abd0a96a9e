import Montray.Server.ShutdownProofs
import Montray.Lib.Sequences

/-!
# Montray.Server.ShutdownProgress

`Core.close` returns. The steps that do not wait for something from outside use up a measure, so the
goroutines cannot take them forever; and as long as `Core.close` has begun and not returned there is
one that can be taken.

* `Server.rank`: what there is still to do, counted in steps.
* `rank_step`: a step of the server's own goroutines makes it smaller.
* `step_enabled`: `Core.close` never waits for a goroutine that cannot go on.
* `close_returns`: so it returns, whatever the order of the steps.
-/

namespace Montray
namespace Shutdown

open Lib

/-! ## The measure -/

section Rank

variable (msgrs : Nat)

/-- Every sender takes up to three steps, the messenger two for what it is sent. -/
def updateCost : Nat := 5 * msgrs + 3

def textCost : Nat := updateCost msgrs + 3

def ExecPc.rank : ExecPc → Nat
  | .command => updateCost msgrs + 3
  | .sending _ => updateCost msgrs + 2
  | .waiting => 1
  | .done => 0

def ProviderPc.rank : ProviderPc → Nat
  | .select => 3
  | .sending _ => textCost msgrs + 4
  | .closing => 2
  | .closed => 1
  | .done => 0

def LoopPc.rank : LoopPc → Nat
  | .select => 1
  | .handling _ => updateCost msgrs + 3
  | .sending _ => updateCost msgrs + 2
  | .done => 0

def Collector.rank : Collector → Nat
  | .exec c => c.pc.rank msgrs
  | .systemd c =>
    c.provider.rank msgrs + c.loop.rank msgrs + textCost msgrs * c.providerUpdCh.length

def SendPc.rank : SendPc → Nat
  | .start => 5
  | .trying => 4
  | .blocked => 3
  | .done => 0

def CorePc.rank : CorePc → Nat
  | .recv => 1
  | .feed _ => updateCost msgrs
  | .send _ senders => 2 + ∑ j ∈ Finset.range msgrs, (senders j).rank
  | .done => 0

def RangePc.rank : RangePc → Nat
  | .recv => 2
  | .handling _ => 3
  | .leaving => 1
  | .done => 0

def MessengerKind.rank : MessengerKind → Nat
  | .webserver .serving => 1
  | _ => 0

def Messenger.rank (x : Messenger) : Nat :=
  x.kind.rank + x.pc.rank + 2 * x.notificationsChan.length

def Closer.rank (colls : Nat) : Closer → Nat
  | .idle => 4 * colls + 2 * msgrs + 4
  | .teardown i => 4 * (colls - i) + 2 * msgrs + 3
  | .stop i => 4 * (colls - i) + 2 * msgrs + 2
  | .awaitProvider i => 4 * (colls - i) + 2 * msgrs + 1
  | .await i => 4 * (colls - i) + 2 * msgrs
  | .shutdown => 2 * msgrs + 3
  | .closeUpdates => 2 * msgrs + 2
  | .awaitRun => 2 * msgrs + 1
  | .closeMessenger j => 2 * (msgrs - j)
  | .awaitMessenger j => 2 * (msgrs - j) - 1
  | .returned => 0

def Server.rank (colls : Nat) (s : Server) : Nat :=
  ∑ i ∈ Finset.range colls, (s.collectors i).rank msgrs + updateCost msgrs * s.updCh.length +
    s.core.rank msgrs + ∑ j ∈ Finset.range msgrs, (s.messengers j).rank +
    s.closer.rank msgrs colls

end Rank

/-- A step that does not wait for a timer or for systemd. `Close` cancels the command of an exec
collector, so its end is one. -/
def Action.isLocal : Action → Bool
  | .collector _ (.exec .ticked) => false
  | .collector _ (.systemd (.polled _)) => false
  | .collector _ (.systemd (.ready _)) => false
  | _ => true

/-! ## Local steps use it up -/

section Steps

variable {colls msgrs : Nat} {s s' : Server} {out : List Out}

theorem ExecCollector.rank_step {c c' : ExecCollector} {a : ExecAction} {sent : Option Update}
    (ha : a ≠ .ticked) (hs : c.step a = some (c', sent)) :
    (Collector.exec c').rank msgrs + updateCost msgrs * sent.toList.length <
      (Collector.exec c).rank msgrs := by
  cases a with
  | ran u =>
    simp only [ExecCollector.step] at hs
    split at hs <;> cases hs
    rename_i hpc
    simp [Collector.rank, hpc, ExecPc.rank]
  | sent =>
    simp only [ExecCollector.step] at hs
    split at hs <;> cases hs
    rename_i hpc
    simp only [Collector.rank, hpc, ExecPc.rank, Option.toList_some, List.length_singleton]
    omega
  | ticked => exact absurd rfl ha
  | tornDown =>
    simp only [ExecCollector.step] at hs
    split at hs
    · rename_i hpc
      split at hs <;> cases hs
      simp [Collector.rank, hpc, ExecPc.rank]
    · rename_i hpc
      split at hs <;> cases hs
      simp [Collector.rank, hpc, ExecPc.rank]
    · cases hs

variable (msgrs) in
theorem SystemdCollector.rank_publish (c : SystemdCollector) (u : Option Update) :
    (Collector.systemd (c.publish u)).rank msgrs ≤ c.provider.rank msgrs + (updateCost msgrs + 2) +
      textCost msgrs * c.providerUpdCh.length := by
  cases u with
  | none =>
    simp only [Collector.rank, SystemdCollector.publish, LoopPc.rank]
    omega
  | some u => exact Nat.le_refl _

theorem SystemdCollector.rank_step {c c' : SystemdCollector} {a : SystemdAction}
    {sent : Option Update} (hpoll : ∀ text, a ≠ .polled text) (hready : ∀ u, a ≠ .ready u)
    (hs : c.step a = some (c', sent, false)) :
    (Collector.systemd c').rank msgrs + updateCost msgrs * sent.toList.length <
      (Collector.systemd c).rank msgrs := by
  cases a with
  | polled text => exact absurd rfl (hpoll text)
  | ready u => exact absurd rfl (hready u)
  | providerSent =>
    simp only [SystemdCollector.step] at hs
    split at hs
    · rename_i text hp
      split at hs
      · cases hs
      · split at hs <;> cases hs
        simp only [Collector.rank, hp, ProviderPc.rank, List.length_append, List.length_singleton,
          Option.toList_none, List.length_nil, Nat.mul_add, Nat.mul_one]
        omega
    · cases hs
  | providerStopped =>
    simp only [SystemdCollector.step] at hs
    split at hs
    · rename_i hp
      split at hs <;> cases hs
      simp [Collector.rank, hp, ProviderPc.rank]
    · rename_i text hp
      split at hs <;> cases hs
      simp [Collector.rank, hp, ProviderPc.rank]
    · cases hs
  | providerClosed =>
    simp only [SystemdCollector.step] at hs
    split at hs
    · rename_i hp
      simp only [Option.some.injEq, Prod.mk.injEq] at hs
      obtain ⟨rfl, rfl, -⟩ := hs
      simp [Collector.rank, hp, ProviderPc.rank]
    · cases hs
  | providerDone =>
    simp only [SystemdCollector.step] at hs
    split at hs <;> cases hs
    rename_i hp
    simp [Collector.rank, hp, ProviderPc.rank]
  | received =>
    simp only [SystemdCollector.step] at hs
    split at hs <;> cases hs
    rename_i hl hchan
    simp only [Collector.rank, hl, hchan, LoopPc.rank, textCost, List.length_cons,
      Option.toList_none, List.length_nil, Nat.mul_add, Nat.mul_one]
    omega
  | handled u =>
    simp only [SystemdCollector.step] at hs
    split at hs
    · rename_i text hl
      split at hs <;> cases hs
      · simp only [Collector.rank, hl, LoopPc.rank, Option.toList_none, List.length_nil]
        omega
      · have hle := c.rank_publish msgrs u
        simp only [Collector.rank, hl, LoopPc.rank, Option.toList_none, List.length_nil] at hle ⊢
        omega
    · cases hs
  | sent =>
    simp only [SystemdCollector.step] at hs
    split at hs <;> cases hs
    rename_i hl
    simp only [Collector.rank, hl, LoopPc.rank, Option.toList_some, List.length_singleton]
    omega
  | refused =>
    simp only [SystemdCollector.step] at hs
    split at hs
    · rename_i u hl
      split at hs <;> cases hs
      simp only [Collector.rank, hl, LoopPc.rank, Option.toList_none, List.length_nil]
      omega
    · cases hs
  | ended =>
    simp only [SystemdCollector.step] at hs
    split at hs
    · rename_i hl _
      split at hs <;> cases hs
      simp [Collector.rank, hl, LoopPc.rank]
    · cases hs

variable (msgrs) in
theorem Collector.rank_step {c c' : Collector} {i : Nat} {a : CollectorAction}
    {sent : Option Update} (ha : (Action.collector i a).isLocal = true)
    (hs : c.step a = some (c', sent, false)) :
    c'.rank msgrs + updateCost msgrs * sent.toList.length < c.rank msgrs := by
  unfold Collector.step at hs
  split at hs
  · obtain ⟨⟨x, sent'⟩, hstep, heq⟩ := Option.map_eq_some_iff.mp hs
    cases heq
    refine ExecCollector.rank_step ?_ hstep
    rintro rfl
    cases ha
  · obtain ⟨⟨x, sent', panic⟩, hstep, heq⟩ := Option.map_eq_some_iff.mp hs
    cases heq
    refine SystemdCollector.rank_step ?_ ?_ hstep
    · rintro text rfl
      cases ha
    · rintro u rfl
      cases ha
  · cases hs

theorem Messenger.rank_step {x x' : Messenger} {a : MessengerAction} {handled : List Notification}
    (hs : x.step a = some (x', handled)) : x'.rank < x.rank := by
  cases a with
  | take =>
    simp only [Messenger.step] at hs
    split at hs <;> cases hs
    rename_i hpc hchan
    simp only [Messenger.rank, hpc, hchan, RangePc.rank, List.length_cons]
    omega
  | handle =>
    simp only [Messenger.step] at hs
    split at hs <;> cases hs
    rename_i hpc
    simp [Messenger.rank, hpc, RangePc.rank]
  | rangeEnd =>
    simp only [Messenger.step] at hs
    split at hs
    · rename_i hpc _
      split at hs <;> cases hs
      simp [Messenger.rank, hpc, RangePc.rank]
    · cases hs
  | leave =>
    simp only [Messenger.step] at hs
    split at hs <;> cases hs
    rename_i hpc
    simp [Messenger.rank, hpc, RangePc.rank]
  | serveFail =>
    simp only [Messenger.step] at hs
    split at hs <;> cases hs
    rename_i hkind
    simp [Messenger.rank, hkind, MessengerKind.rank]
  | serveEnd =>
    simp only [Messenger.step] at hs
    split at hs <;> cases hs
    rename_i hkind _
    simp [Messenger.rank, hkind, MessengerKind.rank]

theorem Closer.rank_nextCollector (i : Nat) :
    (Closer.nextCollector colls i).rank msgrs colls = 4 * (colls - i) + 2 * msgrs + 3 := by
  unfold Closer.nextCollector
  split
  · rfl
  · simp only [Closer.rank]
    omega

theorem Closer.rank_nextMessenger (j : Nat) :
    (Closer.nextMessenger msgrs j).rank msgrs colls = 2 * (msgrs - j) := by
  unfold Closer.nextMessenger
  split
  · rfl
  · simp only [Closer.rank]
    omega

variable (msgrs) in
/-- One of the collectors changes. -/
theorem sum_setCollector {i : Nat} (hi : i < colls) (s : Server) (c : Collector) :
    ∑ k ∈ Finset.range colls, ((s.setCollector i c).collectors k).rank msgrs +
        (s.collectors i).rank msgrs =
      ∑ k ∈ Finset.range colls, (s.collectors k).rank msgrs + c.rank msgrs := by
  have h := sum_range_update hi (f := fun k => (s.collectors k).rank msgrs)
    (g := fun k => ((s.setCollector i c).collectors k).rank msgrs)
    (fun k hk => by rw [Server.setCollector_ne _ _ hk])
  simpa using h

theorem sum_setMessenger {j : Nat} (hj : j < msgrs) (s : Server) (x : Messenger) :
    ∑ k ∈ Finset.range msgrs, ((s.setMessenger j x).messengers k).rank + (s.messengers j).rank =
      ∑ k ∈ Finset.range msgrs, (s.messengers k).rank + x.rank := by
  have h := sum_range_update hj (f := fun k => (s.messengers k).rank)
    (g := fun k => ((s.setMessenger j x).messengers k).rank)
    (fun k hk => by rw [Server.setMessenger_ne _ _ hk])
  simpa using h

/-- One of the senders takes a step. -/
theorem rank_senders {j : Nat} (hj : j < msgrs) (n : Notification) (senders : Nat → SendPc)
    (pc : SendPc) :
    (CorePc.send n (Function.update senders j pc)).rank msgrs + (senders j).rank =
      (CorePc.send n senders).rank msgrs + pc.rank := by
  have h := sum_range_update hj (f := fun k => (senders k).rank)
    (g := fun k => (Function.update senders j pc k).rank)
    (fun k hk => by rw [Function.update_of_ne hk])
  simp only [Function.update_self] at h
  simp only [CorePc.rank]
  omega

theorem rank_started (n : Notification) :
    (CorePc.send n fun _ => .start).rank msgrs < updateCost msgrs := by
  simp only [CorePc.rank, SendPc.rank, Finset.sum_const, Finset.card_range, smul_eq_mul, updateCost]
  omega

theorem SendPc.rank_moves {shutdown : Bool} {pc pc' : SendPc} (h : pc.Moves shutdown pc') :
    pc'.rank < pc.rank := by
  cases h with
  | seen _ => decide
  | passed _ => decide
  | blocked => decide
  | gaveUp _ hpc => rcases hpc with rfl | rfl <;> decide

theorem rank_accepted {j : Nat} {n : Notification} {senders : Nat → SendPc} (hj : j < msgrs)
    (hold : s.core = .send n senders) (hpc : senders j = .trying ∨ senders j = .blocked) :
    Server.rank msgrs colls
      { s.setMessenger j { s.messengers j with
          notificationsChan := (s.messengers j).notificationsChan ++ [n] } with
        core := .send n (Function.update senders j .done) } < s.rank msgrs colls := by
  have hcore := rank_senders hj n senders .done
  have hmess := sum_setMessenger hj s
    { s.messengers j with notificationsChan := (s.messengers j).notificationsChan ++ [n] }
  have hlong : Messenger.rank
      { s.messengers j with notificationsChan := (s.messengers j).notificationsChan ++ [n] } =
      (s.messengers j).rank + 2 := by
    simp only [Messenger.rank, List.length_append, List.length_singleton]
    omega
  have hleft : 3 ≤ (senders j).rank := by
    rcases hpc with hpc | hpc <;> rw [hpc] <;> decide
  have hdone : SendPc.done.rank = 0 := rfl
  have hcolls : (s.setMessenger j { s.messengers j with
      notificationsChan := (s.messengers j).notificationsChan ++ [n] }).collectors =
      s.collectors := rfl
  simp only [Server.rank, hold]
  rw [hlong] at hmess
  simp only [Server.setMessenger] at hmess ⊢
  omega

theorem rank_closer {closer : Closer} {shutdown updClosed panicked : Bool}
    (hlt : closer.rank msgrs colls < s.closer.rank msgrs colls) :
    Server.rank msgrs colls { s with
      shutdown := shutdown, updClosed := updClosed, panicked := panicked, closer := closer } <
      s.rank msgrs colls := by
  simp only [Server.rank]
  omega

theorem rank_closeCollector {i : Nat} {c : Collector} {closer : Closer} {panicked : Bool}
    (hi : i < colls) (hsame : c.rank msgrs = (s.collectors i).rank msgrs)
    (hlt : closer.rank msgrs colls < s.closer.rank msgrs colls) :
    Server.rank msgrs colls
      { s.setCollector i c with panicked := panicked, closer := closer } <
      s.rank msgrs colls := by
  have hsum := sum_setCollector msgrs hi s c
  simp only [Server.rank, Server.setCollector] at hsum ⊢
  omega

theorem rank_closeStep (h : Inv colls msgrs s) (hs : s.closeStep colls msgrs = some s') :
    s'.rank msgrs colls < s.rank msgrs colls := by
  have hrange := h.range
  unfold Server.closeStep at hs
  split at hs
  case h_1 hc =>
    cases hs
    refine rank_closer ?_
    rw [hc, Closer.rank_nextCollector]
    simp [Closer.rank]
  case h_2 i hc =>
    cases hs
    rw [hc] at hrange
    refine rank_closeCollector hrange ?_ ?_
    · cases s.collectors i <;> rfl
    · rw [hc]
      cases s.collectors i <;> simp [Closer.afterTeardown, Closer.rank]
  case h_3 i hc =>
    cases hs
    rw [hc] at hrange
    refine rank_closeCollector hrange ?_ ?_
    · cases s.collectors i <;> rfl
    · rw [hc]
      simp [Closer.rank]
  case h_4 i hc =>
    split at hs
    · split at hs <;> cases hs
      exact rank_closer (by rw [hc]; simp [Closer.rank])
    · cases hs
  case h_5 i hc =>
    split at hs <;> cases hs
    rw [hc] at hrange
    have hi : i < colls := hrange
    refine rank_closer ?_
    rw [hc, Closer.rank_nextCollector]
    simp only [Closer.rank]
    omega
  case h_6 hc =>
    cases hs
    exact rank_closer (by rw [hc]; simp [Closer.rank])
  case h_7 hc =>
    cases hs
    exact rank_closer (by rw [hc]; simp [Closer.rank])
  case h_8 hc =>
    split at hs <;> cases hs
    refine rank_closer ?_
    rw [hc, Closer.rank_nextMessenger]
    simp [Closer.rank]
  case h_9 j hc =>
    cases hs
    rw [hc] at hrange
    have hj : j < msgrs := hrange
    have hsum : _ = _ + (s.messengers j).rank :=
      sum_setMessenger hj s { s.messengers j with closed := true }
    simp only [Server.rank, hc, Server.setMessenger, Closer.rank] at hsum ⊢
    omega
  case h_10 j hc =>
    split at hs <;> cases hs
    rw [hc] at hrange
    have hj : j < msgrs := hrange
    refine rank_closer ?_
    rw [hc, Closer.rank_nextMessenger]
    simp only [Closer.rank]
    omega
  case h_11 => cases hs

theorem rank_move {a : Action} (h : Inv colls msgrs s) (ha : a.isLocal = true)
    (hm : Move colls msgrs s a s' out) : s'.rank msgrs colls < s.rank msgrs colls := by
  have hcore {core : CorePc} (hlt : core.rank msgrs < s.core.rank msgrs) :
      Server.rank msgrs colls { s with core := core } < s.rank msgrs colls := by
    simp only [Server.rank]
    omega
  cases hm with
  | collector hs =>
    obtain ⟨c', sent, hi, hc, rfl⟩ := collectorStep_cases h hs
    have hlt := Collector.rank_step msgrs ha hc
    have hsum := sum_setCollector msgrs hi s c'
    simp only [Server.rank, Server.setCollector, List.length_append, Nat.mul_add] at hsum ⊢
    omega
  | take hold hchan =>
    simp only [Server.rank, hold, hchan, CorePc.rank, List.length_cons, Nat.mul_add, Nat.mul_one]
    omega
  | fed hold =>
    refine hcore ?_
    rw [hold]
    simp [CorePc.rank, updateCost]
  | produced hold =>
    refine hcore ?_
    rw [hold]
    exact rank_started _
  | joined hold hdone =>
    refine hcore ?_
    rw [hold]
    simp only [CorePc.rank]
    omega
  | coreEnd hold hclosed =>
    refine hcore ?_
    rw [hold]
    exact Nat.zero_lt_one
  | @sender _ j n senders pc hj hold hpc =>
    have hsum := rank_senders hj n senders pc
    have hlt := SendPc.rank_moves hpc
    refine hcore ?_
    rw [hold]
    omega
  | accepted hj hold hpc hopen => exact rank_accepted hj hold hpc
  | sendPanic hj hold hclosed =>
    rw [h.open_of_core (by simp [hold]) hj] at hclosed
    cases hclosed
  | @messenger j _ x _ hj hs =>
    have hlt := Messenger.rank_step hs
    have hsum := sum_setMessenger hj s x
    simp only [Server.rank, Server.setMessenger] at hsum ⊢
    omega
  | close hs => exact rank_closeStep h hs

/-! ## There is always a local step -/

/-- The provider was told to stop. -/
theorem provider_enabled {c : SystemdCollector} (hstop : c.stop = true) (hne : c.provider ≠ .done)
    (i : Nat) : ∃ a c' panic, (Action.collector i (.systemd a)).isLocal = true ∧
      c.step a = some (c', none, panic) := by
  cases hp : c.provider with
  | select =>
    exact ⟨.providerStopped, { c with provider := .closing }, false, rfl,
      by simp [SystemdCollector.step, hp, hstop]⟩
  | sending text =>
    exact ⟨.providerStopped, { c with provider := .closing }, false, rfl,
      by simp [SystemdCollector.step, hp, hstop]⟩
  | closing =>
    exact ⟨.providerClosed, { c with provider := .closed, providerUpdClosed := true },
      c.providerUpdClosed, rfl, by simp [SystemdCollector.step, hp]⟩
  | closed =>
    exact ⟨.providerDone, { c with provider := .done }, false, rfl,
      by simp [SystemdCollector.step, hp]⟩
  | done => exact absurd hp hne

/-- The loop need not send: the collector is torn down, and the provider's channel is closed. -/
theorem loop_enabled {c : SystemdCollector} (hteardown : c.teardown = true)
    (hclosed : c.providerUpdClosed = true) (hne : c.loop.isDone = false) (i : Nat) :
    ∃ a c' panic, (Action.collector i (.systemd a)).isLocal = true ∧
      c.step a = some (c', none, panic) := by
  cases hl : c.loop with
  | select =>
    cases hchan : c.providerUpdCh with
    | nil =>
      exact ⟨.ended, { c with loop := .done }, false, rfl,
        by simp [SystemdCollector.step, hl, hchan, hclosed]⟩
    | cons text rest =>
      exact ⟨.received, { c with loop := .handling text, providerUpdCh := rest }, false, rfl,
        by simp [SystemdCollector.step, hl, hchan]⟩
  | handling text =>
    exact ⟨.handled none, { c with loop := .select, shuttingDown := true }, false, rfl,
      by simp [SystemdCollector.step, hl, hteardown]⟩
  | sending u =>
    exact ⟨.refused, { c with loop := .select, shuttingDown := true }, false, rfl,
      by simp [SystemdCollector.step, hl, hteardown]⟩
  | done =>
    rw [hl] at hne
    cases hne

theorem exec_enabled {c : ExecCollector} (hteardown : c.teardown = true)
    (hne : c.pc.isDone = false) (i : Nat) :
    ∃ a c', (Action.collector i (.exec a)).isLocal = true ∧ c.step a = some (c', none) := by
  cases hpc : c.pc with
  | command =>
    exact ⟨.ran (.err ""), { c with pc := .sending (.err "") }, rfl,
      by simp [ExecCollector.step, hpc]⟩
  | sending u =>
    exact ⟨.tornDown, { c with pc := .done }, rfl, by simp [ExecCollector.step, hpc, hteardown]⟩
  | waiting =>
    exact ⟨.tornDown, { c with pc := .done }, rfl, by simp [ExecCollector.step, hpc, hteardown]⟩
  | done =>
    rw [hpc] at hne
    cases hne

theorem messenger_enabled {x : Messenger} (hclosed : x.closed = true) (htorn : x.tornDown = false) :
    ∃ a, (x.step a).isSome = true := by
  cases hpc : x.pc with
  | recv =>
    cases hchan : x.notificationsChan with
    | nil => exact ⟨.rangeEnd, by simp [Messenger.step, hpc, hchan, hclosed]⟩
    | cons n rest => exact ⟨.take, by simp [Messenger.step, hpc, hchan]⟩
  | handling n => exact ⟨.handle, by simp [Messenger.step, hpc]⟩
  | leaving => exact ⟨.leave, by simp [Messenger.step, hpc]⟩
  | done =>
    -- The file logger would be torn down, so this is a webserver that is still serving.
    unfold Messenger.tornDown at htorn
    split at htorn
    · simp [hpc] at htorn
    · rename_i serve hkind
      have hserving : serve = .serving := by simpa using htorn
      exact ⟨.serveEnd, by simp [Messenger.step, hpc, hkind, hserving]⟩

/-- After the shutdown no sender waits for a messenger. -/
theorem core_enabled (hshut : s.shutdown = true) (hclosed : s.updClosed = true)
    (hne : s.core ≠ .done) :
    ∃ a, a.isLocal = true ∧ (s.step colls msgrs a).isSome = true := by
  cases hcore : s.core with
  | recv =>
    cases hchan : s.updCh with
    | nil => exact ⟨.coreEnd, rfl, by simp [Server.step, hcore, hchan, hclosed]⟩
    | cons u rest => exact ⟨.coreTake, rfl, by simp [Server.step, hcore, hchan]⟩
  | feed u =>
    refine ⟨.coreFed none, rfl, ?_⟩
    cases u <;> simp [Server.step, hcore]
  | send n senders =>
    by_cases hall : ∀ j < msgrs, senders j = .done
    · exact ⟨.coreJoined, rfl, by simpa [Server.step, hcore] using hall⟩
    · simp only [not_forall] at hall
      obtain ⟨j, hj, hpending⟩ := hall
      cases hpc : senders j with
      | start => exact ⟨.sendCheck j, rfl, by simp [Server.step, Server.senderStep, hcore, hj, hpc]⟩
      | trying =>
        exact ⟨.sendGiveUp j, rfl, by simp [Server.step, Server.senderStep, hcore, hj, hpc, hshut]⟩
      | blocked =>
        exact ⟨.sendGiveUp j, rfl, by simp [Server.step, Server.senderStep, hcore, hj, hpc, hshut]⟩
      | done => exact absurd hpc hpending
  | done => exact absurd hcore hne

theorem collector_enabled {i : Nat} {c' : Collector} {a : CollectorAction} {panic : Bool}
    (hi : i < colls) (hs : (s.collectors i).step a = some (c', none, panic)) :
    (s.step colls msgrs (.collector i a)).isSome = true := by
  simp [Server.step, Server.collectorStep, hi, hs, Server.push]

theorem close_enabled (hs : (s.closeStep colls msgrs).isSome = true) :
    ∃ a, Action.isLocal a = true ∧ (s.step colls msgrs a).isSome = true :=
  ⟨.close, rfl, by simpa [Server.step] using hs⟩

/-- Until it returns, `Core.close` can go on or waits for a goroutine that can. -/
theorem step_enabled (h : Inv colls msgrs s) (hreturned : s.closer ≠ .returned) :
    ∃ a, Action.isLocal a = true ∧ (s.step colls msgrs a).isSome = true := by
  have hrange := h.range
  cases hc : s.closer with
  | idle => exact close_enabled (by simp [Server.closeStep, hc])
  | teardown i => exact close_enabled (by simp [Server.closeStep, hc])
  | stop i => exact close_enabled (by simp [Server.closeStep, hc])
  | awaitProvider i =>
    rw [hc] at hrange
    obtain ⟨c, hcoll⟩ := h.systemd i (.inr hc)
    by_cases hdone : c.provider = .done
    · exact close_enabled (by simp [Server.closeStep, hc, hcoll, hdone])
    · have hstop := h.stop i hrange ⟨c, hcoll⟩
      rw [hc, hcoll] at hstop
      obtain ⟨a, c', panic, ha, hs⟩ :=
        provider_enabled (c := c) (by simpa [Collector.stop, Closer.stopped] using hstop) hdone i
      have hcs : (s.collectors i).step (.systemd a) = some (.systemd c', none, panic) := by
        rw [hcoll]
        simp [Collector.step, hs]
      exact ⟨_, ha, collector_enabled hrange hcs⟩
  | await i =>
    rw [hc] at hrange
    have hteardown := h.teardown i hrange
    rw [hc] at hteardown
    cases hdone : (s.collectors i).isDone with
    | true => exact close_enabled (by simp [Server.closeStep, hc, hdone])
    | false =>
      cases hcoll : s.collectors i with
      | exec c =>
        rw [hcoll] at hteardown hdone
        obtain ⟨a, c', ha, hs⟩ :=
          exec_enabled (c := c) (by simpa [Collector.teardown, Closer.torn] using hteardown) hdone i
        have hcs : (s.collectors i).step (.exec a) = some (.exec c', none, false) := by
          rw [hcoll]
          simp [Collector.step, hs]
        exact ⟨_, ha, collector_enabled hrange hcs⟩
      | systemd c =>
        have hclosed := h.collectors i
        rw [hcoll] at hteardown hdone hclosed
        have hprovider := h.awaiting i c hc hcoll
        simp only [Collector.Ok, hprovider, ProviderPc.hasClosed] at hclosed
        obtain ⟨a, c', panic, ha, hs⟩ :=
          loop_enabled (c := c) (by simpa [Collector.teardown, Closer.torn] using hteardown) hclosed
            hdone i
        have hcs : (s.collectors i).step (.systemd a) = some (.systemd c', none, panic) := by
          rw [hcoll]
          simp [Collector.step, hs]
        exact ⟨_, ha, collector_enabled hrange hcs⟩
  | shutdown => exact close_enabled (by simp [Server.closeStep, hc])
  | closeUpdates => exact close_enabled (by simp [Server.closeStep, hc])
  | awaitRun =>
    by_cases hcore : s.core = .done
    · exact close_enabled (by simp [Server.closeStep, hc, hcore])
    · exact core_enabled (by rw [h.shutdown, hc]; rfl) (by rw [h.updates, hc]; rfl) hcore
  | closeMessenger j => exact close_enabled (by simp [Server.closeStep, hc])
  | awaitMessenger j =>
    rw [hc] at hrange
    have hj : j < msgrs := hrange
    cases htorn : (s.messengers j).tornDown with
    | true => exact close_enabled (by simp [Server.closeStep, hc, htorn])
    | false =>
      have hclosed : (s.messengers j).closed = true := by
        rw [h.hung j hj, hc]
        simp [Closer.hung]
      obtain ⟨a, ha⟩ := messenger_enabled hclosed htorn
      exact ⟨.messenger j a, rfl, by simpa [Server.step, hj] using ha⟩
  | returned => exact absurd hc hreturned

end Steps

/-- Once `Core.close` was called it returns, in whatever order the goroutines run: of the steps that
do not wait for something from outside only so many can be taken, and until it has returned there is
always one of them to take. -/
theorem close_returns {colls msgrs : Nat} {collectors messengers : Nat → Bool} {os : List Out}
    {s : Server} (h : (server colls msgrs collectors messengers).Path os s) :
    ∃ bound, ∀ as os' s', (∀ a ∈ as, Action.isLocal a = true) →
      (server colls msgrs collectors messengers).exec (os, s) as = some (os', s') →
      as.length ≤ bound ∧ (s'.closer ≠ .returned →
        ∃ a, Action.isLocal a = true ∧
          ((server colls msgrs collectors messengers).step s' a).isSome = true) := by
  refine ⟨s.rank msgrs colls, fun as os' s' has hexec => ?_⟩
  obtain ⟨hinv, hle⟩ := Guarded.exec_bounded (I := Inv colls msgrs) (f := Server.rank msgrs colls)
    (fun t a t' out hI ha hs => ⟨hI.move (step_move hs), rank_move hI ha (step_move hs)⟩)
    (inv_path h) has hexec
  exact ⟨(Nat.le_add_right ..).trans hle, step_enabled hinv⟩

/-- `Core.close` waits for the systemd provider. -/
theorem close_returns_sample :
    ∃ os s os' s', (server 2 2 (· = 0) (· = 1)).Path os s ∧
      (server 2 2 (· = 0) (· = 1)).exec (os, s) (sampleClose.take 3) = some (os', s') ∧
      s'.closer = .awaitProvider 0 ∧
      ∃ a, Action.isLocal a = true ∧ ((server 2 2 (· = 0) (· = 1)).step s' a).isSome = true := by
  have hrun : ((server 2 2 (· = 0) (· = 1)).exec ([], (server 2 2 (· = 0) (· = 1)).init)
      sampleRun).any (fun r => ((server 2 2 (· = 0) (· = 1)).exec r (sampleClose.take 3)).any
        fun r' => r'.2.closer = .awaitProvider 0) = true := rfl
  obtain ⟨os, s, hpath, hp⟩ := Guarded.exists_path hrun
  obtain ⟨⟨os', s'⟩, hexec, hcloser⟩ := (Option.any_eq_true _ _).mp hp
  obtain ⟨bound, hbound⟩ := close_returns hpath
  have hc : s'.closer = .awaitProvider 0 := by simpa using hcloser
  obtain ⟨-, hnext⟩ := hbound (sampleClose.take 3) os' s' (by decide) hexec
  exact ⟨os, s, os', s', hpath, hexec, hc, hnext (by simp [hc])⟩

end Shutdown
end Montray
