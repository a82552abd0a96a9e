import Montray.Server.Shutdown

/-!
# Montray.Server.ShutdownProofs

`Core.close` is safe.

* `Inv`: how far `Core.close` has come says which channels are closed and which goroutines ended.
* `Move`: what a step can do, once for all that is proved about runs.
* `close_is_safe`: no channel is sent to or closed once it is closed; when `Core.close` has
  returned, every goroutine it waits for has ended.
-/

namespace Montray
namespace Shutdown

open Lib

/-! ## How far `Core.close` has come -/

namespace Closer

/-- `teardown` of the collector `i` has been closed. -/
def torn (i : Nat) : Closer → Bool
  | .idle => false
  | .teardown k => i < k
  | .stop k => i ≤ k
  | .awaitProvider k => i ≤ k
  | .await k => i ≤ k
  | _ => true

/-- `stop` of its provider has been closed. -/
def stopped (i : Nat) : Closer → Bool
  | .idle => false
  | .teardown k => i < k
  | .stop k => i < k
  | .awaitProvider k => i ≤ k
  | .await k => i ≤ k
  | _ => true

/-- The collector `i` has been waited for. -/
def joined (i : Nat) : Closer → Bool
  | .idle => false
  | .teardown k => i < k
  | .stop k => i < k
  | .awaitProvider k => i < k
  | .await k => i < k
  | _ => true

def raised : Closer → Bool
  | .closeUpdates => true
  | .awaitRun => true
  | .closeMessenger _ => true
  | .awaitMessenger _ => true
  | .returned => true
  | _ => false

def updatesClosed : Closer → Bool
  | .awaitRun => true
  | .closeMessenger _ => true
  | .awaitMessenger _ => true
  | .returned => true
  | _ => false

/-- `Core.run` has been waited for. -/
def ran : Closer → Bool
  | .closeMessenger _ => true
  | .awaitMessenger _ => true
  | .returned => true
  | _ => false

/-- The channel of the messenger `j` has been closed. -/
def hung (j : Nat) : Closer → Bool
  | .closeMessenger k => j < k
  | .awaitMessenger k => j ≤ k
  | .returned => true
  | _ => false

/-- The messenger `j` has been waited for. -/
def left (j : Nat) : Closer → Bool
  | .closeMessenger k => j < k
  | .awaitMessenger k => j < k
  | .returned => true
  | _ => false

def InRange (colls msgrs : Nat) : Closer → Prop
  | .teardown k => k < colls
  | .stop k => k < colls
  | .awaitProvider k => k < colls
  | .await k => k < colls
  | .closeMessenger k => k < msgrs
  | .awaitMessenger k => k < msgrs
  | _ => True

end Closer

/-! ## One collector -/

def ProviderPc.hasClosed : ProviderPc → Bool
  | .closed => true
  | .done => true
  | _ => false

/-- All goroutines of the collector have ended. -/
def Collector.Ended : Collector → Prop
  | .exec c => c.pc.isDone = true
  | .systemd c => c.loop.isDone = true ∧ c.provider = .done

/-- The channel of the provider is closed once the provider has left its loop. -/
def Collector.Ok : Collector → Prop
  | .exec _ => True
  | .systemd c => c.providerUpdClosed = c.provider.hasClosed

/-- What a step of a collector's own goroutines keeps. -/
structure Collector.Kept (c c' : Collector) (sent : Option Update) (panic : Bool) : Prop where
  teardown : c'.teardown = c.teardown
  stop : c'.stop = c.stop
  systemd : (∃ x, c' = .systemd x) ↔ ∃ x, c = .systemd x
  provider : ∀ x, c = .systemd x → x.provider = .done →
    ∃ x', c' = .systemd x' ∧ x'.provider = .done
  ended : c.Ended → c'.Ended
  ok : c'.Ok
  sent : sent ≠ none → ¬ c.Ended
  calm : panic = false

theorem ExecCollector.step_kept {c c' : ExecCollector} {a : ExecAction} {sent : Option Update}
    (h : c.step a = some (c', sent)) : Collector.Kept (.exec c) (.exec c') sent false := by
  have hlive {pc : ExecPc} (hpc : c.pc = pc) (hne : pc.isDone = false)
      (hc' : c'.teardown = c.teardown) : Collector.Kept (.exec c) (.exec c') sent false := by
    have hnot : ¬ (Collector.exec c).Ended := by
      simp [Collector.Ended, hpc, hne]
    exact ⟨hc', rfl, by simp, by simp, fun h => absurd h hnot, trivial, fun _ => hnot, rfl⟩
  unfold step at h
  split at h <;> split at h <;> try cases h
  all_goals
    first
    | exact hlive ‹_› rfl rfl
    | (split at h <;> cases h; exact hlive ‹_› rfl rfl)

section Systemd

variable {c c' : SystemdCollector} {sent : Option Update} {panic : Bool}

/-- A step of the loop: the provider is as it was. -/
theorem SystemdCollector.loop_kept (hok : (Collector.systemd c).Ok) (hloop : c.loop.isDone = false)
    (ht : c'.teardown = c.teardown) (hs : c'.stop = c.stop) (hp : c'.provider = c.provider)
    (hclosed : c'.providerUpdClosed = c.providerUpdClosed) :
    Collector.Kept (.systemd c) (.systemd c') sent false := by
  have hnot : ¬ (Collector.systemd c).Ended := by
    simp [Collector.Ended, hloop]
  refine ⟨ht, hs, ⟨fun _ => ⟨c, rfl⟩, fun _ => ⟨c', rfl⟩⟩, ?_, fun h => absurd h hnot, ?_,
    fun _ => hnot, rfl⟩
  · intro x hx hdone
    cases hx
    exact ⟨c', rfl, hp.trans hdone⟩
  · exact hclosed.trans (hok.trans (by rw [hp]))

/-- A step of the provider, which has not ended. -/
theorem SystemdCollector.provider_kept (hp : c.provider ≠ .done) (ht : c'.teardown = c.teardown)
    (hs : c'.stop = c.stop) (hok' : c'.providerUpdClosed = c'.provider.hasClosed) :
    Collector.Kept (.systemd c) (.systemd c') none false := by
  have hnot : ¬ (Collector.systemd c).Ended := fun h => hp h.2
  refine ⟨ht, hs, ⟨fun _ => ⟨c, rfl⟩, fun _ => ⟨c', rfl⟩⟩, ?_, fun h => absurd h hnot, hok',
    by simp, rfl⟩
  intro x hx hdone
  cases hx
  exact absurd hdone hp

theorem SystemdCollector.step_kept {a : SystemdAction} (hok : (Collector.systemd c).Ok)
    (h : c.step a = some (c', sent, panic)) :
    Collector.Kept (.systemd c) (.systemd c') sent panic := by
  have hopen : c.providerUpdClosed = c.provider.hasClosed := hok
  cases a with
  | polled text =>
    simp only [step] at h
    split at h <;> cases h
    rename_i hp
    exact provider_kept (by simp [hp]) rfl rfl (hopen.trans (by rw [hp]; rfl))
  | providerSent =>
    simp only [step] at h
    split at h
    · rename_i text hp
      have hfalse : c.providerUpdClosed = false := hopen.trans (by rw [hp]; rfl)
      rw [hfalse] at h
      simp only [Bool.false_eq_true, if_false] at h
      split at h <;> cases h
      exact provider_kept (by simp [hp]) rfl rfl rfl
    · cases h
  | providerStopped =>
    simp only [step] at h
    split at h
    · rename_i hp
      split at h <;> cases h
      exact provider_kept (by simp [hp]) rfl rfl (hopen.trans (by rw [hp]; rfl))
    · rename_i text hp
      split at h <;> cases h
      exact provider_kept (by simp [hp]) rfl rfl (hopen.trans (by rw [hp]; rfl))
    · cases h
  | providerClosed =>
    simp only [step] at h
    split at h <;> cases h
    rename_i hp
    have hfalse : c.providerUpdClosed = false := hopen.trans (by rw [hp]; rfl)
    rw [hfalse]
    exact provider_kept (by simp [hp]) rfl rfl rfl
  | providerDone =>
    simp only [step] at h
    split at h <;> cases h
    rename_i hp
    exact provider_kept (by simp [hp]) rfl rfl (hopen.trans (by rw [hp]; rfl))
  | received =>
    simp only [step] at h
    split at h <;> cases h
    rename_i hl _
    exact loop_kept hok (by rw [hl]; rfl) rfl rfl rfl rfl
  | ready u =>
    simp only [step] at h
    split at h <;> cases h
    rename_i hl
    cases u <;> exact loop_kept hok (by rw [hl]; rfl) rfl rfl rfl rfl
  | handled u =>
    simp only [step] at h
    split at h
    · rename_i text hl
      split at h <;> cases h
      · exact loop_kept hok (by rw [hl]; rfl) rfl rfl rfl rfl
      · cases u <;> exact loop_kept hok (by rw [hl]; rfl) rfl rfl rfl rfl
    · cases h
  | sent =>
    simp only [step] at h
    split at h <;> cases h
    rename_i hl
    exact loop_kept hok (by rw [hl]; rfl) rfl rfl rfl rfl
  | refused =>
    simp only [step] at h
    split at h
    · rename_i u hl
      split at h <;> cases h
      exact loop_kept hok (by rw [hl]; rfl) rfl rfl rfl rfl
    · cases h
  | ended =>
    simp only [step] at h
    split at h
    · rename_i hl _
      split at h <;> cases h
      exact loop_kept hok (by rw [hl]; rfl) rfl rfl rfl rfl
    · cases h

end Systemd

theorem Collector.step_kept {c c' : Collector} {a : CollectorAction} {sent : Option Update}
    {panic : Bool} (hok : c.Ok) (h : c.step a = some (c', sent, panic)) : c.Kept c' sent panic := by
  unfold step at h
  split at h
  · obtain ⟨⟨x, sent'⟩, hstep, heq⟩ := Option.map_eq_some_iff.mp h
    cases heq
    exact ExecCollector.step_kept hstep
  · obtain ⟨⟨x, sent', panic'⟩, hstep, heq⟩ := Option.map_eq_some_iff.mp h
    cases heq
    exact SystemdCollector.step_kept hok hstep
  · cases h

/-! ## The invariant -/

structure Inv (colls msgrs : Nat) (s : Server) : Prop where
  teardown : ∀ i < colls, (s.collectors i).teardown = s.closer.torn i
  stop : ∀ i < colls, (∃ c, s.collectors i = .systemd c) →
    (s.collectors i).stop = s.closer.stopped i
  joined : ∀ i < colls, s.closer.joined i = true → (s.collectors i).Ended
  awaiting : ∀ i c, s.closer = .await i → s.collectors i = .systemd c → c.provider = .done
  systemd : ∀ i, s.closer = .stop i ∨ s.closer = .awaitProvider i → ∃ c, s.collectors i = .systemd c
  collectors : ∀ i, (s.collectors i).Ok
  updates : s.updClosed = s.closer.updatesClosed
  shutdown : s.shutdown = s.closer.raised
  ran : s.closer.ran = true → s.core = .done
  hung : ∀ j < msgrs, (s.messengers j).closed = s.closer.hung j
  left : ∀ j < msgrs, s.closer.left j = true → (s.messengers j).tornDown = true
  range : s.closer.InRange colls msgrs
  calm : s.panicked = false

theorem inv_init (colls msgrs : Nat) (collectors messengers : Nat → Bool) :
    Inv colls msgrs (server colls msgrs collectors messengers).init := by
  refine ⟨?_, ?_, by simp [server, Closer.joined], by simp [server], by simp [server], ?_, rfl, rfl,
    by simp [server, Closer.ran], fun _ _ => rfl, by simp [server, Closer.left], trivial, rfl⟩
  · intro i _
    simp only [server]
    split <;> rfl
  · intro i _ _
    simp only [server]
    split <;> rfl
  · intro i
    simp only [server]
    split
    · rfl
    · trivial

section Steps

variable {colls msgrs : Nat} {s s' : Server} {out : List Out}

/-- A closed updates channel means that every collector has ended. -/
theorem Inv.all_ended (h : Inv colls msgrs s) (hclosed : s.updClosed = true) :
    ∀ i < colls, (s.collectors i).Ended := by
  intro i hi
  refine h.joined i hi ?_
  rw [h.updates] at hclosed
  cases hs : s.closer <;> rw [hs] at hclosed <;> first | rfl | cases hclosed

theorem Collector.Kept.refl {c : Collector} (hok : c.Ok) : c.Kept c none false :=
  ⟨rfl, rfl, Iff.rfl, fun x hx hp => ⟨x, hx, hp⟩, id, hok, by simp, rfl⟩

/-- The collectors' own steps keep the invariant. -/
theorem Inv.kept {collectors : Nat → Collector} {updCh : List Update} (h : Inv colls msgrs s)
    (hkept : ∀ i, ∃ sent, (s.collectors i).Kept (collectors i) sent false) :
    Inv colls msgrs { s with collectors := collectors, updCh := updCh } := by
  refine ⟨?_, ?_, ?_, ?_, ?_, ?_, h.updates, h.shutdown, h.ran, h.hung, h.left, h.range, h.calm⟩
  · intro i hi
    obtain ⟨_, hk⟩ := hkept i
    exact hk.teardown.trans (h.teardown i hi)
  · intro i hi hsystemd
    obtain ⟨_, hk⟩ := hkept i
    exact hk.stop.trans (h.stop i hi (hk.systemd.mp hsystemd))
  · intro i hi hjoined
    obtain ⟨_, hk⟩ := hkept i
    exact hk.ended (h.joined i hi hjoined)
  · intro i c hawait hc
    obtain ⟨_, hk⟩ := hkept i
    obtain ⟨x, hx⟩ := hk.systemd.mp ⟨c, hc⟩
    obtain ⟨x', hx', hdone⟩ := hk.provider x hx (h.awaiting i x hawait hx)
    cases hc.symm.trans hx'
    exact hdone
  · intro i hi
    obtain ⟨_, hk⟩ := hkept i
    exact hk.systemd.mpr (h.systemd i hi)
  · intro i
    obtain ⟨_, hk⟩ := hkept i
    exact hk.ok

/-- A collector's send cannot meet a closed channel: the collector has not ended. -/
theorem collectorStep_cases {i : Nat} {a : CollectorAction} (h : Inv colls msgrs s)
    (hs : s.collectorStep colls i a = some s') :
    ∃ c' sent, i < colls ∧ (s.collectors i).step a = some (c', sent, false) ∧
      s' = { s.setCollector i c' with updCh := s.updCh ++ sent.toList } := by
  unfold Server.collectorStep at hs
  split at hs
  · rename_i hi
    obtain ⟨⟨c', sent, panic⟩, hstep, hs⟩ := Option.bind_eq_some_iff.mp hs
    obtain ⟨s₁, hpush, heq⟩ := Option.map_eq_some_iff.mp hs
    have hkept := Collector.step_kept (h.collectors i) hstep
    obtain rfl := hkept.calm
    have hsent : s₁ = { s.setCollector i c' with updCh := s.updCh ++ sent.toList } := by
      cases sent with
      | none =>
        cases hpush
        simp [Server.setCollector]
      | some u =>
        simp only [Server.push] at hpush
        split at hpush
        · rename_i hclosed
          exact absurd (h.all_ended hclosed i hi) (hkept.sent (by simp))
        · split at hpush <;> cases hpush
          rfl
    refine ⟨c', sent, hi, hstep, ?_⟩
    rw [← heq, hsent]
    simp
  · cases hs

theorem Inv.collectorStep {i : Nat} {a : CollectorAction} (h : Inv colls msgrs s)
    (hs : s.collectorStep colls i a = some s') : Inv colls msgrs s' := by
  obtain ⟨c', sent, -, hstep, rfl⟩ := collectorStep_cases h hs
  have hkept := Collector.step_kept (h.collectors i) hstep
  refine h.kept fun k => ?_
  by_cases hk : k = i
  · subst hk
    rw [Server.setCollector_self]
    exact ⟨sent, hkept⟩
  · rw [Server.setCollector_ne _ _ hk]
    exact ⟨none, .refl (h.collectors k)⟩

/-- Until `Core.close` has waited for it, `Core.run` is free to go on. -/
theorem Inv.setCore {core : CorePc} {updCh : List Update} (h : Inv colls msgrs s)
    (hcore : s.core ≠ .done) : Inv colls msgrs { s with core := core, updCh := updCh } :=
  ⟨h.teardown, h.stop, h.joined, h.awaiting, h.systemd, h.collectors, h.updates, h.shutdown,
    fun hran => absurd (h.ran hran) hcore, h.hung, h.left, h.range, h.calm⟩

theorem Inv.coreDone (h : Inv colls msgrs s) : Inv colls msgrs { s with core := .done } :=
  ⟨h.teardown, h.stop, h.joined, h.awaiting, h.systemd, h.collectors, h.updates, h.shutdown,
    fun _ => rfl, h.hung, h.left, h.range, h.calm⟩

/-- A messenger changes, but its channel is closed as before and `TornDown` stays closed. -/
theorem Inv.setMessenger {j : Nat} {x : Messenger} (h : Inv colls msgrs s)
    (hclosed : x.closed = (s.messengers j).closed)
    (htorn : (s.messengers j).tornDown = true → x.tornDown = true) :
    Inv colls msgrs (s.setMessenger j x) := by
  refine ⟨h.teardown, h.stop, h.joined, h.awaiting, h.systemd, h.collectors, h.updates, h.shutdown,
    h.ran, ?_, ?_, h.range, h.calm⟩
  · intro k hk
    by_cases hkj : k = j
    · subst hkj
      rw [Server.setMessenger_self, hclosed]
      exact h.hung k hk
    · rw [Server.setMessenger_ne _ _ hkj]
      exact h.hung k hk
  · intro k hk hleft
    by_cases hkj : k = j
    · subst hkj
      rw [Server.setMessenger_self]
      exact htorn (h.left k hk hleft)
    · rw [Server.setMessenger_ne _ _ hkj]
      exact h.left k hk hleft

theorem Messenger.step_kept {x x' : Messenger} {a : MessengerAction} {handled : List Notification}
    (h : x.step a = some (x', handled)) :
    x'.closed = x.closed ∧ (x.tornDown = true → x'.tornDown = true) := by
  -- A file logger that is done takes no step, and `Serve` does not start again.
  have hrange {pc : RangePc} (hne : x.pc ≠ .done) (chan : List Notification) :
      ({ x with pc := pc, notificationsChan := chan } : Messenger).closed = x.closed ∧
        (x.tornDown = true →
          ({ x with pc := pc, notificationsChan := chan } : Messenger).tornDown = true) := by
    refine ⟨rfl, ?_⟩
    unfold tornDown
    cases x.kind <;> simp [hne]
  cases a with
  | take =>
    simp only [step] at h
    split at h <;> cases h
    rename_i hpc _
    exact hrange (by simp [hpc]) _
  | handle =>
    simp only [step] at h
    split at h <;> cases h
    rename_i hpc
    exact hrange (by simp [hpc]) _
  | rangeEnd =>
    simp only [step] at h
    split at h
    · rename_i hpc _
      split at h <;> cases h
      exact hrange (by simp [hpc]) _
    · cases h
  | leave =>
    simp only [step] at h
    split at h <;> cases h
    rename_i hpc
    exact hrange (by simp [hpc]) _
  | serveFail =>
    simp only [step] at h
    split at h <;> cases h
    exact ⟨rfl, fun _ => rfl⟩
  | serveEnd =>
    simp only [step] at h
    split at h <;> cases h
    exact ⟨rfl, fun _ => rfl⟩

/-- A closed channel of a messenger means that `Core.run` has ended. -/
theorem Inv.open_of_core (h : Inv colls msgrs s) (hcore : s.core ≠ .done) {j : Nat}
    (hj : j < msgrs) :
    (s.messengers j).closed = false := by
  rw [h.hung j hj]
  have hran : s.closer.ran = false := by
    cases hr : s.closer.ran with
    | false => rfl
    | true => exact absurd (h.ran hr) hcore
  cases hs : s.closer <;> rw [hs] at hran <;> first | rfl | cases hran

end Steps

/-! ## Moves -/

/-- A sender's place before and after a step in which it sends nothing. -/
inductive SendPc.Moves (shutdown : Bool) : SendPc → SendPc → Prop where
  | seen (h : shutdown = true) : Moves shutdown .start .done
  | passed (h : shutdown = false) : Moves shutdown .start .trying
  | blocked : Moves shutdown .trying .blocked
  | gaveUp (h : shutdown = true) {pc : SendPc} (hpc : pc = .trying ∨ pc = .blocked) :
      Moves shutdown pc .done

/-- What a step can do. -/
inductive Move (colls msgrs : Nat) (s : Server) : Action → Server → List Out → Prop where
  | collector {s' : Server} {i : Nat} {a : CollectorAction}
      (h : s.collectorStep colls i a = some s') : Move colls msgrs s (.collector i a) s' []
  | take {u : Update} {rest : List Update} (hold : s.core = .recv) (hchan : s.updCh = u :: rest) :
      Move colls msgrs s .coreTake { s with core := .feed u, updCh := rest } []
  | fed {u : Update} {n : Option Notification} (hold : s.core = .feed u) :
      Move colls msgrs s (.coreFed n) { s with core := .recv } []
  | produced {u : Update} {n : Notification} (hold : s.core = .feed u) :
      Move colls msgrs s (.coreFed (some n)) { s with core := .send n fun _ => .start }
        [.produced n]
  | joined {n : Notification} {senders : Nat → SendPc} (hold : s.core = .send n senders)
      (hdone : ∀ j < msgrs, senders j = .done) :
      Move colls msgrs s .coreJoined { s with core := .recv } []
  | coreEnd (hold : s.core = .recv) (hclosed : s.updClosed = true) :
      Move colls msgrs s .coreEnd { s with core := .done } []
  | sender {a : Action} {j : Nat} {n : Notification} {senders : Nat → SendPc} {pc : SendPc}
      (hj : j < msgrs) (hold : s.core = .send n senders) (hpc : (senders j).Moves s.shutdown pc) :
      Move colls msgrs s a { s with core := .send n (Function.update senders j pc) } []
  | accepted {j : Nat} {n : Notification} {senders : Nat → SendPc} (hj : j < msgrs)
      (hold : s.core = .send n senders) (hpc : senders j = .trying ∨ senders j = .blocked)
      (hopen : (s.messengers j).closed = false) :
      Move colls msgrs s (.send j)
        { s.setMessenger j { s.messengers j with
            notificationsChan := (s.messengers j).notificationsChan ++ [n] } with
          core := .send n (Function.update senders j .done) } [.accepted j n]
  | sendPanic {s' : Server} {j : Nat} {n : Notification} {senders : Nat → SendPc} (hj : j < msgrs)
      (hold : s.core = .send n senders) (hclosed : (s.messengers j).closed = true) :
      Move colls msgrs s (.send j) s' []
  | messenger {j : Nat} {a : MessengerAction} {x : Messenger} {handled : List Notification}
      (hj : j < msgrs) (h : (s.messengers j).step a = some (x, handled)) :
      Move colls msgrs s (.messenger j a) (s.setMessenger j x) (handled.map fun n => .handled j n)
  | close {s' : Server} (h : s.closeStep colls msgrs = some s') : Move colls msgrs s .close s' []

section Steps

variable {colls msgrs : Nat} {s s' : Server} {out : List Out}

theorem senderStep_cases {j : Nat} {f : Notification → SendPc → Option (Server × SendPc × List Out)}
    (hs : s.senderStep msgrs j f = some (s', out)) :
    ∃ n senders s₁ pc, j < msgrs ∧ s.core = .send n senders ∧
      f n (senders j) = some (s₁, pc, out) ∧
      s' = { s₁ with core := .send n (Function.update senders j pc) } := by
  unfold Server.senderStep at hs
  split at hs
  · rename_i n senders hcore
    split at hs
    · rename_i hj
      obtain ⟨⟨s₁, pc, out'⟩, hf, heq⟩ := Option.map_eq_some_iff.mp hs
      cases heq
      exact ⟨n, senders, s₁, pc, hj, hcore, hf, rfl⟩
    · cases hs
  · cases hs

theorem step_move {a : Action} (hs : s.step colls msgrs a = some (s', out)) :
    Move colls msgrs s a s' out := by
  cases a <;> simp only [Server.step] at hs
  case collector i a =>
    obtain ⟨s₁, hstep, heq⟩ := Option.map_eq_some_iff.mp hs
    cases heq
    exact .collector hstep
  case coreTake =>
    split at hs <;> cases hs
    rename_i hcore hchan
    exact .take hcore hchan
  case coreFed n =>
    split at hs <;> cases hs <;> rename_i hcore
    · exact .fed hcore
    · exact .fed hcore
    · exact .produced hcore
  case coreJoined =>
    split at hs
    · rename_i hcore
      split at hs <;> cases hs
      exact .joined hcore ‹_›
    · cases hs
  case coreEnd =>
    split at hs
    · rename_i hcore _
      split at hs <;> cases hs
      exact .coreEnd hcore ‹_›
    · cases hs
  case sendCheck j =>
    obtain ⟨n, senders, s₁, pc, hj, hcore, hf, rfl⟩ := senderStep_cases hs
    split at hf <;> cases hf
    rename_i hstart
    refine .sender hj hcore ?_
    rw [hstart]
    cases hshut : s.shutdown with
    | true => exact .seen rfl
    | false => exact .passed rfl
  case send j =>
    obtain ⟨n, senders, s₁, pc, hj, hcore, hf, rfl⟩ := senderStep_cases hs
    split at hf
    · rename_i hpc
      split at hf
      · cases hf
        exact .sendPanic hj hcore ‹_›
      · split at hf <;> cases hf
        exact .accepted hj hcore hpc (Bool.not_eq_true _ ▸ ‹_›)
    · cases hf
  case sendBlock j =>
    obtain ⟨n, senders, s₁, pc, hj, hcore, hf, rfl⟩ := senderStep_cases hs
    split at hf <;> cases hf
    rename_i hpc
    refine .sender hj hcore ?_
    rw [hpc.1]
    exact .blocked
  case sendGiveUp j =>
    obtain ⟨n, senders, s₁, pc, hj, hcore, hf, rfl⟩ := senderStep_cases hs
    split at hf <;> cases hf
    rename_i hpc
    exact .sender hj hcore (.gaveUp hpc.2 hpc.1)
  case messenger j a =>
    split at hs
    · obtain ⟨⟨x', handled⟩, hstep, heq⟩ := Option.map_eq_some_iff.mp hs
      cases heq
      exact .messenger ‹_› hstep
    · cases hs
  case close =>
    obtain ⟨s₁, hstep, heq⟩ := Option.map_eq_some_iff.mp hs
    cases heq
    exact .close hstep

/-! ## The steps of `Core.close` -/

section Next

variable {i j k : Nat}

theorem torn_nextCollector (hk : k < colls) :
    (Closer.nextCollector colls i).torn k = decide (k < i) ∧
      (Closer.nextCollector colls i).stopped k = decide (k < i) ∧
      (Closer.nextCollector colls i).joined k = decide (k < i) := by
  unfold Closer.nextCollector
  split
  · exact ⟨rfl, rfl, rfl⟩
  · have hlt : decide (k < i) = true := by
      rw [decide_eq_true_eq]
      omega
    rw [hlt]
    exact ⟨rfl, rfl, rfl⟩

theorem hung_nextMessenger (hk : k < msgrs) :
    (Closer.nextMessenger msgrs j).hung k = decide (k < j) ∧
      (Closer.nextMessenger msgrs j).left k = decide (k < j) := by
  unfold Closer.nextMessenger
  split
  · exact ⟨rfl, rfl⟩
  · have hlt : decide (k < j) = true := by
      rw [decide_eq_true_eq]
      omega
    rw [hlt]
    exact ⟨rfl, rfl⟩

/-- `Core.close` turns to the next collector: `i` of them have ended. -/
theorem Inv.nextCollector (h : Inv colls msgrs s) (hraised : s.closer.raised = false)
    (htorn : ∀ k < colls, s.closer.torn k = decide (k < i))
    (hstopped : ∀ k < colls, s.closer.stopped k = decide (k < i))
    (hended : ∀ k < colls, k < i → (s.collectors k).Ended) :
    Inv colls msgrs { s with closer := .nextCollector colls i } := by
  have hshape : Closer.nextCollector colls i = .teardown i ∧ i < colls ∨
      Closer.nextCollector colls i = .shutdown := by
    unfold Closer.nextCollector
    split
    · exact .inl ⟨rfl, ‹_›⟩
    · exact .inr rfl
  have hearly : s.closer.updatesClosed = false ∧ ∀ j, s.closer.hung j = false := by
    cases hs : s.closer <;> rw [hs] at hraised <;> first | exact ⟨rfl, fun _ => rfl⟩ | cases hraised
  refine ⟨?_, ?_, ?_, ?_, ?_, h.collectors, ?_, ?_, ?_, ?_, ?_, ?_, h.calm⟩
  · intro k hk
    rw [h.teardown k hk, htorn k hk, (torn_nextCollector hk).1]
  · intro k hk hsystemd
    rw [h.stop k hk hsystemd, hstopped k hk, (torn_nextCollector hk).2.1]
  · intro k hk hjoined
    rw [(torn_nextCollector hk).2.2, decide_eq_true_eq] at hjoined
    exact hended k hk hjoined
  · rcases hshape with ⟨heq, -⟩ | heq <;> simp [heq]
  · rcases hshape with ⟨heq, -⟩ | heq <;> simp [heq]
  · rw [h.updates, hearly.1]
    rcases hshape with ⟨heq, -⟩ | heq <;> rw [heq] <;> rfl
  · rw [h.shutdown, hraised]
    rcases hshape with ⟨heq, -⟩ | heq <;> rw [heq] <;> rfl
  · rcases hshape with ⟨heq, -⟩ | heq <;> simp [heq, Closer.ran]
  · intro j hj
    rw [h.hung j hj, hearly.2 j]
    rcases hshape with ⟨heq, -⟩ | heq <;> rw [heq] <;> rfl
  · rcases hshape with ⟨heq, -⟩ | heq <;> simp [heq, Closer.left]
  · rcases hshape with ⟨heq, hi⟩ | heq <;> rw [heq]
    · exact hi
    · trivial

/-- `Core.close` turns to the next messenger: `j` of them are torn down. -/
theorem Inv.nextMessenger (h : Inv colls msgrs s) (hupd : s.closer.updatesClosed = true)
    (hcore : s.core = .done) (hhung : ∀ k < msgrs, s.closer.hung k = decide (k < j))
    (htorn : ∀ k < msgrs, k < j → (s.messengers k).tornDown = true) :
    Inv colls msgrs { s with closer := .nextMessenger msgrs j } := by
  have hshape : Closer.nextMessenger msgrs j = .closeMessenger j ∧ j < msgrs ∨
      Closer.nextMessenger msgrs j = .returned := by
    unfold Closer.nextMessenger
    split
    · exact .inl ⟨rfl, ‹_›⟩
    · exact .inr rfl
  have hlate : (∀ k, s.closer.torn k = true) ∧ (∀ k, s.closer.stopped k = true) ∧
      (∀ k, s.closer.joined k = true) ∧ s.closer.raised = true := by
    cases hs : s.closer <;> rw [hs] at hupd <;>
      first | exact ⟨fun _ => rfl, fun _ => rfl, fun _ => rfl, rfl⟩ | cases hupd
  refine ⟨?_, ?_, ?_, ?_, ?_, h.collectors, ?_, ?_, fun _ => hcore, ?_, ?_, ?_, h.calm⟩
  · intro k hk
    rw [h.teardown k hk, hlate.1 k]
    rcases hshape with ⟨heq, -⟩ | heq <;> rw [heq] <;> rfl
  · intro k hk hsystemd
    rw [h.stop k hk hsystemd, hlate.2.1 k]
    rcases hshape with ⟨heq, -⟩ | heq <;> rw [heq] <;> rfl
  · intro k hk _
    exact h.joined k hk (hlate.2.2.1 k)
  · rcases hshape with ⟨heq, -⟩ | heq <;> simp [heq]
  · rcases hshape with ⟨heq, -⟩ | heq <;> simp [heq]
  · rw [h.updates, hupd]
    rcases hshape with ⟨heq, -⟩ | heq <;> rw [heq] <;> rfl
  · rw [h.shutdown, hlate.2.2.2]
    rcases hshape with ⟨heq, -⟩ | heq <;> rw [heq] <;> rfl
  · intro k hk
    rw [h.hung k hk, hhung k hk, (hung_nextMessenger hk).1]
  · intro k hk hleft
    rw [(hung_nextMessenger hk).2, decide_eq_true_eq] at hleft
    exact htorn k hk hleft
  · rcases hshape with ⟨heq, hj⟩ | heq <;> rw [heq]
    · exact hj
    · trivial

end Next

/-- The steps of `Core.close` at the collector `i`: the others are as they were. -/
theorem Inv.closeCollector {i : Nat} {c : Collector} {closer : Closer} {panicked : Bool}
    (h : Inv colls msgrs s) (hi : i < colls) (hraised : s.closer.raised = false)
    (hjoined : ∀ k < colls, k ≠ i → s.closer.torn k = decide (k < i) ∧
      s.closer.stopped k = decide (k < i) ∧ s.closer.joined k = decide (k < i))
    (hcloser : closer = .await i ∨ closer = .stop i ∨ closer = .awaitProvider i)
    (hteardown : c.teardown = true) (hstop : ∀ x, c = .systemd x → c.stop = closer.stopped i)
    (hexec : closer = .await i → ∃ x, c = .exec x)
    (hsystemd : closer = .stop i ∨ closer = .awaitProvider i → ∃ x, c = .systemd x) (hok : c.Ok)
    (hcalm : panicked = false) :
    Inv colls msgrs { s.setCollector i c with panicked := panicked, closer := closer } := by
  have hearly : s.closer.updatesClosed = false ∧ ∀ j, s.closer.hung j = false := by
    cases hs : s.closer <;> rw [hs] at hraised <;> first | exact ⟨rfl, fun _ => rfl⟩ | cases hraised
  -- Of the other collectors those before `i` have ended, and nothing has been done to the rest.
  have hothers : ∀ k, k ≠ i → closer.torn k = decide (k < i) ∧
      closer.stopped k = decide (k < i) ∧ closer.joined k = decide (k < i) := by
    intro k hk
    have hle : decide (k ≤ i) = decide (k < i) := by
      rw [decide_eq_decide]
      omega
    rcases hcloser with rfl | rfl | rfl <;> simp [Closer.torn, Closer.stopped, Closer.joined, hle]
  refine ⟨?_, ?_, ?_, ?_, ?_, ?_, ?_, ?_, ?_, ?_, ?_, ?_, hcalm⟩
  · intro k hk
    by_cases hki : k = i
    · subst hki
      rw [Server.setCollector_self, hteardown]
      rcases hcloser with rfl | rfl | rfl <;> simp [Closer.torn]
    · rw [Server.setCollector_ne _ _ hki, h.teardown k hk, (hjoined k hk hki).1, (hothers k hki).1]
  · intro k hk hsys
    by_cases hki : k = i
    · subst hki
      rw [Server.setCollector_self] at hsys ⊢
      obtain ⟨x, hx⟩ := hsys
      exact hstop x hx
    · rw [Server.setCollector_ne _ _ hki] at hsys ⊢
      rw [h.stop k hk hsys, (hjoined k hk hki).2.1, (hothers k hki).2.1]
  · intro k hk hj
    by_cases hki : k = i
    · subst hki
      rcases hcloser with rfl | rfl | rfl <;> simp [Closer.joined] at hj
    · rw [Server.setCollector_ne _ _ hki]
      refine h.joined k hk ?_
      rw [(hjoined k hk hki).2.2, ← (hothers k hki).2.2]
      exact hj
  · intro k x hawait hx
    rcases hcloser with rfl | rfl | rfl <;> cases hawait
    rw [Server.setCollector_self] at hx
    obtain ⟨y, hy⟩ := hexec rfl
    cases hx.symm.trans hy
  · intro k hk
    have hki : k = i := by
      rcases hcloser with rfl | rfl | rfl <;> simp at hk <;> exact hk.symm
    subst hki
    rw [Server.setCollector_self]
    exact hsystemd hk
  · intro k
    by_cases hki : k = i
    · subst hki
      rw [Server.setCollector_self]
      exact hok
    · rw [Server.setCollector_ne _ _ hki]
      exact h.collectors k
  · refine h.updates.trans (hearly.1.trans ?_)
    rcases hcloser with rfl | rfl | rfl <;> rfl
  · refine h.shutdown.trans (hraised.trans ?_)
    rcases hcloser with rfl | rfl | rfl <;> rfl
  · rcases hcloser with rfl | rfl | rfl <;> simp [Closer.ran]
  · intro j hj
    refine (h.hung j hj).trans ((hearly.2 j).trans ?_)
    rcases hcloser with rfl | rfl | rfl <;> rfl
  · rcases hcloser with rfl | rfl | rfl <;> simp [Closer.left]
  · rcases hcloser with rfl | rfl | rfl <;> exact hi

theorem Inv.closeTeardown {i : Nat} (h : Inv colls msgrs s) (hc : s.closer = .teardown i) :
    Inv colls msgrs
      { s.setCollector i (s.collectors i).setTeardown with
        panicked := s.panicked || (s.collectors i).teardown
        closer := .afterTeardown i (s.collectors i) } := by
  have hi : i < colls := by
    have hrange := h.range
    rwa [hc] at hrange
  have hfresh : (s.collectors i).teardown = false := by
    rw [h.teardown i hi, hc]
    simp [Closer.torn]
  have hcalm : (s.panicked || (s.collectors i).teardown) = false := by rw [h.calm, hfresh]; rfl
  have hbefore : ∀ k < colls, k ≠ i → s.closer.torn k = decide (k < i) ∧
      s.closer.stopped k = decide (k < i) ∧ s.closer.joined k = decide (k < i) := by
    intro k _ _
    rw [hc]
    exact ⟨rfl, rfl, rfl⟩
  have hstop := h.stop i hi
  rw [hc] at hstop
  cases hcoll : s.collectors i with
  | exec x =>
    rw [hcoll] at hcalm
    exact h.closeCollector hi (by rw [hc]; rfl) hbefore (.inl rfl) rfl
      (by simp [Collector.setTeardown]) (fun _ => ⟨_, rfl⟩) (by simp [Closer.afterTeardown])
      trivial hcalm
  | systemd x =>
    rw [hcoll] at hcalm hstop
    have hok := h.collectors i
    rw [hcoll] at hok
    refine h.closeCollector hi (by rw [hc]; rfl) hbefore (.inr (.inl rfl)) rfl ?_
      (by simp [Closer.afterTeardown]) (fun _ => ⟨_, rfl⟩) hok hcalm
    intro y hy
    exact hstop ⟨x, rfl⟩

theorem Inv.closeStop {i : Nat} (h : Inv colls msgrs s) (hc : s.closer = .stop i) :
    Inv colls msgrs
      { s.setCollector i (s.collectors i).setStop with
        panicked := s.panicked || (s.collectors i).stop
        closer := .awaitProvider i } := by
  have hi : i < colls := by
    have hrange := h.range
    rwa [hc] at hrange
  obtain ⟨x, hx⟩ := h.systemd i (.inl hc)
  have hfresh : (s.collectors i).stop = false := by
    rw [h.stop i hi ⟨x, hx⟩, hc]
    simp [Closer.stopped]
  have hcalm : (s.panicked || (s.collectors i).stop) = false := by rw [h.calm, hfresh]; rfl
  have htorn := h.teardown i hi
  have hok := h.collectors i
  rw [hx] at htorn hok hcalm ⊢
  rw [hc] at htorn
  refine h.closeCollector hi (by rw [hc]; rfl) ?_ (.inr (.inr rfl)) ?_ ?_ (by simp)
    (fun _ => ⟨_, rfl⟩) hok hcalm
  · intro k _ hki
    have hle : decide (k ≤ i) = decide (k < i) := by
      rw [decide_eq_decide]
      omega
    rw [hc]
    exact ⟨hle, rfl, rfl⟩
  · simpa [Closer.torn, Collector.setStop, Collector.teardown] using htorn
  · intro y hy
    simp [Closer.stopped, Collector.setStop, Collector.stop]

/-- The two steps between the collectors and `Core.run`. -/
theorem Inv.late {closer : Closer} {shutdown updClosed panicked : Bool} (h : Inv colls msgrs s)
    (htorn : ∀ k, s.closer.torn k = true) (hstopped : ∀ k, s.closer.stopped k = true)
    (hjoined : ∀ k, s.closer.joined k = true) (hupd : updClosed = closer.updatesClosed)
    (hshut : shutdown = closer.raised) (hhung : ∀ j < msgrs, (s.messengers j).closed = false)
    (hran : closer.ran = false) (hcalm : panicked = false)
    (hcloser : closer = .closeUpdates ∨ closer = .awaitRun) :
    Inv colls msgrs { s with
      shutdown := shutdown, updClosed := updClosed, panicked := panicked, closer := closer } := by
  refine ⟨?_, ?_, fun k hk _ => h.joined k hk (hjoined k), ?_, ?_, h.collectors, hupd, hshut,
    fun hr => ?_, ?_, ?_, ?_, hcalm⟩
  · intro k hk
    rw [h.teardown k hk, htorn k]
    rcases hcloser with rfl | rfl <;> rfl
  · intro k hk hsystemd
    rw [h.stop k hk hsystemd, hstopped k]
    rcases hcloser with rfl | rfl <;> rfl
  · rcases hcloser with rfl | rfl <;> simp
  · rcases hcloser with rfl | rfl <;> simp
  · rw [hran] at hr
    cases hr
  · intro j hj
    rw [hhung j hj]
    rcases hcloser with rfl | rfl <;> rfl
  · rcases hcloser with rfl | rfl <;> simp [Closer.left]
  · rcases hcloser with rfl | rfl <;> trivial

theorem Inv.closeMessenger {j : Nat} (h : Inv colls msgrs s) (hc : s.closer = .closeMessenger j) :
    Inv colls msgrs
      { s.setMessenger j { s.messengers j with closed := true } with
        panicked := s.panicked || (s.messengers j).closed
        closer := .awaitMessenger j } := by
  have hj : j < msgrs := by
    have hrange := h.range
    rwa [hc] at hrange
  have hopen : (s.messengers j).closed = false := by
    rw [h.hung j hj, hc]
    simp [Closer.hung]
  refine ⟨?_, ?_, ?_, by simp, by simp, h.collectors, ?_, ?_, fun _ => h.ran (by rw [hc]; rfl), ?_,
    ?_, hj, ?_⟩
  · intro k hk
    exact (h.teardown k hk).trans (by rw [hc]; rfl)
  · intro k hk hsystemd
    exact (h.stop k hk hsystemd).trans (by rw [hc]; rfl)
  · intro k hk _
    exact h.joined k hk (by rw [hc]; rfl)
  · exact h.updates.trans (by rw [hc]; rfl)
  · exact h.shutdown.trans (by rw [hc]; rfl)
  · intro k hk
    by_cases hkj : k = j
    · subst hkj
      rw [Server.setMessenger_self]
      simp [Closer.hung]
    · rw [Server.setMessenger_ne _ _ hkj, h.hung k hk, hc]
      simp only [Closer.hung, decide_eq_decide]
      omega
  · intro k hk hleft
    have hlt : k < j := by simpa [Closer.left] using hleft
    rw [Server.setMessenger_ne _ _ (Nat.ne_of_lt hlt)]
    exact h.left k hk (by rw [hc]; simpa [Closer.left] using hlt)
  · rw [h.calm, hopen]
    rfl

theorem Inv.closeStep (h : Inv colls msgrs s) (hs : s.closeStep colls msgrs = some s') :
    Inv colls msgrs s' := by
  have hrange := h.range
  unfold Server.closeStep at hs
  split at hs
  case h_1 hc =>
    cases hs
    refine h.nextCollector (by rw [hc]; rfl) ?_ ?_ (by simp)
    · intro k _
      rw [hc]
      rfl
    · intro k _
      rw [hc]
      rfl
  case h_2 i hc =>
    cases hs
    exact h.closeTeardown hc
  case h_3 i hc =>
    cases hs
    exact h.closeStop hc
  case h_4 i hc =>
    split at hs
    · rename_i c hcoll
      split at hs <;> cases hs
      rename_i hdone
      rw [hc] at hrange
      refine ⟨?_, ?_, ?_, ?_, by simp, h.collectors, by rw [h.updates, hc]; rfl,
        by rw [h.shutdown, hc]; rfl, by simp [Closer.ran], ?_, by simp [Closer.left], hrange,
        h.calm⟩
      · intro k hk
        rw [h.teardown k hk, hc]
        rfl
      · intro k hk hsystemd
        rw [h.stop k hk hsystemd, hc]
        rfl
      · intro k hk hjoined
        exact h.joined k hk (by rw [hc]; exact hjoined)
      · intro k c' hk hc'
        cases hk
        cases hcoll.symm.trans hc'
        exact hdone
      · intro j hj
        rw [h.hung j hj, hc]
        rfl
    · cases hs
  case h_5 i hc =>
    split at hs <;> cases hs
    rename_i hdone
    refine h.nextCollector (by rw [hc]; rfl) ?_ ?_ ?_
    · intro k _
      rw [hc]
      simp [Closer.torn]
    · intro k _
      rw [hc]
      simp [Closer.stopped]
    · intro k hk hlt
      rcases Nat.lt_succ_iff_lt_or_eq.mp hlt with hlt | rfl
      · exact h.joined k hk (by rw [hc]; simpa [Closer.joined] using hlt)
      · cases hcoll : s.collectors k with
        | exec c =>
          rw [hcoll] at hdone
          exact hdone
        | systemd c =>
          have hprov := h.awaiting k c hc hcoll
          rw [hcoll] at hdone
          exact ⟨hdone, hprov⟩
  case h_6 hc =>
    cases hs
    have hopen : s.shutdown = false := by rw [h.shutdown, hc]; rfl
    refine h.late (by rw [hc]; exact fun _ => rfl) (by rw [hc]; exact fun _ => rfl)
      (by rw [hc]; exact fun _ => rfl) (by rw [h.updates, hc]; rfl) rfl ?_ rfl ?_ (.inl rfl)
    · intro j hj
      rw [h.hung j hj, hc]
      rfl
    · rw [h.calm, hopen]
      rfl
  case h_7 hc =>
    cases hs
    have hopen : s.updClosed = false := by rw [h.updates, hc]; rfl
    refine h.late (by rw [hc]; exact fun _ => rfl) (by rw [hc]; exact fun _ => rfl)
      (by rw [hc]; exact fun _ => rfl) rfl (by rw [h.shutdown, hc]; rfl) ?_ rfl ?_ (.inr rfl)
    · intro j hj
      rw [h.hung j hj, hc]
      rfl
    · rw [h.calm, hopen]
      rfl
  case h_8 hc =>
    split at hs <;> cases hs
    rename_i hcore
    refine h.nextMessenger (by rw [hc]; rfl) hcore ?_ (by simp)
    intro k _
    rw [hc]
    rfl
  case h_9 j hc =>
    cases hs
    exact h.closeMessenger hc
  case h_10 j hc =>
    split at hs <;> cases hs
    rename_i htorn
    refine h.nextMessenger (by rw [hc]; rfl) (h.ran (by rw [hc]; rfl)) ?_ ?_
    · intro k _
      rw [hc]
      simp [Closer.hung]
    · intro k hk hlt
      rcases Nat.lt_succ_iff_lt_or_eq.mp hlt with hlt | rfl
      · exact h.left k hk (by rw [hc]; simpa [Closer.left] using hlt)
      · exact htorn
  case h_11 hc => cases hs

theorem Inv.move {a : Action} (h : Inv colls msgrs s) (hm : Move colls msgrs s a s' out) :
    Inv colls msgrs s' := by
  cases hm with
  | collector hs => exact h.collectorStep hs
  | take hold hchan => exact h.setCore (by simp [hold])
  | fed hold => exact h.setCore (by simp [hold])
  | produced hold => exact h.setCore (by simp [hold])
  | joined hold hdone => exact h.setCore (by simp [hold])
  | coreEnd hold hclosed => exact h.coreDone
  | sender hj hold hpc => exact h.setCore (by simp [hold])
  | accepted hj hold hpc hopen =>
    have hne : s.core ≠ .done := by simp [hold]
    exact Inv.setCore (Inv.setMessenger h rfl id) hne
  | sendPanic hj hold hclosed =>
    rw [h.open_of_core (by simp [hold]) hj] at hclosed
    cases hclosed
  | messenger hj hs =>
    obtain ⟨hclosed, htorn⟩ := Messenger.step_kept hs
    exact h.setMessenger hclosed htorn
  | close hs => exact h.closeStep hs

end Steps

section Runs

variable {colls msgrs : Nat} {collectors messengers : Nat → Bool} {os : List Out} {s : Server}

theorem inv_path (h : (server colls msgrs collectors messengers).Path os s) :
    Inv colls msgrs s :=
  Guarded.Path.history (I := fun _ s => Inv colls msgrs s)
    (inv_init colls msgrs collectors messengers)
    (fun _ _ _ _ _ hI hs => hI.move (step_move hs)) h

/-- Nothing is sent on a closed channel and no channel is closed twice, whatever the order in which
the goroutines run: the updates channel is closed when every collector has ended, and the channel of
a messenger when `Core.run` has. When `Core.close` has returned, all of them have ended. -/
theorem close_is_safe (h : (server colls msgrs collectors messengers).Path os s) :
    s.panicked = false ∧
    (s.updClosed = true → ∀ i < colls, (s.collectors i).Ended) ∧
    (∀ j < msgrs, (s.messengers j).closed = true → s.core = .done) ∧
    (s.closer = .returned → (∀ i < colls, (s.collectors i).Ended) ∧ s.core = .done ∧
      ∀ j < msgrs, (s.messengers j).tornDown = true) := by
  have hinv := inv_path h
  refine ⟨hinv.calm, hinv.all_ended, ?_, ?_⟩
  · intro j hj hclosed
    by_contra hcore
    rw [hinv.open_of_core hcore hj] at hclosed
    cases hclosed
  · intro hreturned
    refine ⟨fun i hi => hinv.joined i hi ?_, hinv.ran ?_, fun j hj => hinv.left j hj ?_⟩
    all_goals
      rw [hreturned]
      rfl

def sampleNotification : Notification :=
  { time := 0
    ongoingIncidents :=
      { total := [], added := [], removed := [], updated := [], numItemsOK := 1 } }

/-- One collector of each kind and one messenger of each kind; a notification is delivered, and
then the server is closed. -/
def sampleRun : List Action :=
  [.collector 0 (.systemd (.polled "a.service")), .collector 0 (.systemd .providerSent),
    .collector 0 (.systemd .received), .collector 0 (.systemd (.handled (some (.items ∅)))),
    .collector 0 (.systemd .sent), .coreTake, .coreFed (some sampleNotification),
    .sendCheck 1, .sendCheck 0, .send 0, .send 1, .coreJoined,
    .messenger 0 .take, .messenger 0 .handle]

def sampleClose : List Action :=
  [.close, .close, .close, .collector 0 (.systemd .providerStopped),
    .collector 0 (.systemd .providerClosed), .collector 0 (.systemd .providerDone), .close,
    .collector 0 (.systemd .ended), .close, .close, .collector 1 (.exec (.ran (.err ""))),
    .collector 1 (.exec .tornDown), .close, .close, .close, .coreEnd, .close, .close,
    .messenger 0 .rangeEnd, .messenger 0 .leave, .close, .close, .messenger 1 .take,
    .messenger 1 .handle, .messenger 1 .rangeEnd, .messenger 1 .leave, .messenger 1 .serveEnd,
    .close]

theorem close_is_safe_sample :
    ∃ os s, (server 2 2 (· = 0) (· = 1)).Path os s ∧ s.closer = .returned ∧ s.panicked = false ∧
      s.core = .done := by
  obtain ⟨os, s, hpath, hp⟩ := Guarded.exists_path (G := server 2 2 (· = 0) (· = 1))
    (a := sampleRun ++ sampleClose) (p := fun r => r.2.closer = .returned) rfl
  have hreturned : s.closer = .returned := by simpa using hp
  obtain ⟨hcalm, -, -, hend⟩ := close_is_safe hpath
  exact ⟨os, s, hpath, hreturned, hcalm, (hend hreturned).2.1⟩

end Runs

end Shutdown
end Montray
