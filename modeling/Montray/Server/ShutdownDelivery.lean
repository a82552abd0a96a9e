import Montray.Server.ShutdownProofs

/-!
# Montray.Server.ShutdownDelivery

What becomes of the notifications that `Core.run` produces, up to the end of `Core.close`.

* `Delivery`: for each messenger, what its channel has accepted is what it has handled, what it has
  in hand and what is in the channel; and nothing is accepted after something was left out.
* `handled_in_order`: each messenger handles the notifications in order from the first one, and all
  that its channel has accepted before `Core.close` returns.
-/

namespace Montray
namespace Shutdown

open Lib

def produced (os : List Out) : List Notification :=
  os.filterMap fun
    | .produced n => some n
    | _ => none

def acceptedBy (j : Nat) (os : List Out) : List Notification :=
  os.filterMap fun
    | .accepted k n => if k = j then some n else none
    | _ => none

def handledBy (j : Nat) (os : List Out) : List Notification :=
  os.filterMap fun
    | .handled k n => if k = j then some n else none
    | _ => none

section Outputs

variable {j : Nat}

@[simp] theorem produced_append (os os' : List Out) :
    produced (os ++ os') = produced os ++ produced os' :=
  List.filterMap_append

@[simp] theorem acceptedBy_append (os os' : List Out) :
    acceptedBy j (os ++ os') = acceptedBy j os ++ acceptedBy j os' :=
  List.filterMap_append

@[simp] theorem handledBy_append (os os' : List Out) :
    handledBy j (os ++ os') = handledBy j os ++ handledBy j os' :=
  List.filterMap_append

/-- What a messenger has handled is only that. -/
theorem outputs_handled (j k : Nat) (ns : List Notification) :
    produced (ns.map fun n => .handled k n) = [] ∧
      acceptedBy j (ns.map fun n => .handled k n) = [] ∧
      handledBy j (ns.map fun n => .handled k n) = if k = j then ns else [] := by
  induction ns with
  | nil => exact ⟨rfl, rfl, by split <;> rfl⟩
  | cons n ns ih =>
    obtain ⟨hp, ha, hh⟩ := ih
    refine ⟨hp, ha, ?_⟩
    by_cases hk : k = j
    · rw [if_pos hk] at hh ⊢
      simp only [handledBy, List.map_cons, List.filterMap_cons, hk, if_true] at hh ⊢
      rw [hh]
    · rw [if_neg hk] at hh ⊢
      simpa only [handledBy, List.map_cons, List.filterMap_cons, hk, if_false] using hh

end Outputs

/-! ## The messengers -/

def RangePc.hand : RangePc → List Notification
  | .handling n => [n]
  | _ => []

def RangePc.left : RangePc → Bool
  | .leaving => true
  | .done => true
  | _ => false

/-- A messenger that has been given `accepted` and has handled `handled`. -/
structure Messenger.Holds (x : Messenger) (accepted handled : List Notification) : Prop where
  chan : accepted = handled ++ x.pc.hand ++ x.notificationsChan
  left : x.pc.left = true → x.notificationsChan = [] ∧ x.closed = true
  ended : x.kind = .webserver .ended → x.pc = .done

theorem Messenger.Holds.step {x x' : Messenger} {a : MessengerAction}
    {accepted handled ns : List Notification} (h : x.Holds accepted handled)
    (hs : x.step a = some (x', ns)) : x'.Holds accepted (handled ++ ns) := by
  have hchan := h.chan
  cases a with
  | take =>
    simp only [Messenger.step] at hs
    split at hs <;> cases hs
    rename_i hpc hne
    rw [hpc, hne] at hchan
    refine ⟨?_, by simp [RangePc.left], fun hkind => ?_⟩
    · simpa [RangePc.hand] using hchan
    · rw [h.ended hkind] at hpc
      cases hpc
  | handle =>
    simp only [Messenger.step] at hs
    split at hs <;> cases hs
    rename_i hpc
    rw [hpc] at hchan
    refine ⟨?_, by simp [RangePc.left], fun hkind => ?_⟩
    · simpa [RangePc.hand] using hchan
    · rw [h.ended hkind] at hpc
      cases hpc
  | rangeEnd =>
    simp only [Messenger.step] at hs
    split at hs
    · rename_i hpc hempty
      split at hs <;> cases hs
      rename_i hclosed
      rw [hpc] at hchan
      refine ⟨?_, fun _ => ⟨hempty, hclosed⟩, fun hkind => ?_⟩
      · simpa [RangePc.hand] using hchan
      · rw [h.ended hkind] at hpc
        cases hpc
    · cases hs
  | leave =>
    simp only [Messenger.step] at hs
    split at hs <;> cases hs
    rename_i hpc
    rw [hpc] at hchan
    refine ⟨?_, fun _ => h.left (by rw [hpc]; rfl), fun _ => rfl⟩
    simpa [RangePc.hand] using hchan
  | serveFail =>
    simp only [Messenger.step] at hs
    split at hs <;> cases hs
    exact ⟨by simpa using hchan, h.left, by simp⟩
  | serveEnd =>
    simp only [Messenger.step] at hs
    split at hs <;> cases hs
    rename_i hpc
    exact ⟨by simpa using hchan, h.left, fun _ => hpc⟩

/-- The channel is open, so the loop over it has not been left. -/
theorem Messenger.Holds.accept {x : Messenger} {accepted handled : List Notification}
    (h : x.Holds accepted handled) (hopen : x.closed = false) (n : Notification) :
    ({ x with notificationsChan := x.notificationsChan ++ [n] } : Messenger).Holds
      (accepted ++ [n]) handled := by
  refine ⟨?_, fun hleft => ?_, h.ended⟩
  · rw [h.chan]
    simp
  · rw [(h.left hleft).2] at hopen
    cases hopen

theorem Messenger.Holds.all_handled {x : Messenger} {accepted handled : List Notification}
    (h : x.Holds accepted handled) (htorn : x.tornDown = true)
    (hserve : x.kind ≠ .webserver .failed) : handled = accepted := by
  have hdone : x.pc = .done := by
    unfold Messenger.tornDown at htorn
    split at htorn
    · simpa using htorn
    · rename_i serve hkind
      cases serve with
      | serving => simp at htorn
      | failed => exact absurd hkind hserve
      | ended => exact h.ended hkind
  have hchan := h.chan
  rw [hdone, (h.left (by rw [hdone]; rfl)).1] at hchan
  simpa [RangePc.hand] using hchan.symm

/-! ## The senders -/

/-- What a channel has accepted of the notifications `ns`: all of them as long as the server is not
shutting down, and never one after one that is missing. -/
def Owed (ns accepted : List Notification) (shutdown : Bool) : Prop :=
  accepted <+: ns ∧ (shutdown = false → accepted = ns)

theorem Owed.all {ns : List Notification} {shutdown : Bool} : Owed ns ns shutdown :=
  ⟨List.prefix_rfl, fun _ => rfl⟩

theorem Owed.raise {ns accepted : List Notification} {shutdown : Bool}
    (h : Owed ns accepted shutdown) : Owed ns accepted true :=
  ⟨h.1, by simp⟩

/-- Nothing is owed any more once the shutdown was seen. -/
theorem Owed.skip {ns accepted : List Notification} {shutdown : Bool} (h : accepted <+: ns)
    (hshut : shutdown = true) (n : Notification) : Owed (ns ++ [n]) accepted shutdown :=
  ⟨h.trans (List.prefix_append ..), by simp [hshut]⟩

/-- A sender of the notification `n`, after the notifications `ns`. -/
def SendPc.Owes (ns : List Notification) (n : Notification) (accepted : List Notification)
    (shutdown : Bool) : SendPc → Prop
  | .start => Owed ns accepted shutdown
  | .trying => accepted = ns
  | .blocked => accepted = ns
  | .done => Owed (ns ++ [n]) accepted shutdown

/-- What the channel of the messenger `j` has accepted of the notifications `ns`. -/
def CorePc.Owes (ns accepted : List Notification) (shutdown : Bool) (j : Nat) : CorePc → Prop
  | .send n senders => ∃ before, ns = before ++ [n] ∧ (senders j).Owes before n accepted shutdown
  | _ => Owed ns accepted shutdown

section Owes

variable {ns accepted : List Notification} {n : Notification} {shutdown : Bool}

theorem SendPc.Owes.moves {pc pc' : SendPc} (h : pc.Owes ns n accepted shutdown)
    (hm : pc.Moves shutdown pc') : pc'.Owes ns n accepted shutdown := by
  cases hm with
  | seen hshut => exact .skip h.1 hshut n
  | passed hshut => exact h.2 hshut
  | blocked => exact h
  | gaveUp hshut hpc =>
    refine .skip ?_ hshut n
    have heq : accepted = ns := by rcases hpc with rfl | rfl <;> exact h
    rw [heq]

theorem SendPc.Owes.raise {pc : SendPc} (h : pc.Owes ns n accepted shutdown) :
    pc.Owes ns n accepted true := by
  cases pc with
  | start => exact Owed.raise h
  | trying => exact h
  | blocked => exact h
  | done => exact Owed.raise h

theorem CorePc.Owes.raise {j : Nat} {core : CorePc} (h : core.Owes ns accepted shutdown j) :
    core.Owes ns accepted true j := by
  cases core with
  | send n senders =>
    obtain ⟨before, heq, h⟩ := h
    exact ⟨before, heq, h.raise⟩
  | recv => exact Owed.raise h
  | feed u => exact Owed.raise h
  | done => exact Owed.raise h

/-- At most the notification that is being sent is missing. -/
theorem CorePc.Owes.behind {j : Nat} {core : CorePc} (h : core.Owes ns accepted shutdown j) :
    accepted <+: ns ∧ (shutdown = false → ns.length ≤ accepted.length + 1) := by
  have howed (h : Owed ns accepted shutdown) :
      accepted <+: ns ∧ (shutdown = false → ns.length ≤ accepted.length + 1) := by
    refine ⟨h.1, fun hshut => ?_⟩
    rw [h.2 hshut]
    omega
  cases core with
  | recv => exact howed h
  | feed u => exact howed h
  | done => exact howed h
  | send n senders =>
    obtain ⟨before, rfl, h⟩ := h
    cases hpc : senders j <;> rw [hpc] at h
    · refine ⟨h.1.trans (List.prefix_append ..), fun hshut => ?_⟩
      rw [h.2 hshut]
      simp
    · have heq : accepted = before := h
      subst heq
      exact ⟨List.prefix_append .., fun _ => by simp⟩
    · have heq : accepted = before := h
      subst heq
      exact ⟨List.prefix_append .., fun _ => by simp⟩
    · exact howed h

end Owes

/-! ## The invariant -/

structure Delivery (msgrs : Nat) (os : List Out) (s : Server) : Prop where
  holds : ∀ j < msgrs, (s.messengers j).Holds (acceptedBy j os) (handledBy j os)
  owes : ∀ j < msgrs, s.core.Owes (produced os) (acceptedBy j os) s.shutdown j

section Steps

variable {colls msgrs : Nat} {s s' : Server} {os out : List Out}

theorem delivery_init (collectors messengers : Nat → Bool) :
    Delivery msgrs [] (server colls msgrs collectors messengers).init := by
  refine ⟨fun j _ => ⟨rfl, by simp [server, RangePc.left], ?_⟩, fun j _ => Owed.all⟩
  simp only [server]
  split <;> simp

/-- A step that emits nothing and leaves the messengers and the notification alone. -/
theorem Delivery.quiet (h : Delivery msgrs os s) (hm : s'.messengers = s.messengers)
    (hcore : ∀ j < msgrs, s.core.Owes (produced os) (acceptedBy j os) s.shutdown j →
      s'.core.Owes (produced os) (acceptedBy j os) s'.shutdown j) :
    Delivery msgrs (os ++ []) s' := by
  rw [List.append_nil]
  refine ⟨fun j hj => ?_, fun j hj => hcore j hj (h.owes j hj)⟩
  rw [hm]
  exact h.holds j hj

/-- `Core.close` touches the messengers only to close their channels. -/
theorem closeStep_frame (hs : s.closeStep colls msgrs = some s') :
    (∀ j, s'.messengers j = s.messengers j ∨
      s'.messengers j = { s.messengers j with closed := true }) ∧ s'.core = s.core ∧
      (s'.shutdown = s.shutdown ∨ s'.shutdown = true) := by
  unfold Server.closeStep at hs
  split at hs
  case h_9 j hc =>
    cases hs
    refine ⟨fun k => ?_, rfl, .inl rfl⟩
    by_cases hk : k = j
    · subst hk
      exact .inr (Server.setMessenger_self ..)
    · exact .inl (Server.setMessenger_ne _ _ hk)
  case h_6 =>
    cases hs
    exact ⟨fun _ => .inl rfl, rfl, .inr rfl⟩
  case h_4 =>
    split at hs
    · split at hs <;> cases hs
      exact ⟨fun _ => .inl rfl, rfl, .inl rfl⟩
    · cases hs
  case h_5 =>
    split at hs <;> cases hs
    exact ⟨fun _ => .inl rfl, rfl, .inl rfl⟩
  case h_8 =>
    split at hs <;> cases hs
    exact ⟨fun _ => .inl rfl, rfl, .inl rfl⟩
  case h_10 =>
    split at hs <;> cases hs
    exact ⟨fun _ => .inl rfl, rfl, .inl rfl⟩
  all_goals
    cases hs
    try exact ⟨fun _ => .inl rfl, rfl, .inl rfl⟩

theorem Delivery.closeStep (h : Delivery msgrs os s) (hs : s.closeStep colls msgrs = some s') :
    Delivery msgrs (os ++ []) s' := by
  obtain ⟨hmess, hcore, hshut⟩ := closeStep_frame hs
  rw [List.append_nil]
  refine ⟨fun j hj => ?_, fun j hj => ?_⟩
  · have hold := h.holds j hj
    rcases hmess j with heq | heq
    · rw [heq]
      exact hold
    · rw [heq]
      exact ⟨hold.chan, fun hleft => ⟨(hold.left hleft).1, rfl⟩, hold.ended⟩
  · rw [hcore]
    rcases hshut with heq | heq
    · rw [heq]
      exact h.owes j hj
    · rw [heq]
      exact (h.owes j hj).raise

theorem Delivery.accepted {j : Nat} {n : Notification} {senders : Nat → SendPc}
    (h : Delivery msgrs os s) (hj : j < msgrs) (hold : s.core = .send n senders)
    (hpc : senders j = .trying ∨ senders j = .blocked) (hopen : (s.messengers j).closed = false) :
    Delivery msgrs (os ++ [.accepted j n])
      { s.setMessenger j { s.messengers j with
          notificationsChan := (s.messengers j).notificationsChan ++ [n] } with
        core := .send n (Function.update senders j .done) } := by
  have hself : acceptedBy j (os ++ [.accepted j n]) = acceptedBy j os ++ [n] := by
    simp [acceptedBy]
  have hother : ∀ k, k ≠ j → acceptedBy k (os ++ [.accepted j n]) = acceptedBy k os := by
    intro k hk
    simp [acceptedBy, Ne.symm hk]
  have hhandled : ∀ k, handledBy k (os ++ [.accepted j n]) = handledBy k os := by
    intro k
    simp [handledBy]
  have hproduced : produced (os ++ [.accepted j n]) = produced os := by
    simp [produced]
  refine ⟨fun k hk => ?_, fun k hk => ?_⟩
  · rw [hhandled]
    by_cases hkj : k = j
    · subst hkj
      rw [hself, Server.setMessenger_self]
      exact (h.holds k hk).accept hopen n
    · rw [hother k hkj, Server.setMessenger_ne _ _ hkj]
      exact h.holds k hk
  · have howes := h.owes k hk
    rw [hold] at howes
    obtain ⟨before, heq, howes⟩ := howes
    rw [hproduced]
    refine ⟨before, heq, ?_⟩
    by_cases hkj : k = j
    · subst hkj
      have haccepted : acceptedBy k os = before := by
        rcases hpc with hpc | hpc <;> rw [hpc] at howes <;> exact howes
      rw [Function.update_self, hself, haccepted]
      exact Owed.all
    · rw [Function.update_of_ne hkj, hother k hkj]
      exact howes

theorem Delivery.produced {u : Update} {n : Notification} (h : Delivery msgrs os s)
    (hold : s.core = .feed u) :
    Delivery msgrs (os ++ [.produced n]) { s with core := .send n fun _ => .start } := by
  refine ⟨fun j hj => ?_, fun j hj => ?_⟩
  · simpa [acceptedBy, handledBy] using h.holds j hj
  · refine ⟨Shutdown.produced os, by simp [Shutdown.produced], ?_⟩
    have hsame : acceptedBy j (os ++ [.produced n]) = acceptedBy j os := by simp [acceptedBy]
    have howes := h.owes j hj
    rw [hold] at howes
    rw [hsame]
    exact howes

theorem Delivery.messenger {j : Nat} {a : MessengerAction} {x : Messenger}
    {ns : List Notification} (h : Delivery msgrs os s)
    (hs : (s.messengers j).step a = some (x, ns)) :
    Delivery msgrs (os ++ ns.map fun n => .handled j n) (s.setMessenger j x) := by
  refine ⟨fun k hk => ?_, fun k hk => ?_⟩
  · obtain ⟨-, haccepted, hhandled⟩ := outputs_handled k j ns
    rw [acceptedBy_append, handledBy_append, haccepted, hhandled, List.append_nil]
    by_cases hkj : k = j
    · subst hkj
      rw [if_pos rfl, Server.setMessenger_self]
      exact (h.holds k hk).step hs
    · rw [if_neg (Ne.symm hkj), List.append_nil, Server.setMessenger_ne _ _ hkj]
      exact h.holds k hk
  · obtain ⟨hproduced, haccepted, -⟩ := outputs_handled k j ns
    rw [produced_append, acceptedBy_append, hproduced, haccepted, List.append_nil, List.append_nil]
    exact h.owes k hk

theorem Delivery.move {a : Action} (h : Delivery msgrs os s) (hinv : Inv colls msgrs s)
    (hm : Move colls msgrs s a s' out) : Delivery msgrs (os ++ out) s' := by
  cases hm with
  | collector hs =>
    obtain ⟨c', sent, -, -, rfl⟩ := collectorStep_cases hinv hs
    exact h.quiet rfl fun _ _ howes => howes
  | take hold hchan =>
    refine h.quiet rfl fun j _ howes => ?_
    rw [hold] at howes
    exact howes
  | fed hold =>
    refine h.quiet rfl fun j _ howes => ?_
    rw [hold] at howes
    exact howes
  | coreEnd hold hclosed =>
    refine h.quiet rfl fun j _ howes => ?_
    rw [hold] at howes
    exact howes
  | produced hold => exact h.produced hold
  | joined hold hdone =>
    refine h.quiet rfl fun j hj howes => ?_
    rw [hold] at howes
    obtain ⟨before, heq, howes⟩ := howes
    rw [hdone j hj] at howes
    rw [heq]
    exact howes
  | @sender _ j n senders pc hj hold hpc =>
    refine h.quiet rfl fun k _ howes => ?_
    rw [hold] at howes
    obtain ⟨before, heq, howes⟩ := howes
    refine ⟨before, heq, ?_⟩
    by_cases hkj : k = j
    · subst hkj
      rw [Function.update_self]
      exact howes.moves hpc
    · rw [Function.update_of_ne hkj]
      exact howes
  | accepted hj hold hpc hopen => exact h.accepted hj hold hpc hopen
  | sendPanic hj hold hclosed =>
    rw [hinv.open_of_core (by simp [hold]) hj] at hclosed
    cases hclosed
  | messenger hj hs => exact h.messenger hs
  | close hs => exact h.closeStep hs

end Steps

section Runs

variable {colls msgrs : Nat} {collectors messengers : Nat → Bool} {os : List Out} {s : Server}

theorem delivery_path (h : (server colls msgrs collectors messengers).Path os s) :
    Inv colls msgrs s ∧ Delivery msgrs os s :=
  Guarded.Path.history (I := fun os s => Inv colls msgrs s ∧ Delivery msgrs os s)
    ⟨inv_init colls msgrs collectors messengers, delivery_init collectors messengers⟩
    (fun _ _ _ _ _ hI hs => ⟨hI.1.move (step_move hs), hI.2.move hI.1 (step_move hs)⟩) h

/-- A messenger handles the notifications in the order in which they were produced, from the first
one on and without a gap. Until the server shuts down its channel is at most the one behind that is
being sent, and `Core.close` does not return before the messenger has handled all that its channel
accepted, unless it is a webserver whose `Serve` failed by itself. -/
theorem handled_in_order (h : (server colls msgrs collectors messengers).Path os s) {j : Nat}
    (hj : j < msgrs) :
    handledBy j os <+: acceptedBy j os ∧ acceptedBy j os <+: produced os ∧
    (s.shutdown = false → (produced os).length ≤ (acceptedBy j os).length + 1) ∧
    (s.closer = .returned → (s.messengers j).kind ≠ .webserver .failed →
      handledBy j os = acceptedBy j os) := by
  obtain ⟨hinv, hdel⟩ := delivery_path h
  have hholds := hdel.holds j hj
  obtain ⟨hle, hbehind⟩ := (hdel.owes j hj).behind
  refine ⟨?_, hle, hbehind, fun hreturned hserve => ?_⟩
  · rw [hholds.chan, List.append_assoc]
    exact List.prefix_append ..
  · exact hholds.all_handled (hinv.left j hj (by rw [hreturned]; rfl)) hserve

theorem handled_in_order_sample :
    ∃ os s, (server 2 2 (· = 0) (· = 1)).Path os s ∧ s.closer = .returned ∧
      handledBy 1 os = acceptedBy 1 os ∧ acceptedBy 1 os = [sampleNotification] := by
  obtain ⟨os, s, hpath, hp⟩ := Guarded.exists_path (G := server 2 2 (· = 0) (· = 1))
    (a := sampleRun ++ sampleClose)
    (p := fun r => r.2.closer = .returned && (r.2.messengers 1).kind = .webserver .ended &&
      acceptedBy 1 r.1 = [sampleNotification]) rfl
  simp only [Bool.and_eq_true, decide_eq_true_eq] at hp
  obtain ⟨⟨hreturned, hkind⟩, haccepted⟩ := hp
  obtain ⟨-, -, -, hall⟩ := handled_in_order (j := 1) hpath (by decide)
  exact ⟨os, s, hpath, hreturned, hall hreturned (by simp [hkind]), haccepted⟩

end Runs

end Shutdown
end Montray
