import Montray.Server.FanoutClient

/-!
# Montray.Server.FanoutInv

The invariant of the fan-out.

The updates of a client form one line: what has been written to it, what its send loop has in
hand, and its queue. The line is always a run of consecutive notifications, it starts right after
the last notification that had been copied when the client subscribed, and it ends at the last
notification that has been copied, one earlier while the client is still to be served.

* `ClientInv`, `SysInv`: the invariants of one client and of the rest of the system.
* `step_inv`, `inv_path`: every step keeps them, so they hold after every run.
-/

namespace Montray
namespace Fanout

open Lib

/-! ## The system -/

/-- The subscribers that the notification in the fan-out loop has still to reach. -/
def WebPc.pending : WebPc → List Nat
  | .loop _ todo => todo
  | .enqueue _ id todo => id :: todo
  | .full _ id todo => id :: todo
  | .cancel _ _ todo => todo
  | _ => []

/-- With the one that is being disconnected. -/
def WebPc.ids : WebPc → List Nat
  | .cancel _ id todo => id :: todo
  | web => web.pending

theorem WebPc.pending_sublist_ids (web : WebPc) : web.pending.Sublist web.ids := by
  cases web with
  | cancel u id todo => exact List.sublist_cons_self id todo
  | _ => exact List.Sublist.refl _

def WebPc.held : WebPc → Option Numbered
  | .idle => none
  | .received u => some u
  | .loop u _ => some u
  | .enqueue u _ _ => some u
  | .full u _ _ => some u
  | .cancel u _ _ => some u

def CorePc.holds : CorePc → Nat
  | .sending _ => 1
  | _ => 0

/-- Everything but the clients. -/
structure SysInv (s : Sys) : Prop where
  numbered : s.produced.map (·.seq) = List.range' 1 s.produced.length
  board : s.board = totalAt s.produced s.produced.length
  core : ∀ u, s.core = .sending u → u ∈ s.produced ∧ u.seq = s.produced.length
  chan : s.notificationsChan.map (·.seq) =
    List.range' (s.received + 1) s.notificationsChan.length
  chan_mem : ∀ u ∈ s.notificationsChan, u ∈ s.produced
  count : s.produced.length = s.received + s.notificationsChan.length + s.core.holds
  web : ∀ u, s.web.held = some u → u ∈ s.produced ∧ u.seq = s.received ∧ 0 < s.received
  nodup : s.web.pending.Nodup
  known : ∀ id ∈ s.web.ids, id < s.nextSubID

/-- The updates of a client: written, in hand, queued. -/
def lineOf (os : List (Nat × Message)) (s : Sys) (id : Nat) : List Numbered :=
  written os id ++ (s.clients id).hand ++ (s.clients id).queue

structure ClientInv (os : List (Nat × Message)) (s : Sys) (id : Nat) : Prop where
  line : (lineOf os s id).map (·.seq) =
    List.range' ((s.clients id).base + 1) (lineOf os s id).length
  mem : ∀ u ∈ lineOf os s id, u ∈ s.produced
  base : (s.clients id).base ≤ s.copied
  pending : id ∈ s.web.pending → (s.clients id).base + (lineOf os s id).length + 1 = s.copied
  served : (s.clients id).subscribed → id ∉ s.web.pending →
    (s.clients id).base + (lineOf os s id).length = s.copied
  gone : (s.clients id).Gone
  kicked : ∀ u todo, s.web = .cancel u id todo → (s.clients id).subscribed = false
  told : (s.clients id).Told s.produced (sentTo os id)

structure Inv (os : List (Nat × Message)) (s : Sys) : Prop where
  sys : SysInv s
  fresh : ∀ w ∈ os, w.1 < s.nextSubID
  subs : ∀ id, (s.clients id).subscribed → id < s.nextSubID
  client : ∀ id, ClientInv os s id

section Steps

variable {os : List (Nat × Message)} {s s' : Sys} {id : Nat}

theorem consecutive_snoc {l : List Numbered} {a : Nat} {u : Numbered}
    (h : l.map (·.seq) = List.range' a l.length) (hu : u.seq = a + l.length) :
    (l ++ [u]).map (·.seq) = List.range' a (l ++ [u]).length := by
  rw [List.map_append, h, List.length_append, List.length_singleton, List.range'_1_concat, ← hu]
  rfl

theorem copied_le (h : SysInv s) : s.copied ≤ s.produced.length := by
  have := h.count
  unfold Sys.copied
  split <;> omega

/-- A step that changes nothing a client's invariant looks at. -/
theorem ClientInv.congr (h : ClientInv os s id) (hc : s'.clients id = s.clients id)
    (hp : s.produced <+: s'.produced) (hcopied : s'.copied = s.copied)
    (hpend : id ∈ s'.web.pending ↔ id ∈ s.web.pending)
    (hkick : ∀ u todo, s'.web = .cancel u id todo → (s.clients id).subscribed = false) :
    ClientInv os s' id := by
  have hline : lineOf os s' id = lineOf os s id := by rw [lineOf, lineOf, hc]
  refine ⟨?_, ?_, ?_, ?_, ?_, ?_, ?_, ?_⟩
  · rw [hline, hc]
    exact h.line
  · intro u hu
    rw [hline] at hu
    exact hp.subset (h.mem u hu)
  · rw [hc, hcopied]
    exact h.base
  · rw [hpend, hc, hline, hcopied]
    exact h.pending
  · rw [hpend, hc, hline, hcopied]
    exact h.served
  · rw [hc]
    exact h.gone
  · rw [hc]
    exact hkick
  · rw [hc]
    exact h.told.mono hp

theorem coreStep_inv {a : Action} (hs : coreStep s a = some s') (h : Inv os s) : Inv os s' := by
  obtain ⟨hsys, hfresh, hsubs, hclient⟩ := h
  cases a with
  | feed notif =>
    simp only [coreStep] at hs
    split at hs
    · rename_i hcore
      cases hs
      refine ⟨{ hsys with core := by simp, count := ?_ }, hfresh, hsubs, ?_⟩
      · have := hsys.count
        rw [hcore] at this
        exact this
      · exact fun id => (hclient id).congr rfl (List.prefix_refl _) rfl Iff.rfl (hclient id).kicked
    · cases hs
  | boardSet =>
    simp only [coreStep] at hs
    split at hs
    · rename_i notif hcore
      cases hs
      have hcount := hsys.count
      rw [hcore] at hcount
      refine ⟨⟨?_, ?_, ?_, hsys.chan, ?_, ?_, ?_, hsys.nodup, hsys.known⟩, hfresh, hsubs, ?_⟩
      · exact consecutive_snoc hsys.numbered (Nat.add_comm _ _)
      · rw [totalAt, List.take_of_length_le (Nat.le_refl _)]
        simp
      · rintro u ⟨⟩
        simp
      · intro u hu
        exact List.mem_append_left _ (hsys.chan_mem u hu)
      · simp only [List.length_append, List.length_singleton, CorePc.holds] at hcount ⊢
        omega
      · intro u hu
        obtain ⟨h1, h2⟩ := hsys.web u hu
        exact ⟨List.mem_append_left _ h1, h2⟩
      · exact fun id => (hclient id).congr rfl (List.prefix_append _ _) rfl Iff.rfl (hclient id).kicked
    · cases hs
  | send =>
    simp only [coreStep] at hs
    split at hs
    · rename_i u hcore
      split at hs
      · cases hs
        obtain ⟨hmem, hseq⟩ := hsys.core u hcore
        have hcount := hsys.count
        rw [hcore] at hcount
        simp only [CorePc.holds] at hcount
        refine ⟨⟨hsys.numbered, hsys.board, by simp, ?_, ?_, ?_, hsys.web, hsys.nodup,
          hsys.known⟩, hfresh, hsubs, ?_⟩
        · have hnext : u.seq = s.received + 1 + s.notificationsChan.length := by omega
          exact consecutive_snoc hsys.chan hnext
        · intro v hv
          rcases List.mem_append.mp hv with hv | hv
          · exact hsys.chan_mem v hv
          · rw [List.mem_singleton.mp hv]
            exact hmem
        · simp only [List.length_append, List.length_singleton, CorePc.holds]
          omega
        · exact fun id => (hclient id).congr rfl (List.prefix_refl _) rfl Iff.rfl (hclient id).kicked
      · cases hs
    · cases hs
  | delivered =>
    simp only [coreStep] at hs
    split at hs
    · rename_i hcore
      cases hs
      refine ⟨{ hsys with core := by simp, count := ?_ }, hfresh, hsubs, ?_⟩
      · have := hsys.count
        rw [hcore] at this
        exact this
      · exact fun id => (hclient id).congr rfl (List.prefix_refl _) rfl Iff.rfl (hclient id).kicked
    · cases hs
  | _ => cases hs

/-- A step of the fan-out loop that only narrows down what is still to be served. -/
theorem SysInv.web_narrow (h : SysInv s) {web : WebPc} {clients : Nat → Client}
    (hheld : ∀ u, web.held = some u → s.web.held = some u)
    (hsub : web.pending.Sublist s.web.pending) (hids : web.ids.Sublist s.web.ids) :
    SysInv { s with web := web, clients := clients } :=
  { h with
    web := fun u hu => h.web u (hheld u hu)
    nodup := h.nodup.sublist hsub
    known := fun id hid => h.known id (hids.subset hid) }

theorem subs_setClient (h : ∀ id, (s.clients id).subscribed → id < s.nextSubID) {c : Client}
    (hc : c.subscribed → (s.clients id).subscribed) :
    ∀ id', (Function.update s.clients id c id').subscribed → id' < s.nextSubID := by
  intro id' hsub
  by_cases hid : id' = id
  · subst hid
    rw [Function.update_self] at hsub
    exact h id' (hc hsub)
  · rw [Function.update_of_ne hid] at hsub
    exact h id' hsub

/-- A client whose subscription has ended by the end of the step. -/
theorem ClientInv.unsubscribed (h : ClientInv os s id) {x y : Bool}
    (hc : s'.clients id = { s.clients id with subscribed := false, ctxDone := x, closed := y })
    (hp : s'.produced = s.produced) (hcopied : s'.copied = s.copied)
    (hpend : id ∈ s'.web.pending → id ∈ s.web.pending) : ClientInv os s' id := by
  have hline : lineOf os s' id = lineOf os s id := by
    rw [lineOf, lineOf, hc]
    rfl
  have hsub : (s'.clients id).subscribed = false := by rw [hc]
  refine ⟨?_, ?_, ?_, ?_, ?_, ?_, ?_, ?_⟩
  · rw [hline, hc]
    exact h.line
  · rw [hline, hp]
    exact h.mem
  · rw [hc, hcopied]
    exact h.base
  · intro hid
    rw [hline, hc, hcopied]
    exact h.pending (hpend hid)
  · intro hs
    rw [hsub] at hs
    cases hs
  · exact ⟨fun _ => hsub, fun _ => hsub, fun _ _ => hsub⟩
  · exact fun _ _ _ => hsub
  · rw [hc, hp]
    exact ⟨h.told.taken, h.told.start, h.told.snapshot, h.told.totals, h.told.sent⟩

theorem receive_inv (hs : webStep s .receive = some s') (h : Inv os s) : Inv os s' := by
  obtain ⟨hsys, hfresh, hsubs, hclient⟩ := h
  simp only [webStep] at hs
  split at hs
  · rename_i u rest hweb hchan
    cases hs
    have hcount := hsys.count
    have hseq := hsys.chan
    rw [hchan] at hcount hseq
    simp only [List.length_cons, List.map_cons, List.range'_succ, List.cons.injEq] at hcount hseq
    refine ⟨⟨hsys.numbered, hsys.board, hsys.core, hseq.2, ?_, ?_, ?_, ?_, ?_⟩, hfresh, hsubs, ?_⟩
    · intro v hv
      exact hsys.chan_mem v (hchan ▸ List.mem_cons_of_mem _ hv)
    · show s.produced.length = s.received + 1 + rest.length + s.core.holds
      omega
    · rintro v ⟨⟩
      exact ⟨hsys.chan_mem u (hchan ▸ List.mem_cons_self), hseq.1, Nat.succ_pos _⟩
    · exact List.nodup_nil
    · intro id hid
      cases hid
    · intro id
      refine (hclient id).congr rfl (List.prefix_refl _) ?_ ?_ (by simp)
      · simp [Sys.copied, hweb]
      · simp [WebPc.pending, hweb]
  · cases hs

/-- The copy of the subscription map: every subscriber is still to be served. -/
theorem copy_inv {order : List Nat} (hs : webStep s (.copy order) = some s') (h : Inv os s) :
    Inv os s' := by
  obtain ⟨hsys, hfresh, hsubs, hclient⟩ := h
  simp only [webStep] at hs
  split at hs
  · rename_i u hweb
    split at hs
    · rename_i hperm
      cases hs
      obtain ⟨hmem, hseq, hpos⟩ := hsys.web u (by rw [hweb]; rfl)
      have horder : ∀ id, id ∈ order ↔ id < s.nextSubID ∧ (s.clients id).subscribed := by
        intro id
        rw [hperm.mem_iff]
        simp [Sys.subs]
      have hbefore : s.copied = s.received - 1 := by simp [Sys.copied, hweb]
      refine ⟨{ hsys with web := ?_, nodup := ?_, known := ?_ }, hfresh, hsubs, ?_⟩
      · rintro v ⟨⟩
        exact ⟨hmem, hseq, hpos⟩
      · exact hperm.nodup_iff.mpr (List.nodup_range.filter _)
      · exact fun id hid => ((horder id).mp hid).1
      · intro id
        have hc := hclient id
        have hbase := hc.base
        rw [hbefore] at hbase
        refine ⟨hc.line, hc.mem, ?_, ?_, ?_, hc.gone, by simp, hc.told⟩
        · show (s.clients id).base ≤ s.received
          omega
        · intro hid
          have := hc.served ((horder id).mp hid).2 (by rw [hweb]; exact List.not_mem_nil)
          rw [hbefore] at this
          show (s.clients id).base + (lineOf os s id).length + 1 = s.received
          omega
        · intro hsub hid
          exact absurd ((horder id).mpr ⟨hsubs id hsub, hsub⟩) hid
    · cases hs
  · cases hs

/-- A subscriber whose connection has been cancelled is passed over. -/
theorem skip_inv (hs : webStep s .skip = some s') (h : Inv os s) : Inv os s' := by
  obtain ⟨hsys, hfresh, hsubs, hclient⟩ := h
  simp only [webStep] at hs
  split at hs
  · rename_i u id todo hweb
    split at hs
    · rename_i hctx
      cases hs
      have hnd := hsys.nodup
      rw [hweb] at hnd
      have hcopied : ({ s with web := .loop u todo } : Sys).copied = s.copied := by
        simp [Sys.copied, hweb]
      refine ⟨hsys.web_narrow ?_ ?_ ?_, hfresh, hsubs, ?_⟩
      · simp [hweb, WebPc.held]
      · rw [hweb]
        exact List.sublist_cons_self id todo
      · rw [hweb]
        exact List.sublist_cons_self id todo
      · intro id'
        by_cases hid : id' = id
        · subst hid
          have hsub := (hclient id').gone.ctx hctx
          refine (hclient id').unsubscribed (x := (s.clients id').ctxDone)
            (y := (s.clients id').closed) ?_ rfl hcopied ?_
          · rw [← hsub]
          · intro hmem
            exact absurd hmem (List.nodup_cons.mp hnd).1
        · refine (hclient id').congr rfl (List.prefix_refl _) hcopied ?_ (by simp)
          simp [hweb, WebPc.pending, hid]
    · cases hs
  · cases hs

theorem check_inv (hs : webStep s .check = some s') (h : Inv os s) : Inv os s' := by
  obtain ⟨hsys, hfresh, hsubs, hclient⟩ := h
  simp only [webStep] at hs
  split at hs
  · rename_i u id todo hweb
    split at hs
    · cases hs
    · cases hs
      refine ⟨hsys.web_narrow ?_ ?_ ?_, hfresh, hsubs, ?_⟩
      · simp [hweb, WebPc.held]
      · rw [hweb]
        exact List.Sublist.refl _
      · rw [hweb]
        exact List.Sublist.refl _
      · intro id'
        refine (hclient id').congr rfl (List.prefix_refl _) ?_ ?_ (by simp)
        · simp [Sys.copied, hweb]
        · simp [hweb, WebPc.pending]
  · cases hs

/-- One non-blocking send: the notification ends the line of the subscriber, or the subscriber is
going to be disconnected. -/
theorem enqueue_inv (hs : webStep s .enqueue = some s') (h : Inv os s) : Inv os s' := by
  obtain ⟨hsys, hfresh, hsubs, hclient⟩ := h
  simp only [webStep] at hs
  split at hs
  · rename_i u id todo hweb
    have hnd := hsys.nodup
    rw [hweb] at hnd
    obtain ⟨hmem, hseq, _⟩ := hsys.web u (by rw [hweb]; rfl)
    have hcopied : s.copied = s.received := by simp [Sys.copied, hweb]
    split at hs
    · cases hs
      refine ⟨hsys.web_narrow ?_ ?_ ?_, hfresh, ?_, ?_⟩
      · simp [hweb, WebPc.held]
      · rw [hweb]
        exact List.sublist_cons_self id todo
      · rw [hweb]
        exact List.sublist_cons_self id todo
      · exact subs_setClient hsubs fun hsub => hsub
      · intro id'
        by_cases hid : id' = id
        · subst hid
          have hc := hclient id'
          have hlen := hc.pending (by rw [hweb]; exact List.mem_cons_self)
          have hline : lineOf os ({ s.setClient id' { s.clients id' with
              queue := (s.clients id').queue ++ [u] } with web := .loop u todo } : Sys) id' =
              lineOf os s id' ++ [u] := by
            simp [lineOf, Sys.setClient, Client.hand, List.append_assoc]
          have hbase : (Function.update s.clients id' { s.clients id' with
              queue := (s.clients id').queue ++ [u] } id') = { s.clients id' with
              queue := (s.clients id').queue ++ [u] } := Function.update_self _ _ _
          rw [hcopied] at hlen
          refine ⟨?_, ?_, ?_, ?_, ?_, ?_, by simp, ?_⟩
          · rw [hline]
            simp only [Sys.setClient, hbase]
            exact consecutive_snoc hc.line (by omega)
          · rw [hline]
            intro v hv
            rcases List.mem_append.mp hv with hv | hv
            · exact hc.mem v hv
            · rw [List.mem_singleton.mp hv]
              exact hmem
          · simp only [Sys.setClient, hbase, Sys.copied]
            omega
          · intro hpend
            exact absurd hpend (List.nodup_cons.mp hnd).1
          · intro _ _
            rw [hline]
            simp only [Sys.setClient, hbase, Sys.copied, List.length_append, List.length_singleton]
            omega
          · simp only [Sys.setClient, hbase]
            exact ⟨hc.gone.ctx, hc.gone.rx, hc.gone.tx⟩
          · simp only [Sys.setClient, hbase]
            exact ⟨hc.told.taken, hc.told.start, hc.told.snapshot, hc.told.totals, hc.told.sent⟩
        · refine (hclient id').congr (Function.update_of_ne hid _ _) (List.prefix_refl _) ?_ ?_
            (by simp)
          · simp [Sys.copied, hweb, Sys.setClient]
          · simp [hweb, WebPc.pending, hid]
    · cases hs
      refine ⟨hsys.web_narrow ?_ ?_ ?_, hfresh, hsubs, ?_⟩
      · simp [hweb, WebPc.held]
      · rw [hweb]
        exact List.Sublist.refl _
      · rw [hweb]
        exact List.Sublist.refl _
      · intro id'
        refine (hclient id').congr rfl (List.prefix_refl _) ?_ ?_ (by simp)
        · simp [Sys.copied, hweb]
        · simp [hweb, WebPc.pending]
  · cases hs

/-- Disconnecting a subscriber whose queue is full. -/
theorem kick_inv (hs : webStep s .kick = some s') (h : Inv os s) : Inv os s' := by
  obtain ⟨hsys, hfresh, hsubs, hclient⟩ := h
  simp only [webStep] at hs
  split at hs
  · rename_i u id todo hweb
    cases hs
    have hnd := hsys.nodup
    rw [hweb] at hnd
    generalize hweb' : (if (s.clients id).subscribed = true then WebPc.cancel u id todo
      else WebPc.loop u todo) = web'
    have hpend : web'.pending = todo := by
      rw [← hweb']
      split <;> rfl
    have hheld : web'.held = some u := by
      rw [← hweb']
      split <;> rfl
    have hcopied : ({ s.setClient id { s.clients id with subscribed := false } with
        web := web' } : Sys).copied = s.copied := by
      rw [← hweb']
      cases hsub : (s.clients id).subscribed <;> simp [Sys.copied, hweb, Sys.setClient]
    refine ⟨hsys.web_narrow ?_ ?_ ?_, hfresh, ?_, ?_⟩
    · rw [hheld, hweb]
      exact fun _ h => h
    · rw [hpend, hweb]
      exact List.sublist_cons_self id todo
    · rw [← hweb', hweb]
      split
      · exact List.Sublist.refl _
      · exact List.sublist_cons_self id todo
    · exact subs_setClient hsubs (by simp)
    · intro id'
      by_cases hid : id' = id
      · subst hid
        refine (hclient id').unsubscribed (x := (s.clients id').ctxDone)
          (y := (s.clients id').closed) (Function.update_self _ _ _) rfl hcopied ?_
        intro hmem
        exact absurd (hpend ▸ hmem) (List.nodup_cons.mp hnd).1
      · refine (hclient id').congr (Function.update_of_ne hid _ _) (List.prefix_refl _) hcopied
          ?_ ?_
        · show id' ∈ web'.pending ↔ _
          rw [hpend, hweb]
          simp [WebPc.pending, hid]
        · intro v todo' heq
          rw [← hweb'] at heq
          split at heq
          · cases heq
            exact absurd rfl hid
          · cases heq
  · cases hs

theorem kickCancel_inv (hs : webStep s .kickCancel = some s') (h : Inv os s) : Inv os s' := by
  obtain ⟨hsys, hfresh, hsubs, hclient⟩ := h
  simp only [webStep] at hs
  split at hs
  · rename_i u id todo hweb
    cases hs
    have hcopied : ({ s.setClient id (s.clients id).cancel with web := .loop u todo } : Sys).copied =
        s.copied := by
      simp [Sys.copied, hweb, Sys.setClient]
    have hgone := (hclient id).kicked u todo hweb
    refine ⟨hsys.web_narrow ?_ ?_ ?_, hfresh, ?_, ?_⟩
    · simp [hweb, WebPc.held]
    · rw [hweb]
      exact List.Sublist.refl _
    · rw [hweb]
      exact List.sublist_cons_self id todo
    · exact subs_setClient hsubs fun hsub => hsub
    · intro id'
      by_cases hid : id' = id
      · subst hid
        refine (hclient id').unsubscribed (x := true) (y := true) ?_ rfl hcopied ?_
        · rw [← hgone]
          exact Function.update_self _ _ _
        · rw [hweb]
          exact fun hmem => hmem
      · refine (hclient id').congr (Function.update_of_ne hid _ _) (List.prefix_refl _) hcopied
          ?_ (by simp)
        simp [hweb, WebPc.pending]
  · cases hs

theorem finish_inv (hs : webStep s .finish = some s') (h : Inv os s) : Inv os s' := by
  obtain ⟨hsys, hfresh, hsubs, hclient⟩ := h
  simp only [webStep] at hs
  split at hs
  · rename_i u hweb
    cases hs
    refine ⟨hsys.web_narrow ?_ ?_ ?_, hfresh, hsubs, ?_⟩
    · simp [WebPc.held]
    · exact List.nil_sublist _
    · exact List.nil_sublist _
    · intro id'
      refine (hclient id').congr rfl (List.prefix_refl _) ?_ ?_ (by simp)
      · simp [Sys.copied, hweb]
      · simp [hweb, WebPc.pending]
  · cases hs

theorem webStep_inv {a : Action} (hs : webStep s a = some s') (h : Inv os s) : Inv os s' := by
  cases a with
  | receive => exact receive_inv hs h
  | copy order => exact copy_inv hs h
  | skip => exact skip_inv hs h
  | check => exact check_inv hs h
  | enqueue => exact enqueue_inv hs h
  | kick => exact kick_inv hs h
  | kickCancel => exact kickCancel_inv hs h
  | finish => exact finish_inv hs h
  | _ => cases hs

theorem subscribe_inv (h : Inv os s) :
    Inv os ({ s.setClient s.nextSubID { subscribed := true, base := s.copied } with
      nextSubID := s.nextSubID + 1 } : Sys) := by
  obtain ⟨hsys, hfresh, hsubs, hclient⟩ := h
  refine ⟨{ hsys with known := ?_ }, ?_, ?_, ?_⟩
  · intro id hid
    exact Nat.lt_succ_of_lt (hsys.known id hid)
  · intro w hw
    exact Nat.lt_succ_of_lt (hfresh w hw)
  · intro id hsub
    by_cases hid : id = s.nextSubID
    · rw [hid]
      exact Nat.lt_succ_self _
    · simp only [Sys.setClient, Function.update_of_ne hid] at hsub
      exact Nat.lt_succ_of_lt (hsubs id hsub)
  · intro id
    by_cases hid : id = s.nextSubID
    · subst hid
      have hnew : (Function.update s.clients s.nextSubID { subscribed := true, base := s.copied })
          s.nextSubID = { subscribed := true, base := s.copied } := Function.update_self _ _ _
      have hsent := sentTo_fresh hfresh
      have hline : lineOf os ({ s.setClient s.nextSubID { subscribed := true, base := s.copied } with
          nextSubID := s.nextSubID + 1 } : Sys) s.nextSubID = [] := by
        simp [lineOf, written, hsent, Sys.setClient, Client.hand]
      have hpend : s.nextSubID ∉ s.web.pending := fun hmem =>
        Nat.lt_irrefl _ (hsys.known _ (s.web.pending_sublist_ids.subset hmem))
      refine ⟨?_, ?_, ?_, ?_, ?_, ?_, ?_, ?_⟩
      · simp [hline]
      · simp [hline]
      · simp [Sys.setClient, Sys.copied]
      · exact fun hmem => absurd hmem hpend
      · intro _ _
        rw [hline]
        simp [Sys.setClient, Sys.copied]
      · simp only [Sys.setClient, hnew]
        exact ⟨by simp, by simp, by simp⟩
      · intro u todo hweb
        have hids : s.nextSubID ∈ s.web.ids := by
          rw [show s.web = .cancel u s.nextSubID todo from hweb]
          exact List.mem_cons_self
        exact absurd (hsys.known _ hids) (Nat.lt_irrefl _)
      · simp only [Sys.setClient, hnew]
        exact ⟨by simp, by simp [hsent], by simp, .inl (by simp [hsent]), by simp⟩
    · exact (hclient id).congr (Function.update_of_ne hid _ _) (List.prefix_refl _) rfl Iff.rfl
        (hclient id).kicked

theorem client_inv {c' : Client} {out : List Message} (hid : id < s.nextSubID)
    (hm : Client.Move s.produced.length s.board (s.clients id) c' out) (h : Inv os s) :
    Inv (os ++ out.map fun m => (id, m)) (s.setClient id c') := by
  obtain ⟨hsys, hfresh, hsubs, hclient⟩ := h
  have hc := hclient id
  obtain ⟨hgone, hsub⟩ := hm.gone hc.gone
  obtain ⟨hline, hbase⟩ := hm.line
  refine ⟨{ hsys with }, ?_, subs_setClient hsubs hsub, ?_⟩
  · intro w hw
    rcases List.mem_append.mp hw with hw | hw
    · exact hfresh w hw
    · obtain ⟨m, _, rfl⟩ := List.mem_map.mp hw
      exact hid
  · intro id'
    by_cases hne : id' = id
    · subst hne
      have hnew : (s.setClient id' c').clients id' = c' := Function.update_self _ _ _
      have hsame : lineOf (os ++ out.map fun m => (id', m)) (s.setClient id' c') id' =
          lineOf os s id' := by
        rw [lineOf, lineOf, hnew, written, sentTo_append_self, List.filterMap_append,
          List.append_assoc, List.append_assoc, List.append_assoc, ← hline, written]
        simp [List.append_assoc]
      refine ⟨?_, ?_, ?_, ?_, ?_, ?_, ?_, ?_⟩
      · rw [hsame, hnew, hbase]
        exact hc.line
      · rw [hsame]
        exact hc.mem
      · rw [hnew, hbase]
        exact hc.base
      · rw [hsame, hnew, hbase]
        exact hc.pending
      · rw [hsame, hnew, hbase]
        exact fun h1 h2 => hc.served (hsub h1) h2
      · rw [hnew]
        exact hgone
      · intro u todo hweb
        rw [hnew]
        have := hc.kicked u todo hweb
        cases hs' : c'.subscribed with
        | false => rfl
        | true => rw [hsub hs'] at this; cases this
      · rw [hnew, sentTo_append_self]
        rw [hsys.board] at hm
        exact hm.told hc.told (Nat.le_trans hc.base (copied_le hsys))
    · have hsent := sentTo_append_other os (Ne.symm hne) out
      have hc' : ClientInv os (s.setClient id c') id' :=
        (hclient id').congr (Function.update_of_ne hne _ _) (List.prefix_refl _) rfl Iff.rfl
          (hclient id').kicked
      have hlines : lineOf (os ++ out.map fun m => (id, m)) (s.setClient id c') id' =
          lineOf os (s.setClient id c') id' := by
        rw [lineOf, lineOf, written, written, hsent]
      exact ⟨hlines ▸ hc'.line, hlines ▸ hc'.mem, hc'.base, hlines ▸ hc'.pending,
        hlines ▸ hc'.served, hc'.gone, hc'.kicked, hsent ▸ hc'.told⟩

theorem serverStep_inv {a : Action} {out : List (Nat × Message)}
    (hs : ((coreStep s a).or (webStep s a)).map (fun t => (t, [])) = some (s', out))
    (h : Inv os s) : Inv (os ++ out) s' := by
  obtain ⟨t, ht, heq⟩ := Option.map_eq_some_iff.mp hs
  cases heq
  rw [List.append_nil]
  rcases Option.or_eq_some_iff.mp ht with ht | ⟨_, ht⟩
  · exact coreStep_inv ht h
  · exact webStep_inv ht h

theorem step_inv {a : Action} {out : List (Nat × Message)} (hs : step s a = some (s', out))
    (h : Inv os s) : Inv (os ++ out) s' := by
  cases a with
  | subscribe =>
    cases hs
    rw [List.append_nil]
    exact subscribe_inv h
  | client id a =>
    simp only [step] at hs
    split at hs
    · rename_i hid
      obtain ⟨r, hr, heq⟩ := Option.map_eq_some_iff.mp hs
      cases heq
      exact client_inv hid (Client.step_move hr) h
    · cases hs
  | _ => exact serverStep_inv hs h

theorem inv_path (h : Guarded.Path fanout os s) : Inv os s := by
  refine h.history (I := Inv) ?_ fun _ _ _ _ _ hinv hs => step_inv hs hinv
  refine ⟨?_, by simp, by simp [fanout], ?_⟩
  · constructor <;> simp [fanout, totalAt, WebPc.held, WebPc.pending, WebPc.ids, CorePc.holds]
  · intro id
    refine ⟨?_, ?_, ?_, ?_, ?_, ?_, ?_, ?_⟩
    · simp [fanout, lineOf, written, sentTo, Client.hand]
    · simp [fanout, lineOf, written, sentTo, Client.hand]
    · simp [fanout]
    · simp [fanout, WebPc.pending]
    · simp [fanout]
    · exact ⟨by simp [fanout], by simp [fanout], by simp [fanout]⟩
    · simp [fanout]
    · exact ⟨by simp [fanout], by simp [sentTo], by simp [fanout], .inl (by simp [sentTo]),
        by simp [fanout]⟩

end Steps

end Fanout
end Montray
