import Montray.Server.Subscriptions

/-!
# Montray.Server.SubscriptionsProofs

What happens to a subscription, in every run of the webserver.

A subscription runs through the stages of `Stage`: it is registered, removed by one goroutine, and
that goroutine cancels and closes its connection. `Core` ties the stage of every subscription to the
two maps, to the calls of `unsubscribe` in progress and to the trace: what the trace says about a
subscription is the history of its stage. So everything that is to happen at most once does.

* `Core.unsubscribe`, `Core.register`: what a step does to the stages.
* `ok_run`: the invariant holds in every run.
* `subscription_lifecycle`: what follows for connections, refusals and shutdown.
-/

namespace Montray
namespace Subscriptions

open Lib

/-! ## Stages -/

inductive Stage where
  | absent
  | live (conn : Nat)
  | removed (conn : Nat) (thread : Thread)
  | cancelled (conn : Nat) (thread : Thread)
  | closed (conn : Nat) (thread : Thread)
  deriving DecidableEq, Repr

namespace Stage

def conn : Stage → Option Nat
  | .absent => none
  | .live c => some c
  | .removed c _ => some c
  | .cancelled c _ => some c
  | .closed c _ => some c

/-- What has happened to subscription `id`. -/
def history (id : Nat) : Stage → List Event
  | .absent => []
  | .live c => [.registered id c]
  | .removed c t => [.registered id c, .removed id c t]
  | .cancelled c t => [.registered id c, .removed id c t, .cancelled id c t]
  | .closed c t => [.registered id c, .removed id c t, .cancelled id c t, .closed id c t]

end Stage

/-- The subscription an event is about, and its connection. -/
def Event.subscription : Event → Option (Nat × Nat)
  | .registered id c => some (id, c)
  | .removed id c _ => some (id, c)
  | .cancelled id c _ => some (id, c)
  | .closed id c _ => some (id, c)
  | _ => none

def Event.isOf (id : Nat) (e : Event) : Bool := e.subscription.any (·.1 = id)

theorem Stage.conn_of_mem {stage : Stage} {id : Nat} {e : Event} {p : Nat × Nat}
    (h : e ∈ stage.history id) (he : e.subscription = some p) : stage.conn = some p.2 := by
  cases stage with
  | absent => cases h
  | live c =>
    obtain rfl := List.mem_singleton.mp h
    cases he
    rfl
  | removed c t =>
    simp only [history, List.mem_cons, List.not_mem_nil, or_false] at h
    rcases h with rfl | rfl <;> (cases he; rfl)
  | cancelled c t =>
    simp only [history, List.mem_cons, List.not_mem_nil, or_false] at h
    rcases h with rfl | rfl | rfl <;> (cases he; rfl)
  | closed c t =>
    simp only [history, List.mem_cons, List.not_mem_nil, or_false] at h
    rcases h with rfl | rfl | rfl | rfl <;> (cases he; rfl)

/-! ## The registry and the calls -/

/-- What a call in progress relies on: the goroutine that removed a subscription is the one that
goes on with it. -/
def CallOk (stage : Nat → Stage) (t : Thread) : Call → Prop
  | .lock _ => True
  | .cancel id conn => ∃ c, conn = some c ∧ stage id = .removed c t
  | .close id c => stage id = .cancelled c t

structure Core (os : List Event) (r : Registry) (calls : Thread → Option Call)
    (stage : Nat → Stage) : Prop where
  trace : ∀ id, os.filter (Event.isOf id) = (stage id).history id
  noNil : ∀ t, .nilConn t ∉ os
  subs : ∀ id, id ∈ r.subs ↔ ∃ c, stage id = .live c
  wsConns : ∀ id c, r.wsConns[id]? = some c ↔ stage id = .live c
  fresh : ∀ id, r.nextSubID ≤ id → stage id = .absent
  calls : ∀ t call, calls t = some call → CallOk stage t call

section Core

variable {os out : List Event} {r r' : Registry} {calls calls' : Thread → Option Call}
  {stage : Nat → Stage}

theorem Core.init (calls : Thread → Option Call) (hcalls : ∀ t, calls t = none) :
    Core [] {} calls fun _ => .absent where
  trace _ := rfl
  noNil := by simp
  subs := by simp
  wsConns := by simp
  fresh _ _ := rfl
  calls t call h := by
    rw [hcalls] at h
    cases h

/-- A step that touches no subscription; calls may begin and return. -/
theorem Core.keep (h : Core os r calls stage) (hof : ∀ e ∈ out, e.subscription = none)
    (hnil : ∀ t, .nilConn t ∉ out) (hsubs : r'.subs = r.subs) (hws : r'.wsConns = r.wsConns)
    (hnext : r'.nextSubID = r.nextSubID)
    (hcalls : ∀ t call, calls' t = some call → calls t = some call ∨ ∃ id, call = .lock id) :
    Core (os ++ out) r' calls' stage := by
  refine ⟨fun id => ?_, fun t => ?_, by rw [hsubs]; exact h.subs, by rw [hws]; exact h.wsConns,
    by rw [hnext]; exact h.fresh, fun t call hc => ?_⟩
  · have hnone : out.filter (Event.isOf id) = [] :=
      List.filter_eq_nil_iff.mpr fun e he => by simp [Event.isOf, hof e he]
    rw [List.filter_append, hnone, List.append_nil]
    exact h.trace id
  · simp [h.noNil t, hnil t]
  · rcases hcalls t call hc with hc | ⟨id, rfl⟩
    · exact h.calls t call hc
    · trivial

/-- Something happens to subscription `id`, which is then in the stage `new`. -/
theorem Core.advance (h : Core os r calls stage) {id : Nat} {new : Stage} {e : Event}
    (hhist : new.history id = (stage id).history id ++ [e])
    (hsubs : ∀ i, i ∈ r'.subs ↔ ∃ c, Function.update stage id new i = .live c)
    (hws : ∀ i c, r'.wsConns[i]? = some c ↔ Function.update stage id new i = .live c)
    (hfresh : ∀ i, r'.nextSubID ≤ i → Function.update stage id new i = .absent)
    (hcalls : ∀ t call, calls' t = some call → CallOk (Function.update stage id new) t call) :
    Core (os ++ [e]) r' calls' (Function.update stage id new) := by
  have hsub : ∃ c, e.subscription = some (id, c) := by
    have hmem : e ∈ new.history id := by simp [hhist]
    cases new with
    | absent => cases hmem
    | _ =>
      simp only [Stage.history, List.mem_cons, List.not_mem_nil, or_false] at hmem
      rcases hmem with rfl | rfl | rfl | rfl <;> exact ⟨_, rfl⟩
  obtain ⟨c, hsub⟩ := hsub
  refine ⟨fun i => ?_, fun t => ?_, hsubs, hws, hfresh, hcalls⟩
  · rw [List.filter_append, h.trace]
    by_cases hi : i = id
    · subst hi
      rw [Function.update_self, hhist]
      simp [Event.isOf, hsub]
    · rw [Function.update_of_ne hi]
      have hne : id ≠ i := fun heq => hi heq.symm
      simp [Event.isOf, hsub, hne]
  · have hne : e ≠ .nilConn t := by
      rintro rfl
      cases hsub
    simpa [h.noNil t] using hne.symm

/-- Calls about other stages are not affected when the stage of `id` changes. -/
theorem CallOk.update {t : Thread} {call : Call} {id : Nat} {new : Stage}
    (h : CallOk stage t call) (hremoved : ∀ c, stage id ≠ .removed c t)
    (hcancelled : ∀ c, stage id ≠ .cancelled c t) : CallOk (Function.update stage id new) t call := by
  cases call with
  | lock _ => trivial
  | cancel i conn =>
    obtain ⟨c, rfl, hi⟩ := h
    have hne : i ≠ id := by
      rintro rfl
      exact hremoved c hi
    exact ⟨c, rfl, by rw [Function.update_of_ne hne]; exact hi⟩
  | close i c =>
    have hne : i ≠ id := by
      rintro rfl
      exact hcancelled c h
    show Function.update stage id new i = _
    rw [Function.update_of_ne hne]
    exact h

/-- What a part of a call of `unsubscribe` does to the stages. -/
structure Unsubscribed (stage stage' : Nat → Stage) (call : Call) : Prop where
  conn : ∀ id, (stage' id).conn = (stage id).conn
  live : ∀ id c, stage' id = .live c → stage id = .live c ∧ call ≠ .lock id

theorem Unsubscribed.refl {call : Call} (h : ∀ id c, stage id = .live c → call ≠ .lock id) :
    Unsubscribed stage stage call :=
  ⟨fun _ => rfl, fun id c hl => ⟨hl, h id c hl⟩⟩

theorem Unsubscribed.update {id : Nat} {new : Stage} {call : Call}
    (hconn : new.conn = (stage id).conn) (hlive : ∀ c, new ≠ .live c)
    (hcall : ∀ i, call = .lock i → i = id) :
    Unsubscribed stage (Function.update stage id new) call := by
  constructor
  · intro i
    by_cases hi : i = id
    · subst hi
      rw [Function.update_self, hconn]
    · rw [Function.update_of_ne hi]
  · intro i c hl
    by_cases hi : i = id
    · subst hi
      rw [Function.update_self] at hl
      exact absurd hl (hlive c)
    · rw [Function.update_of_ne hi] at hl
      exact ⟨hl, fun heq => hi (hcall i heq)⟩

/-- The maps do not change when a subscription that is not live moves on. -/
theorem Core.not_live (h : Core os r calls stage) (id : Nat) (new : Stage)
    (hold : ∀ c, stage id ≠ .live c) (hnew : ∀ c, new ≠ .live c) (hne : stage id ≠ .absent) :
    (∀ i, i ∈ r.subs ↔ ∃ c, Function.update stage id new i = .live c) ∧
      (∀ i c, r.wsConns[i]? = some c ↔ Function.update stage id new i = .live c) ∧
      ∀ i, r.nextSubID ≤ i → Function.update stage id new i = .absent := by
  refine ⟨fun i => ?_, fun i c => ?_, fun i hi => ?_⟩
  · rw [h.subs]
    by_cases hi : i = id
    · subst hi
      simp [hold, hnew]
    · rw [Function.update_of_ne hi]
  · rw [h.wsConns]
    by_cases hi : i = id
    · subst hi
      simp [hold, hnew]
    · rw [Function.update_of_ne hi]
  · have hne' : i ≠ id := by
      rintro rfl
      exact hne (h.fresh i hi)
    rw [Function.update_of_ne hne']
    exact h.fresh i hi

/-- The section under the lock, when it removes the subscription. -/
theorem Core.remove (h : Core os r calls stage) {t : Thread} {id c : Nat}
    (hlive : stage id = .live c) (hself : calls' t = some (.cancel id (some c)))
    (hother : ∀ t', t' ≠ t → calls' t' = calls t') :
    Core (os ++ [.removed id c t])
      { r with subs := r.subs.erase id, wsConns := r.wsConns.erase id } calls'
      (Function.update stage id (.removed c t)) := by
  refine h.advance (by rw [hlive]; rfl) (fun i => ?_) (fun i c' => ?_) (fun i hi => ?_) ?_
  · rw [Std.ExtTreeMap.mem_erase, h.subs]
    by_cases hi : i = id
    · subst hi
      simp
    · have hne : id ≠ i := fun heq => hi heq.symm
      simp [hi, hne]
  · rw [Std.ExtTreeMap.getElem?_erase]
    by_cases hi : i = id
    · subst hi
      simp
    · have hne : id ≠ i := fun heq => hi heq.symm
      simp [hi, hne, h.wsConns]
  · have hne : i ≠ id := by
      rintro rfl
      rw [h.fresh i hi] at hlive
      cases hlive
    rw [Function.update_of_ne hne]
    exact h.fresh i hi
  · intro t' call hc
    by_cases ht : t' = t
    · subst ht
      rw [hself] at hc
      cases hc
      exact ⟨c, rfl, by rw [Function.update_self]⟩
    · rw [hother t' ht] at hc
      exact (h.calls t' call hc).update (by simp [hlive]) (by simp [hlive])

theorem Core.unsubscribe (h : Core os r calls stage) {t : Thread} {call : Call}
    (hcall : calls t = some call) (hself : calls' t = (unsubscribe r t call).2.2.1)
    (hother : ∀ t', t' ≠ t → calls' t' = calls t') :
    ∃ stage', Core (os ++ (unsubscribe r t call).2.2.2) (unsubscribe r t call).1 calls' stage' ∧
      Unsubscribed stage stage' call := by
  have hok := h.calls t call hcall
  cases call with
  | lock id =>
    by_cases hid : id ∈ r.subs
    · obtain ⟨c, hlive⟩ := (h.subs id).mp hid
      have hconn := (h.wsConns id c).mpr hlive
      simp only [Subscriptions.unsubscribe, hid, if_true, hconn] at hself ⊢
      refine ⟨_, h.remove hlive hself hother, .update ?_ (by simp) ?_⟩
      · rw [hlive]
        rfl
      · intro i hi
        cases hi
        rfl
    · simp only [Subscriptions.unsubscribe, hid, if_false] at hself ⊢
      refine ⟨stage, h.keep (by simp) (by simp) rfl rfl rfl ?_, .refl fun i c hl hi => ?_⟩
      · intro t' call' hc
        by_cases ht : t' = t
        · subst ht
          rw [hself] at hc
          cases hc
        · exact .inl (hother t' ht ▸ hc)
      · cases hi
        exact hid ((h.subs _).mpr ⟨c, hl⟩)
  | cancel id conn =>
    obtain ⟨c, rfl, hstage⟩ := hok
    obtain ⟨hsubs, hws, hfresh⟩ := h.not_live id (.cancelled c t)
      (by simp [hstage]) (by simp) (by simp [hstage])
    refine ⟨_, h.advance (by rw [hstage]; rfl) hsubs hws hfresh ?_, .update ?_ (by simp) nofun⟩
    · intro t' call' hc
      by_cases ht : t' = t
      · subst ht
        rw [hself] at hc
        cases hc
        exact Function.update_self ..
      · rw [hother t' ht] at hc
        refine (h.calls t' call' hc).update ?_ (by simp [hstage])
        intro c' heq
        rw [hstage] at heq
        cases heq
        exact ht rfl
    · rw [hstage]
      rfl
  | close id c =>
    have hstage : stage id = .cancelled c t := hok
    obtain ⟨hsubs, hws, hfresh⟩ := h.not_live id (.closed c t)
      (by simp [hstage]) (by simp) (by simp [hstage])
    refine ⟨_, h.advance (by rw [hstage]; rfl) hsubs hws hfresh ?_, .update ?_ (by simp) nofun⟩
    · intro t' call' hc
      by_cases ht : t' = t
      · subst ht
        rw [hself] at hc
        cases hc
      · rw [hother t' ht] at hc
        refine (h.calls t' call' hc).update (by simp [hstage]) ?_
        intro c' heq
        rw [hstage] at heq
        cases heq
        exact ht rfl
    · rw [hstage]
      rfl

theorem Core.register (h : Core os r calls stage) {conn subID : Nat}
    (hs : r.subscribe conn = some (r', subID)) :
    Core (os ++ [.registered subID conn]) r' calls (Function.update stage subID (.live conn)) ∧
      stage subID = .absent ∧ r.closing = false ∧ r'.closing = false := by
  unfold Registry.subscribe at hs
  split at hs
  · cases hs
  · rename_i hclosing
    cases hs
    have habsent := h.fresh r.nextSubID (Nat.le_refl _)
    refine ⟨h.advance (by rw [habsent]; rfl) (fun i => ?_) (fun i c => ?_) (fun i hi => ?_) ?_,
      habsent, Bool.eq_false_iff.mpr hclosing, Bool.eq_false_iff.mpr hclosing⟩
    · rw [Std.ExtTreeMap.mem_insert, h.subs]
      by_cases hi : i = r.nextSubID
      · subst hi
        simp
      · have hne : r.nextSubID ≠ i := fun heq => hi heq.symm
        simp [hi, hne]
    · rw [Std.ExtTreeMap.getElem?_insert]
      by_cases hi : i = r.nextSubID
      · subst hi
        simp
      · have hne : r.nextSubID ≠ i := fun heq => hi heq.symm
        simp [hi, hne, h.wsConns]
    · have hi : r.nextSubID + 1 ≤ i := hi
      rw [Function.update_of_ne (by omega)]
      exact h.fresh i (by omega)
    · intro t call hc
      exact (h.calls t call hc).update (by simp [habsent]) (by simp [habsent])

end Core

/-! ## The goroutines -/

def LoopPc.call : LoopPc → Option Call
  | .unsubscribing call => some call
  | _ => none

def RunPc.call : RunPc → Option Call
  | .evict call _ => some call
  | .unsubscribing call _ => some call
  | _ => none

/-- The call of `unsubscribe` a goroutine is in. -/
def Sys.call (s : Sys) : Thread → Option Call
  | .loop side conn => (s.loops side conn).call
  | .run => s.run.call

/-- The subscriptions that the fan-out has still to visit. -/
def RunPc.subscriptions : RunPc → List WebsocketSubscription
  | .fanout subs => subs
  | .evict _ subs => subs
  | _ => []

/-- Once shutdown has taken its copy: the ids it has still to remove. -/
def RunPc.left : RunPc → Option (List Nat)
  | .closing ids => some ids
  | .unsubscribing (.lock id) ids => some (id :: ids)
  | .unsubscribing _ ids => some ids
  | .closed => some []
  | _ => none

@[simp] theorem LoopPc.rest_call (o : Option Call) : (LoopPc.rest o).call = o := by
  cases o <;> rfl

section Run

variable (subs : List WebsocketSubscription) (ids : List Nat) (o : Option Call)

@[simp] theorem RunPc.evictRest_call : (RunPc.evictRest subs o).call = o := by
  cases o <;> rfl

@[simp] theorem RunPc.evictRest_left : (RunPc.evictRest subs o).left = none := by
  cases o <;> rfl

@[simp] theorem RunPc.evictRest_subscriptions : (RunPc.evictRest subs o).subscriptions = subs := by
  cases o <;> rfl

@[simp] theorem RunPc.closeRest_call : (RunPc.closeRest ids o).call = o := by
  cases o <;> rfl

@[simp] theorem RunPc.closeRest_subscriptions : (RunPc.closeRest ids o).subscriptions = [] := by
  cases o <;> rfl

end Run

/-- A part of a call by shutdown leaves it the ids it had, without the one it has just removed. -/
theorem RunPc.left_closeRest (r : Registry) (call : Call) {ids ids' : List Nat}
    (h : (RunPc.closeRest ids (Subscriptions.unsubscribe r .run call).2.2.1).left = some ids') :
    ∃ old, (RunPc.unsubscribing call ids).left = some old ∧
      ∀ id ∈ old, id ∈ ids' ∨ call = .lock id := by
  cases call with
  | lock id =>
    have hids : ids' = ids := by
      simp only [Subscriptions.unsubscribe] at h
      split at h <;> (cases h; rfl)
    refine ⟨id :: ids, rfl, fun i hi => ?_⟩
    rcases List.mem_cons.mp hi with rfl | hi
    · exact .inr rfl
    · exact .inl (hids ▸ hi)
  | cancel id conn =>
    cases conn <;> (cases h; exact ⟨ids, rfl, fun i hi => .inl hi⟩)
  | close id c =>
    cases h
    exact ⟨ids, rfl, fun i hi => .inl hi⟩

def Event.refusalOf (conn : Nat) : Event → Bool
  | .refused c => c = conn
  | .refusedCancelled c => c = conn
  | .refusedClosed c => c = conn
  | _ => false

/-- How far the handler of a refused connection has come. -/
inductive RefusalOk (conn : Nat) : HandlerPc → List Event → Prop where
  | none {pc : HandlerPc} (h : pc ≠ .refused) (h' : pc ≠ .refusedClose) : RefusalOk conn pc []
  | refused : RefusalOk conn .refused [.refused conn]
  | cancelled : RefusalOk conn .refusedClose [.refused conn, .refusedCancelled conn]
  | closed : RefusalOk conn .returned
      [.refused conn, .refusedCancelled conn, .refusedClosed conn]

section Refusal

variable {c : Nat} {pc : HandlerPc} {events : List Event}

theorem RefusalOk.eq_nil (h : RefusalOk c pc events) (h1 : pc ≠ .refused) (h2 : pc ≠ .refusedClose)
    (h3 : pc ≠ .returned) : events = [] := by
  cases h with
  | none _ _ => rfl
  | refused => exact absurd rfl h1
  | cancelled => exact absurd rfl h2
  | closed => exact absurd rfl h3

theorem RefusalOk.eq_refused (h : RefusalOk c .refused events) : events = [.refused c] := by
  cases h with
  | none h1 _ => exact absurd rfl h1
  | refused => rfl

theorem RefusalOk.eq_cancelled (h : RefusalOk c .refusedClose events) :
    events = [.refused c, .refusedCancelled c] := by
  cases h with
  | none _ h2 => exact absurd rfl h2
  | cancelled => rfl

end Refusal

structure Ok (os : List Event) (s : Sys) (stage : Nat → Stage) : Prop where
  core : Core os s.registry s.call stage
  conns : ∀ id c, (stage id).conn = some c →
    s.handlers c = .start id ∨ s.handlers c = .returned ∧ s.subIDs c = id
  upgrades : ∀ c, s.upgrades ≤ c → s.handlers c = .notUpgraded
  refusals : ∀ c, RefusalOk c (s.handlers c) (os.filter (Event.refusalOf c))
  left : ∀ ids, s.run.left = some ids →
    s.registry.closing = true ∧ ∀ id c, stage id = .live c → id ∈ ids
  snapshot : ∀ sub ∈ s.run.subscriptions, ∃ c, sub.conn = some c

section Ok

variable {os out : List Event} {s s' : Sys} {stage : Nat → Stage}

theorem Ok.init : Ok [] {} fun _ => .absent where
  core := Core.init _ fun t => by cases t <;> rfl
  conns := nofun
  upgrades _ _ := rfl
  refusals _ := .none nofun nofun
  left := nofun
  snapshot := nofun

theorem filter_refusal_append {c : Nat} (h : ∀ e ∈ out, e.refusalOf c = false) :
    (os ++ out).filter (Event.refusalOf c) = os.filter (Event.refusalOf c) := by
  have hnone : out.filter (Event.refusalOf c) = [] :=
    List.filter_eq_nil_iff.mpr fun e he => by simp [h e he]
  rw [List.filter_append, hnone, List.append_nil]

/-- Two subscriptions never have one connection. -/
theorem Ok.conn_inj (h : Ok os s stage) {id id' c : Nat} (hid : (stage id).conn = some c)
    (hid' : (stage id').conn = some c) : id = id' := by
  rcases h.conns id c hid with h1 | ⟨h1, h2⟩
  · rcases h.conns id' c hid' with h3 | ⟨h3, -⟩
    · rw [h1] at h3
      cases h3
      rfl
    · rw [h1] at h3
      cases h3
  · rcases h.conns id' c hid' with h3 | ⟨-, h4⟩
    · rw [h1] at h3
      cases h3
    · exact h2.symm.trans h4

/-- `run` goes on, without a call or into one; the subscriptions stay as they are. -/
theorem Ok.setRun (h : Ok os s stage) {run : RunPc} {queues : Nat → Nat} {closing : Bool}
    (hcall : ∀ call, run.call = some call → ∃ id, call = .lock id)
    (hleft : ∀ ids, run.left = some ids →
      closing = true ∧ ∀ id c, stage id = .live c → id ∈ ids)
    (hsnap : ∀ sub ∈ run.subscriptions, ∃ c, sub.conn = some c) :
    Ok os { s with run, queues, registry := { s.registry with closing } } stage := by
  have hcore : Core (os ++ []) { s.registry with closing }
      (Sys.call { s with run, queues, registry := { s.registry with closing } }) stage := by
    refine h.core.keep (by simp) (by simp) rfl rfl rfl fun t call hc => ?_
    cases t with
    | loop side conn => exact .inl hc
    | run => exact .inr (hcall call hc)
  rw [List.append_nil] at hcore
  exact ⟨hcore, h.conns, h.upgrades, h.refusals, hleft, hsnap⟩

/-- It goes on with what it had left. -/
theorem Ok.goto (h : Ok os s stage) {run : RunPc} {queues : Nat → Nat}
    (hcall : ∀ call, run.call = some call → ∃ id, call = .lock id)
    (hleft : ∀ ids, run.left = some ids → ∃ ids', s.run.left = some ids' ∧ ∀ id ∈ ids', id ∈ ids)
    (hsnap : ∀ sub ∈ run.subscriptions, sub ∈ s.run.subscriptions) :
    Ok os { s with run, queues } stage := by
  refine h.setRun hcall (fun ids hl => ?_) fun sub hsub => h.snapshot sub (hsnap sub hsub)
  obtain ⟨ids', hl', hsub⟩ := hleft ids hl
  exact ⟨(h.left ids' hl').1, fun id c hlive => hsub id ((h.left ids' hl').2 id c hlive)⟩

theorem unsubscribe_closing (r : Registry) (t : Thread) (call : Call) :
    (unsubscribe r t call).1.closing = r.closing := by
  cases call with
  | lock id =>
    simp only [unsubscribe]
    split <;> rfl
  | cancel id conn => cases conn <;> rfl
  | close id c => rfl

theorem unsubscribe_refusal (r : Registry) (t : Thread) (call : Call) (c : Nat) :
    ∀ e ∈ (unsubscribe r t call).2.2.2, e.refusalOf c = false := by
  cases call with
  | lock id =>
    simp only [unsubscribe]
    split
    · cases r.wsConns[id]? <;> simp [Event.refusalOf]
    · simp
  | cancel id conn => cases conn <;> simp [unsubscribe, Event.refusalOf]
  | close id c => simp [unsubscribe, Event.refusalOf]

/-- Some goroutine takes a step in a call of `unsubscribe`. -/
theorem Ok.unsubscribe (h : Ok os s stage) {t : Thread} {call : Call} (hcall : s.call t = some call)
    (hreg : s'.registry = (unsubscribe s.registry t call).1)
    (hself : s'.call t = (unsubscribe s.registry t call).2.2.1)
    (hother : ∀ t', t' ≠ t → s'.call t' = s.call t')
    (hhandlers : s'.handlers = s.handlers) (hids : s'.subIDs = s.subIDs)
    (hup : s'.upgrades = s.upgrades)
    (hleft : ∀ ids, s'.run.left = some ids →
      ∃ ids', s.run.left = some ids' ∧ ∀ id ∈ ids', id ∈ ids ∨ call = .lock id)
    (hsnap : ∀ sub ∈ s'.run.subscriptions, sub ∈ s.run.subscriptions) :
    ∃ stage', Ok (os ++ (unsubscribe s.registry t call).2.2.2) s' stage' := by
  obtain ⟨stage', hcore, hun⟩ := h.core.unsubscribe hcall hself hother
  rw [← hreg] at hcore
  refine ⟨stage', hcore, fun id c hc => ?_, by rw [hhandlers, hup]; exact h.upgrades, fun c => ?_,
    fun ids hl => ?_, fun sub hsub => h.snapshot sub (hsnap sub hsub)⟩
  · rw [hhandlers, hids]
    exact h.conns id c (hun.conn id ▸ hc)
  · rw [hhandlers, filter_refusal_append (unsubscribe_refusal s.registry t call c)]
    exact h.refusals c
  · obtain ⟨ids', hl', hsub⟩ := hleft ids hl
    obtain ⟨hclosing, hlive⟩ := h.left ids' hl'
    refine ⟨by rw [hreg, unsubscribe_closing]; exact hclosing, fun id c hc => ?_⟩
    obtain ⟨hold, hne⟩ := hun.live id c hc
    rcases hsub id (hlive id c hold) with hmem | heq
    · exact hmem
    · exact absurd heq hne

/-- `Sys.unsubscribe` without the context it may cancel, which nothing here depends on. -/
theorem Sys.unsubscribe_eq (s : Sys) (t : Thread) (call : Call) (goto : Option Call → Sys → Sys) :
    ∃ ctxDone, s.unsubscribe t call goto =
      (goto (Subscriptions.unsubscribe s.registry t call).2.2.1
        { s with registry := (Subscriptions.unsubscribe s.registry t call).1, ctxDone },
        (Subscriptions.unsubscribe s.registry t call).2.2.2) := by
  unfold Sys.unsubscribe
  dsimp only
  cases (Subscriptions.unsubscribe s.registry t call).2.1 with
  | none => exact ⟨s.ctxDone, rfl⟩
  | some c => exact ⟨Function.update s.ctxDone c true, rfl⟩

theorem setLoop_call_self (s : Sys) (side : Side) (c : Nat) (pc : LoopPc) :
    (s.setLoop side c pc).call (.loop side c) = pc.call := by
  simp [Sys.setLoop, Sys.call]

theorem setLoop_call_other (s : Sys) {side : Side} {c : Nat} (pc : LoopPc) {t : Thread}
    (h : t ≠ .loop side c) : (s.setLoop side c pc).call t = s.call t := by
  cases t with
  | run => rfl
  | loop side' c' =>
    by_cases hs : side' = side
    · subst hs
      have hc : c' ≠ c := by
        rintro rfl
        exact h rfl
      simp [Sys.setLoop, Sys.call, hc]
    · simp [Sys.setLoop, Sys.call, hs]

/-- A loop begins, or ends without having started a call. -/
theorem Ok.setLoop (h : Ok os s stage) (side : Side) (c : Nat) (pc : LoopPc)
    (hpc : ∀ call, pc.call = some call → ∃ id, call = .lock id) :
    Ok os (s.setLoop side c pc) stage := by
  have hcore : Core (os ++ []) s.registry (s.setLoop side c pc).call stage := by
    refine h.core.keep (by simp) (by simp) rfl rfl rfl fun t call hc => ?_
    by_cases ht : t = .loop side c
    · subst ht
      rw [setLoop_call_self] at hc
      exact .inr (hpc call hc)
    · rw [setLoop_call_other s pc ht] at hc
      exact .inl hc
  rw [List.append_nil] at hcore
  exact ⟨hcore, h.conns, h.upgrades, h.refusals, h.left, h.snapshot⟩

theorem Ok.loop (h : Ok os s stage) {side : Side} {c : Nat}
    (hs : s.loop side c = some (s', out)) : ∃ stage', Ok (os ++ out) s' stage' := by
  unfold Sys.loop at hs
  split at hs
  · cases hs
    rw [List.append_nil]
    refine ⟨stage, h.setLoop side c _ fun call hc => ?_⟩
    cases hc
    exact ⟨_, rfl⟩
  · rename_i call hpc
    obtain ⟨ctxDone, heq⟩ := s.unsubscribe_eq (.loop side c) call fun rest s =>
      s.setLoop side c (.rest rest)
    rw [heq] at hs
    cases hs
    refine h.unsubscribe (t := .loop side c) (by simp [Sys.call, hpc, LoopPc.call]) rfl ?_ ?_ rfl rfl
      rfl (fun ids hl => ⟨ids, hl, fun id hid => .inl hid⟩) fun sub hsub => hsub
    · rw [setLoop_call_self, LoopPc.rest_call]
    · intro t ht
      exact setLoop_call_other _ _ ht
  · cases hs

theorem Ok.runStep (h : Ok os s stage) (hs : s.runStep = some (s', out)) :
    ∃ stage', Ok (os ++ out) s' stage' := by
  unfold Sys.runStep at hs
  split at hs
  · cases hs
    rw [List.append_nil]
    exact ⟨stage, h.goto nofun nofun nofun⟩
  · rename_i sub rest hrun
    have hsnap : ∀ sub' ∈ rest, sub' ∈ s.run.subscriptions := by
      intro sub' hmem
      rw [hrun]
      exact List.mem_cons_of_mem _ hmem
    split at hs
    · -- the copy was made under the lock, with a connection for every subscription
      rename_i hnil
      obtain ⟨c, hc⟩ := h.snapshot sub (by rw [hrun]; exact List.mem_cons_self)
      rw [hnil] at hc
      cases hc
    · split at hs
      · cases hs
        rw [List.append_nil]
        exact ⟨stage, h.goto nofun nofun hsnap⟩
      · split at hs
        · cases hs
          rw [List.append_nil]
          exact ⟨stage, h.goto nofun nofun hsnap⟩
        · cases hs
          rw [List.append_nil]
          refine ⟨stage, h.goto (fun call hc => ?_) nofun hsnap⟩
          cases hc
          exact ⟨_, rfl⟩
  · rename_i call rest hrun
    obtain ⟨ctxDone, heq⟩ := s.unsubscribe_eq .run call fun call s =>
      { s with run := .evictRest rest call }
    rw [heq] at hs
    cases hs
    refine h.unsubscribe (t := .run) (by simp [Sys.call, hrun, RunPc.call]) rfl ?_ ?_ rfl rfl rfl ?_ ?_
    · exact RunPc.evictRest_call rest _
    · intro t ht
      cases t with
      | run => exact absurd rfl ht
      | loop side c => rfl
    · exact fun ids hl => by simp at hl
    · rw [RunPc.evictRest_subscriptions, hrun]
      exact fun sub hsub => hsub
  · rename_i hrun
    cases hs
    rw [List.append_nil]
    refine ⟨stage, h.goto nofun (fun ids hl => ⟨[], by rw [hrun]; rfl, by simp⟩) nofun⟩
  · rename_i id ids hrun
    cases hs
    rw [List.append_nil]
    refine ⟨stage, h.goto (fun call hc => ?_) (fun ids' hl => ⟨id :: ids, by rw [hrun]; rfl, ?_⟩) nofun⟩
    · cases hc
      exact ⟨_, rfl⟩
    · cases hl
      exact fun _ hmem => hmem
  · rename_i call ids hrun
    obtain ⟨ctxDone, heq⟩ := s.unsubscribe_eq .run call fun call s =>
      { s with run := .closeRest ids call }
    rw [heq] at hs
    cases hs
    refine h.unsubscribe (t := .run) (by simp [Sys.call, hrun, RunPc.call]) rfl ?_ ?_ rfl rfl rfl ?_ ?_
    · exact RunPc.closeRest_call ids _
    · intro t ht
      cases t with
      | run => exact absurd rfl ht
      | loop side c => rfl
    · intro ids' hl
      rw [hrun]
      exact RunPc.left_closeRest s.registry call hl
    · simp
  · cases hs

/-- The handler of a connection goes on; nothing happens to a subscription. -/
theorem Ok.setHandler (h : Ok os s stage) {c : Nat} {pc : HandlerPc}
    (hout : ∀ e ∈ out, e.subscription = none) (hnil : ∀ t, .nilConn t ∉ out)
    (hconns : ∀ id, (stage id).conn ≠ some c) (hup : c < s.upgrades)
    (hself : RefusalOk c pc ((os ++ out).filter (Event.refusalOf c)))
    (hother : ∀ c', c' ≠ c → ∀ e ∈ out, e.refusalOf c' = false) :
    Ok (os ++ out) (s.setHandler c pc) stage := by
  refine ⟨h.core.keep hout hnil rfl rfl rfl fun t call hc => .inl hc, fun id c' hc => ?_,
    fun c' hle => ?_, fun c' => ?_, h.left, h.snapshot⟩
  · have hne : c' ≠ c := by
      rintro rfl
      exact hconns id hc
    simp only [Sys.setHandler, Function.update_of_ne hne]
    exact h.conns id c' hc
  · have hne : c' ≠ c := by
      rintro rfl
      exact absurd hup (Nat.not_lt.mpr hle)
    simp only [Sys.setHandler, Function.update_of_ne hne]
    exact h.upgrades c' hle
  · by_cases hc : c' = c
    · subst hc
      simp only [Sys.setHandler, Function.update_self]
      exact hself
    · simp only [Sys.setHandler, Function.update_of_ne hc]
      rw [filter_refusal_append (hother c' hc)]
      exact h.refusals c'

theorem Ok.upgraded (h : Ok os s stage) {c : Nat} (hpc : s.handlers c ≠ .notUpgraded) :
    c < s.upgrades := by
  by_contra hle
  exact hpc (h.upgrades c (Nat.not_lt.mp hle))

/-- The connection of a handler that has not subscribed yet has no subscription. -/
theorem Ok.conn_ne (h : Ok os s stage) {c : Nat} (hstart : ∀ id, s.handlers c ≠ .start id)
    (hret : s.handlers c ≠ .returned) (id : Nat) : (stage id).conn ≠ some c := by
  intro hc
  rcases h.conns id c hc with hpc | ⟨hpc, -⟩
  · exact hstart id hpc
  · exact hret hpc

theorem Ok.subscribed (h : Ok os s stage) {c subID : Nat} {registry : Registry}
    (hpc : s.handlers c = .subscribe) (hs : s.registry.subscribe c = some (registry, subID)) :
    Ok (os ++ [.registered subID c]) ({ s with registry }.setHandler c (.start subID))
      (Function.update stage subID (.live c)) := by
  have hup := h.upgraded (c := c) (by simp [hpc])
  have hne := h.conn_ne (c := c) (by simp [hpc]) (by simp [hpc])
  obtain ⟨hcore, -, hclosing, -⟩ := h.core.register hs
  refine ⟨hcore, fun id c' hc => ?_, fun c' hle => ?_, fun c' => ?_, fun ids hl => ?_, h.snapshot⟩
  · by_cases hid : id = subID
    · subst hid
      rw [Function.update_self] at hc
      cases hc
      exact .inl (Function.update_self ..)
    · rw [Function.update_of_ne hid] at hc
      have hcc : c' ≠ c := by
        rintro rfl
        exact hne id hc
      simp only [Sys.setHandler, Function.update_of_ne hcc]
      exact h.conns id c' hc
  · have hcc : c' ≠ c := by
      rintro rfl
      exact absurd hup (Nat.not_lt.mpr hle)
    simp only [Sys.setHandler, Function.update_of_ne hcc]
    exact h.upgrades c' hle
  · have href := h.refusals c'
    rw [filter_refusal_append (by simp [Event.refusalOf])]
    by_cases hcc : c' = c
    · subst hcc
      simp only [Sys.setHandler, Function.update_self]
      rw [hpc] at href
      rw [href.eq_nil nofun nofun nofun]
      exact .none nofun nofun
    · simp only [Sys.setHandler, Function.update_of_ne hcc]
      exact href
  · -- shutdown has not begun, or the subscription would have been refused
    rw [(h.left ids hl).1] at hclosing
    cases hclosing

theorem Ok.started (h : Ok os s stage) {c subID : Nat} (hpc : s.handlers c = .start subID) :
    Ok os ({ s with subIDs := Function.update s.subIDs c subID }.setHandler c .returned) stage := by
  have hup := h.upgraded (c := c) (by simp [hpc])
  refine ⟨h.core, fun id c' hc => ?_, fun c' hle => ?_, fun c' => ?_, h.left, h.snapshot⟩
  · by_cases hcc : c' = c
    · subst hcc
      right
      simp only [Sys.setHandler, Function.update_self]
      rcases h.conns id c' hc with hold | ⟨hold, -⟩
      · rw [hpc] at hold
        cases hold
        exact ⟨trivial, rfl⟩
      · rw [hpc] at hold
        cases hold
    · simp only [Sys.setHandler, Function.update_of_ne hcc]
      exact h.conns id c' hc
  · have hcc : c' ≠ c := by
      rintro rfl
      exact absurd hup (Nat.not_lt.mpr hle)
    simp only [Sys.setHandler, Function.update_of_ne hcc]
    exact h.upgrades c' hle
  · have href := h.refusals c'
    by_cases hcc : c' = c
    · subst hcc
      simp only [Sys.setHandler, Function.update_self]
      rw [hpc] at href
      rw [href.eq_nil nofun nofun nofun]
      exact .none nofun nofun
    · simp only [Sys.setHandler, Function.update_of_ne hcc]
      exact href

theorem Ok.handler (h : Ok os s stage) {c : Nat} (hs : s.handler c = some (s', out)) :
    ∃ stage', Ok (os ++ out) s' stage' := by
  have href := h.refusals c
  unfold Sys.handler at hs
  split at hs
  · rename_i hpc
    split at hs
    · cases hs
      have hup := h.upgraded (c := c) (by simp [hpc])
      have hne := h.conn_ne (c := c) (by simp [hpc]) (by simp [hpc])
      refine ⟨stage, h.setHandler (by simp [Event.subscription]) (by simp) hne hup ?_ ?_⟩
      · rw [hpc] at href
        rw [List.filter_append, href.eq_nil nofun nofun nofun]
        simpa [Event.refusalOf] using RefusalOk.refused
      · intro c' hcc
        simp [Event.refusalOf, hcc.symm]
    · rename_i registry subID hsub
      cases hs
      exact ⟨_, h.subscribed hpc hsub⟩
  · rename_i subID hpc
    cases hs
    rw [List.append_nil]
    have hrx := (h.started hpc).setLoop .rx c .running nofun
    exact ⟨stage, hrx.setLoop .tx c .running nofun⟩
  · rename_i hpc
    cases hs
    have hup := h.upgraded (c := c) (by simp [hpc])
    have hne := h.conn_ne (c := c) (by simp [hpc]) (by simp [hpc])
    have hctx : Ok os (s.ctxCancel c) stage :=
      ⟨h.core, h.conns, h.upgrades, h.refusals, h.left, h.snapshot⟩
    refine ⟨stage, hctx.setHandler (by simp [Event.subscription]) (by simp) hne hup ?_ ?_⟩
    · rw [hpc] at href
      rw [List.filter_append, href.eq_refused]
      simpa [Event.refusalOf] using RefusalOk.cancelled
    · intro c' hcc
      simp [Event.refusalOf, hcc.symm]
  · rename_i hpc
    cases hs
    have hup := h.upgraded (c := c) (by simp [hpc])
    have hne := h.conn_ne (c := c) (by simp [hpc]) (by simp [hpc])
    refine ⟨stage, h.setHandler (by simp [Event.subscription]) (by simp) hne hup ?_ ?_⟩
    · rw [hpc] at href
      rw [List.filter_append, href.eq_cancelled]
      simpa [Event.refusalOf] using RefusalOk.closed
    · intro c' hcc
      simp [Event.refusalOf, hcc.symm]
  · cases hs

theorem Ok.upgrade (h : Ok os s stage) :
    Ok os { s.setHandler s.upgrades .subscribe with upgrades := s.upgrades + 1 } stage := by
  have hnew := h.upgrades s.upgrades (Nat.le_refl _)
  refine ⟨h.core, fun id c hc => ?_, fun c hle => ?_, fun c => ?_, h.left, h.snapshot⟩
  · have hne : c ≠ s.upgrades := by
      rintro rfl
      exact h.conn_ne (by simp [hnew]) (by simp [hnew]) id hc
    simp only [Sys.setHandler, Function.update_of_ne hne]
    exact h.conns id c hc
  · have hle : s.upgrades + 1 ≤ c := hle
    simp only [Sys.setHandler]
    rw [Function.update_of_ne (by omega)]
    exact h.upgrades c (by omega)
  · have href := h.refusals c
    simp only [Sys.setHandler]
    by_cases hc : c = s.upgrades
    · subst hc
      rw [hnew] at href
      rw [Function.update_self, href.eq_nil nofun nofun nofun]
      exact .none nofun nofun
    · rw [Function.update_of_ne hc]
      exact href

/-- The fan-out copies the subscriptions, each with its connection. -/
theorem Ok.notify (h : Ok os s stage) {ids : List Nat} (hids : ids.Perm s.registry.subs.keys) :
    Ok os { s with run := .fanout (ids.map fun id =>
      ⟨id, s.registry.subs[id]?.getD 0, s.registry.wsConns[id]?⟩) } stage := by
  refine h.setRun nofun nofun fun sub hsub => ?_
  obtain ⟨id, hid, rfl⟩ := List.mem_map.mp hsub
  have hmem : id ∈ s.registry.subs := Std.ExtTreeMap.mem_keys.mp (hids.mem_iff.mp hid)
  obtain ⟨c, hlive⟩ := (h.core.subs id).mp hmem
  exact ⟨c, (h.core.wsConns id c).mpr hlive⟩

/-- Shutdown marks `closing` and copies the ids in one section, so it misses none. -/
theorem Ok.close (h : Ok os s stage) {ids : List Nat} (hids : ids.Perm s.registry.wsConns.keys) :
    Ok os { s with registry := { s.registry with closing := true }, run := .closing ids }
      stage := by
  refine h.setRun nofun (fun ids' hl => ⟨rfl, fun id c hlive => ?_⟩) nofun
  cases hl
  have hmem : id ∈ s.registry.wsConns := by
    rw [← Std.ExtTreeMap.isSome_getElem?_iff_mem, (h.core.wsConns id c).mpr hlive]
    rfl
  exact hids.mem_iff.mpr (Std.ExtTreeMap.mem_keys.mpr hmem)

theorem Ok.step (h : Ok os s stage) {a : Action} (hs : step s a = some (s', out)) :
    ∃ stage', Ok (os ++ out) s' stage' := by
  cases a with
  | upgrade =>
    cases hs
    rw [List.append_nil]
    exact ⟨stage, h.upgrade⟩
  | handler c => exact h.handler hs
  | loop side c => exact h.loop hs
  | take c =>
    simp only [Subscriptions.step] at hs
    split at hs <;> cases hs
    rw [List.append_nil]
    exact ⟨stage, h.core, h.conns, h.upgrades, h.refusals, h.left, h.snapshot⟩
  | notify ids =>
    simp only [Subscriptions.step] at hs
    split at hs
    · rename_i hc
      cases hs
      rw [List.append_nil]
      exact ⟨stage, h.notify hc.2⟩
    · cases hs
  | stop =>
    simp only [Subscriptions.step] at hs
    split at hs <;> cases hs
    rw [List.append_nil]
    exact ⟨stage, h.goto nofun nofun nofun⟩
  | close ids =>
    simp only [Subscriptions.step] at hs
    split at hs
    · rename_i hc
      cases hs
      rw [List.append_nil]
      exact ⟨stage, h.close hc.2⟩
    · cases hs
  | run => exact h.runStep hs

end Ok

theorem ok_run {os : List Event} {s : Sys} (h : Guarded.Path webserver os s) :
    ∃ stage, Ok os s stage := by
  refine Guarded.Path.history (I := fun os s => ∃ stage, Ok os s stage) ⟨_, Ok.init⟩ ?_ h
  rintro os s a s' out ⟨stage, hok⟩ hs
  exact hok.step hs

/-! ## What follows -/

/-- The id that an event registers. -/
def Event.registeredID : Event → Option Nat
  | .registered id _ => some id
  | _ => none

def Event.removes (conn : Nat) : Event → Bool
  | .removed _ c _ => c = conn
  | _ => false

def Event.cancels (conn : Nat) : Event → Bool
  | .cancelled _ c _ => c = conn
  | _ => false

def Event.closes (conn : Nat) : Event → Bool
  | .closed _ c _ => c = conn
  | _ => false

section Consequences

variable {os out : List Event} {s s' : Sys} {stage : Nat → Stage}

/-- Events that are all about one subscription are counted in its history. -/
theorem Core.countP_eq {r : Registry} {calls : Thread → Option Call} (h : Core os r calls stage)
    {id : Nat} {q : Event → Bool} (hq : ∀ e ∈ os, q e = true → e.isOf id = true) :
    os.countP q = ((stage id).history id).countP q := by
  rw [← h.trace id, List.countP_filter]
  refine List.countP_congr fun e he => ?_
  constructor
  · intro hqe
    simp [hqe, hq e he hqe]
  · intro hqe
    exact (Bool.and_eq_true_iff.mp hqe).1

theorem Ok.registered_nodup (h : Ok os s stage) : (os.filterMap Event.registeredID).Nodup := by
  refine List.nodup_iff_count_le_one.mpr fun id => ?_
  have hcount : (os.filterMap Event.registeredID).count id =
      os.countP fun e => e.registeredID = some id := by
    rw [List.count, List.countP_filterMap]
    congr 1
    funext e
    cases e.registeredID with
    | none => rfl
    | some i => simp [beq_eq_decide]
  have hof : ∀ e ∈ os, decide (e.registeredID = some id) = true → e.isOf id = true := by
    intro e _ he
    cases e with
    | registered i c => simpa [Event.registeredID, Event.isOf, Event.subscription] using he
    | _ => simp [Event.registeredID] at he
  rw [hcount, h.core.countP_eq hof]
  cases stage id <;> simp [Stage.history, Event.registeredID]

theorem Ok.conn_of_mem (h : Ok os s stage) {e : Event} {id c : Nat} (he : e ∈ os)
    (hsub : e.subscription = some (id, c)) : (stage id).conn = some c := by
  have hmem : e ∈ os.filter (Event.isOf id) := by simp [he, Event.isOf, hsub]
  rw [h.core.trace] at hmem
  exact Stage.conn_of_mem hmem hsub

/-- Events about one connection are counted in the history of its subscription. -/
theorem Ok.countP_conn (h : Ok os s stage) {id c : Nat} (hid : (stage id).conn = some c)
    {q : Event → Bool} (hq : ∀ e, q e = true → ∃ i, e.subscription = some (i, c)) :
    os.countP q = ((stage id).history id).countP q := by
  refine h.core.countP_eq fun e he hqe => ?_
  obtain ⟨i, hsub⟩ := hq e hqe
  have hi : i = id := h.conn_inj (h.conn_of_mem he hsub) hid
  simp [Event.isOf, hsub, hi]

/-- What happens at most once to a subscription happens at most once to a connection. -/
theorem Ok.countP_le_one (h : Ok os s stage) {c : Nat} {q : Event → Bool}
    (hq : ∀ e, q e = true → ∃ i, e.subscription = some (i, c))
    (honce : ∀ (st : Stage) (id : Nat), (st.history id).countP q ≤ 1) : os.countP q ≤ 1 := by
  by_cases hzero : os.countP q = 0
  · omega
  · obtain ⟨e, he, hqe⟩ := List.countP_pos_iff.mp (Nat.pos_of_ne_zero hzero)
    obtain ⟨id, hsub⟩ := hq e hqe
    rw [h.countP_conn (h.conn_of_mem he hsub) hq]
    exact honce (stage id) id

theorem Ok.cancels_le (h : Ok os s stage) (c : Nat) : os.countP (Event.cancels c) ≤ 1 := by
  refine h.countP_le_one (c := c) (fun e he => ?_) fun st id => ?_
  · cases e <;> simp_all [Event.cancels, Event.subscription]
  · cases st <;> grind [Stage.history, Event.cancels]

theorem Ok.closes_le (h : Ok os s stage) (c : Nat) : os.countP (Event.closes c) ≤ 1 := by
  refine h.countP_le_one (c := c) (fun e he => ?_) fun st id => ?_
  · cases e <;> simp_all [Event.closes, Event.subscription]
  · cases st <;> grind [Stage.history, Event.closes]

theorem step_refusedClose {c : Nat} (hpc : s.handlers c = .refusedClose) :
    webserver.step s (.handler c) = some (s.setHandler c .returned, [.refusedClosed c]) := by
  simp [webserver, step, Sys.handler, hpc]

/-- The handler of a refused connection closes it, in at most two more steps of its own. -/
theorem Ok.refused_closed (h : Ok os s stage) {c : Nat} (hmem : .refused c ∈ os) :
    ∃ n ≤ 2, ∃ os' s', webserver.exec (os, s) (List.replicate n (.handler c)) = some (os', s') ∧
      .refusedClosed c ∈ os' := by
  have href := h.refusals c
  have hfilter : .refused c ∈ os.filter (Event.refusalOf c) := by simp [hmem, Event.refusalOf]
  generalize hev : os.filter (Event.refusalOf c) = events at href hfilter
  generalize hpc : s.handlers c = pc at href
  cases href with
  | none _ _ => cases hfilter
  | refused =>
    have hcancel : webserver.step s (.handler c) =
        some ((s.ctxCancel c).setHandler c .refusedClose, [.refusedCancelled c]) := by
      simp [webserver, Subscriptions.step, Sys.handler, hpc]
    have hclose := step_refusedClose (s := (s.ctxCancel c).setHandler c .refusedClose) (c := c)
      (by simp [Sys.setHandler])
    refine ⟨2, Nat.le_refl _, os ++ [.refusedCancelled c] ++ [.refusedClosed c],
      ((s.ctxCancel c).setHandler c .refusedClose).setHandler c .returned, ?_, by simp⟩
    simp only [List.replicate, Guarded.exec, hcancel, hclose]
  | cancelled =>
    have hclose := step_refusedClose hpc
    refine ⟨1, by decide, os ++ [.refusedClosed c], s.setHandler c .returned, ?_, by simp⟩
    simp only [List.replicate, Guarded.exec, hclose]
  | closed =>
    refine ⟨0, by decide, os, s, rfl, ?_⟩
    have hclosed : .refusedClosed c ∈ os.filter (Event.refusalOf c) := by simp [hev]
    exact (List.mem_filter.mp hclosed).1

/-- After shutdown no subscription is live. -/
theorem Ok.none_live (h : Ok os s stage) (hrun : s.run = .closed) (id c : Nat) :
    stage id ≠ .live c := by
  intro hlive
  have hmem := (h.left [] (by rw [hrun]; rfl)).2 id c hlive
  cases hmem

theorem Ok.maps_empty (h : Ok os s stage) (hrun : s.run = .closed) :
    s.registry.subs = ∅ ∧ s.registry.wsConns = ∅ := by
  constructor
  · refine Std.ExtTreeMap.ext_getElem? fun id => ?_
    have hnot : id ∉ s.registry.subs := by
      intro hmem
      obtain ⟨c, hlive⟩ := (h.core.subs id).mp hmem
      exact h.none_live hrun id c hlive
    simpa using hnot
  · refine Std.ExtTreeMap.ext_getElem? fun id => ?_
    cases hc : s.registry.wsConns[id]? with
    | none => simp
    | some c => exact absurd ((h.core.wsConns id c).mp hc) (h.none_live hrun id c)

theorem Ok.removed_once (h : Ok os s stage) (hrun : s.run = .closed) {id c : Nat}
    (hmem : .registered id c ∈ os) : os.countP (Event.removes c) = 1 := by
  have hconn : (stage id).conn = some c := h.conn_of_mem hmem rfl
  have hq : ∀ e, Event.removes c e = true → ∃ i, e.subscription = some (i, c) := by
    intro e he
    cases e <;> simp_all [Event.removes, Event.subscription]
  rw [h.countP_conn hconn hq]
  have hlive := h.none_live hrun id
  cases hst : stage id with
  | absent => simp [hst, Stage.conn] at hconn
  | live c' => exact absurd hst (hlive c')
  | removed c' t | cancelled c' t | closed c' t =>
    simp only [hst, Stage.conn, Option.some.injEq] at hconn
    simp [Stage.history, Event.removes, hconn]

/-- After shutdown a connection that asks to be registered is refused. -/
theorem Ok.closed_step (h : Ok os s stage) (hrun : s.run = .closed) {a : Action}
    (hs : Subscriptions.step s a = some (s', out)) : s'.run = .closed ∧ ∀ id c, .registered id c ∉ out := by
  have hclosing := (h.left [] (by rw [hrun]; rfl)).1
  cases a with
  | upgrade =>
    cases hs
    exact ⟨hrun, by simp⟩
  | handler c =>
    simp only [Subscriptions.step, Sys.handler] at hs
    split at hs
    · simp only [Registry.subscribe, hclosing, if_true] at hs
      cases hs
      exact ⟨hrun, by simp⟩
    all_goals
      cases hs
      try exact ⟨hrun, by simp⟩
  | loop side c =>
    simp only [Subscriptions.step, Sys.loop] at hs
    split at hs
    · cases hs
      exact ⟨hrun, by simp⟩
    · rename_i call hpc
      obtain ⟨ctxDone, heq⟩ := s.unsubscribe_eq (.loop side c) call fun rest s =>
        s.setLoop side c (.rest rest)
      rw [heq] at hs
      cases hs
      refine ⟨hrun, fun id c' => ?_⟩
      cases call with
      | lock i =>
        simp only [Subscriptions.unsubscribe]
        split
        · cases s.registry.wsConns[i]? <;> simp
        · simp
      | cancel i conn => cases conn <;> simp [Subscriptions.unsubscribe]
      | close i c => simp [Subscriptions.unsubscribe]
    · cases hs
  | take c =>
    simp only [Subscriptions.step] at hs
    split at hs <;> cases hs
    exact ⟨hrun, by simp⟩
  | notify ids => simp [Subscriptions.step, hrun] at hs
  | stop => simp [Subscriptions.step, hrun] at hs
  | close ids => simp [Subscriptions.step, hrun] at hs
  | run => simp [Subscriptions.step, Sys.runStep, hrun] at hs

end Consequences

/-- **The lifecycle of subscriptions.** The two maps agree, ids are not reused, what `unsubscribe` does
to a connection it does once, a refused connection is closed by its handler, and after shutdown
nothing is left and nothing can come. -/
theorem subscription_lifecycle {os : List Event} {s : Sys} (h : Guarded.Path webserver os s) :
    (∀ id, id ∈ s.registry.subs ↔ id ∈ s.registry.wsConns) ∧
      (os.filterMap Event.registeredID).Nodup ∧
      (∀ c, os.countP (Event.cancels c) ≤ 1 ∧ os.countP (Event.closes c) ≤ 1) ∧
      (∀ c, .refused c ∈ os → ∃ n ≤ 2, ∃ os' s',
        webserver.exec (os, s) (List.replicate n (.handler c)) = some (os', s') ∧
          .refusedClosed c ∈ os') ∧
      (s.run = .closed →
        s.registry.subs = ∅ ∧ s.registry.wsConns = ∅ ∧
        (∀ a s' out, step s a = some (s', out) →
          s'.run = .closed ∧ ∀ id c, .registered id c ∉ out) ∧
        ∀ id c, .registered id c ∈ os → os.countP (Event.removes c) = 1) := by
  obtain ⟨stage, hok⟩ := ok_run h
  refine ⟨fun id => ?_, hok.registered_nodup, fun c => ⟨hok.cancels_le c, hok.closes_le c⟩,
    fun c hc => hok.refused_closed hc, fun hrun => ?_⟩
  · rw [hok.core.subs, ← Std.ExtTreeMap.isSome_getElem?_iff_mem, Option.isSome_iff_exists]
    simp only [hok.core.wsConns]
  · obtain ⟨hsubs, hconns⟩ := hok.maps_empty hrun
    exact ⟨hsubs, hconns, fun a s' out hs => hok.closed_step hrun hs,
      fun id c hmem => hok.removed_once hrun hmem⟩

/-- Two clients: the receive loop of the first ends while shutdown removes it too, and the third
connection comes too late. -/
def shutdownRace : List Action :=
  [.upgrade, .handler 0, .handler 0, .upgrade, .handler 1, .handler 1, .loop .rx 0, .stop,
   .close [0, 1], .upgrade, .handler 2, .run, .loop .rx 0, .run, .run, .run, .loop .rx 0, .run, .run,
   .run, .loop .rx 0]

theorem subscription_lifecycle_shutdownRace :
    ∃ os s, Guarded.Path webserver os s ∧ s.run = .closed ∧
      .registered 0 0 ∈ os ∧ .registered 1 1 ∈ os ∧ .refused 2 ∈ os ∧
      s.registry.subs = ∅ ∧ os.countP (Event.removes 0) = 1 ∧ os.countP (Event.removes 1) = 1 ∧
      ∃ n ≤ 2, ∃ os' s', webserver.exec (os, s) (List.replicate n (.handler 2)) = some (os', s') ∧
        .refusedClosed 2 ∈ os' := by
  obtain ⟨os, s, hpath, hp⟩ := Guarded.exists_path (G := webserver) (a := shutdownRace)
    (p := fun r => r.2.run = .closed && r.1.contains (.registered 0 0) &&
      r.1.contains (.registered 1 1) && r.1.contains (.refused 2)) (by decide)
  simp only [Bool.and_eq_true, decide_eq_true_eq, and_assoc, List.contains_iff_mem] at hp
  obtain ⟨hrun, h0, h1, h2⟩ := hp
  obtain ⟨-, -, -, hrefused, hclosed⟩ := subscription_lifecycle hpath
  obtain ⟨hsubs, -, -, honce⟩ := hclosed hrun
  exact ⟨os, s, hpath, hrun, h0, h1, h2, hsubs, honce 0 0 h0, honce 1 1 h1, hrefused 2 h2⟩

end Subscriptions
end Montray
