import Montray.Client.Persistence
import Montray.Client.ServerView

/-!
# Montray.Client.Runtime

`run_async`: the loop that owns the reducer, performs its effects and publishes its snapshots, with
the other writers of the state file running beside it.

One iteration takes an event, reduces it, performs the effects in order and publishes. A write of
the snoozes is a worker's: it is started, it runs its transaction, and the loop takes its result;
the other writers' transactions may come between any two steps. The clocks are arguments of the
steps that read them.

* `runtimeStep`, `runtime`: the loop as a machine.
* `runtimeStep_cases`: what a step of it can do to the reducer and to the loop's place.
-/

namespace Montray
namespace Client

open Lib

/-- A reading of the monotonic clock, in nanoseconds. -/
abbrev Instant := Nat

def expiryPersistenceRetryDelay : Nat := 10 * 10 ^ 9

/-! ## Commands -/

def minOffsetDateTime : OffsetDateTime := -377705116800 * 10 ^ 9

def maxOffsetDateTime : OffsetDateTime := 253402300800 * 10 ^ 9 - 1

def saturatingAdd (t : OffsetDateTime) (duration : Int) : OffsetDateTime :=
  max minOffsetDateTime (min maxOffsetDateTime (t + duration))

inductive Command where
  | snooze (key : String) (duration : Int)
  | unsnooze (key : String)
  | forgetStale (key : String)
  deriving DecidableEq, Repr

def commandEvent (now : OffsetDateTime) : Command → Event
  | .snooze key duration => .snooze key (saturatingAdd now duration)
  | .unsnooze key => .unsnooze key
  | .forgetStale key => .forgetStale key

/-! ## Snooze writes -/

def SnoozeAction.isExpire : SnoozeAction → Bool
  | .expire _ => true
  | _ => false

/-- The cooldown applies to automatic expirations only. -/
def snoozePersistenceIsDue (action : SnoozeAction) (expiryRetryNotBefore : Option Instant)
    (now : Instant) : Bool :=
  !action.isExpire || expiryRetryNotBefore.all fun deadline => deadline ≤ now

def snoozeExpiryNotifications (action : SnoozeAction) (state : AppState) (now : OffsetDateTime) :
    List (String × String) :=
  match action with
  | .expire keys =>
    let active := (state.snapshot now).active
    keys.filterMap fun key =>
      (active.find? fun incident => incident.key = key).map fun incident =>
        ("Snooze ended: " ++ incident.key, incident.details)
  | _ => []

def snoozeFailureNotification (action : SnoozeAction) (details : String) :
    Option (String × String) :=
  let body := "The snooze state was not changed.\n\n" ++ details
  match action with
  | .set key _ => some ("Failed to snooze incident " ++ key, body)
  | .remove key => some ("Failed to unsnooze incident " ++ key, body)
  | .expire _ => none

/-! ## The loop -/

inductive RuntimePc where
  | head
  /-- The effects still to perform, and the two reasons to publish at the end. -/
  | effects (rest : List Effect) (changed refresh : Bool)
  /-- A worker has been given the map. -/
  | persist (snoozes : KeyMap OffsetDateTime) (action : SnoozeAction) (rest : List Effect)
      (changed refresh : Bool)
  /-- The worker has ended; the error is its details. -/
  | written (snoozes : KeyMap OffsetDateTime) (action : SnoozeAction) (result : Except String Unit)
      (rest : List Effect) (changed refresh : Bool)
  | stopped

structure Runtime where
  state : AppState
  disk : Disk
  expiryRetryNotBefore : Option Instant
  pc : RuntimePc

inductive RuntimeAction where
  | network (e : Event)
  | command (command : Command) (now : OffsetDateTime)
  | tick (now : OffsetDateTime)
  | shutdown
  | effect (now : Instant)
  /-- The worker's transaction. -/
  | work (io : StoreIo)
  /-- The worker panicked, which it can do before its last step only. -/
  | workerFailed (error : String)
  | resume (now : OffsetDateTime) (instant : Instant)
  | publish (now : OffsetDateTime)
  /-- A transaction of another writer. -/
  | write (writer : Writer) (io : StoreIo)

inductive RuntimeOutput where
  | notify (title body : String)
  /-- The log lines of a successful write. -/
  | saved (action : SnoozeAction)
  | publish (snapshot : UiSnapshot)

section Loop

variable (formatIncidentTime : OffsetDateTime → String) (rfc3339 : Rfc3339) (store : Store)

/-- The top of an iteration, up to the effects. -/
def Runtime.begin (s : Runtime) (e : Event) (refresh : Bool) : Runtime :=
  let r := reduce formatIncidentTime s.state e
  { s with state := r.1, pc := .effects r.2.effects r.2.changed refresh }

def Runtime.committed (s : Runtime) (snoozes : KeyMap OffsetDateTime) (action : SnoozeAction)
    (rest : List Effect) (changed refresh : Bool) (now : OffsetDateTime) :
    Runtime × List RuntimeOutput :=
  let r := reduce formatIncidentTime s.state (.snoozesPersisted snoozes)
  ({ s with
      state := r.1
      expiryRetryNotBefore := none
      pc := .effects rest (changed || r.2.changed) refresh },
    .saved action :: (snoozeExpiryNotifications action r.1 now).map fun p => .notify p.1 p.2)

def Runtime.refused (s : Runtime) (action : SnoozeAction) (details : String) (rest : List Effect)
    (changed refresh : Bool) (instant : Instant) : Runtime × List RuntimeOutput :=
  ({ s with
      expiryRetryNotBefore :=
        if action.isExpire then some (instant + expiryPersistenceRetryDelay)
        else s.expiryRetryNotBefore
      pc := .effects rest changed refresh },
    (snoozeFailureNotification action details).toList.map fun p => .notify p.1 p.2)

def runtimeStep (s : Runtime) (a : RuntimeAction) : Option (Runtime × List RuntimeOutput) :=
  match s.pc, a with
  | _, .write writer io => some ({ s with disk := (store.update io writer.change s.disk).1 }, [])
  | .head, .network e =>
    if e.server?.isSome then some (s.begin formatIncidentTime e false, []) else none
  | .head, .command command now =>
    some (s.begin formatIncidentTime (commandEvent now command) false, [])
  | .head, .tick now => some (s.begin formatIncidentTime (.tick now) true, [])
  | .head, .shutdown => some ({ s with pc := .stopped }, [])
  | .effects (.notify title body :: rest) changed refresh, .effect _ =>
    some ({ s with pc := .effects rest changed refresh }, [.notify title body])
  | .effects (.persistSnoozes snoozes action :: rest) changed refresh, .effect now =>
    if snoozePersistenceIsDue action s.expiryRetryNotBefore now then
      some ({ s with pc := .persist snoozes action rest changed refresh }, [])
    else some ({ s with pc := .effects rest changed refresh }, [])
  | .persist snoozes action rest changed refresh, .work io =>
    let r := store.persistSnoozes rfc3339 io snoozes s.disk
    some ({ s with
        disk := r.1
        pc := .written snoozes action (r.2.mapError Chain.display) rest changed refresh }, [])
  | .persist snoozes action rest changed refresh, .workerFailed e =>
    some ({ s with
        pc := .written snoozes action (.error ("snooze persistence worker failed: " ++ e)) rest
          changed refresh }, [])
  | .written snoozes action (.ok _) rest changed refresh, .resume now _ =>
    some (s.committed formatIncidentTime snoozes action rest changed refresh now)
  | .written _ action (.error details) rest changed refresh, .resume _ instant =>
    some (s.refused action details rest changed refresh instant)
  | .effects [] changed refresh, .publish now =>
    some ({ s with pc := .head },
      if changed || refresh then [.publish (s.state.snapshot now)] else [])
  | _, _ => none

/-- The loop as it starts: the first thing it does is to publish. -/
def runtime (serverIds : List String) (snoozes : KeyMap OffsetDateTime) (disk : Disk) :
    Guarded Runtime RuntimeAction RuntimeOutput where
  init := ⟨AppState.new serverIds snoozes, disk, none, .effects [] true false⟩
  step := runtimeStep formatIncidentTime rfc3339 store

/-! ## What a step can do -/

/-- The event that an action hands to the reducer. -/
def RuntimeAction.event? : RuntimeAction → Option Event
  | .network e => some e
  | .command c now => some (commandEvent now c)
  | .tick now => some (.tick now)
  | _ => none

inductive LoopStep (s : Runtime) (a : RuntimeAction) (s' : Runtime) (out : List RuntimeOutput) :
    Prop where
  /-- Another writer's transaction. -/
  | aside (ha : a.event? = none) (hstate : s'.state = s.state) (hpc : s'.pc = s.pc)
      (hout : out = [])
  | start (e : Event) (refresh : Bool) (ha : a.event? = some e)
      (he : ∀ snoozes, e ≠ .snoozesPersisted snoozes) (hpc : s.pc = .head)
      (hs' : s' = s.begin formatIncidentTime e refresh) (hout : out = [])
  | stop (ha : a.event? = none) (hstate : s'.state = s.state) (hpc : s'.pc = .stopped)
      (hout : out = [])
  | announce (title body : String) (rest : List Effect) (changed refresh : Bool)
      (ha : a.event? = none) (hpc : s.pc = .effects (.notify title body :: rest) changed refresh)
      (hstate : s'.state = s.state) (hpc' : s'.pc = .effects rest changed refresh)
      (hout : out = [.notify title body])
  | propose (snoozes : KeyMap OffsetDateTime) (action : SnoozeAction) (rest : List Effect)
      (changed refresh : Bool) (ha : a.event? = none)
      (hpc : s.pc = .effects (.persistSnoozes snoozes action :: rest) changed refresh)
      (hstate : s'.state = s.state) (hpc' : s'.pc = .persist snoozes action rest changed refresh)
      (hout : out = [])
  /-- The cooldown of a failed expiry is not over. -/
  | postpone (snoozes : KeyMap OffsetDateTime) (action : SnoozeAction) (rest : List Effect)
      (changed refresh : Bool) (ha : a.event? = none)
      (hpc : s.pc = .effects (.persistSnoozes snoozes action :: rest) changed refresh)
      (hstate : s'.state = s.state) (hpc' : s'.pc = .effects rest changed refresh) (hout : out = [])
  | work (snoozes : KeyMap OffsetDateTime) (action : SnoozeAction) (result : Except String Unit)
      (rest : List Effect) (changed refresh : Bool) (ha : a.event? = none)
      (hpc : s.pc = .persist snoozes action rest changed refresh) (hstate : s'.state = s.state)
      (hpc' : s'.pc = .written snoozes action result rest changed refresh) (hout : out = [])
  | commit (snoozes : KeyMap OffsetDateTime) (action : SnoozeAction) (rest : List Effect)
      (changed refresh : Bool) (now : OffsetDateTime) (ha : a.event? = none)
      (hpc : s.pc = .written snoozes action (.ok ()) rest changed refresh)
      (hs' : (s', out) = s.committed formatIncidentTime snoozes action rest changed refresh now)
  | refuse (snoozes : KeyMap OffsetDateTime) (action : SnoozeAction) (details : String)
      (rest : List Effect) (changed refresh : Bool) (instant : Instant) (ha : a.event? = none)
      (hpc : s.pc = .written snoozes action (.error details) rest changed refresh)
      (hs' : (s', out) = s.refused action details rest changed refresh instant)
  | publish (now : OffsetDateTime) (changed refresh : Bool) (ha : a.event? = none)
      (hpc : s.pc = .effects [] changed refresh) (hstate : s'.state = s.state)
      (hpc' : s'.pc = .head)
      (hout : out = if changed || refresh then [.publish (s.state.snapshot now)] else [])

variable {formatIncidentTime rfc3339 store} {s s' : Runtime} {a : RuntimeAction}
  {out : List RuntimeOutput}

theorem runtimeStep_cases (h : runtimeStep formatIncidentTime rfc3339 store s a = some (s', out)) :
    LoopStep formatIncidentTime s a s' out := by
  obtain ⟨state, disk, retry, pc⟩ := s
  cases a with
  | write writer io =>
    cases pc <;> simp only [runtimeStep] at h <;> cases h <;> exact .aside rfl rfl rfl rfl
  | network e =>
    cases pc <;> simp only [runtimeStep, reduceCtorEq, Option.ite_none_right_eq_some] at h
    obtain ⟨he, h⟩ := h
    cases h
    exact .start e false rfl (by rintro snoozes rfl; cases he) rfl rfl rfl
  | command command now =>
    cases pc <;> simp only [runtimeStep, reduceCtorEq] at h
    cases h
    exact .start (commandEvent now command) false rfl (by cases command <;> simp [commandEvent])
      rfl rfl rfl
  | tick now =>
    cases pc <;> simp only [runtimeStep, reduceCtorEq] at h
    cases h
    exact .start (.tick now) true rfl (by simp) rfl rfl rfl
  | shutdown =>
    cases pc <;> simp only [runtimeStep, reduceCtorEq] at h
    cases h
    exact .stop rfl rfl rfl rfl
  | effect now =>
    cases pc with
    | effects rest changed refresh =>
      rcases rest with _ | ⟨⟨title, body⟩ | ⟨snoozes, action⟩, rest⟩
      · simp only [runtimeStep, reduceCtorEq] at h
      · cases h
        exact .announce title body rest changed refresh rfl rfl rfl rfl rfl
      · simp only [runtimeStep] at h
        split at h <;> cases h
        · exact .propose snoozes action rest changed refresh rfl rfl rfl rfl rfl
        · exact .postpone snoozes action rest changed refresh rfl rfl rfl rfl rfl
    | _ => simp only [runtimeStep, reduceCtorEq] at h
  | work io =>
    cases pc <;> simp only [runtimeStep, reduceCtorEq] at h
    cases h
    exact .work _ _ _ _ _ _ rfl rfl rfl rfl rfl
  | workerFailed e =>
    cases pc <;> simp only [runtimeStep, reduceCtorEq] at h
    cases h
    exact .work _ _ _ _ _ _ rfl rfl rfl rfl rfl
  | resume now instant =>
    cases pc with
    | written snoozes action result rest changed refresh =>
      cases result with
      | ok _ =>
        simp only [runtimeStep, Option.some.injEq] at h
        exact .commit snoozes action rest changed refresh now rfl rfl h.symm
      | error details =>
        simp only [runtimeStep, Option.some.injEq] at h
        exact .refuse snoozes action details rest changed refresh instant rfl rfl h.symm
    | _ => simp only [runtimeStep, reduceCtorEq] at h
  | publish now =>
    cases pc with
    | effects rest changed refresh =>
      rcases rest with _ | ⟨⟨title, body⟩ | ⟨snoozes, action⟩, rest⟩
      · cases h
        exact .publish now changed refresh rfl rfl rfl rfl rfl
      · simp only [runtimeStep, reduceCtorEq] at h
      · simp only [runtimeStep, reduceCtorEq] at h
    | _ => simp only [runtimeStep, reduceCtorEq] at h

end Loop

end Client
end Montray
