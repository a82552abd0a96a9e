import Montray.Lib.Machine
import Montray.Lib.Keyed
import Montray.WsClient.Combiner

/-!
# Montray.WsClient.Tunnel

The Go client's `TunnelSupervisor`: the loop that keeps the tunnel command running, the probe
callbacks on the output of every process it started, cancellation, and the callers of `WaitReady`
and `IsReady`.

A gate channel is known by its number; `setUnready` makes the next one, so the number is also that
of the process generation. `readyMtx` is held by `markReady` while it emits, so who holds it is part
of the state; the other sections are steps taken while nobody does. A channel that is closed is
recorded each time it is closed. Whether the event channel has room is left open: a send can be taken
at any time or not at all.

* `ReadinessProbeWriter.write`: the search for the probe in one stream of output.
* `Gate.markReady`, `Gate.setUnready`: what happens under `readyMtx`.
* `Supervisor.step`: the loop and the callbacks.
* `supervision`: with the callers of `WaitReady`; it emits the trace of what happened.
-/

namespace Montray
namespace WsClient

open Lib

/-! ## The readiness probe -/

inductive Stream where
  | stdout
  | stderr
  deriving DecidableEq, Repr

structure ReadinessProbeWriter where
  tail : List UInt8 := []
  ready : Bool := false
  deriving DecidableEq, Repr

/-- `Write`; says also whether `onReady` is called. -/
def ReadinessProbeWriter.write (probe : List UInt8) (w : ReadinessProbeWriter) (p : List UInt8) :
    ReadinessProbeWriter × Bool :=
  if w.ready then (w, false)
  else
    let combined := w.tail ++ p
    if probe <:+: combined then ({ tail := [], ready := true }, true)
    else
      let keep := min (probe.length - 1) combined.length
      ({ w with tail := combined.drop (combined.length - keep) }, false)

/-! ## The gate -/

/-- Who calls `markReady`, with the channel it passes. -/
inductive Caller where
  | loop (generationReady : Nat)
  | callback (generationReady : Nat) (stream : Stream)
  deriving DecidableEq, Repr

def Caller.generationReady : Caller → Nat
  | .loop g => g
  | .callback g _ => g

/-- What happened, in the order in which it did. -/
inductive Trace where
  | started (g : Nat)
  | event (g : Nat) (event : TunnelEvent)
  | unready (g : Nat)
  | waitReady (caller : String) (g : Nat)
  deriving DecidableEq, Repr

structure Gate where
  ctxDone : Bool := false
  readyCh : Nat := 0
  ready : Bool := false
  closed : List Nat := []
  /-- The call of `markReady` that holds `readyMtx`, and whether it is past its `emit`. -/
  readyMtx : Option (Caller × Bool) := none
  deriving DecidableEq, Repr

/-- `close(t.readyCh)` -/
def Gate.closeCh (gate : Gate) : Gate := { gate with closed := gate.closed ++ [gate.readyCh] }

/-- The next section of a call of `markReady`; says also whether the call has returned. `send` is
the case taken by the `select` in `emit`. -/
def Gate.markReady (gate : Gate) (caller : Caller) (send : Bool) (now : Time) :
    Option (Gate × Bool × List Trace) :=
  match gate.readyMtx with
  | none =>
    if gate.readyCh ≠ caller.generationReady ∨ gate.ready then some (gate, true, [])
    else some ({ gate with readyMtx := some (caller, false) }, false, [])
  | some (holder, emitted) =>
    if holder ≠ caller then none
    else
      match emitted with
      | false =>
        let gate' := { gate with readyMtx := some (caller, true) }
        if send then
          some (gate', false, [.event caller.generationReady { kind := .ready, time := now }])
        else if gate.ctxDone then some (gate', false, [])
        else none
      | true =>
        if gate.ctxDone then some ({ gate with readyMtx := none }, true, [])
        else some ({ gate.closeCh with ready := true, readyMtx := none }, true, [])

def Gate.setUnready (gate : Gate) : Option Gate :=
  match gate.readyMtx with
  | some _ => none
  | none =>
    let gate := if gate.ready then gate else gate.closeCh
    some { gate with readyCh := gate.readyCh + 1, ready := false }

/-! ## The supervisor -/

/-- `run` -/
inductive RunPc where
  | top
  | start (g : Nat)
  | startFailed (g : Nat) (err : String)
  | markReady (g : Nat)
  | wait (g : Nat)
  | exited (g : Nat) (details : String)
  | setUnready (g : Nat) (error : String)
  | emit (g : Nat) (error : String)
  | waitToRestart
  | stopped
  deriving DecidableEq, Repr

/-- The writer on one stream of one process. `written` is everything it was given. -/
structure Callback where
  live : Bool := false
  writer : ReadinessProbeWriter := {}
  written : List UInt8 := []
  marking : Bool := false
  deriving DecidableEq, Repr

structure Supervisor where
  gate : Gate := {}
  run : RunPc := .top
  callbacks : Nat → Stream → Callback := fun _ _ => {}

def Supervisor.setCallback (t : Supervisor) (g : Nat) (stream : Stream) (c : Callback) :
    Supervisor :=
  { t with callbacks := Function.update t.callbacks g
                          (Function.update (t.callbacks g) stream c) }

/-- What the loop meets: the error of `Start` or `Wait`, the output of a process that ended, the case
its `select` takes, and the time. -/
structure Meets where
  err : Option String := none
  output : String := ""
  send : Bool := true
  now : Time := 0
  deriving DecidableEq, Repr

def exitDetails (err : Option String) (output : String) : String :=
  let details := match err with
    | none => "Tunnel command exited unexpectedly"
    | some err => "Tunnel command exited: " ++ err
  if output ≠ "" then details ++ "\n\n" ++ output else details

inductive TunnelAction where
  | cancel
  | loop (m : Meets)
  | write (g : Nat) (stream : Stream) (p : List UInt8)
  | callback (g : Nat) (stream : Stream) (m : Meets)
  deriving DecidableEq, Repr

/-- One step of `run`. -/
def Supervisor.loop (probe : List UInt8) (t : Supervisor) (m : Meets) :
    Option (Supervisor × List Trace) :=
  match t.run with
  | .top =>
    match t.gate.readyMtx with
    | some _ => none
    | none => some ({ t with run := .start t.gate.readyCh }, [])
  | .start g =>
    match m.err with
    | some err => some ({ t with run := .startFailed g err }, [])
    | none =>
      if probe = [] then some ({ t with run := .markReady g }, [.started g])
      else
        let t := (t.setCallback g .stdout { live := true }).setCallback g .stderr { live := true }
        some ({ t with run := .wait g }, [.started g])
  | .startFailed g err =>
    if t.gate.ctxDone then some ({ t with run := .stopped }, [])
    else some ({ t with run := .setUnready g ("Failed to start tunnel command: " ++ err) }, [])
  | .markReady g =>
    match t.gate.markReady (.loop g) m.send m.now with
    | none => none
    | some (gate, returned, out) =>
      some ({ t with gate, run := if returned then .wait g else .markReady g }, out)
  | .wait g => some ({ t with run := .exited g (exitDetails m.err m.output) }, [])
  | .exited g details =>
    if t.gate.ctxDone then some ({ t with run := .stopped }, [])
    else some ({ t with run := .setUnready g details }, [])
  | .setUnready g error =>
    match t.gate.setUnready with
    | none => none
    | some gate => some ({ t with gate, run := .emit g error }, [.unready g])
  | .emit g error =>
    let t' := { t with run := .waitToRestart }
    if m.send then some (t', [.event g { kind := .failed, time := m.now, error }])
    else if t.gate.ctxDone then some (t', [])
    else none
  | .waitToRestart =>
    if m.send then some ({ t with run := .top }, [])
    else if t.gate.ctxDone then some ({ t with run := .stopped }, [])
    else none
  | .stopped => none

def Supervisor.step (probe : List UInt8) (t : Supervisor) :
    TunnelAction → Option (Supervisor × List Trace)
  | .cancel => some ({ t with gate := { t.gate with ctxDone := true } }, [])
  | .loop m => t.loop probe m
  | .write g stream p =>
    let c := t.callbacks g stream
    if c.live ∧ ¬ c.marking then
      let (writer, found) := c.writer.write probe p
      some (t.setCallback g stream
        { c with writer, written := c.written ++ p, marking := found }, [])
    else none
  | .callback g stream m =>
    let c := t.callbacks g stream
    if c.marking then
      match t.gate.markReady (.callback g stream) m.send m.now with
      | none => none
      | some (gate, returned, out) =>
        some ({ t.setCallback g stream { c with marking := !returned } with gate }, out)
    else none

/-! ## Callers of `WaitReady` -/

inductive WaitPc where
  | top
  | select (readyCh : Nat)
  deriving DecidableEq, Repr

structure Supervision where
  tunnel : Supervisor := {}
  callers : KeyMap WaitPc := ∅

inductive SupervisionAction where
  | tunnel (a : TunnelAction)
  | waitReady (caller : String)
  | read (caller : String)
  | wake (caller : String)
  /-- The supervisor is done, or the caller is interrupted. -/
  | giveUp (caller : String)
  | isReady (caller : String)
  deriving DecidableEq, Repr

def Supervision.step (probe : List UInt8) (s : Supervision) :
    SupervisionAction → Option (Supervision × List Trace)
  | .tunnel a =>
    match s.tunnel.step probe a with
    | none => none
    | some (tunnel, out) => some ({ s with tunnel }, out)
  | .waitReady caller =>
    match s.callers[caller]? with
    | some _ => none
    | none => some ({ s with callers := s.callers.insert caller .top }, [])
  | .read caller =>
    match s.callers[caller]?, s.tunnel.gate.readyMtx with
    | some .top, none =>
      if s.tunnel.gate.ready then
        some ({ s with callers := s.callers.erase caller },
          [.waitReady caller s.tunnel.gate.readyCh])
      else
        some ({ s with callers := s.callers.insert caller (.select s.tunnel.gate.readyCh) }, [])
    | _, _ => none
  | .wake caller =>
    match s.callers[caller]? with
    | some (.select readyCh) =>
      if readyCh ∈ s.tunnel.gate.closed then
        some ({ s with callers := s.callers.insert caller .top }, [])
      else none
    | _ => none
  | .giveUp caller =>
    match s.callers[caller]? with
    | some (.select _) => some ({ s with callers := s.callers.erase caller }, [])
    | _ => none
  | .isReady _ =>
    match s.tunnel.gate.readyMtx with
    | some _ => none
    | none => some (s, [])

/-- `NewTunnelSupervisor` for a command with that readiness probe. -/
def supervision (probe : List UInt8) : Guarded Supervision SupervisionAction Trace where
  init := {}
  step := Supervision.step probe

end WsClient
end Montray
