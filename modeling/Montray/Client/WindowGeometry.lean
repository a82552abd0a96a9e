import Montray.Client.Writers

/-!
# Montray.Client.WindowGeometry

The placement of the window across hiding and showing: the manager of `window_geometry.rs`, with a
window system that does at once and exactly what it is told.

The native window exists from the first time the window is shown; whether hiding keeps it is a
parameter. The manager's `store` and `last_persisted` are a `Desk`.

* `Inv.step`: what the manager and the window keep of the saved placement.
* `placement_survives`: the file holds the saved placement in every run, if a maximized window is
  not captured while it is being restored.
-/

namespace Montray
namespace Client
namespace Window

open Lib

def asNormal (geometry : WindowGeometry) : WindowGeometry := { geometry with maximized := false }

/-! ## The window -/

/-- The native window as it reports itself, or the attributes it will be created with. The rectangle
is the one of the normal display state. -/
structure Native where
  x : Int32
  y : Int32
  width : UInt32
  height : UInt32
  maximized : Bool := false
  fullscreen : Bool := false
  visible : Bool := false
  created : Bool := false
  deriving DecidableEq, Repr

inductive WindowEvent where
  | redrawRequested
  | moved
  | resized
  | other
  deriving DecidableEq, Repr

namespace Native

def setMaximized (window : Native) (maximized : Bool) : Native :=
  { window with maximized := maximized }

def setSize (window : Native) (width height : UInt32) : Native :=
  { window with width := width, height := height }

def setPosition (window : Native) (x y : Int32) : Native := { window with x := x, y := y }

def show_ (window : Native) : Native := { window with visible := true, created := true }

def hide (keepsNative : Bool) (window : Native) : Native :=
  { window with visible := false, created := window.created && keepsNative }

def withWinitWindow {α : Type} (window : Native) (f : Native → α) : Option α :=
  if window.created then some (f window) else none

end Native

def nativeDisplayState (window : Native) : Bool × Bool :=
  (window.withWinitWindow fun window => (window.maximized, window.fullscreen)).getD
    (window.maximized, window.fullscreen)

def applyWindowGeometry (window : Native) (geometry : WindowGeometry) : Native :=
  if geometry.width = 0 ∨ geometry.height = 0 then window
  else (window.setSize geometry.width geometry.height).setPosition geometry.x geometry.y

def isNormalWindowState (maximized fullscreen : Bool) : Bool := !maximized && !fullscreen

/-! ## The manager -/

structure Manager where
  desk : Desk
  lastNormal : Option WindowGeometry
  pendingShow : Option WindowGeometry

structure State where
  manager : Manager
  window : Native

def Manager.new (disk : Disk) (saved : Option WindowGeometry) : Manager :=
  ⟨⟨disk, saved⟩, saved.map asNormal, saved⟩

namespace State

/-- What `observe_winit_window` reads of the window. -/
def observed (window : Native) : Option WindowGeometry :=
  if window.maximized ∨ window.fullscreen then none
  else if 0 < window.width ∧ 0 < window.height then
    some ⟨window.x, window.y, window.width, window.height, false⟩
  else none

def observeWinitWindow (s : State) : State :=
  match s.window.withWinitWindow observed with
  | some (some geometry) => { s with manager := { s.manager with lastNormal := some geometry } }
  | _ => s

def applyLastNormal (s : State) : State :=
  match s.manager.lastNormal with
  | some geometry => { s with window := applyWindowGeometry s.window geometry }
  | none => s

def capturePlacement (s : State) : State × Option WindowGeometry :=
  let (maximized, fullscreen) := nativeDisplayState s.window
  let s := if isNormalWindowState maximized fullscreen then s.observeWinitWindow else s
  (s, s.manager.lastNormal.map fun placement => { placement with maximized := maximized })

def show_ (s : State) : State :=
  let s : State :=
    match s.manager.pendingShow with
    | some placement =>
      { manager := { s.manager with lastNormal := some (asNormal placement) }
        window := applyWindowGeometry (s.window.setMaximized false) placement }
    | none => s
  -- the redraw that is requested here is one of those that may be delivered
  { s with window := s.window.show_ }

section Store

variable (store : Store) (rfc3339 : Rfc3339)

def persist (s : State) (io : StoreIo) (placement : Option WindowGeometry) :
    State × Except Chain Unit :=
  let (desk, result) := s.manager.desk.persist store rfc3339 io placement
  ({ s with manager := { s.manager with desk := desk } }, result)

def hide (keepsNative : Bool) (s : State) (io : StoreIo) : State × Except Chain Unit :=
  let (s, placement) := s.capturePlacement
  let (s, saveResult) := s.persist store rfc3339 io placement
  let s : State :=
    { manager := { s.manager with pendingShow := placement }, window := s.window.hide keepsNative }
  let s :=
    if placement.any (·.maximized) then
      applyLastNormal { s with window := s.window.setMaximized false }
    else s
  (s, saveResult)

def save (s : State) (io : StoreIo) : State × Except Chain Unit :=
  let (s, placement) := s.capturePlacement
  s.persist store rfc3339 io placement

end Store

def handleWinitEvent (s : State) (event : WindowEvent) : State :=
  match event, s.window.visible, s.manager.pendingShow with
  | .redrawRequested, true, some placement =>
    { manager := { s.manager with pendingShow := none }
      window := (applyWindowGeometry (s.window.setMaximized false) placement).setMaximized
        placement.maximized }
  | _, _, _ =>
    if s.manager.pendingShow.isSome ∨ ¬ (event = .moved ∨ event = .resized) then s
    else s.observeWinitWindow

end State

inductive Action where
  | show_
  | hide (io : StoreIo)
  | save (io : StoreIo)
  | event (event : WindowEvent)

/-- The user shows and hides the window; it is saved at the end, if visible; events come while it is
visible. -/
def machine (store : Store) (rfc3339 : Rfc3339) (keepsNative : Bool) (init : State) :
    Guarded State Action (Except Chain Unit) where
  init := init
  step s
    | .show_ => some (s.show_, [.ok ()])
    | .hide io =>
      let (s, result) := s.hide store rfc3339 keepsNative io
      some (s, [result])
    | .save io =>
      if s.window.visible then
        let (s, result) := s.save store rfc3339 io
        some (s, [result])
      else none
    | .event event => if s.window.visible then some (s.handleWinitEvent event, []) else none

/-! ## What is kept of the saved placement -/

/-- The rectangle of the window. -/
def Native.HasBounds (window : Native) (saved : WindowGeometry) : Prop :=
  window.x = saved.x ∧ window.y = saved.y ∧ window.width = saved.width ∧
    window.height = saved.height

structure Inv (store : Store) (saved : WindowGeometry) (s : State) : Prop where
  placement : store.placement s.manager.desk.disk = .ok (some saved)
  lastPersisted : s.manager.desk.lastPersisted = some saved
  lastNormal : s.manager.lastNormal = some (asNormal saved)
  fullscreen : s.window.fullscreen = false
  visible : s.window.visible = true → s.window.created = true
  bounds : s.window.created = true → s.window.HasBounds saved
  phase : s.manager.pendingShow = some saved ∧ s.window.maximized = false ∨
    s.manager.pendingShow = none ∧ s.window.created = true ∧
      s.window.maximized = saved.maximized

section Kept

variable {store : Store} {rfc3339 : Rfc3339} {keepsNative : Bool} {saved : WindowGeometry}
  {s : State}

theorem applyWindowGeometry_eq (hsize : saved.width ≠ 0 ∧ saved.height ≠ 0) (window : Native)
    {geometry : WindowGeometry} (h : asNormal geometry = asNormal saved) :
    applyWindowGeometry window geometry =
      { window with x := saved.x, y := saved.y, width := saved.width, height := saved.height } := by
  simp only [asNormal, WindowGeometry.mk.injEq] at h
  obtain ⟨hx, hy, hw, hh, -⟩ := h
  rw [applyWindowGeometry, hx, hy, hw, hh, if_neg (not_or.mpr hsize)]
  rfl

theorem observed_eq {window : Native} (hb : window.HasBounds saved) {geometry : WindowGeometry}
    (h : State.observed window = some geometry) : geometry = asNormal saved := by
  obtain ⟨hx, hy, hw, hh⟩ := hb
  unfold State.observed at h
  split_ifs at h
  cases h
  simp only [asNormal, hx, hy, hw, hh]

/-- Observing the window finds what is known. -/
theorem Inv.observe (h : Inv store saved s) : s.observeWinitWindow = s := by
  unfold State.observeWinitWindow
  split
  · rename_i geometry heq
    simp only [Native.withWinitWindow, Option.ite_none_right_eq_some, Option.some.injEq] at heq
    rw [observed_eq (h.bounds heq.1) heq.2, ← h.lastNormal]
  · rfl

theorem nativeDisplayState_eq (window : Native) :
    nativeDisplayState window = (window.maximized, window.fullscreen) := by
  unfold nativeDisplayState Native.withWinitWindow
  split <;> rfl

/-- A window that is not being restored to the maximized state is captured as it was saved. -/
theorem Inv.capture (h : Inv store saved s)
    (hc : saved.maximized = false ∨ s.manager.pendingShow = none) :
    s.capturePlacement = (s, some saved) := by
  have hmaximized : s.window.maximized = saved.maximized := by
    rcases h.phase with ⟨hpending, hno⟩ | ⟨-, -, hm⟩
    · rcases hc with hc | hc
      · rw [hno, hc]
      · rw [hpending] at hc
        cases hc
    · exact hm
  unfold State.capturePlacement
  simp only [nativeDisplayState_eq, h.observe, ite_self, h.lastNormal, hmaximized]
  rfl

theorem Inv.persist (h : Inv store saved s) (io : StoreIo) :
    s.persist store rfc3339 io (some saved) = (s, .ok ()) := by
  simp only [State.persist, Desk.persist, h.lastPersisted, if_true]

theorem Inv.show_ (hsize : saved.width ≠ 0 ∧ saved.height ≠ 0) (h : Inv store saved s) :
    Inv store saved s.show_ := by
  rcases h.phase with ⟨hpending, hno⟩ | ⟨hpending, hcreated, hm⟩
  · simp only [State.show_, hpending, applyWindowGeometry_eq hsize _ rfl]
    exact ⟨h.placement, h.lastPersisted, rfl, h.fullscreen, fun _ => rfl,
      fun _ => ⟨rfl, rfl, rfl, rfl⟩, .inl ⟨rfl, rfl⟩⟩
  · simp only [State.show_, hpending]
    exact ⟨h.placement, h.lastPersisted, h.lastNormal, h.fullscreen, fun _ => rfl,
      fun _ => h.bounds hcreated, .inr ⟨hpending, rfl, hm⟩⟩

theorem Inv.hide (hsize : saved.width ≠ 0 ∧ saved.height ≠ 0) (h : Inv store saved s)
    (hc : saved.maximized = false ∨ s.manager.pendingShow = none) (io : StoreIo) :
    Inv store saved (s.hide store rfc3339 keepsNative io).1 := by
  simp only [State.hide, h.capture hc, h.persist, Option.any_some]
  have hcreated : (s.window.created && keepsNative) = true → s.window.created = true := by
    intro hboth
    exact (Bool.and_eq_true_iff.mp hboth).1
  cases hm : saved.maximized with
  | true =>
    have happly := applyWindowGeometry_eq hsize
      ((s.window.hide keepsNative).setMaximized false) (rfl : asNormal (asNormal saved) = _)
    simp only [if_true, State.applyLastNormal, h.lastNormal, happly]
    exact ⟨h.placement, h.lastPersisted, rfl, h.fullscreen, (fun hv => Bool.noConfusion hv),
      fun _ => ⟨rfl, rfl, rfl, rfl⟩, .inl ⟨rfl, rfl⟩⟩
  | false =>
    have hno : s.window.maximized = false := by
      rcases h.phase with ⟨-, hno⟩ | ⟨-, -, heq⟩
      · exact hno
      · exact heq.trans hm
    simp only [Bool.false_eq_true, if_false]
    exact ⟨h.placement, h.lastPersisted, h.lastNormal, h.fullscreen,
      (fun hv => Bool.noConfusion hv), fun hcr => h.bounds (hcreated hcr), .inl ⟨rfl, hno⟩⟩

theorem Inv.save (h : Inv store saved s)
    (hc : saved.maximized = false ∨ s.manager.pendingShow = none) (io : StoreIo) :
    (s.save store rfc3339 io).1 = s := by
  simp only [State.save, h.capture hc, h.persist]

theorem Inv.event (hsize : saved.width ≠ 0 ∧ saved.height ≠ 0) (h : Inv store saved s)
    (event : WindowEvent) : Inv store saved (s.handleWinitEvent event) := by
  unfold State.handleWinitEvent
  split
  · rename_i placement hvisible hpending
    rcases h.phase with ⟨hsaved, -⟩ | ⟨hnone, -⟩
    · rw [hpending] at hsaved
      cases hsaved
      rw [applyWindowGeometry_eq hsize _ rfl]
      exact ⟨h.placement, h.lastPersisted, h.lastNormal, h.fullscreen, h.visible,
        fun _ => ⟨rfl, rfl, rfl, rfl⟩, .inr ⟨rfl, h.visible hvisible, rfl⟩⟩
    · rw [hpending] at hnone
      cases hnone
  · split_ifs
    · exact h
    · rw [h.observe]
      exact h

end Kept

/-- A maximized window is captured only after it has been restored. -/
def Settled (saved : WindowGeometry) (s : State) : Action → Prop
  | .hide _ => saved.maximized = false ∨ s.manager.pendingShow = none
  | .save _ => saved.maximized = false ∨ s.manager.pendingShow = none
  | _ => True

instance (saved : WindowGeometry) (s : State) (a : Action) : Decidable (Settled saved s a) := by
  cases a <;> unfold Settled <;> infer_instance

theorem Inv.step {store : Store} {rfc3339 : Rfc3339} {keepsNative : Bool} {saved : WindowGeometry}
    {init s s' : State} {a : Action} {out : List (Except Chain Unit)}
    (hsize : saved.width ≠ 0 ∧ saved.height ≠ 0) (h : Inv store saved s) (hc : Settled saved s a)
    (hstep : (machine store rfc3339 keepsNative init).step s a = some (s', out)) :
    Inv store saved s' := by
  cases a with
  | show_ =>
    cases hstep
    exact h.show_ hsize
  | hide io =>
    cases hstep
    exact h.hide hsize hc io
  | save io =>
    simp only [machine, Option.ite_none_right_eq_some, Option.some.injEq, Prod.mk.injEq] at hstep
    obtain ⟨-, rfl, -⟩ := hstep
    rw [h.save hc io]
    exact h
  | event event =>
    simp only [machine, Option.ite_none_right_eq_some, Option.some.injEq, Prod.mk.injEq] at hstep
    obtain ⟨-, rfl, -⟩ := hstep
    exact h.event hsize event

/-- The manager and the window at the start of the program. -/
def start (disk : Disk) (saved : WindowGeometry) (x y : Int32) (width height : UInt32) : State :=
  ⟨.new disk (some saved), { x, y, width, height }⟩

/-- The saved placement stays in the file, and its bounds with the manager. -/
theorem placement_survives (store : Store) (rfc3339 : Rfc3339) (keepsNative : Bool) (disk : Disk)
    (saved : WindowGeometry) (hsize : saved.width ≠ 0 ∧ saved.height ≠ 0)
    (hdisk : store.placement disk = .ok (some saved)) (x y : Int32) (width height : UInt32)
    (os : List (Except Chain Unit)) (s : State)
    (hp : ((machine store rfc3339 keepsNative (start disk saved x y width height)).only
      (Settled saved)).Path os s) :
    store.placement s.manager.desk.disk = .ok (some saved) ∧
      s.manager.lastNormal = some (asNormal saved) := by
  have hinit : Inv store saved (start disk saved x y width height) :=
    ⟨hdisk, rfl, rfl, rfl, (fun hv => Bool.noConfusion hv), (fun hcr => Bool.noConfusion hcr),
      .inl ⟨rfl, rfl⟩⟩
  have hinv : Inv store saved s := by
    refine Guarded.Path.history (I := fun _ s => Inv store saved s) hinit ?_ hp
    intro _ t a t' out ht hstep
    obtain ⟨hc, hstep⟩ := Guarded.only_step.mp hstep
    exact ht.step hsize hc hstep
  exact ⟨hinv.placement, hinv.lastNormal⟩

def maximizedPlacement : WindowGeometry := ⟨120, 80, 700, 500, true⟩

/-- A file that holds the placement. -/
def savedDisk : Disk :=
  (writersStore.transact writersRfc3339 { write := .window (.geometry maximizedPlacement) }
    ⟨none⟩).1

/-- Shown, drawn, hidden and shown again. -/
theorem placement_survives_hide :
    ∃ os s, (((machine writersStore writersRfc3339 true
        (start savedDisk maximizedPlacement 0 0 1 1)).only (Settled maximizedPlacement)).Path os s ∧
      s.window.visible = true ∧ s.manager.pendingShow = some maximizedPlacement) ∧
      writersStore.placement s.manager.desk.disk = .ok (some maximizedPlacement) := by
  have hexec : ∃ r, ((machine writersStore writersRfc3339 true
      (start savedDisk maximizedPlacement 0 0 1 1)).only (Settled maximizedPlacement)).exec
      ([], start savedDisk maximizedPlacement 0 0 1 1)
      [.show_, .event .redrawRequested, .event .resized, .hide {}, .show_] = some r ∧
      r.2.window.visible = true ∧ r.2.manager.pendingShow = some maximizedPlacement :=
    ⟨_, rfl, rfl, rfl⟩
  obtain ⟨⟨os, s⟩, hrun, hvisible, hpending⟩ := hexec
  have hp := Guarded.Path.exec .nil hrun
  exact ⟨os, s, ⟨hp, hvisible, hpending⟩, (placement_survives writersStore writersRfc3339 true
    savedDisk maximizedPlacement (by decide) rfl 0 0 1 1 os s hp).1⟩

/-- Shown and hidden before it is drawn: the file has lost that the window was maximized. -/
theorem placement_lost_before_redraw :
    ∃ os s, (machine writersStore writersRfc3339 true
        (start savedDisk maximizedPlacement 0 0 1 1)).Path os s ∧
      writersStore.placement savedDisk = .ok (some maximizedPlacement) ∧
      writersStore.placement s.manager.desk.disk = .ok (some ⟨120, 80, 700, 500, false⟩) := by
  have hexec : ∃ r, (machine writersStore writersRfc3339 true
      (start savedDisk maximizedPlacement 0 0 1 1)).exec
      ([], start savedDisk maximizedPlacement 0 0 1 1) [.show_, .hide {}] = some r ∧
      writersStore.placement r.2.manager.desk.disk = .ok (some ⟨120, 80, 700, 500, false⟩) :=
    ⟨_, rfl, rfl⟩
  obtain ⟨⟨os, s⟩, hrun, hlost⟩ := hexec
  exact ⟨os, s, Guarded.Path.exec .nil hrun, rfl, hlost⟩

end Window
end Client
end Montray
