import Montray.Lib.Machine
import Montray.Client.Config
import Montray.Client.Model

/-!
# Montray.Client.Tray

The tray icon and its flashing: the controller of `tray.rs`, the part of `apply_snapshot` that
updates the tray, and the timer callbacks of `schedule_flash_tick`.

The tray's copy of the overall state is the domain's own type. How images are composed is a
parameter.

* `Inv.step`: what a step keeps, with the numbers of the cycles counted along the run.
* `tray_consistent`: icon, phase and timers agree in every run.
-/

namespace Montray
namespace Client
namespace Tray

open Lib

/-! ## The state of the tray -/

structure TrayState where
  alerting : OverallState
  unknownServerCount : Nat
  serverCount : Nat
  alertingCount : Nat
  snoozed : Option OverallState
  snoozedCount : Nat
  deriving DecidableEq, Repr

inductive TrayIconIdentity where
  | unknown (unknownServerCount serverCount : Nat) (snoozed : Option OverallState)
  | known (alerting : OverallState) (snoozed : Option OverallState)
  deriving DecidableEq, Repr

namespace TrayState

def isFlashing (state : TrayState) : Bool :=
  !(state.alerting == .unknown || state.alerting == .ok)

def iconIdentity (state : TrayState) : TrayIconIdentity :=
  if state.alerting = .unknown then
    .unknown state.unknownServerCount state.serverCount state.snoozed
  else .known state.alerting state.snoozed

def statusTitle (state : TrayState) : String :=
  let noun := if state.alertingCount = 1 then "incident" else "incidents"
  let title := "Status: " ++ toString state.alertingCount ++ " " ++ noun
  if 0 < state.snoozedCount then title ++ " + " ++ toString state.snoozedCount ++ " snoozed"
  else title

end TrayState

/-- The tray's part of a snapshot, from `apply_snapshot`. -/
def trayState (snapshot : UiSnapshot) : TrayState where
  alerting := snapshot.alertingState
  unknownServerCount := snapshot.unknownServerCount
  serverCount := snapshot.servers.length
  alertingCount := snapshot.active.length
  snoozed := snapshot.snoozedState
  snoozedCount := snapshot.snoozed.length

/-! ## Flashing -/

/-- The generation wraps around. -/
structure FlashCycle where
  generation : UInt64
  deriving DecidableEq, Repr

structure FlashState where
  icon : Option TrayIconIdentity := none
  flashing : Bool := false
  showingSolid : Bool := false
  generation : UInt64 := 0
  deriving DecidableEq, Repr

namespace FlashState

def apply (current : FlashState) (state : TrayState) : FlashState × Option FlashCycle :=
  if current.icon = some state.iconIdentity then (current, none)
  else
    let generation := current.generation + 1
    (⟨some state.iconIdentity, state.isFlashing, true, generation⟩, some ⟨generation⟩)

def tick (current : FlashState) (cycle : FlashCycle) : FlashState × Option Bool :=
  if current.generation ≠ cycle.generation ∨ current.flashing = false then (current, none)
  else ({ current with showingSolid := !current.showingSolid }, some !current.showingSolid)

def isFlashing (current : FlashState) (cycle : FlashCycle) : Bool :=
  current.generation == cycle.generation && current.flashing

end FlashState

/-! ## Images -/

structure TrayIcons (Pixels : Type) where
  unknown : Pixels
  ok : Pixels
  internalError : Pixels
  warning : Pixels
  error : Pixels
  transparent : Pixels

/-- `compose_initialization_icon`, `compose_overlay` and `to_slint_image`. -/
structure Composition (Pixels Image : Type) where
  initializationIcon : Pixels → Pixels → Nat → Nat → Except Chain Pixels
  overlay : Pixels → Pixels → Except Chain Pixels
  slintImage : Pixels → Image

namespace TrayIcons

variable {Pixels Image : Type} (C : Composition Pixels Image) (icons : TrayIcons Pixels)

def forState : OverallState → Pixels
  | .unknown => icons.unknown
  | .ok => icons.ok
  | .internalError => icons.internalError
  | .warning => icons.warning
  | .error => icons.error

def rgbaIcon (state : TrayState) : Except Chain Pixels := do
  let icon ←
    if state.alerting = .unknown then
      C.initializationIcon icons.ok icons.unknown state.unknownServerCount state.serverCount
    else pure (icons.forState state.alerting)
  match state.snoozed with
  | none => pure icon
  | some snoozed => C.overlay icon (icons.forState snoozed)

def icon (state : TrayState) : Except Chain Image := do
  let pixels ← icons.rgbaIcon C state
  pure (C.slintImage pixels)

def transparentIcon : Image := C.slintImage icons.transparent

end TrayIcons

/-! ## The user interface -/

/-- The properties of the window and the tray with the controller, and the callbacks scheduled. No
image has been set before the first snapshot. -/
structure Ui (Image : Type) where
  flash : FlashState := {}
  currentTrayIcon : Option Image := none
  trayIcon : Option Image := none
  statusTitle : String := ""
  pending : List FlashCycle := []
  deriving DecidableEq

inductive Action where
  | applied (snapshot : UiSnapshot)
  | callback (cycle : FlashCycle)
  deriving DecidableEq

/-- What an effective callback shows. -/
structure Edge (Image : Type) where
  cycle : FlashCycle
  showingSolid : Bool
  image : Option Image
  deriving DecidableEq

section Machine

variable {Pixels Image : Type} (C : Composition Pixels Image) (icons : TrayIcons Pixels)

/-- `apply_snapshot`, as far as it updates the tray. -/
def applySnapshot (ui : Ui Image) (snapshot : UiSnapshot) : Ui Image × Option FlashCycle :=
  let state := trayState snapshot
  let (ui, flashCycle) :=
    match icons.icon C state with
    | .error _ => (ui, none)
    | .ok icon =>
      let ui := { ui with currentTrayIcon := some icon }
      match ui.flash.apply state with
      | (flash, none) => ({ ui with flash := flash }, none)
      | (flash, some cycle) =>
        ({ ui with flash := flash, trayIcon := some icon },
          if flash.isFlashing cycle then some cycle else none)
  ({ ui with statusTitle := state.statusTitle }, flashCycle)

/-- `schedule_flash_tick`: one more callback to come. -/
def scheduleFlashTick (ui : Ui Image) (cycle : FlashCycle) : Ui Image :=
  { ui with pending := cycle :: ui.pending }

/-- The event loop takes a snapshot that was published. -/
def publish (ui : Ui Image) (snapshot : UiSnapshot) : Ui Image :=
  match applySnapshot C icons ui snapshot with
  | (ui, none) => ui
  | (ui, some cycle) => scheduleFlashTick ui cycle

/-- A callback of `schedule_flash_tick`. -/
def flashTick (ui : Ui Image) (cycle : FlashCycle) : Ui Image × List (Edge Image) :=
  match ui.flash.tick cycle with
  | (_, none) => (ui, [])
  | (flash, some showingSolid) =>
    let image := if showingSolid then ui.currentTrayIcon else some (icons.transparentIcon C)
    (scheduleFlashTick { ui with flash := flash, trayIcon := image } cycle,
      [⟨cycle, showingSolid, image⟩])

/-- Callbacks that are scheduled run once, in any order. -/
def machine : Guarded (Ui Image) Action (Edge Image) where
  init := {}
  step ui
    | .applied snapshot => some (publish C icons ui snapshot, [])
    | .callback cycle =>
      if cycle ∈ ui.pending then
        some (flashTick C icons { ui with pending := ui.pending.erase cycle } cycle)
      else none

end Machine

/-! ## The identity of an icon -/

section Identity

variable {a b : TrayState}

theorem iconIdentity_eq (h : a.iconIdentity = b.iconIdentity) :
    a.alerting = b.alerting ∧ a.snoozed = b.snoozed ∧
      (a.alerting = .unknown →
        a.unknownServerCount = b.unknownServerCount ∧ a.serverCount = b.serverCount) := by
  unfold TrayState.iconIdentity at h
  split_ifs at h with ha hb hb
  · simp only [TrayIconIdentity.unknown.injEq] at h
    exact ⟨ha.trans hb.symm, h.2.2, fun _ => ⟨h.1, h.2.1⟩⟩
  · simp only [TrayIconIdentity.known.injEq] at h
    exact ⟨h.1, h.2, fun hu => absurd hu ha⟩

/-- The identity decides whether a state flashes. -/
theorem isFlashing_of_identity (h : a.iconIdentity = b.iconIdentity) :
    a.isFlashing = b.isFlashing := by
  rw [TrayState.isFlashing, TrayState.isFlashing, (iconIdentity_eq h).1]

/-- The identity has all that an icon is made of. -/
theorem icon_of_identity {Pixels Image : Type} (C : Composition Pixels Image)
    (icons : TrayIcons Pixels) (h : a.iconIdentity = b.iconIdentity) :
    icons.icon C a = icons.icon C b := by
  obtain ⟨halerting, hsnoozed, hcounts⟩ := iconIdentity_eq h
  have hpixels : icons.rgbaIcon C a = icons.rgbaIcon C b := by
    unfold TrayIcons.rgbaIcon
    rw [← halerting, ← hsnoozed]
    by_cases hu : a.alerting = .unknown
    · rw [(hcounts hu).1, (hcounts hu).2]
    · rw [if_neg hu, if_neg hu]
  rw [TrayIcons.icon, TrayIcons.icon, hpixels]

end Identity

/-! ## What the steps do -/

section Steps

variable {Pixels Image : Type} {C : Composition Pixels Image} {icons : TrayIcons Pixels}
  {ui : Ui Image} {snapshot : UiSnapshot} {image : Image} {cycle : FlashCycle}

/-- A snapshot with the identity of the one before. -/
theorem publish_same (hicon : icons.icon C (trayState snapshot) = .ok image)
    (h : ui.flash.icon = some (trayState snapshot).iconIdentity) :
    publish C icons ui snapshot =
      { ui with
        currentTrayIcon := some image
        statusTitle := (trayState snapshot).statusTitle } := by
  simp only [publish, applySnapshot, hicon, FlashState.apply, h, if_true]

/-- A snapshot with another identity. -/
theorem publish_new (hicon : icons.icon C (trayState snapshot) = .ok image)
    (h : ui.flash.icon ≠ some (trayState snapshot).iconIdentity) :
    publish C icons ui snapshot =
      { flash := (ui.flash.apply (trayState snapshot)).1
        currentTrayIcon := some image
        trayIcon := some image
        statusTitle := (trayState snapshot).statusTitle
        pending :=
          if (trayState snapshot).isFlashing then ⟨ui.flash.generation + 1⟩ :: ui.pending
          else ui.pending } := by
  cases hf : (trayState snapshot).isFlashing with
  | false => simp [publish, applySnapshot, hicon, FlashState.apply, h, FlashState.isFlashing, hf]
  | true =>
    simp [publish, applySnapshot, hicon, FlashState.apply, h, FlashState.isFlashing, hf,
      scheduleFlashTick]

theorem flashTick_stale (h : ui.flash.generation ≠ cycle.generation ∨ ui.flash.flashing = false) :
    flashTick C icons ui cycle = (ui, []) := by
  simp only [flashTick, FlashState.tick, if_pos h]

theorem flashTick_current (hg : ui.flash.generation = cycle.generation)
    (hf : ui.flash.flashing = true) :
    let image :=
      if ui.flash.showingSolid then some (icons.transparentIcon C) else ui.currentTrayIcon
    flashTick C icons ui cycle =
      ({ ui with
          flash := { ui.flash with showingSolid := !ui.flash.showingSolid }
          trayIcon := image
          pending := cycle :: ui.pending },
        [⟨cycle, !ui.flash.showingSolid, image⟩]) := by
  cases hs : ui.flash.showingSolid <;>
    simp [flashTick, FlashState.tick, hg, hf, hs, scheduleFlashTick]

theorem callback_mem {r : Ui Image × List (Edge Image)}
    (h : (machine C icons).step ui (.callback cycle) = some r) :
    cycle ∈ ui.pending ∧
      flashTick C icons { ui with pending := ui.pending.erase cycle } cycle = r := by
  simpa only [machine, Option.ite_none_right_eq_some, Option.some.injEq] using h

/-- A callback that has nothing to do. -/
theorem callback_stale (hmem : cycle ∈ ui.pending)
    (h : ui.flash.generation ≠ cycle.generation ∨ ui.flash.flashing = false) :
    (machine C icons).step ui (.callback cycle) =
      some ({ ui with pending := ui.pending.erase cycle }, []) := by
  simp only [machine, if_pos hmem]
  exact congrArg some (flashTick_stale h)

end Steps

/-! ## Histories -/

section History

variable {Image : Type}

abbrev Entry (Image : Type) := Guarded.Record (Ui Image) Action (Edge Image)

/-- The tray state a step applies. -/
def Entry.state? (x : Entry Image) : Option TrayState :=
  match x.action with
  | .applied snapshot => some (trayState snapshot)
  | .callback _ => none

/-- The cycle a step starts, in place of the one before. -/
def Entry.starts (x : Entry Image) : Option FlashCycle :=
  x.state?.bind fun state => (x.state.flash.apply state).2

/-- The state applied last. -/
def latest (rs : List (Entry Image)) : Option TrayState := (rs.filterMap Entry.state?).getLast?

/-- How often the identity has changed, the first one included. -/
def changes (rs : List (Entry Image)) : Nat := (rs.filterMap Entry.starts).length

/-- What the callbacks of one cycle have shown. -/
def edges (cycle : FlashCycle) (rs : List (Entry Image)) : List (Edge Image) :=
  (rs.flatMap (·.outputs)).filter (·.cycle = cycle)

/-- Transparent, solid, transparent and so on. -/
def Alternates (es : List (Edge Image)) : Prop :=
  ∀ k edge, es[k]? = some edge → edge.showingSolid = decide (k % 2 = 1)

theorem Alternates.snoc {es : List (Edge Image)} (h : Alternates es) {edge : Edge Image}
    (hedge : edge.showingSolid = decide (es.length % 2 = 1)) : Alternates (es ++ [edge]) := by
  intro k e he
  rw [List.getElem?_append] at he
  split_ifs at he with hk
  · exact h k e he
  · rw [List.getElem?_singleton, Option.ite_none_right_eq_some] at he
    obtain ⟨hk0, heq⟩ := he
    cases heq
    have hkeq : k = es.length := by omega
    rw [hedge, hkeq]

section Snoc

variable (rs : List (Entry Image)) (x : Entry Image)

theorem latest_snoc : latest (rs ++ [x]) = x.state?.or (latest rs) := by
  cases hx : x.state? <;> simp [latest, List.filterMap_append, hx]

theorem changes_append (l r : List (Entry Image)) : changes (l ++ r) = changes l + changes r := by
  rw [changes, List.filterMap_append, List.length_append]
  rfl

theorem changes_snoc : changes (rs ++ [x]) = changes rs + if x.starts.isSome then 1 else 0 := by
  rw [changes_append]
  cases hx : x.starts <;> simp [changes, hx]

theorem changes_cons : changes (x :: rs) = (if x.starts.isSome then 1 else 0) + changes rs := by
  cases hx : x.starts <;> simp [changes, hx, Nat.add_comm]

theorem edges_snoc (cycle : FlashCycle) :
    edges cycle (rs ++ [x]) = edges cycle rs ++ x.outputs.filter (·.cycle = cycle) := by
  simp [edges]

theorem edges_snoc_quiet (ui : Ui Image) (a : Action) (cycle : FlashCycle) :
    edges cycle (rs ++ [⟨ui, a, []⟩]) = edges cycle rs := by
  rw [edges_snoc]
  exact List.append_nil _

end Snoc

end History

/-! ## The invariant -/

/-- What holds after the steps `rs`. The generation counts the changes, so that no cycle to come has
a callback or an edge yet. -/
structure Inv {Pixels Image : Type} (C : Composition Pixels Image) (icons : TrayIcons Pixels)
    (rs : List (Entry Image)) (ui : Ui Image) : Prop where
  icon : ui.flash.icon = (latest rs).map TrayState.iconIdentity
  flashing : ui.flash.flashing = ((latest rs).map TrayState.isFlashing).getD false
  shown : ∀ state, latest rs = some state → ∃ image, icons.icon C state = .ok image ∧
    ui.currentTrayIcon = some image ∧
    ui.trayIcon = some (if ui.flash.showingSolid then image else icons.transparentIcon C)
  solid : ∀ state, latest rs = some state → ui.flash.showingSolid = false →
    state.isFlashing = true
  generation : ui.flash.generation.toNat = changes rs
  old : ∀ cycle ∈ ui.pending, cycle.generation.toNat ≤ changes rs
  pending : ui.pending.count ⟨ui.flash.generation⟩ ≤ 1
  silent : ∀ cycle : FlashCycle, changes rs < cycle.generation.toNat → edges cycle rs = []
  alternate : ∀ cycle, Alternates (edges cycle rs)
  phase : (latest rs).isSome → ui.flash.showingSolid =
    decide ((edges ⟨ui.flash.generation⟩ rs).length % 2 = 0)

namespace Inv

variable {Pixels Image : Type} {C : Composition Pixels Image} {icons : TrayIcons Pixels}
  {rs : List (Entry Image)} {ui : Ui Image} {snapshot : UiSnapshot} {image : Image}
  {cycle : FlashCycle}

theorem init : Inv C icons [] (machine C icons).init where
  icon := rfl
  flashing := rfl
  shown _ h := by cases h
  solid _ h := by cases h
  generation := rfl
  old _ h := by cases h
  pending := Nat.zero_le 1
  silent _ _ := rfl
  alternate _ _ _ h := by cases h
  phase h := by cases h

theorem same (h : Inv C icons rs ui) (hicon : icons.icon C (trayState snapshot) = .ok image)
    (hid : ui.flash.icon = some (trayState snapshot).iconIdentity) :
    Inv C icons (rs ++ [⟨ui, .applied snapshot, []⟩]) (publish C icons ui snapshot) := by
  have hstarts : Entry.starts ⟨ui, .applied snapshot, []⟩ = none := by
    simp [Entry.starts, Entry.state?, FlashState.apply, hid]
  have hlatest : latest (rs ++ [⟨ui, .applied snapshot, []⟩]) = some (trayState snapshot) :=
    latest_snoc ..
  have hchanges : changes (rs ++ [⟨ui, .applied snapshot, []⟩]) = changes rs := by
    rw [changes_snoc, hstarts]
    rfl
  -- the state before has the same identity, so the same icon
  obtain ⟨previous, hprevious, hsame⟩ : ∃ previous, latest rs = some previous ∧
      previous.iconIdentity = (trayState snapshot).iconIdentity := by
    rw [h.icon] at hid
    exact Option.map_eq_some_iff.mp hid
  obtain ⟨image', himage', hcurrent, hshown⟩ := h.shown previous hprevious
  obtain rfl : image' = image := by
    rw [icon_of_identity C icons hsame, hicon] at himage'
    cases himage'
    rfl
  rw [publish_same hicon hid]
  refine ⟨?_, ?_, ?_, ?_, hchanges ▸ h.generation, hchanges ▸ h.old, h.pending, ?_, ?_, ?_⟩
  · rw [hlatest]
    exact hid
  · rw [hlatest]
    have hf := h.flashing
    rw [hprevious, Option.map_some, Option.getD_some, isFlashing_of_identity hsame] at hf
    exact hf
  · rw [hlatest]
    rintro _ ⟨⟩
    exact ⟨image', hicon, rfl, hshown⟩
  · rw [hlatest]
    rintro _ ⟨⟩ hs
    rw [← isFlashing_of_identity hsame]
    exact h.solid previous hprevious hs
  · intro cycle hlt
    rw [edges_snoc_quiet]
    exact h.silent cycle (hchanges ▸ hlt)
  · intro cycle
    rw [edges_snoc_quiet]
    exact h.alternate cycle
  · intro _
    rw [edges_snoc_quiet]
    exact h.phase (by rw [hprevious]; rfl)

theorem new (h : Inv C icons rs ui) (hicon : icons.icon C (trayState snapshot) = .ok image)
    (hid : ui.flash.icon ≠ some (trayState snapshot).iconIdentity)
    (hfew : changes rs + 1 < 2 ^ 64) :
    Inv C icons (rs ++ [⟨ui, .applied snapshot, []⟩]) (publish C icons ui snapshot) := by
  have happly : ui.flash.apply (trayState snapshot) =
      (⟨some (trayState snapshot).iconIdentity, (trayState snapshot).isFlashing, true,
        ui.flash.generation + 1⟩, some ⟨ui.flash.generation + 1⟩) := by
    rw [FlashState.apply, if_neg hid]
  have hstarts : Entry.starts ⟨ui, .applied snapshot, []⟩ = some ⟨ui.flash.generation + 1⟩ :=
    congrArg Prod.snd happly
  have hlatest : latest (rs ++ [⟨ui, .applied snapshot, []⟩]) = some (trayState snapshot) :=
    latest_snoc ..
  have hchanges : changes (rs ++ [⟨ui, .applied snapshot, []⟩]) = changes rs + 1 := by
    rw [changes_snoc, hstarts]
    rfl
  have hgeneration : (ui.flash.generation + 1).toNat = changes rs + 1 := by
    have hg := h.generation
    rw [UInt64.toNat_add, UInt64.toNat_one, hg]
    exact Nat.mod_eq_of_lt hfew
  have hfresh : (⟨ui.flash.generation + 1⟩ : FlashCycle) ∉ ui.pending := by
    intro hmem
    have hle : (ui.flash.generation + 1).toNat ≤ changes rs := h.old _ hmem
    omega
  rw [publish_new hicon hid, happly]
  refine ⟨?_, ?_, ?_, ?_, hgeneration.trans hchanges.symm, ?_, ?_, ?_, ?_, ?_⟩
  · rw [hlatest]
    rfl
  · rw [hlatest]
    rfl
  · rw [hlatest]
    rintro _ ⟨⟩
    exact ⟨image, hicon, rfl, rfl⟩
  · intro state _ hs
    cases hs
  · intro cycle hmem
    rw [hchanges]
    have hcases : cycle = ⟨ui.flash.generation + 1⟩ ∨ cycle ∈ ui.pending := by
      revert hmem
      dsimp only
      split_ifs
      · exact List.mem_cons.mp
      · exact Or.inr
    rcases hcases with rfl | hmem
    · exact hgeneration.le
    · have hle := h.old cycle hmem
      omega
  · dsimp only
    split_ifs
    · rw [List.count_cons_self, List.count_eq_zero_of_not_mem hfresh]
    · rw [List.count_eq_zero_of_not_mem hfresh]
      exact Nat.zero_le 1
  · intro cycle hlt
    rw [edges_snoc_quiet]
    exact h.silent cycle (by omega)
  · intro cycle
    rw [edges_snoc_quiet]
    exact h.alternate cycle
  · intro _
    rw [edges_snoc_quiet, h.silent _ (by dsimp only; omega)]
    rfl

/-- A callback that changes nothing but that it has run. -/
theorem stale (h : Inv C icons rs ui) :
    Inv C icons (rs ++ [⟨ui, .callback cycle, []⟩])
      { ui with pending := ui.pending.erase cycle } := by
  have hlatest : latest (rs ++ [⟨ui, .callback cycle, []⟩]) = latest rs := latest_snoc ..
  have hchanges : changes (rs ++ [⟨ui, .callback cycle, []⟩]) = changes rs := changes_snoc ..
  refine ⟨?_, ?_, ?_, ?_, ?_, ?_, ?_, ?_, ?_, ?_⟩
  · exact hlatest ▸ h.icon
  · exact hlatest ▸ h.flashing
  · exact hlatest ▸ h.shown
  · exact hlatest ▸ h.solid
  · exact hchanges ▸ h.generation
  · exact hchanges ▸ fun c hmem => h.old c (List.mem_of_mem_erase hmem)
  · exact (List.erase_sublist.count_le _).trans h.pending
  · intro c hlt
    rw [edges_snoc_quiet]
    exact h.silent c (hchanges ▸ hlt)
  · intro c
    rw [edges_snoc_quiet]
    exact h.alternate c
  · intro hsome
    rw [edges_snoc_quiet]
    exact h.phase (hlatest ▸ hsome)

/-- Only an applied state flashes. -/
theorem of_flashing (h : Inv C icons rs ui) (hf : ui.flash.flashing = true) :
    ∃ state, latest rs = some state ∧ state.isFlashing = true := by
  rw [h.flashing] at hf
  cases hl : latest rs with
  | none =>
    rw [hl] at hf
    cases hf
  | some state =>
    rw [hl] at hf
    exact ⟨state, rfl, hf⟩

/-- A callback of the current cycle, while it flashes. -/
theorem current (h : Inv C icons rs ui) (hmem : cycle ∈ ui.pending)
    (hg : ui.flash.generation = cycle.generation) (hf : ui.flash.flashing = true) :
    let r := flashTick C icons { ui with pending := ui.pending.erase cycle } cycle
    Inv C icons (rs ++ [⟨ui, .callback cycle, r.2⟩]) r.1 := by
  obtain ⟨state, hstate, hstateFlashing⟩ := h.of_flashing hf
  obtain ⟨image, hicon, hcurrent, hshown⟩ := h.shown state hstate
  have hphase := h.phase (by rw [hstate]; rfl)
  have hcycle : (⟨ui.flash.generation⟩ : FlashCycle) = cycle := by
    rw [hg]
  have hone := h.pending
  rw [hcycle] at hphase hone
  intro r
  have hr : r = _ := flashTick_current hg hf
  rw [hr]
  generalize hout : (⟨cycle, !ui.flash.showingSolid, _⟩ : Edge Image) = edge
  have hlatest : latest (rs ++ [⟨ui, .callback cycle, [edge]⟩]) = latest rs := latest_snoc ..
  have hchanges : changes (rs ++ [⟨ui, .callback cycle, [edge]⟩]) = changes rs := changes_snoc ..
  have hself : edges cycle (rs ++ [⟨ui, .callback cycle, [edge]⟩]) = edges cycle rs ++ [edge] := by
    rw [edges_snoc, ← hout]
    simp
  have hother : ∀ c, c ≠ cycle →
      edges c (rs ++ [⟨ui, .callback cycle, [edge]⟩]) = edges c rs := by
    intro c hne
    rw [edges_snoc, ← hout]
    simp [hne.symm]
  refine ⟨?_, ?_, ?_, ?_, ?_, ?_, ?_, ?_, ?_, ?_⟩
  · exact hlatest ▸ h.icon
  · exact hlatest ▸ h.flashing
  · rw [hlatest, hstate]
    rintro _ ⟨⟩
    refine ⟨image, hicon, hcurrent, ?_⟩
    cases ui.flash.showingSolid <;> simp [hcurrent]
  · rw [hlatest, hstate]
    rintro _ ⟨⟩ _
    exact hstateFlashing
  · exact hchanges ▸ h.generation
  · rw [hchanges]
    intro c hc
    rcases List.mem_cons.mp hc with rfl | hc
    · exact h.old _ hmem
    · exact h.old c (List.mem_of_mem_erase hc)
  · dsimp only
    rw [hcycle, List.count_cons_self, List.count_erase_self]
    omega
  · intro c hlt
    rw [hchanges] at hlt
    have hne : c ≠ cycle := by
      rintro rfl
      have hle := h.old _ hmem
      omega
    rw [hother c hne]
    exact h.silent c hlt
  · intro c
    by_cases hne : c = cycle
    · -- the phase tells how many edges there have been
      rw [hne, hself]
      refine (h.alternate cycle).snoc ?_
      rw [← hout, hphase, ← decide_not]
      exact decide_eq_decide.mpr (by omega)
    · rw [hother c hne]
      exact h.alternate c
  · intro _
    dsimp only
    rw [hcycle, hself, List.length_append, List.length_singleton, hphase, ← decide_not]
    exact decide_eq_decide.mpr (by omega)

end Inv

/-- Every icon of the run can be rendered. -/
def Renders {Pixels Image : Type} (C : Composition Pixels Image) (icons : TrayIcons Pixels)
    (rs : List (Entry Image)) : Prop :=
  ∀ x ∈ rs, ∀ state, x.state? = some state → ∃ image, icons.icon C state = .ok image

section Run

variable {Pixels Image : Type} {C : Composition Pixels Image} {icons : TrayIcons Pixels}
  {rs : List (Entry Image)} {ui ui' : Ui Image}

theorem Renders.of_append {l r : List (Entry Image)} (h : Renders C icons (l ++ r)) :
    Renders C icons l :=
  fun x hx => h x (List.mem_append_left _ hx)

theorem Inv.step (h : Inv C icons rs ui) {a : Action} {out : List (Edge Image)}
    (hstep : (machine C icons).step ui a = some (ui', out))
    (hrender : Renders C icons (rs ++ [⟨ui, a, out⟩]))
    (hfew : changes (rs ++ [⟨ui, a, out⟩]) < 2 ^ 64) :
    Inv C icons (rs ++ [⟨ui, a, out⟩]) ui' := by
  cases a with
  | applied snapshot =>
    cases hstep
    obtain ⟨image, hicon⟩ := hrender ⟨ui, .applied snapshot, []⟩ (by simp) _ rfl
    by_cases hid : ui.flash.icon = some (trayState snapshot).iconIdentity
    · exact h.same hicon hid
    · refine h.new hicon hid ?_
      rw [changes_snoc] at hfew
      simpa [Entry.starts, Entry.state?, FlashState.apply, hid] using hfew
  | callback cycle =>
    obtain ⟨hmem, htick⟩ := callback_mem hstep
    by_cases hstale : ui.flash.generation ≠ cycle.generation ∨ ui.flash.flashing = false
    · rw [callback_stale hmem hstale] at hstep
      cases hstep
      exact h.stale
    · rw [not_or, ne_eq, not_not, Bool.not_eq_false] at hstale
      have hcurrent := h.current hmem hstale.1 hstale.2
      rw [htick] at hcurrent
      exact hcurrent

theorem Inv.run (hp : (machine C icons).recorded.Path rs ui) (hrender : Renders C icons rs)
    (hfew : changes rs < 2 ^ 64) : Inv C icons rs ui := by
  induction hp with
  | nil => exact .init
  | step _ ht ih =>
    obtain ⟨out, hstep, rfl⟩ := Guarded.recorded_step ht
    refine (ih hrender.of_append ?_).step hstep hrender hfew
    rw [changes_append] at hfew
    omega

/-- The state before a step of a run. -/
theorem Inv.before (hp : (machine C icons).recorded.Path rs ui) (hrender : Renders C icons rs)
    (hfew : changes rs < 2 ^ 64) {l r : List (Entry Image)} {x : Entry Image}
    (heq : rs = l ++ x :: r) : Inv C icons l x.state := by
  subst heq
  refine Inv.run (Guarded.Path.record hp rfl).1 hrender.of_append ?_
  rw [changes_append] at hfew
  omega

theorem starts_generation {x : Entry Image} {cycle : FlashCycle} (h : x.starts = some cycle) :
    cycle.generation = x.state.flash.generation + 1 := by
  obtain ⟨state, -, happly⟩ := Option.bind_eq_some_iff.mp h
  unfold FlashState.apply at happly
  split_ifs at happly
  cases happly
  rfl

end Run

/-- Icon, phase and timers agree after the steps `rs`. -/
structure Consistent {Pixels Image : Type} (C : Composition Pixels Image) (icons : TrayIcons Pixels)
    (rs : List (Entry Image)) (ui : Ui Image) : Prop where
  shown : ∀ state, latest rs = some state → ∃ image, icons.icon C state = .ok image ∧
    (ui.trayIcon = some image ∨
      ui.trayIcon = some (icons.transparentIcon C) ∧ state.isFlashing = true)
  superseded : ∀ (l : List (Entry Image)) (y : Entry Image) (m : List (Entry Image))
      (z : Entry Image) (k : List (Entry Image)) (x : Entry Image) (r : List (Entry Image))
      (cycle : FlashCycle), rs = l ++ y :: m ++ z :: k ++ x :: r →
    y.starts = some cycle → z.starts.isSome → x.action = .callback cycle →
    (machine C icons).step x.state x.action =
      some ({ x.state with pending := x.state.pending.erase cycle }, []) ∧ x.outputs = []
  pending : ui.pending.count ⟨ui.flash.generation⟩ ≤ 1
  alternate : ∀ cycle, Alternates (edges cycle rs)
  edge : ∀ (l : List (Entry Image)) (x : Entry Image) (r : List (Entry Image)) (edge : Edge Image),
    rs = l ++ x :: r → edge ∈ x.outputs → ∃ state image,
    latest l = some state ∧ icons.icon C state = .ok image ∧
      edge.image = some (if edge.showingSolid then image else icons.transparentIcon C)
  kept : ∀ (l : List (Entry Image)) (x : Entry Image) (r : List (Entry Image))
      (state previous : TrayState), rs = l ++ x :: r → x.state? = some state →
    latest l = some previous → previous.iconIdentity = state.iconIdentity →
    ∃ ui', (machine C icons).step x.state x.action = some (ui', []) ∧
      ui'.trayIcon = x.state.trayIcon ∧ ui'.flash = x.state.flash ∧
        ui'.pending = x.state.pending

section Consistency

variable {Pixels Image : Type} {C : Composition Pixels Image} {icons : TrayIcons Pixels}
  {rs : List (Entry Image)} {ui : Ui Image}

theorem superseded_quiet (hp : (machine C icons).recorded.Path rs ui)
    (hrender : Renders C icons rs) (hfew : changes rs < 2 ^ 64)
    {l m k r : List (Entry Image)} {x y z : Entry Image} {cycle : FlashCycle}
    (heq : rs = l ++ y :: m ++ z :: k ++ x :: r) (hy : y.starts = some cycle)
    (hz : z.starts.isSome) (hx : x.action = .callback cycle) :
    (machine C icons).step x.state x.action =
      some ({ x.state with pending := x.state.pending.erase cycle }, []) ∧ x.outputs = [] := by
  have hinvY : Inv C icons l y.state :=
    Inv.before hp hrender hfew (r := m ++ z :: k ++ x :: r) (by rw [heq]; simp)
  have hinvX : Inv C icons (l ++ y :: m ++ z :: k) x.state := Inv.before hp hrender hfew heq
  have hlater : changes l + 2 ≤ changes (l ++ y :: m ++ z :: k) := by
    rw [changes_append, changes_append, changes_cons, changes_cons, hy, if_pos hz]
    simp
    omega
  have hstale : x.state.flash.generation ≠ cycle.generation := by
    intro hsame
    have hnumber := hinvX.generation
    have hfirst := hinvY.generation
    have hbound : changes (l ++ y :: m ++ z :: k) < 2 ^ 64 := by
      rw [heq, changes_append] at hfew
      omega
    rw [hsame, starts_generation hy, UInt64.toNat_add, UInt64.toNat_one, hfirst,
      Nat.mod_eq_of_lt (by omega)] at hnumber
    omega
  obtain ⟨ui', hstep⟩ := (Guarded.Path.record hp heq).2
  rw [hx] at hstep ⊢
  have hquiet : (machine C icons).step x.state (.callback cycle) = _ :=
    callback_stale (callback_mem hstep).1 (.inl hstale)
  rw [hquiet, Option.some.injEq, Prod.mk.injEq] at hstep
  exact ⟨hquiet, hstep.2.symm⟩

/-- What a callback shows is made of the state applied last. -/
theorem edge_image (hp : (machine C icons).recorded.Path rs ui) (hrender : Renders C icons rs)
    (hfew : changes rs < 2 ^ 64) {l r : List (Entry Image)} {x : Entry Image} {edge : Edge Image}
    (heq : rs = l ++ x :: r) (hedge : edge ∈ x.outputs) :
    ∃ state image, latest l = some state ∧ icons.icon C state = .ok image ∧
      edge.image = some (if edge.showingSolid then image else icons.transparentIcon C) := by
  have hinv : Inv C icons l x.state := Inv.before hp hrender hfew heq
  obtain ⟨ui', hstep⟩ := (Guarded.Path.record hp heq).2
  cases ha : x.action with
  | applied snapshot =>
    rw [ha] at hstep
    simp only [machine, Option.some.injEq, Prod.mk.injEq] at hstep
    rw [← hstep.2] at hedge
    cases hedge
  | callback cycle =>
    rw [ha] at hstep
    obtain ⟨hmem, htick⟩ := callback_mem hstep
    by_cases hstale : x.state.flash.generation ≠ cycle.generation ∨ x.state.flash.flashing = false
    · rw [callback_stale hmem hstale, Option.some.injEq, Prod.mk.injEq] at hstep
      rw [← hstep.2] at hedge
      cases hedge
    · rw [not_or, ne_eq, not_not, Bool.not_eq_false] at hstale
      obtain ⟨state, hstate, -⟩ := hinv.of_flashing hstale.2
      obtain ⟨image, hicon, hcurrent, -⟩ := hinv.shown state hstate
      refine ⟨state, image, hstate, hicon, ?_⟩
      have hr : flashTick C icons
          { x.state with pending := x.state.pending.erase cycle } cycle = _ :=
        flashTick_current hstale.1 hstale.2
      rw [hr, Prod.mk.injEq] at htick
      rw [← htick.2, List.mem_singleton] at hedge
      rw [hedge]
      cases x.state.flash.showingSolid <;> simp [hcurrent]

/-- A snapshot with the identity of the one before leaves icon, phase and timers alone. -/
theorem same_kept (hp : (machine C icons).recorded.Path rs ui) (hrender : Renders C icons rs)
    (hfew : changes rs < 2 ^ 64) {l r : List (Entry Image)} {x : Entry Image}
    {state previous : TrayState} (heq : rs = l ++ x :: r) (hx : x.state? = some state)
    (hprevious : latest l = some previous) (hsame : previous.iconIdentity = state.iconIdentity) :
    ∃ ui', (machine C icons).step x.state x.action = some (ui', []) ∧
      ui'.trayIcon = x.state.trayIcon ∧ ui'.flash = x.state.flash ∧
        ui'.pending = x.state.pending := by
  have hinv : Inv C icons l x.state := Inv.before hp hrender hfew heq
  obtain ⟨image, hicon⟩ := hrender x (by rw [heq]; simp) state hx
  cases ha : x.action with
  | callback cycle =>
    rw [Entry.state?, ha] at hx
    cases hx
  | applied snapshot =>
    rw [Entry.state?, ha] at hx
    cases hx
    have hid : x.state.flash.icon = some (trayState snapshot).iconIdentity := by
      rw [hinv.icon, hprevious, ← hsame]
      rfl
    refine ⟨_, rfl, ?_⟩
    rw [publish_same hicon hid]
    exact ⟨rfl, rfl, rfl⟩

end Consistency

/-- Icon, phase and timers agree after every run. -/
theorem tray_consistent {Pixels Image : Type} (C : Composition Pixels Image)
    (icons : TrayIcons Pixels) (rs : List (Entry Image)) (ui : Ui Image)
    (hp : (machine C icons).recorded.Path rs ui) (hrender : Renders C icons rs)
    (hfew : changes rs < 2 ^ 64) : Consistent C icons rs ui := by
  have hinv : Inv C icons rs ui := Inv.run hp hrender hfew
  refine ⟨?_, ?_, hinv.pending, hinv.alternate, ?_, ?_⟩
  · intro state hstate
    obtain ⟨image, hicon, -, hshown⟩ := hinv.shown state hstate
    refine ⟨image, hicon, ?_⟩
    cases hs : ui.flash.showingSolid with
    | true =>
      rw [hs] at hshown
      exact .inl hshown
    | false =>
      rw [hs] at hshown
      exact .inr ⟨hshown, hinv.solid state hstate hs⟩
  · intro l y m z k x r cycle heq hy hz hx
    exact superseded_quiet hp hrender hfew heq hy hz hx
  · intro l x r edge heq hedge
    exact edge_image hp hrender hfew heq hedge
  · intro l x r state previous heq hx hprevious hsame
    exact same_kept hp hrender hfew heq hx hprevious hsame

/-- Images that are told apart by a number. -/
def numbered : Composition Nat Nat where
  initializationIcon ok unknown _ _ := .ok (10 * ok + unknown)
  overlay base overlay := .ok (10 * base + overlay)
  slintImage pixels := pixels

def numberedIcons : TrayIcons Nat := ⟨1, 2, 3, 4, 5, 0⟩

theorem numbered_renders (rs : List (Entry Nat)) : Renders numbered numberedIcons rs := by
  intro x _ state _
  unfold TrayIcons.icon TrayIcons.rgbaIcon
  by_cases hu : state.alerting = .unknown
  · rw [if_pos hu]
    cases state.snoozed <;> exact ⟨_, rfl⟩
  · rw [if_neg hu]
    cases state.snoozed <;> exact ⟨_, rfl⟩

def failing : UiSnapshot := ⟨[], [], [], .error, none, 0⟩

/-- A failure, two callbacks, a warning, and the callback that is left of the failure. -/
theorem tray_consistent_superseded :
    ∃ rs ui, (machine numbered numberedIcons).recorded.Path rs ui ∧ changes rs = 2 ∧
      (edges ⟨1⟩ rs).map (·.image) = [some 0, some 5] ∧ ui.trayIcon = some 4 ∧
      Consistent numbered numberedIcons rs ui := by
  have hrun : ((machine numbered numberedIcons).recorded.exec ([], {})
      [.applied failing, .callback ⟨1⟩, .callback ⟨1⟩,
        .applied { failing with alertingState := .warning }, .callback ⟨1⟩]).any
      (fun r => decide (changes r.1 = 2 ∧ (edges ⟨1⟩ r.1).map (·.image) = [some 0, some 5] ∧
        r.2.trayIcon = some 4)) = true := by
    decide +kernel
  obtain ⟨rs, ui, hp, hfacts⟩ := Guarded.exists_path hrun
  obtain ⟨hchanges, hedges, hshown⟩ := of_decide_eq_true hfacts
  exact ⟨rs, ui, hp, hchanges, hedges, hshown, tray_consistent numbered numberedIcons rs ui hp
    (numbered_renders rs) (by rw [hchanges]; decide)⟩

end Tray
end Client
end Montray
