import Mathlib

/-!
# Montray.Lib.Relay

A value that several workers change and hand on, with no lock held from the change to the delivery.
A worker changes the value, later reads it, and later still delivers what it read.

Each reading takes the next ticket. `Readings` says of the reading with the last ticket that it is
the value as it is now, unless the value is `dirty`: some worker has changed it and has yet to read
it. `Relay` adds that this reading is delivered or on its way.

If deliveries happen in the order of their tickets, then once no worker has anything left to do the
value delivered last is the current one (`Relay.settled`).
-/

namespace Montray
namespace Lib

/-- `issued` readings have been taken; `holds n x`: some worker has yet to deliver reading `n`,
which is `x`. -/
structure Readings {β : Type} (issued : ℕ) (dirty : Prop) (holds : ℕ → β → Prop)
    (current : β) : Prop where
  held_le : ∀ n x, holds n x → n ≤ issued
  held : dirty ∨ ∀ x, holds issued x → x = current

/-- The reading with ticket `redeemed` was delivered last, and is `delivered`. -/
structure Relay {β : Type} (issued redeemed : ℕ) (dirty : Prop) (holds : ℕ → β → Prop)
    (delivered current : β) : Prop extends Readings issued dirty holds current where
  redeemed_le : redeemed ≤ issued
  last : redeemed = issued ∨ ∃ x, holds issued x
  done : dirty ∨ (redeemed = issued → delivered = current)

variable {β : Type} {issued redeemed n : ℕ} {dirty dirty' : Prop} {holds holds' : ℕ → β → Prop}
  {delivered delivered' current current' x : β}

namespace Readings

theorem init : Readings 0 dirty (fun _ _ => False) current :=
  ⟨fun _ _ h => h.elim, .inr fun _ h => h.elim⟩

/-- A step that neither changes nor reads the value. -/
theorem keep (h : Readings issued dirty holds current) (hdirty : dirty → dirty')
    (hout : ∀ m y, holds' m y → holds m y) : Readings issued dirty' holds' current :=
  ⟨fun m y hm => h.held_le m y (hout m y hm),
    h.held.imp hdirty fun hheld y hy => hheld y (hout _ y hy)⟩

/-- The value changes. What is on its way may be affected, but not which tickets are. -/
theorem change (h : Readings issued dirty holds current) (hdirty : dirty')
    (hout : ∀ m y, holds' m y → ∃ z, holds m z) : Readings issued dirty' holds' current' where
  held_le m y hm := by
    obtain ⟨z, hz⟩ := hout m y hm
    exact h.held_le m z hz
  held := .inl hdirty

/-- A worker reads the value as it is, or as it makes it in the same step. -/
theorem issue (h : Readings issued dirty holds current)
    (hout : ∀ m y, holds' m y → holds m y ∨ m = issued + 1 ∧ y = current') :
    Readings (issued + 1) dirty' holds' current' where
  held_le m y hm := by
    rcases hout m y hm with hm | ⟨rfl, -⟩
    · exact Nat.le_succ_of_le (h.held_le m y hm)
    · exact Nat.le_refl _
  held := .inr fun y hy => by
    rcases hout _ y hy with hm | ⟨-, rfl⟩
    · have hle := h.held_le _ y hm
      omega
    · rfl

end Readings

namespace Relay

theorem init : Relay 0 0 dirty (fun _ _ => False) current current :=
  ⟨Readings.init, Nat.le_refl 0, .inl rfl, .inr fun _ => rfl⟩

/-- Nothing is delivered yet, so nothing is out of date: the value as it is now, delivered with the
last ticket. -/
theorem start (h : Readings issued dirty holds current) :
    Relay issued issued dirty holds current current :=
  ⟨h, Nat.le_refl issued, .inl rfl, .inr fun _ => rfl⟩

/-- A step that changes, reads and delivers nothing. -/
theorem keep (h : Relay issued redeemed dirty holds delivered current) (hdirty : dirty → dirty')
    (hholds : ∀ m y, holds' m y ↔ holds m y) :
    Relay issued redeemed dirty' holds' delivered current := by
  obtain rfl : holds' = holds := funext fun m => funext fun y => propext (hholds m y)
  exact ⟨h.toReadings.keep hdirty fun _ _ hm => hm, h.redeemed_le, h.last,
    h.done.imp_left hdirty⟩

theorem change (h : Relay issued redeemed dirty holds delivered current) (hdirty : dirty')
    (hout : ∀ m y, holds' m y → ∃ z, holds m z)
    (hkeep : ∀ m y, holds m y → ∃ z, holds' m z) :
    Relay issued redeemed dirty' holds' delivered current' where
  toReadings := h.toReadings.change hdirty hout
  redeemed_le := h.redeemed_le
  last := h.last.imp_right fun ⟨y, hy⟩ => hkeep issued y hy
  done := .inl hdirty

theorem issue (h : Relay issued redeemed dirty holds delivered current)
    (hnew : holds' (issued + 1) x)
    (hout : ∀ m y, holds' m y → holds m y ∨ m = issued + 1 ∧ y = current') :
    Relay (issued + 1) redeemed dirty' holds' delivered current' where
  toReadings := h.toReadings.issue hout
  redeemed_le := Nat.le_succ_of_le h.redeemed_le
  last := .inr ⟨x, hnew⟩
  done := .inr fun hr => by
    have hle := h.redeemed_le
    omega

/-- A worker delivers what it read; no later reading has been delivered before. -/
theorem deliver (h : Relay issued redeemed dirty holds delivered current) (hx : holds n x)
    (hle : redeemed ≤ n) (hout : ∀ m y, holds' m y → holds m y)
    (hkeep : ∀ m y, holds m y → m ≠ n → holds' m y) :
    Relay issued n dirty holds' x current where
  toReadings := h.toReadings.keep id hout
  redeemed_le := h.held_le n x hx
  last := by
    have hn := h.held_le n x hx
    by_cases he : n = issued
    · exact .inl he
    · rcases h.last with hl | ⟨y, hy⟩
      · omega
      · exact .inr ⟨y, hkeep issued y hy (Ne.symm he)⟩
  done := h.held.imp_right fun hheld he => hheld x (he ▸ hx)

theorem settled (h : Relay issued redeemed dirty holds delivered current) (hdirty : ¬ dirty)
    (hnone : ∀ m y, ¬ holds m y) : delivered = current := by
  have hlast : redeemed = issued := by
    rcases h.last with hl | ⟨y, hy⟩
    · exact hl
    · exact absurd hy (hnone issued y)
  rcases h.done with hd | hd
  · exact absurd hd hdirty
  · exact hd hlast

end Relay
end Lib
end Montray
