import Montray.Server.Migration

/-!
# Montray.Server.SetupRules

How to reason about the setup commands: a rule for each way in which their programs are put
together.

* `Host.respond_does`: a host that computes its answers gives only those it may give.
* `Safely`: an invariant holds after every request, and the result is as it should be.
* `Keeping`: an invariant that a program keeps from wherever it holds. What only looks keeps every
  invariant (`Keeping.look`).
-/

namespace Montray
namespace ServerSetup

open Lib

/-! ## A host that answers -/

section Respond

variable (valid : List UInt8 → Bool) (execute : Host → Command → Option Host)

theorem Host.perform_done {s t : Host} {op : Op} {r : op.Result}
    (h : s.perform valid execute op = some (r, t)) :
    s.done (World.ofCommands valid execute) op r t := by
  cases op with
  | lstat path => cases h; exact ⟨rfl, rfl⟩
  | stat path => cases h; exact ⟨rfl, rfl⟩
  | isRegular path => cases h; exact ⟨rfl, rfl⟩
  | lookupUser name => cases h; exact ⟨rfl, rfl⟩
  | lookupGroup name => cases h; exact ⟨rfl, rfl⟩
  | abs path => cases h; exact ⟨rfl, rfl⟩
  | executablePath => cases h; exact ⟨rfl, rfl⟩
  | print text => cases h; rfl
  | chmod path => cases h; rfl
  | close path => cases h; rfl
  | write path contents => cases h; rfl
  | readFile path =>
    obtain ⟨data, hdata, heq⟩ := Option.map_eq_some_iff.mp h
    cases heq
    exact ⟨hdata, rfl⟩
  | copy source path =>
    obtain ⟨contents, hcontents, heq⟩ := Option.map_eq_some_iff.mp h
    cases heq
    exact ⟨contents, hcontents, rfl⟩
  | run command =>
    obtain ⟨u, hu, heq⟩ := Option.map_eq_some_iff.mp h
    cases heq
    exact ⟨u, hu, rfl⟩
  | loadConfig path =>
    obtain ⟨hvalid, heq⟩ := Option.ite_none_right_eq_some.mp h
    cases heq
    exact ⟨hvalid, rfl⟩
  | openFile path =>
    obtain ⟨hfound, heq⟩ := Option.ite_none_left_eq_some.mp h
    cases heq
    exact ⟨hfound, rfl⟩
  | mkdirAll directory =>
    obtain ⟨hway, heq⟩ := Option.ite_none_right_eq_some.mp h
    cases heq
    exact ⟨fun q hq => hway q ((List.mem_inits q directory).mpr hq), rfl⟩
  | createTemp directory pattern =>
    obtain ⟨⟨hdir, hnone⟩, heq⟩ := Option.ite_none_right_eq_some.mp h
    cases heq
    exact ⟨hdir, ⟨"1", rfl⟩, hnone, rfl⟩
  | remove path =>
    obtain ⟨hdir, heq⟩ := Option.ite_none_left_eq_some.mp h
    cases heq
    exact ⟨fun hd => absurd hd hdir, rfl, rfl⟩
  | rename path newPath =>
    obtain ⟨hplace, heq⟩ := Option.ite_none_left_eq_some.mp h
    cases heq
    exact ⟨(not_or.mp hplace).1, (not_or.mp hplace).2, rfl⟩
  | link path newPath =>
    by_cases hthere : s.files newPath ≠ none
    · have heq : some (false, s) = some (r, t) := (if_pos hthere).symm.trans h
      cases heq
      exact ⟨hthere, rfl⟩
    · obtain ⟨hfound, heq⟩ := Option.ite_none_left_eq_some.mp ((if_neg hthere).symm.trans h)
      cases heq
      exact ⟨hfound, not_not.mp hthere, rfl⟩

theorem Host.left_refl {s : Host} {op : Op} (h : s.perform valid execute op = none) :
    s.left (World.ofCommands valid execute) op s := by
  cases op with
  | run command =>
    exact ⟨s, ⟨Option.map_eq_none_iff.mp h, rfl⟩, rfl⟩
  | mkdirAll directory => exact .inl rfl
  | write path contents => exact .inl rfl
  | copy source path => exact .inl rfl
  | _ => rfl

/-- The computed answer is one that may be given. -/
theorem Host.respond_does (s : Host) (op : Op) :
    s.does (World.ofCommands valid execute) op (s.respond valid execute op).1
      (s.respond valid execute op).2 := by
  unfold Host.respond
  cases h : s.perform valid execute op with
  | some answered => exact Host.perform_done valid execute h
  | none =>
    refine ⟨?_, Host.left_refl valid execute h⟩
    rintro ⟨path, rfl⟩
    cases h

end Respond

/-! ## Rules -/

section Rules

variable {w : World} {α β : Type} {s : Host}

/-- What holds of a result, and what after an error. -/
def Outcome (P : α → Host → Prop) (E : Host → Prop) : Except String α → Host → Prop
  | .ok a, t => P a t
  | .error _, t => E t

/-- After every request `I` holds, at the end also `Q`. -/
abbrev Safely (w : World) (I : Host → Prop) (Q : Except String α → Host → Prop) (x : Setup α)
    (s : Host) : Prop :=
  x.run.Safe (Host.does w) I Q s

section Safely

variable {I : Host → Prop} {Q : Except String α → Host → Prop} {R : Except String β → Host → Prop}

theorem Safely.pure {a : α} (h : Q (.ok a) s) : Safely w I Q (pure a) s := h

theorem Safely.bind {x : Setup β} {f : β → Setup α} (hx : Safely w I R x s)
    (hok : ∀ b t, R (.ok b) t → Safely w I Q (f b) t)
    (herr : ∀ e t, R (.error e) t → Q (.error e) t) : Safely w I Q (x >>= f) s :=
  Prog.Safe.bindExcept hx hok herr

theorem Safely.ask {op : Op} {context : String → String}
    {Q : Except String op.Result → Host → Prop}
    (hok : ∀ r t, s.done w op r t → I t ∧ Q (.ok r) t)
    (herr : ∀ e t, ¬ w.reliable op → s.left w op t → I t ∧ Q (.error e) t) :
    Safely w I Q (ServerSetup.ask op context) s := by
  intro answer t hdoes
  cases answer with
  | ok r => exact hok r t hdoes
  | error e => exact herr _ t hdoes.1 hdoes.2

/-- A request whose answer is looked at. -/
theorem Safely.answer {op : Op} {Q : Except String op.Answer → Host → Prop}
    (hok : ∀ r t, s.done w op r t → I t ∧ Q (.ok (.ok r)) t)
    (herr : ∀ e t, ¬ w.reliable op → s.left w op t → I t ∧ Q (.ok (.error e)) t) :
    Safely w I Q (ServerSetup.answer op) s := by
  intro answer t hdoes
  cases answer with
  | ok r => exact hok r t hdoes
  | error e => exact herr e t hdoes.1 hdoes.2

theorem Safely.ite {c : Prop} [Decidable c] {x y : Setup α} (hx : c → Safely w I Q x s)
    (hy : ¬ c → Safely w I Q y s) : Safely w I Q (if c then x else y) s := by
  split
  · exact hx ‹_›
  · exact hy ‹_›

theorem Safely.mono {x : Setup α} {I' : Host → Prop} {Q' : Except String α → Host → Prop}
    (h : Safely w I Q x s) (hI : ∀ t, I t → I' t) (hQ : ∀ r t, Q r t → Q' r t) :
    Safely w I' Q' x s :=
  Prog.Safe.mono h hI hQ

/-- What holds at the end either way. -/
theorem Safely.either {x : Setup α} {P : α → Host → Prop} {E : Host → Prop}
    (h : Safely w I (Outcome (fun a t => E t ∧ P a t) E) x s) : Safely w I (fun _ => E) x s := by
  refine Safely.mono h (fun _ => id) ?_
  rintro (e | a) t ht
  · exact ht
  · exact ht.1

/-- After an error the second program is run. -/
theorem Safely.orElse {x : Setup α} {undo : Setup Unit} {R : Except String α → Host → Prop}
    (hx : Safely w I R x s) (hok : ∀ a t, R (.ok a) t → Q (.ok a) t)
    (herr : ∀ e t, R (.error e) t → Safely w I (fun _ t' => ∀ e', Q (.error e') t') undo t) :
    Safely w I Q (ServerSetup.orElse x undo) s := by
  refine Prog.Safe.bind hx fun r t hr => ?_
  cases r with
  | ok a => exact hok a t hr
  | error e => exact Safely.bind (herr e t hr) (fun _ _ h => h e) (fun e' _ h => h e')

/-- Whatever becomes of the first program the second is run. -/
theorem Safely.deferred {x : Setup α} {cleanup : Setup β} {R : Except String α → Host → Prop}
    (hx : Safely w I R x s)
    (hcleanup : ∀ r t, R r t → Safely w I (fun _ => Q r) cleanup t) :
    Safely w I Q (ServerSetup.deferred x cleanup) s :=
  Prog.Safe.bind hx fun r t hr => Prog.Safe.bind (hcleanup r t hr) fun _ _ h => h

theorem Safely.withContext {x : Setup α} {context : String → String} {P : α → Host → Prop}
    {E : Host → Prop} (hx : Safely w I (Outcome P E) x s) :
    Safely w I (Outcome P E) (ServerSetup.withContext x context) s := by
  refine Prog.Safe.bind hx fun r t hr => ?_
  cases r with
  | ok a => exact hr
  | error e => exact hr

end Safely

/-! ## Invariants -/

/-- Wherever the invariant holds the program keeps it. -/
abbrev Keeping (w : World) (I : Host → Prop) (x : Setup α) : Prop :=
  x.run.Keeps (Host.does w) I

namespace Keeping

variable {I : Host → Prop}

theorem pure (a : α) : Keeping w I (Pure.pure a : Setup α) := fun _ h => h

theorem throw (e : String) : Keeping w I (MonadExcept.throw e : Setup α) := fun _ h => h

theorem bind {x : Setup β} {f : β → Setup α} (hx : Keeping w I x) (hf : ∀ b, Keeping w I (f b)) :
    Keeping w I (x >>= f) :=
  Prog.Keeps.bindExcept hx hf

theorem ite {c : Prop} [Decidable c] {x y : Setup α} (hx : Keeping w I x) (hy : Keeping w I y) :
    Keeping w I (if c then x else y) := by
  split
  · exact hx
  · exact hy

theorem ask {op : Op} {context : String → String}
    (h : ∀ s t, I s → ((∃ r, s.done w op r t) ∨ s.left w op t) → I t) :
    Keeping w I (ServerSetup.ask op context) := by
  intro s hs
  refine Safely.ask (fun r t hdone => ?_) (fun e t _ hleft => ?_)
  · exact ⟨h s t hs (.inl ⟨r, hdone⟩), h s t hs (.inl ⟨r, hdone⟩)⟩
  · exact ⟨h s t hs (.inr hleft), h s t hs (.inr hleft)⟩

theorem answer {op : Op}
    (h : ∀ s t, I s → ((∃ r, s.done w op r t) ∨ s.left w op t) → I t) :
    Keeping w I (ServerSetup.answer op) := by
  intro s hs
  refine Safely.answer (fun r t hdone => ?_) (fun e t _ hleft => ?_)
  · exact ⟨h s t hs (.inl ⟨r, hdone⟩), h s t hs (.inl ⟨r, hdone⟩)⟩
  · exact ⟨h s t hs (.inr hleft), h s t hs (.inr hleft)⟩

theorem orElse {x : Setup α} {undo : Setup Unit} (hx : Keeping w I x) (hundo : Keeping w I undo) :
    Keeping w I (ServerSetup.orElse x undo) := fun s hs =>
  Safely.orElse (hx s hs) (fun _ _ h => h)
    (fun _ t ht => Safely.mono (hundo t ht) (fun _ => id) (fun _ _ h _ => h))

theorem withContext {x : Setup α} {context : String → String} (hx : Keeping w I x) :
    Keeping w I (ServerSetup.withContext x context) := fun s hs =>
  Prog.Safe.bind (hx s hs) fun _ _ h => h

end Keeping

end Rules

/-! ## Looking -/

/-- A request that only looks. -/
def Op.looks : Op → Bool
  | .lstat _ => true
  | .stat _ => true
  | .readFile _ => true
  | .loadConfig _ => true
  | .openFile _ => true
  | .isRegular _ => true
  | .chmod _ => true
  | .close _ => true
  | .lookupUser _ => true
  | .lookupGroup _ => true
  | .abs _ => true
  | .executablePath => true
  | .print _ => true
  | _ => false

theorem Op.looks_same {w : World} {op : Op} {s t : Host} (h : op.looks = true)
    (hdone : (∃ r, s.done w op r t) ∨ s.left w op t) : t = s := by
  rcases hdone with ⟨r, hdone⟩ | hleft
  · cases op with
    | print text => exact hdone
    | chmod path => exact hdone
    | close path => exact hdone
    | lstat path => exact hdone.2
    | stat path => exact hdone.2
    | readFile path => exact hdone.2
    | loadConfig path => exact hdone.2
    | openFile path => exact hdone.2
    | isRegular path => exact hdone.2
    | lookupUser name => exact hdone.2
    | lookupGroup name => exact hdone.2
    | abs path => exact hdone.2
    | executablePath => exact hdone.2
    | _ => cases h
  · cases op with
    | mkdirAll directory => cases h
    | write path contents => cases h
    | copy source path => cases h
    | run command => cases h
    | _ => exact hleft

section Looks

variable {w : World} {I : Host → Prop} {s : Host}

theorem Safely.look {op : Op} {context : String → String}
    {Q : Except String op.Result → Host → Prop} (hop : op.looks = true) (hs : I s)
    (hok : ∀ r, s.done w op r s → Q (.ok r) s) (herr : ∀ e, Q (.error e) s) :
    Safely w I Q (ServerSetup.ask op context) s := by
  refine Safely.ask (fun r t hdone => ?_) (fun e t _ hleft => ?_)
  · obtain rfl := Op.looks_same hop (.inl ⟨r, hdone⟩)
    exact ⟨hs, hok r hdone⟩
  · obtain rfl := Op.looks_same hop (.inr hleft)
    exact ⟨hs, herr e⟩

namespace Keeping

theorem look {op : Op} {context : String → String} (hop : op.looks = true) :
    Keeping w I (ServerSetup.ask op context) :=
  ask fun _ _ hs hdone => Op.looks_same hop hdone ▸ hs

theorem lookAnswer {op : Op} (hop : op.looks = true) : Keeping w I (ServerSetup.answer op) :=
  answer fun _ _ hs hdone => Op.looks_same hop hdone ▸ hs

end Keeping

theorem print_keeping (text : String) : Keeping w I (print text) := Keeping.look rfl

theorem require_keeping (found : Bool) (err : String) : Keeping w I (require found err) :=
  Keeping.ite (Keeping.pure _) (Keeping.throw _)

theorem pathExists_keeping (path : Path) : Keeping w I (pathExists path) := by
  refine Keeping.bind (Keeping.lookAnswer rfl) fun answer => ?_
  cases answer with
  | ok st => exact Keeping.pure _
  | error e => exact Keeping.pure _

/-- Where the path can be inspected the answer is right. -/
theorem pathExists_safe {path : Path} (hlstat : w.reliable (.lstat path)) :
    Safely w (fun t => t = s)
      (Outcome (fun b t => b = decide (s.files path ≠ none) ∧ t = s) (fun _ => False))
      (pathExists path) s := by
  refine Safely.bind (R := Outcome (fun answer t => answer = .ok (lstat s.files path) ∧ t = s)
      (fun _ => False)) ?_ ?_ (fun _ _ h => h)
  · refine Safely.answer (fun st t h => ?_) (fun e t hfail h => absurd hlstat hfail)
    obtain ⟨hst, rfl⟩ := h
    exact ⟨rfl, by rw [hst], rfl⟩
  · rintro answer t ⟨rfl, rfl⟩
    refine Safely.pure ⟨?_, rfl⟩
    unfold lstat
    split <;> simp_all

theorem existingPaths_keeping (paths : List Path) : Keeping w I (existingPaths paths) := by
  induction paths with
  | nil => exact Keeping.pure _
  | cons path paths ih =>
    exact Keeping.bind (Keeping.look rfl) fun _ => Keeping.bind ih fun _ => Keeping.pure _

end Looks

end ServerSetup
end Montray
