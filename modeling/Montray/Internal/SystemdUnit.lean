import Montray.Lib.Quote
import Montray.Lib.UnitSyntax

/-!
# Montray.Internal.SystemdUnit

The arguments of the server's unit: `systemdUnitArgument`, which quotes with `strconv.Quote` and
doubles percent signs, and the line `ExecStart=` of `montray-server.service.tpl`.

Which characters beyond U+00FF are printable is left to a parameter, as in `Montray.Lib.Quote`.

* `execStart_argument`: systemd gets back the argument as the environment expands it.
* `unit_argument_round_trip`: that is the argument just where no dollar sign begins an expansion.
-/

namespace Montray
namespace Internal

open Lib UnitSyntax

/-! ## The unit -/

section Unit

variable (printable : Char → Bool)

def systemdUnitArgument (argument : String) : String :=
  String.ofList (replaceAll ['%'] ['%', '%'] (quote printable argument))

/-- The value of `ExecStart=`. -/
def execStartValue (executable configFilename : String) : String :=
  systemdUnitArgument printable executable ++ " --config " ++
    systemdUnitArgument printable configFilename

end Unit

/-! ## What is written for a character -/

section Written

variable {printable : Char → Bool}

theorem plainEscape_letterEscape {r letter : Char} (h : letterEscape r = some letter) :
    plainEscape letter = some r ∧ letter ≠ '%' := by
  unfold letterEscape at h
  split at h <;> cases h <;> exact ⟨rfl, by decide⟩

theorem percent_not_mem_hexNumber (width n : Nat) : '%' ∉ hexNumber width n := by
  induction width generalizing n with
  | zero => exact List.not_mem_nil
  | succ width ih =>
    have hdigit : ∀ d < 16, '%' ≠ hexDigit d := by decide
    rw [hexNumber, List.mem_append, List.mem_singleton, not_or]
    exact ⟨ih _, hdigit _ (Nat.mod_lt n (by decide))⟩

theorem percent_not_mem_escape {r : Char} (h : r ≠ '%') :
    '%' ∉ appendEscapedRune printable r := by
  unfold appendEscapedRune
  split
  · simp [h.symm]
  · split
    · simpa using h.symm
    · split
      · rename_i letter hletter
        simpa using (plainEscape_letterEscape hletter).2.symm
      · split
        · simpa using percent_not_mem_hexNumber 2 r.toNat
        · split
          · simpa using percent_not_mem_hexNumber 4 r.toNat
          · simpa using percent_not_mem_hexNumber 8 r.toNat

/-- What the argument's characters become in the unit. -/
def unitEscape (printable : Char → Bool) (r : Char) : List Char :=
  if r = '%' then ['%', '%'] else appendEscapedRune printable r

theorem escape_doubled (r : Char) :
    (appendEscapedRune printable r).flatMap (doubled '%') = unitEscape printable r := by
  by_cases hr : r = '%'
  · rw [hr]
    rfl
  · have hsame : ∀ c ∈ appendEscapedRune printable r, doubled '%' c = [c] := by
      intro c hc
      refine if_neg ?_
      rintro rfl
      exact percent_not_mem_escape hr hc
    rw [unitEscape, if_neg hr, List.flatMap_congr hsame]
    exact List.flatMap_singleton' _

theorem toList_systemdUnitArgument (argument : String) :
    (systemdUnitArgument printable argument).toList =
      '"' :: argument.toList.flatMap (unitEscape printable) ++ ['"'] := by
  rw [systemdUnitArgument, String.toList_ofList, replaceAll_singleton, quote]
  show ('"' :: argument.toList.flatMap (appendEscapedRune printable) ++ ['"']).flatMap
    (doubled '%') = _
  rw [List.cons_append, List.flatMap_cons, List.flatMap_append, List.flatMap_assoc]
  simp only [escape_doubled]
  rfl

/-! ## What systemd reads -/

theorem splitWords_escape {r : Char} (hnul : r ≠ '\x00') (rest : List Char) :
    splitWords (.quoted '"') 0 (appendEscapedRune printable r ++ rest) =
      onFirst [r] (splitWords (.quoted '"') 0 rest) := by
  obtain ⟨hx, hu, hU⟩ := cunescapeOne_hex hnul rest
  unfold appendEscapedRune
  split
  · rename_i hr
    refine splitWords_quoted_escape [r] (cunescapeOne_plain ?_ rest)
    rcases hr with rfl | rfl <;> rfl
  · rename_i hr
    rw [not_or] at hr
    split
    · exact splitWords_quoted_plain hr.2 hr.1 rest
    · split
      · rename_i letter hletter
        exact splitWords_quoted_escape [letter]
          (cunescapeOne_plain (plainEscape_letterEscape hletter).1 rest)
      · split
        · rename_i hlow
          exact splitWords_quoted_escape ('x' :: hexNumber 2 r.toNat) (hx (by omega))
        · split
          · rename_i hsmall
            exact splitWords_quoted_escape ('u' :: hexNumber 4 r.toNat) (hu hsmall)
          · exact splitWords_quoted_escape ('U' :: hexNumber 8 r.toNat) hU

theorem splitWords_unitEscape {r : Char} (hnul : r ≠ '\x00') (rest : List Char) :
    splitWords (.quoted '"') 0 (unitEscape printable r ++ rest) =
      onFirst (doubled '%' r) (splitWords (.quoted '"') 0 rest) := by
  unfold unitEscape doubled
  split
  · have hplain : ∀ rest, splitWords (.quoted '"') 0 ('%' :: rest) =
        onFirst ['%'] (splitWords (.quoted '"') 0 rest) :=
      splitWords_quoted_plain (by decide) (by decide)
    rw [List.cons_append, hplain, List.cons_append, hplain, List.nil_append]
    exact (prepending_onFirst.append ['%'] ['%'] _).symm
  · exact splitWords_escape hnul rest

/-- Whatever stands behind it, the argument is one word. -/
theorem splitWords_argument {argument : String} (hnul : '\x00' ∉ argument.toList)
    {rest : List Char} (hrest : Separated rest) :
    splitWords .between 0 ((systemdUnitArgument printable argument).toList ++ rest) =
      (splitWords .between 0 rest).map (argument.toList.flatMap (doubled '%') :: ·) := by
  rw [toList_systemdUnitArgument, List.append_assoc, List.singleton_append]
  refine splitWords_quoted (fun r hr => ?_) hrest
  exact splitWords_unitEscape fun hzero => hnul (hzero ▸ hr)

theorem splitWords_argument_alone {argument : String} (hnul : '\x00' ∉ argument.toList) :
    splitWords .between 0 (systemdUnitArgument printable argument).toList =
      some [argument.toList.flatMap (doubled '%')] := by
  rw [← List.append_nil (systemdUnitArgument printable argument).toList,
    splitWords_argument hnul separated_nil]
  rfl

/-- Unquoting and the specifiers are undone; what is left is what the environment makes of the
argument itself. -/
theorem execStart_argument (table : Char → Option (List Char)) (env : Environment)
    {argument : String} (hnul : '\x00' ∉ argument.toList) :
    execStart table env (systemdUnitArgument printable argument).toList =
      some (env.expandWord argument.toList) := by
  rw [execStart, splitWords_argument_alone hnul, Option.map_some, List.map_singleton,
    List.flatMap_singleton, expandSpecifiers_doubled]

/-- The whole command line. -/
theorem execStart_unit (table : Char → Option (List Char)) (env : Environment)
    {executable configFilename : String} (hexecutable : '\x00' ∉ executable.toList)
    (hconfig : '\x00' ∉ configFilename.toList) :
    execStart table env (execStartValue printable executable configFilename).toList =
      some (env.expandWord executable.toList ++ "--config".toList ::
        env.expandWord configFilename.toList) := by
  have hoption : ∀ rest, splitWords .between 0 (" --config ".toList ++ rest) =
      (splitWords .between 0 rest).map ("--config".toList :: ·) := by
    intro rest
    have hblank : Separated (' ' :: rest) := by
      rintro c ⟨⟩
      rfl
    show splitWords .between 0 ('-' :: "-config".toList ++ ' ' :: rest) = _
    exact splitWords_word (by decide) hblank
  have hseparated : Separated (" --config ".toList ++
      (systemdUnitArgument printable configFilename).toList) := by
    rintro c ⟨⟩
    rfl
  have hbare : expandSpecifiers table false "--config".toList = "--config".toList := rfl
  have hself : env.expandWord "--config".toList = ["--config".toList] := rfl
  rw [execStart, execStartValue, String.toList_append, String.toList_append, List.append_assoc,
    splitWords_argument hexecutable hseparated, hoption, splitWords_argument_alone hconfig]
  simp only [Option.map_some, List.map_cons, List.map_nil, List.flatMap_cons, List.flatMap_nil,
    expandSpecifiers_doubled, hbare, hself, List.append_nil]
  rfl

end Written

/-! ## The round trip -/

/-- Whatever the specifiers, systemd reads the argument in every environment if and only if no
dollar sign in it begins an expansion. -/
theorem unit_argument_round_trip (printable : Char → Bool) (table : Char → Option (List Char))
    (argument : String) (hnul : '\x00' ∉ argument.toList) :
    (∀ env, execStart table env (systemdUnitArgument printable argument).toList =
      some [argument.toList]) ↔
    (argument.toList.head? = some '$' → argument.toList.tail.head? = some '{') ∧
      Inert argument.toList := by
  simp only [execStart_argument table _ hnul, Option.some.injEq]
  exact expandWord_eq_self

/-- A path with all that is escaped, and dollar signs that begin nothing. -/
theorem unit_argument_round_trip_escaped :
    let argument := "/srv/50% \"a\\b\"\n\x7f\u00ad$5/$\x7ba"
    execStart (fun _ => some ['!']) ⟨fun _ => some ['?'], fun v => [v]⟩
        (systemdUnitArgument (fun _ => false) argument).toList = some [argument.toList] := by
  intro argument
  exact (unit_argument_round_trip _ _ argument (by decide)).mpr ⟨by decide, by decide⟩ _

/-- The variable `HOME` and no other. -/
def homeOnly : Environment where
  value name := if name = "HOME".toList then some "/root".toList else none
  split value := [value]

/-- A variable in a path is replaced, and so is a doubled dollar sign. -/
theorem unit_argument_expanded :
    execStart (fun _ => none) homeOnly
        (systemdUnitArgument (fun _ => true) "/srv/$\x7bHOME\x7d/montray.yml").toList =
      some ["/srv//root/montray.yml".toList] ∧
    ∀ env, execStart (fun _ => none) env
        (systemdUnitArgument (fun _ => true) "/srv/$$/montray.yml").toList =
      some ["/srv/$/montray.yml".toList] := by
  constructor
  · rw [execStart_argument _ _ (by decide)]
    rfl
  · intro env
    rw [execStart_argument _ _ (by decide)]
    rfl

end Internal
end Montray
