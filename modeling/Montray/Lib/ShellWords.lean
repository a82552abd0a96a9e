import Montray.Lib.Escapes

/-!
# Montray.Lib.ShellWords

How a POSIX shell reads a word in the place of an argument: the word is recognised with its quotes,
then tildes, parameters and commands are expanded, the result is split into fields, file names are
generated, and the quotes are removed.

How far a construct behind a dollar sign or a backquote goes, and what the expansions give, belongs
to a `Shell`. Aliases and reserved words concern the place of a command and are not modelled, nor
is it that `"$@"` without parameters leaves no field.

* `readWord_single`, `readWord_word`: a word in single quotes, and one without any.
* `argument_of_inert`, `argument_word`: a word that holds nothing to expand is one field.
-/

namespace Montray
namespace Lib
namespace ShellWords

/-! ## Words -/

inductive Piece where
  | plain (c : Char)
  | quoted (c : Char)
  /-- A quote, which the last step removes. -/
  | mark
  | expansion (inQuotes : Bool) (text : List Char)
  deriving DecidableEq, Repr

inductive Mode where
  | bare
  | single
  | double
  deriving DecidableEq, Repr

/-- What ends a word where it is not quoted. -/
def isDelimiter (c : Char) : Bool :=
  c ∈ [' ', '\t', '\n', '|', '&', ';', '<', '>', '(', ')']

/-- What a backslash quotes between double quotes. -/
def isEscapable (c : Char) : Bool := c ∈ ['$', '`', '"', '\\']

/-- The construct at the head of a text, where there is one. -/
def constructAt (construct : List Char → Nat) : List Char → Nat
  | [] => 0
  | c :: cs => if c = '$' ∨ c = '`' then construct (c :: cs) else 0

/-- A word and what follows it; the first `skip` symbols belong to what was read before. -/
def readWord (construct : List Char → Nat) : Mode → Nat → List Char →
    Option (List Piece × List Char)
  | .bare, _, [] => some ([], [])
  | .single, _, [] => none
  | .double, _, [] => none
  | mode, skip + 1, _ :: cs => readWord construct mode skip cs
  | .bare, 0, c :: cs =>
    if isDelimiter c then some ([], c :: cs)
    else if c = '\'' then inFront [.mark] (readWord construct .single 0 cs)
    else if c = '"' then inFront [.mark] (readWord construct .double 0 cs)
    else if c = '\\' then
      -- A backslash before a line feed continues the line.
      if cs.head? = some '\n' then readWord construct .bare 1 cs
      else inFront [(cs.head?.map .quoted).getD (.plain '\\')] (readWord construct .bare 1 cs)
    else if constructAt construct (c :: cs) ≠ 0 then
      inFront [.expansion false ((c :: cs).take (constructAt construct (c :: cs)))]
        (readWord construct .bare (constructAt construct (c :: cs) - 1) cs)
    else inFront [.plain c] (readWord construct .bare 0 cs)
  | .single, 0, c :: cs =>
    if c = '\'' then inFront [.mark] (readWord construct .bare 0 cs)
    else inFront [.quoted c] (readWord construct .single 0 cs)
  | .double, 0, c :: cs =>
    if c = '"' then inFront [.mark] (readWord construct .bare 0 cs)
    else if c = '\\' ∧ cs.head? = some '\n' then readWord construct .double 1 cs
    else if c = '\\' ∧ cs.head?.any isEscapable then
      inFront (cs.head?.map .quoted).toList (readWord construct .double 1 cs)
    else if constructAt construct (c :: cs) ≠ 0 then
      inFront [.expansion true ((c :: cs).take (constructAt construct (c :: cs)))]
        (readWord construct .double (constructAt construct (c :: cs) - 1) cs)
    else inFront [.quoted c] (readWord construct .double 0 cs)

/-! ## Expansions -/

structure Shell where
  construct : List Char → Nat
  /-- The parts an expansion is split into: the first joins what stands before it and the last
  what stands behind it. -/
  expand : Bool → List Char → List (List Char)
  /-- The directory of a login name. -/
  home : List Char → Option (List Char)
  /-- The file names that match a pattern. -/
  glob : List Piece → List (List Char)

def Piece.plain? : Piece → Option Char
  | .plain c => some c
  | _ => none

def Piece.char? : Piece → Option Char
  | .plain c => some c
  | .quoted c => some c
  | _ => none

def removeQuotes (field : List Piece) : List Char := field.filterMap Piece.char?

/-- Parts of an expansion in front of the fields behind it. -/
def joinParts : List (List Piece) → List (List Piece) → List (List Piece)
  | [], fields => fields
  | [part], fields => wordsOnFirst part fields
  | part :: parts, fields => part :: joinParts parts fields

namespace Shell

variable (sh : Shell)

def tilde (word : List Piece) : List Piece :=
  if word.head? = some (.plain '~') then
    let name := word.tail.takeWhile (· ≠ .plain '/')
    match (name.mapM Piece.plain?).bind sh.home with
    | some directory => directory.map .quoted ++ word.tail.drop name.length
    | none => word
  else word

def split : List Piece → List (List Piece)
  | [] => [[]]
  | .expansion inQuotes text :: pieces =>
    joinParts ((sh.expand inQuotes text).map
      (·.map fun c => if inQuotes then .quoted c else .plain c)) (split pieces)
  | piece :: pieces => wordsOnFirst [piece] (split pieces)

def isPattern : Piece → Bool
  | .plain c => c ∈ ['*', '?', '[']
  | _ => false

/-- A pattern that matches nothing stands for itself. -/
def pathnames (field : List Piece) : List (List Char) :=
  if field.any isPattern ∧ sh.glob field ≠ [] then sh.glob field else [removeQuotes field]

/-- A field of which nothing is left is dropped; a pair of quotes keeps it. -/
def fields (word : List Piece) : List (List Char) :=
  ((sh.split (sh.tilde word)).filter (· ≠ [])).flatMap sh.pathnames

/-- Digits before a redirection are its number, not a word. -/
def isIoNumber (word : List Piece) (rest : List Char) : Bool :=
  word.all (·.plain?.any Char.isDigit) && rest.head?.any (fun c => c = '<' || c = '>')

/-- The fields of the argument at the head of a text, and what follows it. -/
def argument (text : List Char) : Option (List (List Char) × List Char) :=
  -- Behind a blank a `#` begins a comment.
  if text.head? = some '#' then none
  else
    (readWord sh.construct .bare 0 text).bind fun read =>
      if read.1 = [] ∨ isIoNumber read.1 read.2 then none else some (sh.fields read.1, read.2)

/-- All that a text of arguments and blanks gives. -/
inductive Reads : List Char → List (List Char) → Prop where
  | nil : Reads [] []
  | blank {text : List Char} {words : List (List Char)} :
      Reads text words → Reads (' ' :: text) words
  | word {text rest : List Char} {first words : List (List Char)} :
      sh.argument text = some (first, rest) → Reads rest words → Reads text (first ++ words)

end Shell

/-! ## Reading a word -/

section Read

variable {construct : List Char → Nat}

/-- What may stand behind an argument. -/
def Delimited (rest : List Char) : Prop :=
  ∀ c ∈ rest.head?, c ∈ [' ', '\t', '\n', ';', '&', '|', ')']

theorem delimited_nil : Delimited [] := by
  intro c hc
  cases hc

theorem delimited_blank (rest : List Char) : Delimited (' ' :: rest) := by
  intro c hc
  rw [← Option.some.inj hc]
  exact List.mem_cons_self

theorem readWord_end {rest : List Char} (hrest : Delimited rest) :
    readWord construct .bare 0 rest = some ([], rest) := by
  cases rest with
  | nil => rfl
  | cons c cs =>
    have hc : isDelimiter c = true := by
      have hmem := hrest c rfl
      simp only [List.mem_cons, List.not_mem_nil, or_false] at hmem
      rcases hmem with rfl | rfl | rfl | rfl | rfl | rfl | rfl <;> rfl
    rw [readWord, if_pos hc]

/-- A character that stands for itself where it is not quoted. -/
def isBare (c : Char) : Bool :=
  !isDelimiter c && c ∉ ['\'', '"', '\\', '$', '`', '~', '*', '?', '[', '#']

theorem readWord_bare {c : Char} (hc : isBare c = true) (rest : List Char) :
    readWord construct .bare 0 (c :: rest) =
      inFront [.plain c] (readWord construct .bare 0 rest) := by
  simp only [isBare, Bool.and_eq_true, Bool.not_eq_true', decide_eq_true_eq, List.mem_cons,
    List.not_mem_nil, or_false, not_or] at hc
  obtain ⟨hdelimiter, hsingle, hdouble, hback, hdollar, htick, -⟩ := hc
  have hno : constructAt construct (c :: rest) = 0 :=
    if_neg (not_or.mpr ⟨hdollar, htick⟩)
  rw [readWord, hdelimiter, if_neg Bool.false_ne_true, if_neg hsingle, if_neg hdouble,
    if_neg hback, hno, if_neg (not_not_intro rfl)]

theorem readWord_word {word rest : List Char} (hword : ∀ c ∈ word, isBare c = true)
    (hrest : Delimited rest) :
    readWord construct .bare 0 (word ++ rest) = some (word.map .plain, rest) := by
  have hread : ∀ c ∈ word, ∀ rest, readWord construct .bare 0 ([c] ++ rest) =
      inFront [.plain c] (readWord construct .bare 0 rest) :=
    fun c hc => readWord_bare (hword c hc)
  have h := prepending_inFront.read_flatMap hread rest
  rw [List.flatMap_singleton'] at h
  rw [h, readWord_end hrest, List.map_eq_flatMap]
  exact congrArg (fun pieces => some (pieces, rest)) (List.append_nil _)

theorem readWord_single_plain {c : Char} (hc : c ≠ '\'') (rest : List Char) :
    readWord construct .single 0 (c :: rest) =
      inFront [.quoted c] (readWord construct .single 0 rest) := by
  rw [readWord, if_neg hc]

/-- A word in single quotes, each symbol of it written in a way that is read as `out`. -/
theorem readWord_single {α : Type} {esc : α → List Char} {out : α → List Piece} {l : List α}
    (h : ∀ a ∈ l, ∀ rest, readWord construct .single 0 (esc a ++ rest) =
      inFront (out a) (readWord construct .single 0 rest)) {rest : List Char}
    (hrest : Delimited rest) :
    readWord construct .bare 0 ('\'' :: l.flatMap esc ++ '\'' :: rest) =
      some (.mark :: l.flatMap out ++ [.mark], rest) := by
  have hopen : readWord construct .bare 0 ('\'' :: l.flatMap esc ++ '\'' :: rest) =
      inFront [.mark] (readWord construct .single 0 (l.flatMap esc ++ '\'' :: rest)) := rfl
  have hclose : readWord construct .single 0 ('\'' :: rest) =
      inFront [.mark] (readWord construct .bare 0 rest) := rfl
  rw [hopen, prepending_inFront.read_flatMap h, hclose, readWord_end hrest]
  rfl

end Read

/-! ## Words with nothing to expand -/

def Piece.isInert : Piece → Bool
  | .plain c => c ∉ ['~', '*', '?', '[']
  | .expansion _ _ => false
  | _ => true

theorem isInert_plain {c : Char} (h : isBare c = true) : (Piece.plain c).isInert = true := by
  rw [isBare, Bool.and_eq_true, decide_eq_true_eq] at h
  refine decide_eq_true fun hmem => h.2 ?_
  simp only [List.mem_cons, List.not_mem_nil, or_false] at hmem
  rcases hmem with rfl | rfl | rfl | rfl <;> decide

namespace Shell

variable (sh : Shell) {word : List Piece}

theorem tilde_of_inert (h : ∀ piece ∈ word, piece.isInert = true) : sh.tilde word = word := by
  refine if_neg fun hhead => ?_
  have hinert := h _ (List.mem_of_head? hhead)
  exact absurd hinert (by decide)

theorem split_of_inert (h : ∀ piece ∈ word, piece.isInert = true) : sh.split word = [word] := by
  induction word with
  | nil => rfl
  | cons piece word ih =>
    rw [List.forall_mem_cons] at h
    have hstep : sh.split (piece :: word) = wordsOnFirst [piece] (sh.split word) := by
      cases piece with
      | expansion inQuotes text => exact absurd h.1 Bool.false_ne_true
      | plain c => rfl
      | quoted c => rfl
      | mark => rfl
    rw [hstep, ih h.2, wordsOnFirst_cons]
    rfl

theorem pathnames_of_inert (h : ∀ piece ∈ word, piece.isInert = true) :
    sh.pathnames word = [removeQuotes word] := by
  refine if_neg fun hpattern => ?_
  obtain ⟨piece, hmem, hpiece⟩ := List.any_eq_true.mp hpattern.1
  have hinert := h piece hmem
  cases piece with
  | plain c =>
    simp only [isPattern, Piece.isInert, decide_eq_true_eq, List.mem_cons] at hpiece hinert
    exact hinert (.inr hpiece)
  | quoted c => cases hpiece
  | mark => cases hpiece
  | expansion inQuotes text => cases hpiece

theorem argument_of_inert {text rest : List Char}
    (hread : readWord sh.construct .bare 0 text = some (word, rest)) (hword : word ≠ [])
    (hinert : ∀ piece ∈ word, piece.isInert = true) (hcomment : text.head? ≠ some '#')
    (hrest : Delimited rest) :
    sh.argument text = some ([removeQuotes word], rest) := by
  have hnumber : isIoNumber word rest = false := by
    refine Bool.eq_false_of_not_eq_true fun hnumber => ?_
    rw [isIoNumber, Bool.and_eq_true, Option.any_eq_true] at hnumber
    obtain ⟨-, c, hc, hredirect⟩ := hnumber
    have hmem := hrest c hc
    rw [Bool.or_eq_true, decide_eq_true_eq, decide_eq_true_eq] at hredirect
    rcases hredirect with rfl | rfl
    · exact absurd hmem (by decide)
    · exact absurd hmem (by decide)
  have hfields : sh.fields word = [removeQuotes word] := by
    have hkeep : [word].filter (· ≠ []) = [word] := by
      rw [List.filter_cons, if_pos (decide_eq_true hword)]
      rfl
    rw [fields, sh.tilde_of_inert hinert, sh.split_of_inert hinert, hkeep, List.flatMap_singleton,
      sh.pathnames_of_inert hinert]
  rw [argument, if_neg hcomment, hread, Option.bind_some, hnumber, hfields]
  exact if_neg (not_or.mpr ⟨hword, Bool.false_ne_true⟩)

/-- A word without quotes of which no character is special. -/
theorem argument_word {text rest : List Char} (hne : text ≠ [])
    (hbare : ∀ c ∈ text, isBare c = true) (hrest : Delimited rest) :
    sh.argument (text ++ rest) = some ([text], rest) := by
  have hread : readWord sh.construct .bare 0 (text ++ rest) = some (text.map .plain, rest) :=
    readWord_word hbare hrest
  have hinert : ∀ piece ∈ text.map Piece.plain, piece.isInert = true := by
    intro piece hpiece
    obtain ⟨c, hc, rfl⟩ := List.mem_map.mp hpiece
    exact isInert_plain (hbare c hc)
  have hremove : removeQuotes (text.map Piece.plain) = text := by
    rw [removeQuotes, List.filterMap_map]
    exact List.filterMap_some
  have hcomment : (text ++ rest).head? ≠ some '#' := by
    obtain ⟨c, cs, rfl⟩ := List.exists_cons_of_ne_nil hne
    intro hhead
    have hc := hbare c List.mem_cons_self
    rw [Option.some.inj hhead] at hc
    exact absurd hc (by decide)
  have hword : text.map Piece.plain ≠ [] := fun h => hne (List.map_eq_nil_iff.mp h)
  have h := sh.argument_of_inert hread hword hinert hcomment hrest
  rwa [hremove] at h

end Shell

end ShellWords
end Lib
end Montray
