import Montray.Lib.Escapes

/-!
# Montray.Lib.DesktopSyntax

How the value of `Exec` in a desktop entry becomes the arguments of a process: the lines of the file
give the value, its escapes are undone, the result is split into words with quotes of their own, and
the field codes of each word are read.

An entry has one group here; what a file with several holds under `Exec` is that of the first.

* `lines_append`: lines that are written are read back.
* `execWords_quoted`, `execWords_word`: a quoted word whose symbols are escaped, and a bare one.
* `fieldCodes_doubled`: a word with its percent signs doubled has no field code.
-/

namespace Montray
namespace Lib
namespace DesktopSyntax

/-! ## Lines and keys -/

/-- Lines are separated by line feeds. -/
def lines : List Char → List (List Char)
  | [] => [[]]
  | c :: cs => if c = '\n' then [] :: lines cs else wordsOnFirst [c] (lines cs)

/-- The key and the value of a line, without the blanks around the equals sign. -/
def keyValue (line : List Char) : Option (List Char × List Char) :=
  if line.head? = some '#' ∨ '=' ∉ line then none
  else
    some ((line.takeWhile (· ≠ '=')).rdropWhile (· = ' '),
      ((line.dropWhile (· ≠ '=')).drop 1).dropWhile (· = ' '))

def execOf (text : List Char) : Option (List Char) :=
  ((lines text).filterMap keyValue).lookup "Exec".toList

/-! ## The value of `Exec` -/

def valueEscape : Char → Option Char
  | 's' => some ' '
  | 'n' => some '\n'
  | 't' => some '\t'
  | 'r' => some '\r'
  | '\\' => some '\\'
  | _ => none

/-- The escapes of a string value; `back` when a backslash came last. -/
def unescapeValue (back : Bool) : List Char → List Char
  | [] => if back then ['\\'] else []
  | c :: cs =>
    if back then
      match valueEscape c with
      | some d => d :: unescapeValue false cs
      | none => '\\' :: c :: unescapeValue false cs
    else if c = '\\' then unescapeValue true cs
    else c :: unescapeValue false cs

inductive ExecMode where
  | between
  | bare
  | quoted
  | escaped
  | closed
  deriving DecidableEq, Repr

/-- What a bare word may not hold. -/
def isReserved (c : Char) : Bool :=
  c ∈ ['\t', '\n', '"', '\'', '\\', '>', '<', '~', '|', '&', ';', '$', '*', '?', '#', '(', ')', '`']

/-- What a backslash escapes within quotes. -/
def isEscapable (c : Char) : Bool := c ∈ ['"', '`', '$', '\\']

/-- The words of an unescaped value; none where the quoting is not well formed. -/
def execWords : ExecMode → List Char → Option (List (List Char))
  | .between, [] => some []
  | .bare, [] => some [[]]
  | .closed, [] => some [[]]
  | .quoted, [] => none
  | .escaped, [] => none
  | .between, c :: cs =>
    if c = ' ' then execWords .between cs
    else if c = '"' then execWords .quoted cs
    else if isReserved c then none
    else onFirst [c] (execWords .bare cs)
  | .bare, c :: cs =>
    if c = ' ' then (execWords .between cs).map ([] :: ·)
    else if isReserved c then none
    else onFirst [c] (execWords .bare cs)
  -- A word is quoted in whole.
  | .closed, c :: cs => if c = ' ' then (execWords .between cs).map ([] :: ·) else none
  | .quoted, c :: cs =>
    if c = '"' then execWords .closed cs
    else if c = '\\' then execWords .escaped cs
    else if isEscapable c then none
    else onFirst [c] (execWords .quoted cs)
  | .escaped, c :: cs =>
    if isEscapable c then onFirst [c] (execWords .quoted cs)
    else onFirst ['\\', c] (execWords .quoted cs)

inductive Piece where
  | char (c : Char)
  | code (c : Char)
  deriving DecidableEq, Repr

/-- The field codes of a word; `percent` when a percent sign came last. -/
def fieldCodes (percent : Bool) : List Char → Option (List Piece)
  | [] => if percent then none else some []
  | c :: cs =>
    if percent then
      (fieldCodes false cs).map ([if c = '%' then .char '%' else .code c] ++ ·)
    else if c = '%' then fieldCodes true cs
    else (fieldCodes false cs).map ([.char c] ++ ·)

/-- The arguments a value of `Exec` stands for. -/
def decodeExec (value : List Char) : Option (List (List Piece)) :=
  (execWords .between (unescapeValue false value)).bind fun words => words.mapM (fieldCodes false)

/-! ## Lines -/

theorem lines_of_not_mem {line : List Char} (h : '\n' ∉ line) : lines line = [line] := by
  induction line with
  | nil => rfl
  | cons c cs ih =>
    rw [List.mem_cons, not_or] at h
    rw [lines, if_neg (Ne.symm h.1), ih h.2, wordsOnFirst_cons]
    rfl

theorem lines_cons_append {line : List Char} (h : '\n' ∉ line) (rest : List Char) :
    lines (line ++ '\n' :: rest) = line :: lines rest := by
  induction line with
  | nil => rfl
  | cons c cs ih =>
    rw [List.mem_cons, not_or] at h
    rw [List.cons_append, lines, if_neg (Ne.symm h.1), ih h.2, wordsOnFirst_cons]
    rfl

theorem lines_ne_nil (text : List Char) : lines text ≠ [] := by
  cases text with
  | nil => exact List.cons_ne_nil _ _
  | cons c cs =>
    rw [lines]
    split
    · exact List.cons_ne_nil _ _
    · exact wordsOnFirst_ne_nil (List.cons_ne_nil _ _) _

/-- A text that is its only line has no line feed. -/
theorem not_mem_of_lines {line : List Char} (h : lines line = [line]) : '\n' ∉ line := by
  intro hmem
  obtain ⟨first, rest, heq, hfirst⟩ := List.eq_append_cons_of_mem hmem
  rw [heq, lines_cons_append hfirst, List.cons.injEq] at h
  exact lines_ne_nil rest h.2

theorem lines_append {ls : List (List Char)} (h : ∀ line ∈ ls, '\n' ∉ line) (rest : List Char) :
    lines (ls.flatMap (· ++ ['\n']) ++ rest) = ls ++ lines rest := by
  induction ls with
  | nil => rfl
  | cons line ls ih =>
    rw [List.forall_mem_cons] at h
    rw [List.flatMap_cons, List.append_assoc, List.append_assoc, List.singleton_append,
      lines_cons_append h.1, ih h.2]
    rfl

/-! ## Value escapes -/

theorem unescapeValue_plain {c : Char} (h : c ≠ '\\') (rest : List Char) :
    unescapeValue false (c :: rest) = c :: unescapeValue false rest := by
  rw [unescapeValue, if_neg Bool.false_ne_true, if_neg h]

theorem unescapeValue_plain_append {word : List Char} (h : '\\' ∉ word) (rest : List Char) :
    unescapeValue false (word ++ rest) = word ++ unescapeValue false rest := by
  have hread : ∀ c ∈ word, ∀ rest, unescapeValue false ([c] ++ rest) =
      [c] ++ unescapeValue false rest :=
    fun c hc => unescapeValue_plain (ne_of_mem_of_not_mem hc h)
  have hall := prepending_append.read_flatMap hread rest
  rwa [List.flatMap_singleton'] at hall

/-! ## Words -/

theorem execWords_quoted_plain {c : Char} (h : isEscapable c = false) (rest : List Char) :
    execWords .quoted (c :: rest) = onFirst [c] (execWords .quoted rest) := by
  have hmark : c ≠ '"' := by
    rintro rfl
    cases h
  have hback : c ≠ '\\' := by
    rintro rfl
    cases h
  simp only [execWords, if_neg hmark, if_neg hback, h, Bool.false_eq_true, if_false]

theorem execWords_quoted_escape {c : Char} (h : isEscapable c = true) (rest : List Char) :
    execWords .quoted ('\\' :: c :: rest) = onFirst [c] (execWords .quoted rest) := by
  have hback : execWords .quoted ('\\' :: c :: rest) = execWords .escaped (c :: rest) := rfl
  rw [hback, execWords, if_pos h]

/-- What may stand behind a word. -/
def Separated (rest : List Char) : Prop := ∀ c ∈ rest.head?, c = ' '

theorem separated_nil : Separated [] := by
  intro c hc
  cases hc

theorem separated_blank (rest : List Char) : Separated (' ' :: rest) := by
  intro c hc
  exact (Option.some.inj hc).symm

theorem execWords_end {mode : ExecMode} (hmode : mode = .bare ∨ mode = .closed)
    {rest : List Char} (hrest : Separated rest) :
    execWords mode rest = (execWords .between rest).map ([] :: ·) := by
  cases rest with
  | nil => rcases hmode with rfl | rfl <;> rfl
  | cons c cs =>
    obtain rfl : c = ' ' := hrest c rfl
    rcases hmode with rfl | rfl <;> rfl

/-- A quoted word, each symbol of it written in a way that is read as `out`. -/
theorem execWords_quoted {α : Type} {esc out : α → List Char} {l : List α}
    (h : ∀ a ∈ l, ∀ rest, execWords .quoted (esc a ++ rest) =
      onFirst (out a) (execWords .quoted rest)) {rest : List Char} (hrest : Separated rest) :
    execWords .between ('"' :: l.flatMap esc ++ '"' :: rest) =
      (execWords .between rest).map (l.flatMap out :: ·) := by
  have hopen : execWords .between ('"' :: l.flatMap esc ++ '"' :: rest) =
      execWords .quoted (l.flatMap esc ++ '"' :: rest) := rfl
  have hclose : execWords .quoted ('"' :: rest) = execWords .closed rest := rfl
  rw [hopen, prepending_onFirst.read_flatMap h, hclose, execWords_end (.inr rfl) hrest,
    onFirst_map_nil]

/-- A character that stands for itself in a bare word. -/
def isBare (c : Char) : Bool := c != ' ' && !isReserved c

theorem execWords_bare {mode : ExecMode} (hmode : mode = .between ∨ mode = .bare) {c : Char}
    (hc : isBare c = true) (rest : List Char) :
    execWords mode (c :: rest) = onFirst [c] (execWords .bare rest) := by
  simp only [isBare, Bool.and_eq_true, bne_iff_ne, Bool.not_eq_true'] at hc
  obtain ⟨hblank, hreserved⟩ := hc
  have hmark : c ≠ '"' := by
    rintro rfl
    cases hreserved
  rcases hmode with rfl | rfl <;>
    simp only [execWords, if_neg hblank, if_neg hmark, hreserved, Bool.false_eq_true, if_false]

/-- A bare word. -/
theorem execWords_word {c : Char} {cs : List Char} (h : (c :: cs).all isBare = true)
    {rest : List Char} (hrest : Separated rest) :
    execWords .between (c :: cs ++ rest) = (execWords .between rest).map ((c :: cs) :: ·) :=
  read_word (fun _ rest hd => execWords_bare (.inl rfl) hd rest)
    (fun _ rest hd => execWords_bare (.inr rfl) hd rest) h (execWords_end (.inl rfl) hrest)

/-! ## Field codes -/

theorem fieldCodes_doubled (word : List Char) :
    fieldCodes false (word.flatMap (doubled '%')) = some (word.map .char) := by
  have hread : ∀ c ∈ word, ∀ rest, fieldCodes false (doubled '%' c ++ rest) =
      (fieldCodes false rest).map ([.char c] ++ ·) := by
    intro c _ rest
    unfold doubled
    split
    · rename_i hc
      rw [hc]
      rfl
    · rename_i hc
      exact if_neg hc
  have h := prepending_append.option.read_flatMap hread []
  rw [List.append_nil] at h
  rw [h, List.map_eq_flatMap]
  exact congrArg some (List.append_nil _)

theorem mapM_fieldCodes_doubled (words : List (List Char)) :
    (words.map (·.flatMap (doubled '%'))).mapM (fieldCodes false) =
      some (words.map (·.map .char)) := by
  induction words with
  | nil => rfl
  | cons word words ih =>
    rw [List.map_cons, List.mapM_cons, fieldCodes_doubled, ih]
    rfl

end DesktopSyntax
end Lib
end Montray
