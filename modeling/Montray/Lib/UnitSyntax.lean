import Montray.Lib.Escapes

/-!
# Montray.Lib.UnitSyntax

How the value of `ExecStart=` in a systemd unit becomes the arguments of a process: it is split into
words with C-style escapes, the specifiers of each word are expanded, and then the variables of the
environment.

Texts are characters here, so an escape that stands for a byte is read where the byte is ASCII only.

* `splitWords_quoted`: a double-quoted word whose symbols are escaped.
* `cunescapeOne_hex`: the numeric escapes of all widths.
* `expandSpecifiers_doubled`: percent signs that are doubled.
* `expandWord_eq_self`: the words that the variables leave alone, whatever the environment.
-/

namespace Montray
namespace Lib
namespace UnitSyntax

/-! ## Escapes -/

def plainEscape : Char → Option Char
  | 'a' => some '\x07'
  | 'b' => some '\x08'
  | 'f' => some '\x0c'
  | 'n' => some '\n'
  | 'r' => some '\r'
  | 't' => some '\t'
  | 'v' => some '\x0b'
  | '\\' => some '\\'
  | '"' => some '"'
  | '\'' => some '\''
  | 's' => some ' '
  | _ => none

def fromOctalNumber (cs : List Char) : Option Nat :=
  cs.foldlM (fun n c => if '0' ≤ c ∧ c ≤ '7' then some (8 * n + (c.toNat - 48)) else none) 0

/-- The character of a number; NUL is refused. -/
def scalar (limit n : Nat) : Option Char :=
  if n ≠ 0 ∧ n < limit ∧ n.isValidChar then some (Char.ofNat n) else none

/-- The number in the first `width` symbols. -/
def numeric (read : List Char → Option Nat) (width limit : Nat) (cs : List Char) : Option Char :=
  if width ≤ cs.length then (read (cs.take width)).bind (scalar limit) else none

/-- What follows a backslash: the character, and how many symbols it takes. -/
def cunescapeOne : List Char → Option (Char × Nat)
  | [] => none
  | c :: cs =>
    match plainEscape c with
    | some d => some (d, 1)
    | none =>
      if c = 'x' then (numeric fromHexNumber 2 128 cs).map (·, 3)
      else if c = 'u' then (numeric fromHexNumber 4 0x110000 cs).map (·, 5)
      else if c = 'U' then (numeric fromHexNumber 8 0x110000 cs).map (·, 9)
      else (numeric fromOctalNumber 3 128 (c :: cs)).map (·, 3)

/-! ## Words -/

inductive WordMode where
  | between
  | bare
  | quoted (mark : Char)
  deriving DecidableEq, Repr

/-- Where an escape is read, a word has begun. -/
def WordMode.entered : WordMode → WordMode
  | .between => .bare
  | mode => mode

def isSeparator (c : Char) : Bool := c == ' ' || c == '\t' || c == '\n' || c == '\r'

/-- The words from here on, the first `skip` symbols aside. In a word, the first of them is the rest
of it. -/
def splitWords : WordMode → Nat → List Char → Option (List (List Char))
  | .between, _, [] => some []
  | .bare, _, [] => some [[]]
  | .quoted _, _, [] => none
  | mode, skip + 1, _ :: cs => splitWords mode skip cs
  | mode, 0, c :: cs =>
    if c = '\\' then
      match cunescapeOne cs with
      | none => none
      | some (d, n) => onFirst [d] (splitWords mode.entered n cs)
    else
      match mode with
      | .quoted mark =>
        if c = mark then splitWords .bare 0 cs else onFirst [c] (splitWords (.quoted mark) 0 cs)
      | .bare =>
        if c = '"' ∨ c = '\'' then splitWords (.quoted c) 0 cs
        else if isSeparator c then (splitWords .between 0 cs).map ([] :: ·)
        else onFirst [c] (splitWords .bare 0 cs)
      | .between =>
        if c = '"' ∨ c = '\'' then splitWords (.quoted c) 0 cs
        else if isSeparator c then splitWords .between 0 cs
        else onFirst [c] (splitWords .bare 0 cs)

/-! ## Expansions -/

/-- `%%` is a percent sign; what is no specifier stays. The flag says that a percent sign came
last. -/
def expandSpecifiers (table : Char → Option (List Char)) : Bool → List Char → List Char
  | false, [] => []
  | true, [] => ['%']
  | true, c :: cs =>
    (if c = '%' then ['%'] else (table c).getD ['%', c]) ++ expandSpecifiers table false cs
  | false, c :: cs =>
    if c = '%' then expandSpecifiers table true cs else c :: expandSpecifiers table false cs

structure Environment where
  value : List Char → Option (List Char)
  /-- The words of the value of a variable that is a word by itself. -/
  split : List Char → List (List Char)

inductive EnvMode where
  | word
  | dollar
  | variable (name : List Char)
  deriving DecidableEq, Repr

namespace Environment

variable (env : Environment)

/-- `$$` is a dollar sign and `${NAME}` a value; what is neither stays, and so does a name with a
colon, which would be a substitution of a shell. -/
def replaceEnv : EnvMode → List Char → List Char
  | .word, [] => []
  | .dollar, [] => ['$']
  | .variable name, [] => '$' :: '{' :: name
  | .word, c :: cs => if c = '$' then replaceEnv .dollar cs else c :: replaceEnv .word cs
  | .dollar, c :: cs =>
    if c = '{' then replaceEnv (.variable []) cs
    else if c = '$' then '$' :: replaceEnv .word cs
    else '$' :: c :: replaceEnv .word cs
  | .variable name, c :: cs =>
    if c = '}' then (env.value name).getD [] ++ replaceEnv .word cs
    else if c = ':' then '$' :: '{' :: name ++ ':' :: replaceEnv .word cs
    else replaceEnv (.variable (name ++ [c])) cs

/-- A word that is `$NAME` gives the words of the value. -/
def expandWord (word : List Char) : List (List Char) :=
  if word.head? = some '$' ∧ word.tail.head? ≠ some '{' ∧ word.tail.head? ≠ some '$' then
    ((env.value word.tail).map env.split).getD []
  else [env.replaceEnv .word word]

end Environment

/-- The arguments that a command line gives. -/
def execStart (table : Char → Option (List Char)) (env : Environment) (line : List Char) :
    Option (List (List Char)) :=
  (splitWords .between 0 line).map fun words =>
    (words.map (expandSpecifiers table false)).flatMap env.expandWord

/-! ## Reading quoted words -/

theorem splitWords_skip (mode : WordMode) (l cs : List Char) :
    splitWords mode l.length (l ++ cs) = splitWords mode 0 cs := by
  induction l with
  | nil => rfl
  | cons c l ih =>
    rw [List.length_cons, List.cons_append, splitWords]
    exact ih

theorem splitWords_quoted_plain {mark c : Char} (hback : c ≠ '\\') (hmark : c ≠ mark)
    (rest : List Char) :
    splitWords (.quoted mark) 0 (c :: rest) = onFirst [c] (splitWords (.quoted mark) 0 rest) := by
  rw [splitWords, if_neg hback]
  exact if_neg hmark

theorem splitWords_quoted_escape {mark d : Char} (escape : List Char) {rest : List Char}
    (h : cunescapeOne (escape ++ rest) = some (d, escape.length)) :
    splitWords (.quoted mark) 0 ('\\' :: escape ++ rest) =
      onFirst [d] (splitWords (.quoted mark) 0 rest) := by
  rw [List.cons_append, splitWords, if_pos rfl, h]
  exact congrArg (onFirst [d]) (splitWords_skip _ escape rest)

/-- What may stand behind a word. -/
def Separated (rest : List Char) : Prop := ∀ c ∈ rest.head?, isSeparator c = true

theorem separated_nil : Separated [] := by
  intro c hc
  cases hc

theorem splitWords_end {rest : List Char} (hrest : Separated rest) :
    splitWords .bare 0 rest = (splitWords .between 0 rest).map ([] :: ·) := by
  cases rest with
  | nil => rfl
  | cons c cs =>
    have hsep : isSeparator c = true := hrest c rfl
    have hback : c ≠ '\\' := by
      rintro rfl
      cases hsep
    have hmark : ¬ (c = '"' ∨ c = '\'') := by
      rintro (rfl | rfl) <;> cases hsep
    simp only [splitWords, if_neg hback, if_neg hmark, if_pos hsep]

/-- A double-quoted word, each symbol of it written in a way that is read as `out`. -/
theorem splitWords_quoted {α : Type} {esc out : α → List Char} {l : List α}
    (h : ∀ a ∈ l, ∀ rest, splitWords (.quoted '"') 0 (esc a ++ rest) =
      onFirst (out a) (splitWords (.quoted '"') 0 rest)) {rest : List Char}
    (hrest : Separated rest) :
    splitWords .between 0 ('"' :: l.flatMap esc ++ '"' :: rest) =
      (splitWords .between 0 rest).map (l.flatMap out :: ·) := by
  have hopen : splitWords .between 0 ('"' :: l.flatMap esc ++ '"' :: rest) =
      splitWords (.quoted '"') 0 (l.flatMap esc ++ '"' :: rest) := rfl
  have hclose : splitWords (.quoted '"') 0 ('"' :: rest) = splitWords .bare 0 rest := rfl
  rw [hopen, prepending_onFirst.read_flatMap h, hclose, splitWords_end hrest, onFirst_map_nil]

/-- A character that stands for itself in a bare word. -/
def isBare (c : Char) : Bool := c != '\\' && c != '"' && c != '\'' && !isSeparator c

theorem splitWords_bare {mode : WordMode} (hmode : mode = .between ∨ mode = .bare) {c : Char}
    (hc : isBare c = true) (rest : List Char) :
    splitWords mode 0 (c :: rest) = onFirst [c] (splitWords .bare 0 rest) := by
  simp only [isBare, Bool.and_eq_true, bne_iff_ne, Bool.not_eq_true'] at hc
  obtain ⟨⟨⟨hback, hdouble⟩, hsingle⟩, hsep⟩ := hc
  have hmark : ¬ (c = '"' ∨ c = '\'') := not_or.mpr ⟨hdouble, hsingle⟩
  rcases hmode with rfl | rfl <;>
    simp only [splitWords, if_neg hback, if_neg hmark, hsep, Bool.false_eq_true, if_false]

/-- A bare word. -/
theorem splitWords_word {c : Char} {cs : List Char} (h : (c :: cs).all isBare = true)
    {rest : List Char} (hrest : Separated rest) :
    splitWords .between 0 (c :: cs ++ rest) =
      (splitWords .between 0 rest).map ((c :: cs) :: ·) :=
  read_word (fun _ rest hd => splitWords_bare (.inl rfl) hd rest)
    (fun _ rest hd => splitWords_bare (.inr rfl) hd rest) h (splitWords_end hrest)

/-! ## Escapes of letters and numbers -/

theorem cunescapeOne_plain {c d : Char} (h : plainEscape c = some d) (rest : List Char) :
    cunescapeOne (c :: rest) = some (d, 1) := by
  simp only [cunescapeOne, h]

theorem numeric_hexNumber {width limit : Nat} {c : Char} (hwidth : c.toNat < 16 ^ width)
    (hlimit : c.toNat < limit) (hnul : c ≠ '\x00') (rest : List Char) :
    numeric fromHexNumber width limit (hexNumber width c.toNat ++ rest) = some c := by
  have hlen : width ≤ (hexNumber width c.toNat ++ rest).length := by
    rw [List.length_append, length_hexNumber]
    omega
  have htake : (hexNumber width c.toNat ++ rest).take width = hexNumber width c.toNat := by
    rw [List.take_append_of_le_length (length_hexNumber _ _).ge]
    exact List.take_of_length_le (length_hexNumber _ _).le
  have hpos : c.toNat ≠ 0 := fun h => hnul (Char.toNat_inj.mp h)
  rw [numeric, if_pos hlen, htake, fromHexNumber_hexNumber hwidth, Option.bind_some, scalar,
    if_pos ⟨hpos, hlimit, c.valid⟩, Char.ofNat_toNat]

/-- A character that is not NUL, by its number. -/
theorem cunescapeOne_hex {c : Char} (hnul : c ≠ '\x00') (rest : List Char) :
    (c.toNat < 128 →
      cunescapeOne ('x' :: hexNumber 2 c.toNat ++ rest) = some (c, 3)) ∧
    (c.toNat < 0x10000 → cunescapeOne ('u' :: hexNumber 4 c.toNat ++ rest) = some (c, 5)) ∧
    cunescapeOne ('U' :: hexNumber 8 c.toNat ++ rest) = some (c, 9) := by
  have hranges : c.toNat < 0xD800 ∨ 0xDFFF < c.toNat ∧ c.toNat < 0x110000 := c.valid
  have hvalid : c.toNat < 0x110000 := by omega
  have hx : ∀ cs, cunescapeOne ('x' :: cs) = (numeric fromHexNumber 2 128 cs).map (·, 3) :=
    fun _ => rfl
  have hu : ∀ cs, cunescapeOne ('u' :: cs) = (numeric fromHexNumber 4 0x110000 cs).map (·, 5) :=
    fun _ => rfl
  have hU : ∀ cs, cunescapeOne ('U' :: cs) = (numeric fromHexNumber 8 0x110000 cs).map (·, 9) :=
    fun _ => rfl
  refine ⟨fun h => ?_, fun h => ?_, ?_⟩
  · rw [List.cons_append, hx, numeric_hexNumber (by omega) h hnul]
    rfl
  · rw [List.cons_append, hu, numeric_hexNumber (by omega) hvalid hnul]
    rfl
  · rw [List.cons_append, hU, numeric_hexNumber (by omega) hvalid hnul]
    rfl

/-! ## Where nothing is expanded -/

theorem expandSpecifiers_doubled (table : Char → Option (List Char)) (word : List Char) :
    expandSpecifiers table false (word.flatMap (doubled '%')) = word := by
  have hread : ∀ r ∈ word, ∀ rest, expandSpecifiers table false (doubled '%' r ++ rest) =
      [r] ++ expandSpecifiers table false rest := by
    intro r _ rest
    unfold doubled
    split
    · rename_i hr
      rw [hr]
      rfl
    · rename_i hr
      exact if_neg hr
  have h := prepending_append.read_flatMap hread []
  rw [List.append_nil, List.flatMap_singleton'] at h
  rw [h]
  exact List.append_nil word

/-- What a variable's name may not hold. -/
def IsName (name : List Char) : Prop := '}' ∉ name ∧ ':' ∉ name

theorem IsName.concat {name : List Char} {c : Char} (h : IsName name) (hbrace : c ≠ '}')
    (hcolon : c ≠ ':') : IsName (name ++ [c]) := by
  simp [IsName, h.1, h.2, hbrace.symm, hcolon.symm]

/-- A word without a variable or a doubled dollar sign: from the left, every dollar sign is the last
symbol, stands in front of a symbol other than itself and the brace, or begins a `${` that is not
closed. -/
inductive Inert : List Char → Prop
  | nil : Inert []
  | symbol {c : Char} {cs : List Char} (hc : c ≠ '$') (h : Inert cs) : Inert (c :: cs)
  | last : Inert ['$']
  | dollar {c : Char} {cs : List Char} (hdollar : c ≠ '$') (hbrace : c ≠ '{') (h : Inert cs) :
      Inert ('$' :: c :: cs)
  | colon {name cs : List Char} (hname : IsName name) (h : Inert cs) :
      Inert ('$' :: '{' :: name ++ ':' :: cs)
  | unclosed {name : List Char} (hname : IsName name) : Inert ('$' :: '{' :: name)

namespace Environment

theorem replaceEnv_name (env : Environment) {name : List Char} (h : IsName name)
    (read rest : List Char) :
    env.replaceEnv (.variable read) (name ++ rest) =
      env.replaceEnv (.variable (read ++ name)) rest := by
  induction name generalizing read with
  | nil => simp
  | cons c name ih =>
    obtain ⟨hbrace, hcolon⟩ := h
    rw [List.mem_cons, not_or] at hbrace hcolon
    rw [List.cons_append, replaceEnv, if_neg (Ne.symm hbrace.1), if_neg (Ne.symm hcolon.1),
      ih ⟨hbrace.2, hcolon.2⟩]
    simp

theorem replaceEnv_inert (env : Environment) {word : List Char} (h : Inert word) :
    env.replaceEnv .word word = word := by
  induction h with
  | nil => rfl
  | symbol hc _ ih => rw [replaceEnv, if_neg hc, ih]
  | last => rfl
  | dollar hdollar hbrace _ ih =>
    rw [replaceEnv, if_pos rfl, replaceEnv, if_neg hbrace, if_neg hdollar, ih]
  | @colon name cs hname _ ih =>
    show env.replaceEnv (.variable []) (name ++ ':' :: cs) = _
    rw [env.replaceEnv_name hname, List.nil_append, replaceEnv, if_neg (by decide), if_pos rfl, ih]
  | @unclosed name hname =>
    show env.replaceEnv (.variable []) name = _
    rw [← List.append_nil name, env.replaceEnv_name hname]
    simp [replaceEnv]

/-- No variable is set. -/
def unset : Environment := ⟨fun _ => none, fun value => [value]⟩

/-- Where no variable is set, every replacement makes the word shorter. In each mode, what was read
and is still to be written counts as part of the word. -/
theorem replaceEnv_unset (word : List Char) :
    ((unset.replaceEnv .word word).length ≤ word.length ∧
      ((unset.replaceEnv .word word).length = word.length → Inert word)) ∧
    ((unset.replaceEnv .dollar word).length ≤ word.length + 1 ∧
      ((unset.replaceEnv .dollar word).length = word.length + 1 → Inert ('$' :: word))) ∧
    ∀ name, IsName name →
      (unset.replaceEnv (.variable name) word).length ≤ word.length + name.length + 2 ∧
      ((unset.replaceEnv (.variable name) word).length = word.length + name.length + 2 →
        Inert ('$' :: '{' :: name ++ word)) := by
  induction word with
  | nil =>
    refine ⟨⟨le_rfl, fun _ => .nil⟩, ⟨le_rfl, fun _ => .last⟩, fun name hname => ⟨?_, fun _ => ?_⟩⟩
    · simp [replaceEnv]
    · rw [List.append_nil]
      exact .unclosed hname
  | cons c cs ih =>
    obtain ⟨⟨hword, hinert⟩, ⟨hdollar, hinertDollar⟩, hvariable⟩ := ih
    refine ⟨?_, ?_, ?_⟩
    · rw [replaceEnv]
      split
      · rename_i hc
        subst hc
        exact ⟨hdollar, hinertDollar⟩
      · rename_i hc
        simp only [List.length_cons, Nat.add_le_add_iff_right, Nat.add_right_cancel_iff]
        exact ⟨hword, fun h => .symbol hc (hinert h)⟩
    · rw [replaceEnv]
      split
      · rename_i hc
        subst hc
        exact hvariable [] ⟨List.not_mem_nil, List.not_mem_nil⟩
      · rename_i hbrace
        split
        · simp only [List.length_cons]
          exact ⟨by omega, fun h => by omega⟩
        · rename_i hc
          simp only [List.length_cons, Nat.add_le_add_iff_right, Nat.add_right_cancel_iff]
          exact ⟨hword, fun h => .dollar hc hbrace (hinert h)⟩
    · intro name hname
      rw [replaceEnv]
      split
      · simp only [unset, Option.getD_none, List.nil_append, List.length_cons] at hword ⊢
        exact ⟨by omega, fun h => by omega⟩
      · rename_i hbrace
        split
        · rename_i hc
          subst hc
          simp only [List.cons_append, List.length_cons, List.length_append]
          exact ⟨by omega, fun h => .colon hname (hinert (by omega))⟩
        · rename_i hcolon
          have h := hvariable (name ++ [c]) (hname.concat hbrace hcolon)
          simp only [List.length_append, List.length_singleton, List.cons_append,
            List.append_assoc, List.nil_append] at h
          simp only [List.length_cons, List.cons_append]
          exact ⟨by omega, fun heq => h.2 (by omega)⟩

theorem inert_iff_unset {word : List Char} :
    Inert word ↔ unset.replaceEnv .word word = word :=
  ⟨unset.replaceEnv_inert, fun h => (replaceEnv_unset word).1.2 (congrArg List.length h)⟩

end Environment

instance (word : List Char) : Decidable (Inert word) :=
  decidable_of_iff _ Environment.inert_iff_unset.symm

/-- A word is left alone in every environment just if it is inert and not itself a variable. -/
theorem expandWord_eq_self {word : List Char} :
    (∀ env : Environment, env.expandWord word = [word]) ↔
      (word.head? = some '$' → word.tail.head? = some '{') ∧ Inert word := by
  constructor
  · intro h
    have hunset := h .unset
    rw [Environment.expandWord] at hunset
    split at hunset
    · cases hunset
    · rename_i hwhole
      have hinert := Environment.inert_iff_unset.mpr (List.cons.inj hunset).1
      refine ⟨fun hhead => ?_, hinert⟩
      by_contra hbrace
      have hdouble : word.tail.head? = some '$' := by
        by_contra hne
        exact hwhole ⟨hhead, hbrace, hne⟩
      obtain ⟨rest, rfl⟩ := List.head?_eq_some_iff.mp hhead
      obtain ⟨rest, rfl⟩ := List.head?_eq_some_iff.mp hdouble
      cases hinert with
      | symbol hc _ => exact hc rfl
      | dollar hdollar _ _ => exact hdollar rfl
  · rintro ⟨hfirst, hinert⟩ env
    rw [Environment.expandWord, if_neg, env.replaceEnv_inert hinert]
    rintro ⟨hhead, hbrace, -⟩
    exact hbrace (hfirst hhead)

end UnitSyntax
end Lib
end Montray
