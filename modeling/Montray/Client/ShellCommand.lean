import Montray.Client.Config
import Montray.Lib.Bytes
import Montray.Lib.ShellWords

/-!
# Montray.Client.ShellCommand

The commands that are shown to be pasted into a shell: `shell_argument` and `start_command` of the
Rust client, and `ShellArgument` of `internal/setup`. The first looks at the bytes of the argument
and the last at its characters.

A path is what `Path::to_str` gives for it: a text, or none where it is not UTF-8.

* `shell_argument_round_trip`: both write the same text, which a shell reads as the argument.
* `startCommand_reads`: the words behind the executable in a start command.
-/

namespace Montray

open Lib ShellWords

namespace Internal

def shellAlphabet : List Char :=
  "abcdefghijklmnopqrstuvwxyzABCDEFGHIJKLMNOPQRSTUVWXYZ0123456789_@%+=:,./-".toList

def shellArgument (argument : String) : String :=
  if argument ≠ "" ∧ argument.toList.findIdx? (· ∉ shellAlphabet) = none then argument
  else "'" ++ String.ofList (replaceAll ['\''] "'\"'\"'".toList argument.toList) ++ "'"

end Internal

namespace Client

def isAsciiAlphanumeric (byte : UInt8) : Bool :=
  decide (48 ≤ byte.toNat ∧ byte.toNat ≤ 57) || decide (65 ≤ byte.toNat ∧ byte.toNat ≤ 90) ||
    decide (97 ≤ byte.toNat ∧ byte.toNat ≤ 122)

def isShellByte (byte : UInt8) : Bool :=
  isAsciiAlphanumeric byte || (utf8 "_@%+=:,./-").contains byte

def shellArgument (argument : String) : String :=
  if argument ≠ "" ∧ (utf8 argument).all isShellByte then argument
  else "'" ++ String.ofList (replaceAll ['\''] "'\"'\"'".toList argument.toList) ++ "'"

/-- The flag says whether the configuration is at its default path. -/
def startCommand (executable configFilename : Option String) (isDefault : Bool) :
    Except Chain String :=
  match executable with
  | none => bail "executable path must be valid UTF-8 for a shell command"
  | some executable =>
    match configFilename with
    | none => bail "config path must be valid UTF-8 for a shell command"
    | some configFilename =>
      if isDefault then .ok (shellArgument executable)
      else .ok (shellArgument executable ++ " --config " ++ shellArgument configFilename)

/-! ## Bytes and characters -/

theorem isShellByte_ascii : ∀ n < 128,
    isShellByte n.toUInt8 = decide (Char.ofNat n ∈ Internal.shellAlphabet) := by
  decide +kernel

theorem toNat_lt_of_isShellByte {byte : UInt8} (h : isShellByte byte = true) :
    byte.toNat < 128 := by
  have hlist : ∀ b ∈ utf8 "_@%+=:,./-", b.toNat < 128 := by decide +kernel
  rw [isShellByte, Bool.or_eq_true, List.contains_iff_mem] at h
  rcases h with h | h
  · simp only [isAsciiAlphanumeric, Bool.or_eq_true, decide_eq_true_eq] at h
    omega
  · exact hlist byte h

/-- The alphabet is ASCII, and nothing in it is special to a shell. -/
theorem shellAlphabet_all {c : Char} (h : c ∈ Internal.shellAlphabet) :
    c.toNat < 128 ∧ isBare c = true := by
  have hall : Internal.shellAlphabet.all (fun d => decide (d.toNat < 128) && isBare d) = true := by
    decide +kernel
  have hc := List.all_eq_true.mp hall c h
  rwa [Bool.and_eq_true, decide_eq_true_eq] at hc

theorem all_isShellByte_char (c : Char) :
    (String.utf8EncodeChar c).all isShellByte = true ↔ c ∈ Internal.shellAlphabet := by
  by_cases hc : c.toNat < 128
  · have hbyte := isShellByte_ascii c.toNat hc
    rw [Char.ofNat_toNat] at hbyte
    have hle : c.val ≤ 127 := UInt32.le_iff_toNat_le.mpr (Nat.le_of_lt_succ hc)
    have hone : String.utf8EncodeChar c = [c.toNat.toUInt8] :=
      String.utf8EncodeChar_eq_singleton (Char.utf8Size_eq_one_iff.mpr hle)
    rw [hone, List.all_cons, List.all_nil, Bool.and_true, hbyte,
      decide_eq_true_eq]
  · constructor
    · intro hall
      -- A first byte in the class would be ASCII, and so would the character.
      have hutf8 : utf8 (String.ofList [c]) = String.utf8EncodeChar c := by
        rw [utf8, String.toList_ofList, List.flatMap_singleton]
      obtain ⟨byte, hbyte⟩ := List.exists_mem_of_ne_nil _
        (hutf8 ▸ utf8_ne_nil (s := String.ofList [c]) (by simp))
      have hlt := toNat_lt_of_isShellByte (List.all_eq_true.mp hall byte hbyte)
      obtain ⟨d, hd, hnat⟩ := mem_utf8_ascii (hutf8.symm ▸ hbyte) hlt
      rw [String.toList_ofList, List.mem_singleton] at hd
      rw [hd] at hnat
      omega
    · intro hmem
      exact absurd (shellAlphabet_all hmem).1 hc

theorem all_isShellByte (argument : String) :
    (utf8 argument).all isShellByte = true ↔ ∀ c ∈ argument.toList, c ∈ Internal.shellAlphabet := by
  rw [utf8, List.all_flatMap, List.all_eq_true]
  exact forall₂_congr fun c _ => all_isShellByte_char c

theorem shellArgument_eq (argument : String) :
    shellArgument argument = Internal.shellArgument argument := by
  have hiff : (utf8 argument).all isShellByte = true ↔
      argument.toList.findIdx? (· ∉ Internal.shellAlphabet) = none := by
    rw [all_isShellByte, List.findIdx?_eq_none_iff]
    simp only [decide_eq_false_iff_not, not_not]
  unfold shellArgument Internal.shellArgument
  simp only [hiff]

/-! ## What a shell reads -/

/-- A single quote is written outside of the single quotes, between double ones. -/
def quotedPieces (c : Char) : List Piece :=
  if c = '\'' then [.mark, .mark, .quoted '\'', .mark, .mark] else [.quoted c]

theorem readWord_quoted (construct : List Char → Nat) (c : Char) (rest : List Char) :
    readWord construct .single 0 ((if c = '\'' then "'\"'\"'".toList else [c]) ++ rest) =
      inFront (quotedPieces c) (readWord construct .single 0 rest) := by
  unfold quotedPieces
  by_cases hc : c = '\''
  · have hstep : readWord construct .single 0 ("'\"'\"'".toList ++ rest) =
        inFront [.mark] (inFront [.mark] (inFront [.quoted '\''] (inFront [.mark]
          (inFront [.mark] (readWord construct .single 0 rest))))) := rfl
    rw [if_pos hc, if_pos hc, hstep, ← prepending_inFront.append, ← prepending_inFront.append,
      ← prepending_inFront.append, ← prepending_inFront.append]
    rfl
  · rw [if_neg hc, if_neg hc]
    exact readWord_single_plain hc rest

theorem removeQuotes_quotedPieces (cs : List Char) :
    removeQuotes (cs.flatMap quotedPieces) = cs := by
  have hchar : ∀ c, (quotedPieces c).filterMap Piece.char? = [c] := by
    intro c
    unfold quotedPieces
    split
    · rename_i hc
      rw [hc]
      rfl
    · rfl
  rw [removeQuotes, List.filterMap_flatMap]
  simp only [hchar]
  exact List.flatMap_singleton' cs

theorem isInert_quotedPieces {cs : List Char} :
    ∀ piece ∈ cs.flatMap quotedPieces, piece.isInert = true := by
  intro piece hpiece
  obtain ⟨c, -, hmem⟩ := List.mem_flatMap.mp hpiece
  unfold quotedPieces at hmem
  split at hmem
  · have hall : ∀ p ∈ [Piece.mark, .mark, .quoted '\'', .mark, .mark], p.isInert = true := by
      decide
    exact hall piece hmem
  · rw [List.mem_singleton.mp hmem]
    rfl

theorem argument_quoted (sh : Shell) (argument : List Char) {rest : List Char}
    (hrest : Delimited rest) :
    sh.argument ('\'' :: replaceAll ['\''] "'\"'\"'".toList argument ++ '\'' :: rest) =
      some ([argument], rest) := by
  rw [replaceAll_singleton]
  have hread := readWord_single (l := argument)
    (fun c _ => readWord_quoted sh.construct c) hrest
  have hinert : ∀ piece ∈ Piece.mark :: argument.flatMap quotedPieces ++ [.mark],
      piece.isInert = true := by
    intro piece hpiece
    rw [List.cons_append, List.mem_cons, List.mem_append, List.mem_singleton] at hpiece
    rcases hpiece with rfl | hmem | rfl
    · rfl
    · exact isInert_quotedPieces piece hmem
    · rfl
  have hremove : removeQuotes (Piece.mark :: argument.flatMap quotedPieces ++ [.mark]) =
      argument := by
    have h : removeQuotes (Piece.mark :: argument.flatMap quotedPieces ++ [.mark]) =
        removeQuotes (argument.flatMap quotedPieces) := by
      rw [removeQuotes, List.cons_append, List.filterMap_cons_none rfl, List.filterMap_append]
      exact List.append_nil _
    rw [h, removeQuotes_quotedPieces]
  have hcomment : ∀ text : List Char, ('\'' :: text).head? ≠ some '#' :=
    fun _ hhead => absurd (Option.some.inj hhead) (by decide)
  have h := sh.argument_of_inert hread (List.cons_ne_nil _ _) hinert (hcomment _) hrest
  rwa [hremove] at h

theorem argument_shellArgument (sh : Shell) (argument : String) {rest : List Char}
    (hrest : Delimited rest) :
    sh.argument ((shellArgument argument).toList ++ rest) = some ([argument.toList], rest) := by
  unfold shellArgument
  split
  · rename_i hplain
    have hne : argument.toList ≠ [] := fun h => hplain.1 (String.toList_eq_nil_iff.mp h)
    have hword := (all_isShellByte argument).mp hplain.2
    exact sh.argument_word hne (fun c hc => (shellAlphabet_all (hword c hc)).2) hrest
  · have htext : ∀ body, ("'" ++ String.ofList body ++ "'").toList ++ rest =
        '\'' :: body ++ '\'' :: rest := by
      intro body
      have hbody : (String.ofList body).toList = body := String.toList_ofList
      rw [String.toList_append, String.toList_append, hbody, List.append_assoc]
      rfl
    rw [htext]
    exact argument_quoted sh argument.toList hrest

/-- Both functions write the same text, and a shell reads it as one word: the argument. -/
theorem shell_argument_round_trip (argument : String) :
    shellArgument argument = Internal.shellArgument argument ∧
    ∀ (sh : Shell) (rest : List Char), Delimited rest →
      sh.argument ((shellArgument argument).toList ++ rest) = some ([argument.toList], rest) :=
  ⟨shellArgument_eq argument, fun sh _ hrest => argument_shellArgument sh argument hrest⟩

/-- A shell that would expand whatever it could. -/
def eagerShell : Shell where
  construct := List.length
  expand _ text := [text, text]
  home _ := some ['/']
  glob _ := [['!'], ['!']]

/-- Blanks, a single quote and all that a shell expands. -/
theorem shell_argument_round_trip_quoted :
    let argument := "~/custom $config's `*`.yml"
    let rest := " --start-hidden".toList
    Delimited rest ∧
      eagerShell.argument ((shellArgument argument).toList ++ rest) =
        some ([argument.toList], rest) := by
  intro argument rest
  have hrest : Delimited rest := delimited_blank "--start-hidden".toList
  exact ⟨hrest, (shell_argument_round_trip argument).2 eagerShell rest hrest⟩

/-! ## The start command -/

/-- The command, read as arguments are: the executable and, unless it is at its default path, the
configuration. -/
theorem startCommand_reads (sh : Shell) (executable configFilename : String) (isDefault : Bool) :
    ∃ text, startCommand (some executable) (some configFilename) isDefault = .ok text ∧
      sh.Reads text.toList (executable.toList ::
        if isDefault then [] else ["--config".toList, configFilename.toList]) := by
  cases isDefault with
  | true =>
    refine ⟨shellArgument executable, rfl, ?_⟩
    have hexecutable := argument_shellArgument sh executable delimited_nil
    rw [List.append_nil] at hexecutable
    exact .word hexecutable .nil
  | false =>
    refine ⟨shellArgument executable ++ " --config " ++ shellArgument configFilename, rfl, ?_⟩
    have hconfig := argument_shellArgument sh configFilename delimited_nil
    rw [List.append_nil] at hconfig
    have hbare : "--config".toList.all isBare = true := by decide +kernel
    have hoption : sh.argument ("--config".toList ++ ' ' :: (shellArgument configFilename).toList) =
        some (["--config".toList], ' ' :: (shellArgument configFilename).toList) :=
      sh.argument_word (by decide) (List.all_eq_true.mp hbare) (delimited_blank _)
    have hexecutable := argument_shellArgument sh executable
      (delimited_blank ("--config".toList ++ ' ' :: (shellArgument configFilename).toList))
    have htext : (shellArgument executable ++ " --config " ++ shellArgument configFilename).toList =
        (shellArgument executable).toList ++
          ' ' :: ("--config".toList ++ ' ' :: (shellArgument configFilename).toList) := by
      rw [String.toList_append, String.toList_append, List.append_assoc]
      rfl
    rw [htext]
    exact .word hexecutable (.blank (.word hoption (.blank (.word hconfig .nil))))

end Client
end Montray
