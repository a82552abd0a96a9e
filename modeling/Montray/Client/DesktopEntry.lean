import Montray.Client.HostPort
import Montray.Lib.DesktopSyntax

/-!
# Montray.Client.DesktopEntry

The desktop entry of the client: `desktop_exec_argument` of the Rust client, `desktopExecArgument`
of `internal/setup`, and `desktop_entry`, which fills the command into the template.

A path is what `Path::to_str` gives for it: a text, or none where it is not UTF-8.

* `decodeExec_argument`: the two layers of escaping are undone, for every argument.
* `desktop_argument_round_trip`: an argument without a line feed also stays on its line.
* `desktopEntry_exec`: the command of the whole entry is the one it was made from.
-/

namespace Montray

open Lib DesktopSyntax

namespace Internal

/-- What the loop of the Go function writes for a character. -/
def desktopExecCharacter (character : Char) : List Char :=
  if character = '\\' then ['\\', '\\', '\\', '\\']
  else if character = '"' ∨ character = '`' then ['\\', character]
  else if character = '$' then ['\\', '\\', '$']
  else if character = '%' then ['%', '%']
  else [character]

/-- The builder holds what is written so far. -/
def desktopExecArgument (argument : String) : String :=
  let output := argument.toList.foldl (fun output c => output ++ desktopExecCharacter c) ['"']
  String.ofList (output ++ ['"'])

end Internal

namespace Client

def desktopExecCharacter : Char → List Char
  | '\\' => ['\\', '\\', '\\', '\\']
  | '"' => ['\\', '"']
  | '`' => ['\\', '`']
  | '$' => ['\\', '\\', '$']
  | '%' => ['%', '%']
  | character => [character]

def desktopExecArgument (argument : String) : String :=
  String.ofList ('"' :: argument.toList.flatMap desktopExecCharacter ++ ['"'])

def desktopExecPlaceholder : String := "\x7b\x7bEXEC\x7d\x7d"

/-- The lines of `montray-ui.desktop.tpl` above the command. -/
def headLines : List (List Char) :=
  ["[Desktop Entry]", "Type=Application", "Name=Montray",
    "Comment=Show Montray status in the desktop tray", "Categories=System;Monitor;",
    "Icon=montray-ui", "X-Montray-Desktop-Entry-Version=2"].map String.toList

/-- `montray-ui.desktop.tpl`. -/
def desktopEntryTemplate : String :=
  let template := headLines ++ ["Exec=\x7b\x7bEXEC\x7d\x7d".toList, "Terminal=false".toList]
  String.ofList (template.flatMap (· ++ ['\n']))

-- The second message goes through `format!`, which takes its doubled braces for single ones.
def renderDesktopEntryTemplate (template command : String) : Except Chain String :=
  match splitOnce desktopExecPlaceholder.toList template.toList with
  | none => bail "desktop entry template is missing \x7b\x7bEXEC\x7d\x7d"
  | some (before, after) =>
    if (splitOnce desktopExecPlaceholder.toList after).isSome then
      bail "desktop entry template contains \x7bEXEC\x7d more than once"
    else .ok (String.ofList before ++ command ++ String.ofList after)

def desktopCommand (executable configFilename : String) (startHidden : Bool) : String :=
  let hidden := if startHidden then " --start-hidden" else ""
  desktopExecArgument executable ++ " --config " ++ desktopExecArgument configFilename ++ hidden

def desktopEntry (executable configFilename : Option String) (startHidden : Bool) :
    Except Chain String :=
  match executable with
  | none => bail "executable path must be valid UTF-8 for a desktop entry"
  | some executable =>
    match configFilename with
    | none => bail "config path must be valid UTF-8 for a desktop entry"
    | some configFilename =>
      renderDesktopEntryTemplate desktopEntryTemplate
        (desktopCommand executable configFilename startHidden)

/-! ## The two functions agree -/

theorem desktopExecCharacter_eq (c : Char) :
    desktopExecCharacter c = Internal.desktopExecCharacter c := by
  unfold desktopExecCharacter
  split
  case h_6 hback hdouble htick hdollar hpercent =>
    have hmark : ¬ (c = '"' ∨ c = '`') := not_or.mpr ⟨hdouble, htick⟩
    simp only [Internal.desktopExecCharacter, if_neg hback, if_neg hmark, if_neg hdollar,
      if_neg hpercent]
  all_goals rfl

theorem desktopExecArgument_eq (argument : String) :
    desktopExecArgument argument = Internal.desktopExecArgument argument := by
  have hfold : ∀ (cs output : List Char),
      cs.foldl (fun output c => output ++ Internal.desktopExecCharacter c) output =
        output ++ cs.flatMap desktopExecCharacter := by
    intro cs
    induction cs with
    | nil => exact fun output => (List.append_nil output).symm
    | cons c cs ih =>
      intro output
      rw [List.foldl_cons, ih, List.flatMap_cons, desktopExecCharacter_eq, List.append_assoc]
  unfold desktopExecArgument Internal.desktopExecArgument
  rw [hfold]
  rfl

/-! ## The layers of escaping -/

/-- What the escapes of the value leave of a character. -/
def quotedCharacter (c : Char) : List Char :=
  if isEscapable c then ['\\', c] else doubled '%' c

theorem unescapeValue_character (c : Char) (rest : List Char) :
    unescapeValue false (desktopExecCharacter c ++ rest) =
      quotedCharacter c ++ unescapeValue false rest := by
  unfold desktopExecCharacter
  split
  case h_6 hback hdouble htick hdollar hpercent =>
    have hesc : isEscapable c = false := by
      rw [isEscapable, decide_eq_false_iff_not]
      simp only [List.mem_cons, List.not_mem_nil, or_false, not_or]
      exact ⟨hdouble, htick, hdollar, hback⟩
    rw [quotedCharacter, hesc, if_neg Bool.false_ne_true, doubled, if_neg hpercent]
    exact unescapeValue_plain hback rest
  all_goals rfl

theorem execWords_character (c : Char) (rest : List Char) :
    execWords .quoted (quotedCharacter c ++ rest) =
      onFirst (doubled '%' c) (execWords .quoted rest) := by
  unfold quotedCharacter
  split
  case isTrue hesc =>
    have hpercent : c ≠ '%' := by
      rintro rfl
      cases hesc
    rw [doubled, if_neg hpercent]
    exact execWords_quoted_escape hesc rest
  case isFalse hesc =>
    have hplain : ∀ d ∈ doubled '%' c, ∀ rest, execWords .quoted ([d] ++ rest) =
        onFirst [d] (execWords .quoted rest) := by
      intro d hd
      have hdc : d = c := by
        unfold doubled at hd
        split at hd
        · rename_i hc
          rw [hc]
          simpa using hd
        · exact List.mem_singleton.mp hd
      rw [hdc]
      exact execWords_quoted_plain (Bool.eq_false_of_not_eq_true hesc)
    have hread := prepending_onFirst.read_flatMap hplain rest
    rwa [List.flatMap_singleton'] at hread

theorem toList_desktopExecArgument (argument : String) :
    (desktopExecArgument argument).toList =
      '"' :: argument.toList.flatMap desktopExecCharacter ++ ['"'] :=
  String.toList_ofList

theorem unescapeValue_argument (argument : String) (rest : List Char) :
    unescapeValue false ((desktopExecArgument argument).toList ++ rest) =
      '"' :: argument.toList.flatMap quotedCharacter ++ '"' :: unescapeValue false rest := by
  rw [toList_desktopExecArgument, List.append_assoc, List.cons_append, List.cons_append,
    unescapeValue_plain (by decide),
    prepending_append.read_flatMap fun c _ => unescapeValue_character c, List.nil_append,
    unescapeValue_plain (by decide)]
  rfl

theorem execWords_argument (argument : String) {rest : List Char} (hrest : Separated rest) :
    execWords .between ('"' :: argument.toList.flatMap quotedCharacter ++ '"' :: rest) =
      (execWords .between rest).map (argument.toList.flatMap (doubled '%') :: ·) :=
  execWords_quoted (fun c _ => execWords_character c) hrest

theorem decodeExec_argument (argument : String) :
    decodeExec (desktopExecArgument argument).toList = some [argument.toList.map .char] := by
  have hvalue := unescapeValue_argument argument []
  rw [List.append_nil] at hvalue
  have hword : execWords .between (unescapeValue false (desktopExecArgument argument).toList) =
      some ([argument.toList].map (·.flatMap (doubled '%'))) := by
    rw [hvalue]
    exact execWords_argument argument separated_nil
  rw [decodeExec, hword]
  exact mapM_fieldCodes_doubled [argument.toList]

/-! ## One line -/

theorem newline_not_mem_character {c : Char} (h : c ≠ '\n') : '\n' ∉ desktopExecCharacter c := by
  unfold desktopExecCharacter
  split
  case h_6 => exact fun hmem => h (List.mem_singleton.mp hmem).symm
  all_goals decide

theorem newline_mem_argument {argument : String} (h : '\n' ∈ argument.toList) :
    '\n' ∈ (desktopExecArgument argument).toList := by
  have hbody : '\n' ∈ argument.toList.flatMap desktopExecCharacter :=
    List.mem_flatMap.mpr ⟨'\n', h, by decide⟩
  rw [toList_desktopExecArgument, List.cons_append, List.mem_cons, List.mem_append]
  exact .inr (.inl hbody)

theorem newline_not_mem_argument {argument : String} (h : '\n' ∉ argument.toList) :
    '\n' ∉ (desktopExecArgument argument).toList := by
  have hbody : '\n' ∉ argument.toList.flatMap desktopExecCharacter := by
    rw [List.mem_flatMap]
    rintro ⟨c, hc, hmem⟩
    exact newline_not_mem_character (ne_of_mem_of_not_mem hc h) hmem
  rw [toList_desktopExecArgument, List.cons_append, List.mem_cons, List.mem_append]
  rintro (hmark | hmem | hmark)
  · exact absurd hmark (by decide)
  · exact hbody hmem
  · exact absurd hmark (by decide)

/-! ## The entry -/

/-- The template with a command filled in. -/
def entryText (command : String) : String :=
  String.ofList (headLines.flatMap (· ++ ['\n']) ++ "Exec=".toList) ++ command ++
    String.ofList ('\n' :: "Terminal=false\n".toList)

theorem toList_desktopEntryTemplate :
    desktopEntryTemplate.toList =
      headLines.flatMap (· ++ ['\n']) ++ "Exec=".toList ++ desktopExecPlaceholder.toList ++
        '\n' :: "Terminal=false\n".toList := by
  rw [desktopEntryTemplate, String.toList_ofList, List.flatMap_append, List.append_assoc,
    List.append_assoc]
  exact congrArg _ (by decide +kernel)

theorem renderDesktopEntryTemplate_ok (command : String) :
    renderDesktopEntryTemplate desktopEntryTemplate command = .ok (entryText command) := by
  have hbrace : '\x7b' ∉ headLines.flatMap (· ++ ['\n']) ++ "Exec=".toList := by
    decide +kernel
  have hplaceholder : desktopExecPlaceholder.toList = '\x7b' :: "\x7bEXEC\x7d\x7d".toList := rfl
  have hsplit : splitOnce desktopExecPlaceholder.toList desktopEntryTemplate.toList =
      some (headLines.flatMap (· ++ ['\n']) ++ "Exec=".toList,
        '\n' :: "Terminal=false\n".toList) := by
    rw [toList_desktopEntryTemplate, hplaceholder]
    exact splitOnce_of_not_mem hbrace
  rw [renderDesktopEntryTemplate, hsplit]
  rfl

theorem desktopEntry_some (executable configFilename : String) (startHidden : Bool) :
    desktopEntry (some executable) (some configFilename) startHidden =
      .ok (entryText (desktopCommand executable configFilename startHidden)) :=
  renderDesktopEntryTemplate_ok (desktopCommand executable configFilename startHidden)

/-- The entry has the command under `Exec`, up to its first line feed. -/
theorem execOf_entryText {command : String} {line rest : List Char}
    (hcommand : command.toList ++ ['\n'] = line ++ '\n' :: rest)
    (hmark : line.head? = some '"') (hline : '\n' ∉ line) :
    execOf (entryText command).toList = some line := by
  obtain ⟨tail, rfl⟩ := List.head?_eq_some_iff.mp hmark
  have hexec : '\n' ∉ "Exec=".toList ++ '"' :: tail := by
    rw [List.mem_append]
    exact not_or.mpr ⟨by decide, hline⟩
  have hkey : keyValue ("Exec=".toList ++ '"' :: tail) = some ("Exec".toList, '"' :: tail) := by
    simp [keyValue, List.rdropWhile]
  have hfeeds : ∀ l ∈ headLines, '\n' ∉ l := by simp [headLines]
  have hhead : (headLines.filterMap keyValue).lookup "Exec".toList = none := by
    decide +kernel
  have htext : (entryText command).toList = headLines.flatMap (· ++ ['\n']) ++
      (("Exec=".toList ++ '"' :: tail) ++ '\n' :: (rest ++ "Terminal=false\n".toList)) := by
    have happend : command.toList ++ '\n' :: "Terminal=false\n".toList =
        '"' :: tail ++ '\n' :: (rest ++ "Terminal=false\n".toList) := by
      rw [← List.cons_append, ← List.append_assoc, ← hcommand, List.append_assoc]
      rfl
    simp only [entryText, String.toList_append, String.toList_ofList, List.append_assoc, happend]
  rw [execOf, htext, lines_append hfeeds, lines_cons_append hexec, List.filterMap_append,
    List.lookup_append, hhead, List.filterMap_cons, hkey]
  rfl

/-- The arguments the entry is to start the client with. -/
def desktopWords (executable configFilename : String) (startHidden : Bool) : List String :=
  [executable, "--config", configFilename] ++ if startHidden then ["--start-hidden"] else []

theorem decodeExec_command (executable configFilename : String) (startHidden : Bool) :
    decodeExec (desktopCommand executable configFilename startHidden).toList =
      some ((desktopWords executable configFilename startHidden).map (·.toList.map .char)) := by
  obtain ⟨hidden, hhidden, hback, hsep, hwords⟩ : ∃ hidden : List Char,
      (desktopCommand executable configFilename startHidden).toList =
        (desktopExecArgument executable).toList ++
          (" --config ".toList ++ ((desktopExecArgument configFilename).toList ++ hidden)) ∧
      '\\' ∉ hidden ∧ Separated hidden ∧
      execWords .between hidden =
        some (if startHidden then ["--start-hidden".toList] else []) := by
    cases startHidden with
    | false =>
      exact ⟨[], by simp [desktopCommand], by decide, separated_nil, rfl⟩
    | true =>
      exact ⟨" --start-hidden".toList, by simp [desktopCommand], by decide,
        separated_blank _, by decide +kernel⟩
  have hend : unescapeValue false hidden = hidden := by
    have h := unescapeValue_plain_append hback []
    rw [List.append_nil] at h
    rw [h]
    exact List.append_nil hidden
  have hsplit : execWords .between
      (unescapeValue false (desktopCommand executable configFilename startHidden).toList) =
      some (((desktopWords executable configFilename startHidden).map String.toList).map
        (·.flatMap (doubled '%'))) := by
    have hoption : ∀ rest, Separated (" --config ".toList ++ rest) :=
      fun rest => separated_blank ("--config ".toList ++ rest)
    have hblank : ∀ rest, execWords .between (" --config ".toList ++ rest) =
        (execWords .between rest).map ("--config".toList :: ·) := by
      intro rest
      have hskip : execWords .between (" --config ".toList ++ rest) =
          execWords .between ('-' :: "-config".toList ++ ' ' :: rest) := rfl
      rw [hskip, execWords_word (by decide) (separated_blank rest)]
      rfl
    rw [hhidden, unescapeValue_argument, unescapeValue_plain_append (by decide),
      unescapeValue_argument, hend, execWords_argument executable (hoption _), hblank,
      execWords_argument configFilename hsep, hwords]
    cases startHidden <;> rfl
  rw [decodeExec, hsplit, Option.bind_some, mapM_fieldCodes_doubled, List.map_map]
  rfl

theorem newline_not_mem_command {executable configFilename : String}
    (hexecutable : '\n' ∉ executable.toList) (hconfig : '\n' ∉ configFilename.toList)
    (startHidden : Bool) :
    '\n' ∉ (desktopCommand executable configFilename startHidden).toList := by
  have hhidden : '\n' ∉ (if startHidden then " --start-hidden" else "").toList := by
    cases startHidden <;> decide
  simp only [desktopCommand, String.toList_append, List.mem_append, not_or]
  exact ⟨⟨⟨newline_not_mem_argument hexecutable, by decide⟩, newline_not_mem_argument hconfig⟩,
    hhidden⟩

/-- The entry starts the client with the paths it was made from. -/
theorem desktopEntry_exec {executable configFilename : String}
    (hexecutable : '\n' ∉ executable.toList) (hconfig : '\n' ∉ configFilename.toList)
    (startHidden : Bool) :
    ∃ text, desktopEntry (some executable) (some configFilename) startHidden = .ok text ∧
      (execOf text.toList).bind decodeExec =
        some ((desktopWords executable configFilename startHidden).map (·.toList.map .char)) := by
  have hmark : (desktopCommand executable configFilename startHidden).toList.head? = some '"' := by
    simp [desktopCommand, desktopExecArgument]
  have hline := newline_not_mem_command hexecutable hconfig startHidden
  refine ⟨_, desktopEntry_some executable configFilename startHidden, ?_⟩
  rw [execOf_entryText rfl hmark hline, Option.bind_some, decodeExec_command]

/-! ## The argument -/

/-- Both functions write the same text, which stands for one word, the argument; it is one line if
and only if the argument is. -/
theorem desktop_argument_round_trip (argument : String) :
    (desktopExecArgument argument = Internal.desktopExecArgument argument ∧
      lines (desktopExecArgument argument).toList = [(desktopExecArgument argument).toList] ∧
      decodeExec (desktopExecArgument argument).toList = some [argument.toList.map .char]) ↔
    '\n' ∉ argument.toList := by
  constructor
  · rintro ⟨-, hline, -⟩ hfeed
    exact not_mem_of_lines hline (newline_mem_argument hfeed)
  · intro hfeed
    exact ⟨desktopExecArgument_eq argument, lines_of_not_mem (newline_not_mem_argument hfeed),
      decodeExec_argument argument⟩

/-- An argument with all that is escaped. -/
theorem desktop_argument_round_trip_escaped :
    let argument := "a b%\"\\$`"
    lines (desktopExecArgument argument).toList = [(desktopExecArgument argument).toList] ∧
    decodeExec (desktopExecArgument argument).toList = some [argument.toList.map .char] := by
  intro argument
  exact ((desktop_argument_round_trip argument).mpr (by decide)).2

/-- A line feed in a path cuts the command: what is left under `Exec` has an open quote. -/
theorem desktop_argument_cut :
    let argument := "/home/u/a\nb.yml"
    let value := "\"/usr/bin/montray-ui\" --config \"/home/u/a".toList
    lines (desktopExecArgument argument).toList = ["\"/home/u/a".toList, "b.yml\"".toList] ∧
    (∃ text, desktopEntry (some "/usr/bin/montray-ui") (some argument) false = .ok text ∧
      execOf text.toList = some value) ∧
    decodeExec value = none := by
  intro argument value
  have hcommand : (desktopCommand "/usr/bin/montray-ui" argument false).toList ++ ['\n'] =
      value ++ '\n' :: "b.yml\"\n".toList := by
    decide +kernel
  have hvalue := execOf_entryText hcommand (by decide) (by decide +kernel)
  exact ⟨by decide +kernel, ⟨_, desktopEntry_some "/usr/bin/montray-ui" argument false, hvalue⟩,
    by decide +kernel⟩

end Client
end Montray
