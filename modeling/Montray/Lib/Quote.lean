import Montray.Lib.Escapes

/-!
# Montray.Lib.Quote

Texts in quotes, as `strconv.Quote` of Go (`%q`) and `Debug` of Rust's `str` (`{:?}`) write them.

Which characters beyond U+00FF are printable is a table of either library and left to a parameter.
`goQuote` and `rustQuote`, for messages, take all of them to be.
-/

namespace Montray
namespace Lib

section Quote

variable (printable : Char → Bool)

/-- The same for both languages up to U+00FF. -/
def isPrint (r : Char) : Bool :=
  if r.toNat ≤ 0xFF then
    decide (0x20 ≤ r.toNat ∧ r.toNat < 0x7F) || decide (0xA1 ≤ r.toNat ∧ r.toNat ≠ 0xAD)
  else printable r

/-! ## Go -/

/-- The escapes that are letters. -/
def letterEscape : Char → Option Char
  | '\x07' => some 'a'
  | '\x08' => some 'b'
  | '\x0c' => some 'f'
  | '\n' => some 'n'
  | '\r' => some 'r'
  | '\t' => some 't'
  | '\x0b' => some 'v'
  | _ => none

def appendEscapedRune (r : Char) : List Char :=
  if r = '"' ∨ r = '\\' then ['\\', r]
  else if isPrint printable r then [r]
  else
    match letterEscape r with
    | some letter => ['\\', letter]
    | none =>
      if r.toNat < 0x20 ∨ r.toNat = 0x7F then '\\' :: 'x' :: hexNumber 2 r.toNat
      else if r.toNat < 0x10000 then '\\' :: 'u' :: hexNumber 4 r.toNat
      else '\\' :: 'U' :: hexNumber 8 r.toNat

def quote (s : String) : List Char :=
  '"' :: s.toList.flatMap (appendEscapedRune printable) ++ ['"']

/-! ## Rust -/

def escapeDebug (c : Char) : List Char :=
  match c with
  | '\x00' => ['\\', '0']
  | '\t' => ['\\', 't']
  | '\r' => ['\\', 'r']
  | '\n' => ['\\', 'n']
  | '\\' => ['\\', '\\']
  | '"' => ['\\', '"']
  | c =>
    if isPrint printable c then [c]
    else ['\\', 'u', '\x7b'] ++ Nat.toDigits 16 c.toNat ++ ['\x7d']

def debug (s : String) : List Char :=
  '"' :: s.toList.flatMap (escapeDebug printable) ++ ['"']

end Quote

def goQuote (s : String) : String := String.ofList (quote (fun _ => true) s)

def rustQuote (s : String) : String := String.ofList (debug (fun _ => true) s)

end Lib
end Montray
