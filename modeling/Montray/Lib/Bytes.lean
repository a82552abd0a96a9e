import Mathlib

/-!
# Montray.Lib.Bytes

Texts as bytes and bytes as texts.

* `utf8`, `fromUtf8`: the bytes of a text and the text of valid bytes. An ASCII byte stands only for
  its own character (`mem_utf8_ascii`).
* `hex`, `decodeHex`: two digits a byte; decoding takes digits of either case.
* `base64Url`: the URL-safe alphabet, without padding.
* `cut`: what is before and behind the first separator.
-/

namespace Montray
namespace Lib

/-! ## UTF-8 -/

def utf8 (s : String) : List UInt8 := s.toList.flatMap String.utf8EncodeChar

def fromUtf8 (bytes : List UInt8) : Option String := String.fromUTF8? bytes.toByteArray

theorem toByteArray_eq_utf8 (s : String) : s.toByteArray = (utf8 s).toByteArray := by
  have h : (String.ofList s.toList).toByteArray = s.toList.utf8Encode := String.toByteArray_ofList
  rw [String.ofList_toList] at h
  exact h

theorem fromUtf8_utf8 (s : String) : fromUtf8 (utf8 s) = some s := by
  have hvalid : (utf8 s).toByteArray.IsValidUTF8 := by
    rw [← toByteArray_eq_utf8]
    exact s.isValidUTF8
  rw [fromUtf8, String.fromUTF8?, dif_pos hvalid]
  congr 1
  exact String.toByteArray_inj.mp (toByteArray_eq_utf8 s).symm

theorem utf8_append (s t : String) : utf8 (s ++ t) = utf8 s ++ utf8 t := by
  simp [utf8]

theorem utf8_ne_nil {s : String} (h : s ≠ "") : utf8 s ≠ [] := by
  intro hnil
  apply h
  rw [utf8, List.flatMap_eq_nil_iff] at hnil
  apply String.toList_inj.mp
  cases hs : s.toList with
  | nil => rfl
  | cons c cs => exact absurd (hnil c (by rw [hs]; exact List.mem_cons_self)) (by simp)

/-- An ASCII byte of a text is one of its characters. -/
theorem mem_utf8_ascii {s : String} {b : UInt8} (h : b ∈ utf8 s) (hb : b.toNat < 128) :
    ∃ c ∈ s.toList, c.toNat = b.toNat := by
  obtain ⟨c, hc, hmem⟩ := List.mem_flatMap.mp h
  refine ⟨c, hc, ?_⟩
  simp only [String.utf8EncodeChar] at hmem
  split_ifs at hmem with h1 h2 h3
  · rw [List.mem_singleton.mp hmem]
    have hlt : c.val.toNat < 256 := by omega
    rw [UInt8.toNat_ofNat', Nat.mod_eq_of_lt hlt]
    rfl
  -- The bytes of a longer encoding are not ASCII.
  all_goals
    simp only [List.mem_cons, List.not_mem_nil, or_false] at hmem
    rcases hmem with rfl | rfl | rfl | rfl <;> simp only [UInt8.toNat_ofNat'] at hb <;> omega

/-! ## Hexadecimal digits -/

def hexDigit (n : Nat) : Char := if n < 10 then Char.ofNat (48 + n) else Char.ofNat (87 + n)

/-- The lower-case digits of each byte. -/
def hex (bytes : List UInt8) : List Char :=
  bytes.flatMap fun b => [hexDigit (b.toNat / 16), hexDigit (b.toNat % 16)]

def fromHexChar (c : Char) : Option Nat :=
  if '0' ≤ c ∧ c ≤ '9' then some (c.toNat - 48)
  else if 'a' ≤ c ∧ c ≤ 'f' then some (c.toNat - 87)
  else if 'A' ≤ c ∧ c ≤ 'F' then some (c.toNat - 55)
  else none

def decodeHex : List Char → Option (List UInt8)
  | [] => some []
  | [_] => none
  | hi :: lo :: rest => do
    let h ← fromHexChar hi
    let l ← fromHexChar lo
    let bytes ← decodeHex rest
    pure (UInt8.ofNat (16 * h + l) :: bytes)

theorem fromHexChar_hexDigit : ∀ n < 16, fromHexChar (hexDigit n) = some n := by decide

theorem decodeHex_hex (bytes : List UInt8) : decodeHex (hex bytes) = some bytes := by
  induction bytes with
  | nil => rfl
  | cons b bytes ih =>
    have hlt := b.toNat_lt
    have hhalves : 16 * (b.toNat / 16) + b.toNat % 16 = b.toNat := by omega
    have hcons : hex (b :: bytes) =
        hexDigit (b.toNat / 16) :: hexDigit (b.toNat % 16) :: hex bytes := rfl
    rw [hcons, decodeHex, fromHexChar_hexDigit _ (by omega), fromHexChar_hexDigit _ (by omega), ih]
    show some (UInt8.ofNat (16 * (b.toNat / 16) + b.toNat % 16) :: bytes) = some (b :: bytes)
    rw [hhalves, UInt8.ofNat_toNat]

/-! ## Base64 -/

def urlSafe (n : Nat) : Char :=
  if n < 26 then Char.ofNat (65 + n)
  else if n < 52 then Char.ofNat (97 + (n - 26))
  else if n < 62 then Char.ofNat (48 + (n - 52))
  else if n = 62 then '-'
  else '_'

def isUrlSafe (c : Char) : Bool := c.isAlphanum || c == '-' || c == '_'

def base64Url : List UInt8 → List Char
  | [] => []
  | [a] => [urlSafe (a.toNat / 4), urlSafe (a.toNat % 4 * 16)]
  | [a, b] =>
    [urlSafe (a.toNat / 4), urlSafe (a.toNat % 4 * 16 + b.toNat / 16), urlSafe (b.toNat % 16 * 4)]
  | a :: b :: c :: rest =>
    [urlSafe (a.toNat / 4), urlSafe (a.toNat % 4 * 16 + b.toNat / 16),
      urlSafe (b.toNat % 16 * 4 + c.toNat / 64), urlSafe (c.toNat % 64)] ++ base64Url rest

theorem isUrlSafe_urlSafe (n : Nat) : isUrlSafe (urlSafe n) = true := by
  have hlow : ∀ n < 62, isUrlSafe (urlSafe n) = true := by decide
  by_cases h : n < 62
  · exact hlow n h
  · have h26 : ¬ n < 26 := by omega
    have h52 : ¬ n < 52 := by omega
    simp only [urlSafe, h, h26, h52, if_false]
    split <;> rfl

theorem isUrlSafe_base64Url (bytes : List UInt8) : ∀ c ∈ base64Url bytes, isUrlSafe c = true := by
  induction bytes using base64Url.induct with
  | case1 => simp [base64Url]
  | case2 a => simp [base64Url, isUrlSafe_urlSafe]
  | case3 a b => simp [base64Url, isUrlSafe_urlSafe]
  | case4 a b c rest ih =>
    simp only [base64Url, List.cons_append, List.nil_append, List.forall_mem_cons,
      isUrlSafe_urlSafe, true_and]
    exact ih

theorem isUrlSafe_visible {c : Char} (h : isUrlSafe c = true) : 33 ≤ c.toNat ∧ c.toNat < 127 := by
  simp only [isUrlSafe, Bool.or_eq_true, beq_iff_eq] at h
  rcases h with (h | rfl) | rfl
  · have hranges : (65 ≤ c.toNat ∧ c.toNat ≤ 90 ∨ 97 ≤ c.toNat ∧ c.toNat ≤ 122) ∨
        48 ≤ c.toNat ∧ c.toNat ≤ 57 := by
      simpa [Char.isAlphanum, Char.isAlpha, Char.isUpper, Char.isLower, Char.isDigit,
        UInt32.le_iff_toNat_le] using h
    omega
  · decide
  · decide

theorem base64Url_ne_nil {bytes : List UInt8} (h : bytes ≠ []) : base64Url bytes ≠ [] := by
  unfold base64Url
  split
  · exact absurd rfl h
  · simp
  · simp
  · simp

/-! ## Cutting -/

/-- What is before and what is behind the first separator. -/
def cut (sep : UInt8) : List UInt8 → Option (List UInt8 × List UInt8)
  | [] => none
  | b :: rest => if b = sep then some ([], rest) else (cut sep rest).map fun p => (b :: p.1, p.2)

variable {sep : UInt8}

theorem cut_append {s t : List UInt8} (h : sep ∉ s) : cut sep (s ++ sep :: t) = some (s, t) := by
  induction s with
  | nil => simp [cut]
  | cons b s ih =>
    rw [List.mem_cons, not_or] at h
    simp [cut, Ne.symm h.1, ih h.2]

theorem cut_none {s : List UInt8} (h : sep ∉ s) : cut sep s = none := by
  induction s with
  | nil => rfl
  | cons b s ih =>
    rw [List.mem_cons, not_or] at h
    simp [cut, Ne.symm h.1, ih h.2]

end Lib
end Montray
