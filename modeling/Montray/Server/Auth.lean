import Montray.Lib.Bytes
import Montray.Lib.Quote

/-!
# Montray.Server.Auth

The server's bearer credentials: `parseAuthCredentials`, and `authenticate` on the values of a
request's `Authorization` header. A Go string is its bytes; the configuration is valid UTF-8.
SHA-256 is an arbitrary function to 32 bytes.

* `parseAuthCredentials_ok`: the hash of a credential is the one written in the configuration.
* `authenticate_token`: a well-formed bearer header is accepted for the hash of its token.
* `authenticate_malformed`: every other header is refused.
-/

namespace Montray
namespace Auth

open Lib

abbrev BearerTokenHash := { bytes : List UInt8 // bytes.length = 32 }

structure ConfigAuth where
  id : String
  bearerTokenHash : String := ""
  deriving DecidableEq, Repr

structure AuthCredential where
  id : String
  hash : BearerTokenHash
  deriving DecidableEq, Repr

/-! ## The configuration -/

def bearerTokenHashPrefix : String := "sha256:"

/-- The 32 bytes that the digits stand for. -/
def decodeTokenHash (digits : List Char) : Option BearerTokenHash :=
  match decodeHex digits with
  | none => none
  | some decoded => if h : decoded.length = 32 then some ⟨decoded, h⟩ else none

def parseBearerTokenHash (i : Nat) (text : String) : Except String BearerTokenHash :=
  if ¬ bearerTokenHashPrefix.toList.isPrefixOf text.toList then
    .error (s!"auth[{i}].bearerTokenHash must start with " ++ goQuote bearerTokenHashPrefix)
  else
    match decodeTokenHash (text.toList.drop bearerTokenHashPrefix.length) with
    | none =>
      .error s!"auth[{i}].bearerTokenHash must contain a 32-byte hexadecimal SHA-256 hash"
    | some hash => .ok hash

/-- The loop of `parseAuthCredentials`, at entry `i`. -/
def parseAuthCredentialsFrom :
    Nat → List String → List ConfigAuth → Except String (List AuthCredential)
  | _, _, [] => .ok []
  | i, ids, auth :: rest =>
    if auth.id = "" then .error s!"auth[{i}].id is required"
    else if auth.id ∈ ids then .error (s!"auth[{i}].id " ++ goQuote auth.id ++ " is duplicated")
    else if auth.bearerTokenHash = "" then
      .error s!"auth[{i}] contains 0 authentication methods; exactly one is required"
    else
      match parseBearerTokenHash i auth.bearerTokenHash with
      | .error e => .error e
      | .ok hash =>
        match parseAuthCredentialsFrom (i + 1) (auth.id :: ids) rest with
        | .error e => .error e
        | .ok credentials => .ok (⟨auth.id, hash⟩ :: credentials)

def parseAuthCredentials (config : List ConfigAuth) : Except String (List AuthCredential) :=
  parseAuthCredentialsFrom 0 [] config

/-- The configured text is the hash in hexadecimal digits. -/
def ConfigAuth.Hashes (auth : ConfigAuth) (hash : BearerTokenHash) : Prop :=
  ∃ digits, auth.bearerTokenHash.toList = bearerTokenHashPrefix.toList ++ digits ∧
    decodeTokenHash digits = some hash

theorem parseBearerTokenHash_ok {i : Nat} {text : String} {hash : BearerTokenHash} :
    parseBearerTokenHash i text = .ok hash ↔
      ∃ digits, text.toList = bearerTokenHashPrefix.toList ++ digits ∧
        decodeTokenHash digits = some hash := by
  have hlength : bearerTokenHashPrefix.length = bearerTokenHashPrefix.toList.length := by decide
  unfold parseBearerTokenHash
  split
  · rename_i hprefix
    simp only [List.isPrefixOf_iff_prefix] at hprefix
    refine ⟨nofun, ?_⟩
    rintro ⟨digits, htext, -⟩
    exact absurd ⟨digits, htext.symm⟩ hprefix
  · rename_i hprefix
    simp only [List.isPrefixOf_iff_prefix, not_not] at hprefix
    obtain ⟨digits, hdigits⟩ := hprefix
    rw [← hdigits, hlength, List.drop_left]
    have hiff : (∃ digits', bearerTokenHashPrefix.toList ++ digits =
        bearerTokenHashPrefix.toList ++ digits' ∧ decodeTokenHash digits' = some hash) ↔
        decodeTokenHash digits = some hash := by
      simp [List.append_cancel_left_eq]
    rw [hiff]
    cases decodeTokenHash digits <;> simp

theorem parseAuthCredentialsFrom_ok {i : Nat} {ids : List String} {config : List ConfigAuth}
    {credentials : List AuthCredential}
    (h : parseAuthCredentialsFrom i ids config = .ok credentials) :
    List.Forall₂ (fun auth c => c.id = auth.id ∧ auth.Hashes c.hash) config credentials := by
  induction config generalizing i ids credentials with
  | nil =>
    cases h
    exact .nil
  | cons auth rest ih =>
    rw [parseAuthCredentialsFrom] at h
    split_ifs at h
    split at h
    · cases h
    · rename_i hash hhash
      split at h
      · cases h
      · rename_i credentials' hrest
        cases h
        exact .cons ⟨rfl, parseBearerTokenHash_ok.mp hhash⟩ (ih hrest)

theorem parseAuthCredentials_ok {config : List ConfigAuth} {credentials : List AuthCredential}
    (h : parseAuthCredentials config = .ok credentials) :
    List.Forall₂ (fun auth c => c.id = auth.id ∧ auth.Hashes c.hash) config credentials :=
  parseAuthCredentialsFrom_ok h

theorem ConfigAuth.Hashes.unique {auth : ConfigAuth} {hash hash' : BearerTokenHash}
    (h : auth.Hashes hash) (h' : auth.Hashes hash') : hash = hash' := by
  obtain ⟨digits, htext, hdecode⟩ := h
  obtain ⟨digits', htext', hdecode'⟩ := h'
  rw [htext] at htext'
  rw [List.append_cancel_left htext', hdecode'] at hdecode
  exact (Option.some.inj hdecode).symm

/-- The hashes of the credentials are the configured ones, each with the id of its entry. -/
theorem hashes_iff {config : List ConfigAuth} {credentials : List AuthCredential}
    (h : parseAuthCredentials config = .ok credentials) (id : String) (hash : BearerTokenHash) :
    (∃ c ∈ credentials, c.hash = hash ∧ c.id = id) ↔
      ∃ auth ∈ config, auth.Hashes hash ∧ auth.id = id := by
  have hall := parseAuthCredentials_ok h
  clear h
  induction hall with
  | nil => simp
  | @cons auth c config credentials hc _ ih =>
    simp only [List.exists_mem_cons_iff, ih]
    refine or_congr_left ⟨?_, ?_⟩
    · rintro ⟨rfl, rfl⟩
      exact ⟨hc.2, hc.1.symm⟩
    · rintro ⟨hhash, rfl⟩
      exact ⟨hc.2.unique hhash, hc.1⟩

theorem decodeTokenHash_hex (hash : BearerTokenHash) :
    decodeTokenHash (hex hash.val) = some hash := by
  simp only [decodeTokenHash, decodeHex_hex, hash.property, dif_pos]

/-- A credential with the digits of a hash is accepted, and decoded to it. -/
theorem parseAuthCredentials_hex {id : String} (hid : id ≠ "") (hash : BearerTokenHash) :
    parseAuthCredentials
      [⟨id, bearerTokenHashPrefix ++ String.ofList (hex hash.val)⟩] = .ok [⟨id, hash⟩] := by
  have hne : bearerTokenHashPrefix ++ String.ofList (hex hash.val) ≠ "" := by
    intro h
    have hlist := congrArg String.toList h
    rw [String.toList_append] at hlist
    exact absurd hlist (by simp [bearerTokenHashPrefix])
  have hparse : parseBearerTokenHash 0
      (bearerTokenHashPrefix ++ String.ofList (hex hash.val)) = .ok hash :=
    parseBearerTokenHash_ok.mpr ⟨hex hash.val, by simp, decodeTokenHash_hex hash⟩
  simp [parseAuthCredentials, parseAuthCredentialsFrom, hid, hne, hparse]

/-! ## Requests -/

/-- The values of a request's `Authorization` header, in order. -/
structure Request where
  authorization : List (List UInt8)
  deriving DecidableEq, Repr

/-- `Header.Get`: the first value, or the empty string. -/
def Request.header (r : Request) : List UInt8 := r.authorization.head?.getD []

def lowerAscii (b : UInt8) : UInt8 := if 65 ≤ b ∧ b ≤ 90 then b + 32 else b

/-- `strings.EqualFold` for a scheme without the letters k and s, the two that something outside
ASCII folds to. -/
def equalFold (s t : List UInt8) : Bool := s.map lowerAscii = t.map lowerAscii

def space : UInt8 := 32

/-- `" \t\r\n"`, which a token may not contain. -/
def blanks : List UInt8 := [32, 9, 13, 10]

section Authenticate

variable (sha256 : List UInt8 → BearerTokenHash)

/-- `bearerTokenAuthenticator.authenticate`. -/
def AuthCredential.authenticate (c : AuthCredential) (r : Request) : Bool :=
  match cut space r.header with
  | none => false
  | some (scheme, token) =>
    if ¬ equalFold scheme (utf8 "Bearer") ∨ token = [] ∨ token.any (· ∈ blanks) then false
    else sha256 token = c.hash

/-- `Webserver.authenticate`: every credential is tried. -/
def authenticate (credentials : List AuthCredential) (r : Request) : String × Bool :=
  credentials.foldl (fun found c => if c.authenticate sha256 r then (c.id, true) else found)
    ("", false)

variable {sha256} {credentials : List AuthCredential} {r : Request}

/-- The last credential that accepts the request is found, or none. -/
theorem authenticate_cases (sha256 : List UInt8 → BearerTokenHash)
    (credentials : List AuthCredential) (r : Request) :
    (authenticate sha256 credentials r = ("", false) ∧
      ∀ c ∈ credentials, c.authenticate sha256 r = false) ∨
    ∃ c ∈ credentials, c.authenticate sha256 r = true ∧
      authenticate sha256 credentials r = (c.id, true) := by
  induction credentials using List.reverseRecOn with
  | nil => exact .inl ⟨rfl, nofun⟩
  | append_singleton credentials c ih =>
    have hsnoc : authenticate sha256 (credentials ++ [c]) r =
        if c.authenticate sha256 r then (c.id, true) else authenticate sha256 credentials r := by
      simp [authenticate]
    rw [hsnoc]
    cases hc : c.authenticate sha256 r with
    | true => exact .inr ⟨c, by simp, hc, rfl⟩
    | false =>
      rcases ih with ⟨hnone, hall⟩ | ⟨c', hmem, hc', hfound⟩
      · refine .inl ⟨hnone, fun c' hmem => ?_⟩
        rcases List.mem_append.mp hmem with hmem | hmem
        · exact hall c' hmem
        · rw [List.mem_singleton.mp hmem, hc]
      · exact .inr ⟨c', List.mem_append_left _ hmem, hc', hfound⟩

/-- A well-formed bearer header is accepted by the credentials with the hash of its token. -/
theorem AuthCredential.authenticate_token (c : AuthCredential) {token : List UInt8}
    (hne : token ≠ []) (hblank : ∀ b ∈ token, b ∉ blanks)
    (hr : r.header = utf8 "Bearer" ++ space :: token) :
    c.authenticate sha256 r = decide (sha256 token = c.hash) := by
  have hfold : equalFold (utf8 "Bearer") (utf8 "Bearer") = true := decide_eq_true rfl
  have hgood : ¬ (¬ equalFold (utf8 "Bearer") (utf8 "Bearer") ∨ token = [] ∨
      token.any (· ∈ blanks)) := by
    simpa [hfold, hne] using hblank
  rw [AuthCredential.authenticate, hr, cut_append (by decide)]
  simp only [if_neg hgood]

theorem authenticate_token {token : List UInt8} (hne : token ≠ [])
    (hblank : ∀ b ∈ token, b ∉ blanks) (hr : r.header = utf8 "Bearer" ++ space :: token) :
    ((authenticate sha256 credentials r).2 = true ↔ ∃ c ∈ credentials, c.hash = sha256 token) ∧
    ((authenticate sha256 credentials r).2 = true →
      ∃ c ∈ credentials, c.hash = sha256 token ∧ c.id = (authenticate sha256 credentials r).1) := by
  have heq (c : AuthCredential) : c.authenticate sha256 r = true ↔ c.hash = sha256 token := by
    rw [c.authenticate_token hne hblank hr, decide_eq_true_iff, eq_comm]
  rcases authenticate_cases sha256 credentials r with ⟨hnone, hall⟩ | ⟨c, hmem, hc, hfound⟩
  · rw [hnone]
    refine ⟨⟨nofun, ?_⟩, nofun⟩
    rintro ⟨c, hmem, hc⟩
    rw [← heq, hall c hmem] at hc
    exact hc
  · rw [hfound]
    have hhash := (heq c).mp hc
    exact ⟨⟨fun _ => ⟨c, hmem, hhash⟩, fun _ => rfl⟩, fun _ => ⟨c, hmem, hhash, rfl⟩⟩

/-- A header without a space, with another scheme, or with a token that is empty or has blanks, is
refused. -/
theorem authenticate_malformed
    (h : space ∉ r.header ∨ ∃ scheme token, r.header = scheme ++ space :: token ∧ space ∉ scheme ∧
      (equalFold scheme (utf8 "Bearer") = false ∨ token = [] ∨ ∃ b ∈ token, b ∈ blanks)) :
    authenticate sha256 credentials r = ("", false) := by
  have hrefused (c : AuthCredential) : c.authenticate sha256 r = false := by
    unfold AuthCredential.authenticate
    rcases h with hspace | ⟨scheme, token, hheader, hspace, hbad⟩
    · rw [cut_none hspace]
    · rw [hheader, cut_append hspace]
      refine if_pos ?_
      rcases hbad with hscheme | hempty | ⟨b, hb, hblank⟩
      · exact .inl (by simp [hscheme])
      · exact .inr (.inl hempty)
      · exact .inr (.inr (List.any_eq_true.mpr ⟨b, hb, decide_eq_true hblank⟩))
  rcases authenticate_cases sha256 credentials r with ⟨hnone, -⟩ | ⟨c, -, hc, -⟩
  · exact hnone
  · rw [hrefused c] at hc
    cases hc

end Authenticate

end Auth
end Montray
