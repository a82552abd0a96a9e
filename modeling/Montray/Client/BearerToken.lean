import Montray.Lib.Bytes
import Montray.Lib.Keyed
import Montray.Server.Auth
import Montray.Client.Config

/-!
# Montray.Client.BearerToken

The client's side of bearer authentication: `load_bearer_token`, which makes the header of a token
file, and `generate`, which makes a token file and prints the hash for the server.

`HeaderValue` of the HTTP library is a parameter with what its documentation says. So are paths, the
file system, the randomness and the JSON quoting that `generate` uses; base64 and the trimming of
whitespace are modelled.

* `loadBearerToken_ok`: the header of a token file that is accepted.
* `generate_ok`: what `generate` leaves in the file and prints.
* `bearer_credentials_agree`: client, generator and server agree.
-/

namespace Montray
namespace Client

open Lib Auth

/-! ## Loading a token -/

/-- `HeaderValue::from_str`: the bytes of the text, if it accepts them. -/
structure HeaderValues where
  fromStr : String → Except String (List UInt8)
  bytes : ∀ text value, fromStr text = .ok value → value = utf8 text
  visible : ∀ text : String, (∀ c ∈ text.toList, 32 ≤ c.toNat ∧ c.toNat < 127) →
    ∃ value, fromStr text = .ok value

/-- The characters with the property `White_Space`. -/
def isWhitespace (c : Char) : Bool :=
  (9 ≤ c.toNat && c.toNat ≤ 13) || c.toNat == 0x20 || c.toNat == 0x85 || c.toNat == 0xA0 ||
    c.toNat == 0x1680 || (0x2000 ≤ c.toNat && c.toNat ≤ 0x200A) || c.toNat == 0x2028 ||
    c.toNat == 0x2029 || c.toNat == 0x202F || c.toNat == 0x205F || c.toNat == 0x3000

/-- `str::trim`. -/
def trim (s : String) : String :=
  String.ofList ((s.toList.dropWhile isWhitespace).rdropWhile isWhitespace)

/-- `char::is_ascii_whitespace`, which a vertical tab is not. -/
def isAsciiWhitespace (c : Char) : Bool :=
  c.toNat == 32 || c.toNat == 9 || c.toNat == 10 || c.toNat == 12 || c.toNat == 13

/-- `fs::read_to_string`, given what reading the bytes does. -/
def readToString : Except String (List UInt8) → Except Chain String
  | .error e => bail e
  | .ok bytes =>
    match fromUtf8 bytes with
    | none => bail "stream did not contain valid UTF-8"
    | some contents => .ok contents

section Load

variable (headers : HeaderValues)

def headerValue (text : String) : Except Chain (List UInt8) :=
  match headers.fromStr text with
  | .error e => bail e
  | .ok value => .ok value

def loadBearerToken (auth : AuthConfig) (file : Except String (List UInt8)) :
    Except Chain (List UInt8) := do
  let place := "bearer token file " ++ rustQuote auth.bearerTokenFile
  let contents ← withContext ("read " ++ place) (readToString file)
  let token := trim contents
  refuse (token = "") (place ++ " is empty")
  refuse (token.toList.any isAsciiWhitespace) (place ++ " contains whitespace inside the token")
  withContext (place ++ " is not a valid HTTP token") (headerValue headers ("Bearer " ++ token))

variable {headers}

theorem readToString_ok {file : Except String (List UInt8)} {contents : String} :
    readToString file = .ok contents ↔
      ∃ bytes, file = .ok bytes ∧ fromUtf8 bytes = some contents := by
  cases file with
  | error e => simp [readToString, bail]
  | ok bytes => cases h : fromUtf8 bytes <;> simp [readToString, bail, h]

/-- A token that has neither to be trimmed nor to be refused. -/
theorem trim_eq_self {s : String} (h : ∀ c ∈ s.toList, isWhitespace c = false) : trim s = s := by
  have hdrop : s.toList.dropWhile isWhitespace = s.toList := by
    rw [List.dropWhile_eq_self_iff]
    intro hl
    simp [h _ (List.getElem_mem hl)]
  have hrdrop : s.toList.rdropWhile isWhitespace = s.toList := by
    rw [List.rdropWhile_eq_self_iff]
    intro hl
    simp [h _ (List.getLast_mem hl)]
  rw [trim, hdrop, hrdrop, String.ofList_toList]

theorem utf8_bearer_space : utf8 "Bearer " = utf8 "Bearer" ++ [space] := by
  decide +kernel

theorem loadBearerToken_ok {auth : AuthConfig} {file : Except String (List UInt8)}
    {header : List UInt8} (h : loadBearerToken headers auth file = .ok header) :
    ∃ bytes contents, file = .ok bytes ∧ fromUtf8 bytes = some contents ∧
      header = utf8 "Bearer" ++ space :: utf8 (trim contents) ∧ trim contents ≠ "" ∧
      ∀ c ∈ (trim contents).toList, isAsciiWhitespace c = false := by
  simp only [loadBearerToken, bind_ok, withContext_ok, refuse_ok, exists_const] at h
  obtain ⟨contents, hread, hne, hblank, hheader⟩ := h
  obtain ⟨bytes, hfile, htext⟩ := readToString_ok.mp hread
  refine ⟨bytes, contents, hfile, htext, ?_, hne, by simpa using hblank⟩
  unfold headerValue at hheader
  split at hheader
  · cases hheader
  · rename_i value hvalue
    cases hheader
    rw [headers.bytes _ _ hvalue, utf8_append, utf8_bearer_space, List.append_assoc,
      List.singleton_append]

/-- No blank is among the bytes of a token that is accepted. -/
theorem utf8_no_blanks {s : String} (h : ∀ c ∈ s.toList, isAsciiWhitespace c = false) :
    ∀ b ∈ utf8 s, b ∉ blanks := by
  intro b hb hblank
  have hascii : b.toNat < 128 := by
    revert hblank
    simp only [blanks, List.mem_cons, List.not_mem_nil, or_false]
    rintro (rfl | rfl | rfl | rfl) <;> decide
  obtain ⟨c, hc, hval⟩ := mem_utf8_ascii hb hascii
  have hno := h c hc
  simp only [isAsciiWhitespace, hval] at hno
  revert hblank
  simp only [blanks, List.mem_cons, List.not_mem_nil, or_false]
  rintro (rfl | rfl | rfl | rfl) <;> simp at hno

end Load

/-! ## Generating a token -/

/-- `[u8; TOKEN_BYTES]`. -/
abbrev TokenBytes := { bytes : List UInt8 // bytes.length = 32 }

structure Paths where
  absolute : String → Except String String
  parent : String → Option String
  join : String → String → String

/-- Where writing a new token file stops. -/
inductive TokenWrite where
  | directory (error : String)
  | create (error : String)
  /-- Part of the token was written; removing the file may fail too. -/
  | write (error : String) (written : List UInt8) (removed : Bool)
  | done
  deriving DecidableEq, Repr

/-- What the world does to one call of `generate`. -/
structure GenerateIo where
  paths : Paths
  random : Option TokenBytes
  write : TokenWrite := .done
  quoteJson : String → Except String String
  outputError : Option String := none

structure Generated where
  outputFilename : String
  printed : String
  deriving DecidableEq, Repr

/-- The contents of the files. -/
abbrev Files := KeyMap (List UInt8)

/-- A file that exists is not touched. -/
def writeNewTokenFile (io : GenerateIo) (filename : String) (token : List UInt8) (files : Files) :
    Files × Except Chain Unit :=
  match io.paths.parent filename, io.write, files[filename]? with
  | none, _, _ => (files, bail "bearer token filename has no parent directory")
  | some _, .directory e, _ => (files, .error ["create bearer token directory", e])
  | some _, _, some _ =>
    (files, bail ("bearer token file already exists at " ++ filename ++
      "; refusing to overwrite it"))
  | some _, .create e, none => (files, .error ["create bearer token file", e])
  | some _, .write e written removed, none =>
    (if removed then files else files.insert filename written,
      .error ["write bearer token file", e])
  | some _, .done, none => (files.insert filename token, .ok ())

def instructions (outputFilename configFilename serverId quotedTokenFilename hashHex : String) :
    String :=
  "Created bearer token file:\n\n    " ++ outputFilename ++ "\n\nIn " ++ configFilename ++
  ", find:\n\nwsClient:\n  servers:\n    - id: " ++ serverId ++
  "\n\nAnd add this block inside that server entry, alongside id and addr:\n\n" ++
  "      auth:\n        bearerTokenFile: " ++ quotedTokenFilename ++
  "\n\nIn the corresponding Montray Server configuration, find:\n\n" ++
  "core:\n  messengers:\n    - webserver:\n\n" ++
  "And add this block inside the webserver messenger, alongside listenAddress:\n\n" ++
  "        auth:\n" ++
  "          - id: my-laptop # Identifies this credential; adjust as needed.\n" ++
  "            " ++ "bearerTokenHash: \"" ++ ("sha256:" ++ hashHex) ++ "\"" ++
  "\n\nIf auth already exists in the webserver messenger, add only the new list entry to it.\n"

section Generate

variable (sha256 : List UInt8 → BearerTokenHash)

def Paths.resolve (paths : Paths) (context path : String) : Except Chain String :=
  match paths.absolute path with
  | .error e => .error [context, e]
  | .ok path => .ok path

def tokenFilename (paths : Paths) (configFilename serverId : String) :
    Option String → Except Chain String
  | some path => .ok path
  | none =>
    match paths.parent configFilename with
    | none => bail "Montray UI config filename has no parent directory"
    | some parent => .ok (paths.join (paths.join parent "tokens") (serverId ++ ".token"))

/-- The file names, and the random bytes. -/
def prepareToken (io : GenerateIo) (configFilename serverId : String)
    (outputFilename : Option String) : Except Chain (String × String × TokenBytes) := do
  withContext "invalid server ID" (validateServerId serverId)
  let configFilename ← io.paths.resolve "resolve Montray UI config path" configFilename
  let outputFilename ← tokenFilename io.paths configFilename serverId outputFilename
  let outputFilename ← io.paths.resolve "resolve bearer token path" outputFilename
  match io.random with
  | none => bail "generate bearer token: operating system randomness failed"
  | some random => pure (configFilename, outputFilename, random)

def generate (io : GenerateIo) (configFilename serverId : String) (outputFilename : Option String)
    (files : Files) : Files × Except Chain Generated :=
  match prepareToken io configFilename serverId outputFilename with
  | .error chain => (files, .error chain)
  | .ok (configFilename, outputFilename, random) =>
    let token := String.ofList (base64Url random.val)
    let written := writeNewTokenFile io outputFilename (utf8 token) files
    match written.2 with
    | .error chain => (written.1, .error chain)
    | .ok () =>
      let hashHex := String.ofList (hex (sha256 (utf8 token)).val)
      match io.quoteJson outputFilename, io.outputError with
      | .error e, _ => (written.1, bail e)
      | .ok _, some e => (written.1, bail e)
      | .ok quoted, none =>
        (written.1, .ok ⟨outputFilename,
          instructions outputFilename configFilename serverId quoted hashHex⟩)

variable {sha256} {io : GenerateIo} {headers : HeaderValues}

theorem writeNewTokenFile_ok {filename : String} {token : List UInt8} {files : Files}
    (h : (writeNewTokenFile io filename token files).2 = .ok ()) :
    (writeNewTokenFile io filename token files).1 = files.insert filename token := by
  unfold writeNewTokenFile at h ⊢
  split at h <;> first | rfl | cases h

/-- The file holds a token of URL-safe characters, and the hash of it is printed. -/
theorem generate_ok {configFilename serverId : String} {outputFilename : Option String}
    {files files' : Files} {g : Generated}
    (h : generate sha256 io configFilename serverId outputFilename files = (files', .ok g)) :
    ∃ token : String, files'[g.outputFilename]? = some (utf8 token) ∧ token ≠ "" ∧
      (∀ c ∈ token.toList, isUrlSafe c = true) ∧
      ∃ before after, g.printed = before ++ "bearerTokenHash: \"" ++
        (bearerTokenHashPrefix ++ String.ofList (hex (sha256 (utf8 token)).val)) ++ "\"" ++
          after := by
  unfold generate at h
  split at h
  · cases h
  · rename_i configFilename' outputFilename' random hnames
    have hrandom : random.val ≠ [] :=
      List.ne_nil_of_length_pos (by rw [random.property]; decide)
    dsimp only at h
    split at h
    · cases h
    · rename_i hwritten
      split at h
      · cases h
      · cases h
      · cases h
        refine ⟨String.ofList (base64Url random.val), ?_, ?_, ?_, ?_⟩
        · rw [writeNewTokenFile_ok hwritten, KeyMap.lookup_insert, if_pos rfl]
        · intro hempty
          have hnil := congrArg String.toList hempty
          rw [String.toList_ofList] at hnil
          exact base64Url_ne_nil hrandom hnil
        · rw [String.toList_ofList]
          exact isUrlSafe_base64Url random.val
        · unfold instructions
          exact ⟨_, _, rfl⟩

theorem bearer_visible : ∀ c ∈ "Bearer ".toList, 32 ≤ c.toNat ∧ c.toNat < 127 := by
  simp

/-- A token of URL-safe characters is loaded as it is. -/
theorem loadBearerToken_urlSafe (headers : HeaderValues) (auth : AuthConfig) {token : String}
    (hne : token ≠ "") (hsafe : ∀ c ∈ token.toList, isUrlSafe c = true) :
    trim token = token ∧
      ∃ header, loadBearerToken headers auth (.ok (utf8 token)) = .ok header := by
  have hrange (c : Char) (hc : c ∈ token.toList) : 33 ≤ c.toNat ∧ c.toNat < 127 :=
    isUrlSafe_visible (hsafe c hc)
  have htrim : trim token = token := by
    refine trim_eq_self fun c hc => ?_
    have hc := hrange c hc
    simp only [isWhitespace, Bool.or_eq_false_iff, Bool.and_eq_false_iff, decide_eq_false_iff_not,
      beq_eq_false_iff_ne]
    omega
  have hblank : ¬ token.toList.any isAsciiWhitespace = true := by
    rw [List.any_eq_true]
    rintro ⟨c, hc, hspace⟩
    have hc := hrange c hc
    simp only [isAsciiWhitespace, Bool.or_eq_true, beq_iff_eq] at hspace
    omega
  obtain ⟨value, hvalue⟩ := headers.visible ("Bearer " ++ token) (by
    intro c hc
    rw [String.toList_append, List.mem_append] at hc
    rcases hc with hc | hc
    · exact bearer_visible c hc
    · have hc := hrange c hc
      omega)
  refine ⟨htrim, value, ?_⟩
  simp only [loadBearerToken, bind_ok, withContext_ok, refuse_ok, exists_const]
  refine ⟨token, readToString_ok.mpr ⟨utf8 token, rfl, fromUtf8_utf8 token⟩, ?_, ?_, ?_⟩
  · rwa [htrim]
  · rwa [htrim]
  · rw [htrim, headerValue, hvalue]

end Generate

/-- **Bearer credentials agree.** The server accepts the header of a token file just when the hash
of the trimmed token is configured, and finds an id that it is configured for. The hash that
`generate` prints is decoded to the hash of the token in the file, and the file is then accepted. A
header of another scheme, or with a token that is empty or has blanks, is refused. -/
theorem bearer_credentials_agree (sha256 : List UInt8 → BearerTokenHash) (headers : HeaderValues)
    (config : List ConfigAuth) (credentials : List AuthCredential)
    (hconfig : parseAuthCredentials config = .ok credentials) :
    (∀ auth bytes header, loadBearerToken headers auth (.ok bytes) = .ok header →
      ∃ contents, fromUtf8 bytes = some contents ∧
        let hash := sha256 (utf8 (trim contents))
        let found := authenticate sha256 credentials ⟨[header]⟩
        (found.2 = true ↔ ∃ entry ∈ config, entry.Hashes hash) ∧
        (found.2 = true → ∃ entry ∈ config, entry.Hashes hash ∧ entry.id = found.1)) ∧
    (∀ io configFilename serverId outputFilename files files' g,
      generate sha256 io configFilename serverId outputFilename files = (files', .ok g) →
      ∃ token text before after, files'[g.outputFilename]? = some token ∧
        g.printed = before ++ "bearerTokenHash: \"" ++ text ++ "\"" ++ after ∧
        text = bearerTokenHashPrefix ++ String.ofList (hex (sha256 token).val) ∧
        ∀ id, id ≠ "" →
          parseAuthCredentials [⟨id, text⟩] = .ok [⟨id, sha256 token⟩] ∧
          ∀ auth, ∃ header, loadBearerToken headers auth (.ok token) = .ok header ∧
            authenticate sha256 [⟨id, sha256 token⟩] ⟨[header]⟩ = (id, true)) ∧
    ∀ r : Request,
      (space ∉ r.header ∨ ∃ scheme token, r.header = scheme ++ space :: token ∧ space ∉ scheme ∧
        (equalFold scheme (utf8 "Bearer") = false ∨ token = [] ∨ ∃ b ∈ token, b ∈ blanks)) →
      authenticate sha256 credentials r = ("", false) := by
  refine ⟨fun auth bytes header hload => ?_, ?_, fun r hbad => authenticate_malformed hbad⟩
  · obtain ⟨_, contents, hfile, htext, hheader, hne, hblank⟩ := loadBearerToken_ok hload
    cases hfile
    refine ⟨contents, htext, ?_⟩
    have hr : (Request.mk [header]).header = utf8 "Bearer" ++ space :: utf8 (trim contents) :=
      hheader
    obtain ⟨hiff, hfound⟩ := authenticate_token (utf8_ne_nil hne) (utf8_no_blanks hblank) hr
    refine ⟨hiff.trans ⟨?_, ?_⟩, fun h => (hashes_iff hconfig _ _).mp (hfound h)⟩
    · rintro ⟨c, hc, hhash⟩
      obtain ⟨entry, hentry, hhashes, -⟩ := (hashes_iff hconfig _ _).mp ⟨c, hc, hhash, rfl⟩
      exact ⟨entry, hentry, hhashes⟩
    · rintro ⟨entry, hentry, hhashes⟩
      obtain ⟨c, hc, hhash, -⟩ := (hashes_iff hconfig _ _).mpr ⟨entry, hentry, hhashes, rfl⟩
      exact ⟨c, hc, hhash⟩
  · intro io configFilename serverId outputFilename files files' g hg
    obtain ⟨token, hfile, hne, hsafe, before, after, hprinted⟩ := generate_ok hg
    refine ⟨utf8 token, _, before, after, hfile, hprinted, rfl, fun id hid => ⟨?_, fun auth => ?_⟩⟩
    · exact parseAuthCredentials_hex hid _
    · obtain ⟨htrim, header, hload⟩ := loadBearerToken_urlSafe headers auth hne hsafe
      refine ⟨header, hload, ?_⟩
      obtain ⟨_, contents, hbytes, htext, hheader, -, hblank⟩ := loadBearerToken_ok hload
      cases hbytes
      rw [fromUtf8_utf8] at htext
      cases htext
      rw [htrim] at hheader hblank
      have hr : (Request.mk [header]).header = utf8 "Bearer" ++ space :: utf8 token := hheader
      have haccepted : AuthCredential.authenticate sha256 ⟨id, sha256 (utf8 token)⟩ ⟨[header]⟩ =
          decide (sha256 (utf8 token) = sha256 (utf8 token)) :=
        AuthCredential.authenticate_token _ (utf8_ne_nil hne) (utf8_no_blanks hblank) hr
      simp only [authenticate, List.foldl_cons, List.foldl_nil, haccepted, decide_true, if_true]

/-- Visible ASCII and nothing else. -/
def visibleHeaders : HeaderValues where
  fromStr text :=
    if text.toList.all fun c => 32 ≤ c.toNat && c.toNat < 127 then .ok (utf8 text)
    else .error "failed to parse header value"
  bytes text value h := by
    split at h
    · cases h
      rfl
    · cases h
  visible text h := by
    refine ⟨utf8 text, ?_⟩
    rw [if_pos]
    simpa using h

theorem headerValue_visible {text : String}
    (h : ∀ c ∈ text.toList, 32 ≤ c.toNat ∧ c.toNat < 127) :
    headerValue visibleHeaders text = .ok (utf8 text) := by
  obtain ⟨value, hvalue⟩ := visibleHeaders.visible text h
  rw [headerValue, hvalue, visibleHeaders.bytes text value hvalue]

/-- A hash that depends on the length only. -/
def lengthHash (bytes : List UInt8) : BearerTokenHash :=
  ⟨List.replicate 32 (UInt8.ofNat bytes.length), by simp⟩

def laptopConfig : List ConfigAuth :=
  [⟨"laptop", "sha256:" ++ String.ofList (hex (lengthHash (utf8 "abc")).val)⟩]

theorem laptopConfig_parsed :
    parseAuthCredentials laptopConfig = .ok [⟨"laptop", lengthHash (utf8 "abc")⟩] :=
  parseAuthCredentials_hex (by decide) _

theorem laptopConfig_hashes : ∃ entry ∈ laptopConfig, entry.Hashes (lengthHash (utf8 "abc")) :=
  ⟨_, List.mem_singleton_self _, hex (lengthHash (utf8 "abc")).val,
    by simp [bearerTokenHashPrefix], decodeTokenHash_hex _⟩

theorem trim_laptopToken : trim " abc\n" = "abc" := by rfl

theorem laptopToken_loaded :
    loadBearerToken visibleHeaders ⟨"token"⟩ (.ok (utf8 " abc\n")) =
      .ok (utf8 ("Bearer " ++ "abc")) := by
  simp only [loadBearerToken, bind_ok, withContext_ok, refuse_ok, exists_const]
  refine ⟨" abc\n", readToString_ok.mpr ⟨_, rfl, fromUtf8_utf8 _⟩, ?_⟩
  rw [trim_laptopToken]
  exact ⟨by decide, by decide, headerValue_visible (by simp)⟩

theorem bearer_credentials_agree_laptop :
    ∃ header, loadBearerToken visibleHeaders ⟨"token"⟩ (.ok (utf8 " abc\n")) = .ok header ∧
      authenticate lengthHash [⟨"laptop", lengthHash (utf8 "abc")⟩] ⟨[header]⟩ =
        ("laptop", true) := by
  refine ⟨_, laptopToken_loaded, ?_⟩
  obtain ⟨contents, htext, hiff, hfound⟩ :=
    (bearer_credentials_agree lengthHash visibleHeaders laptopConfig _ laptopConfig_parsed).1
      _ _ _ laptopToken_loaded
  rw [fromUtf8_utf8] at htext
  cases htext
  rw [trim_laptopToken] at hiff hfound
  have haccepted := hiff.mpr laptopConfig_hashes
  obtain ⟨entry, hentry, -, hid⟩ := hfound haccepted
  have hentry : entry.id = "laptop" := by
    rw [List.mem_singleton.mp hentry]
  exact Prod.ext (hid.symm.trans hentry) haccepted

end Client
end Montray
