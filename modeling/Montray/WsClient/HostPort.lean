import Montray.Client.HostPort
import Montray.Server.ExecCollector

/-!
# Montray.WsClient.HostPort

Which addresses the two clients accept.

`validateHostPort` of the Go client leaves the splitting to `net.SplitHostPort`, which refuses every
bracket that does not enclose the host; the Rust parser looks for the first `]:` behind an opening
bracket, and for nothing in a host without.

* `splitHostPort_ok`: what `net.SplitHostPort` accepts, without indices.
* `host_port_agreement`: the clients agree just where no host in front of a port has a bracket.
-/

namespace Montray
namespace WsClient

/-! ## The Go side -/

/-- `strings.IndexByte`. -/
def firstIndex (c : Char) : List Char → Option Nat
  | [] => none
  | x :: xs => if x = c then some 0 else (firstIndex c xs).map (· + 1)

/-- `strings.LastIndexByte`. -/
def lastIndex (c : Char) : List Char → Option Nat
  | [] => none
  | x :: xs =>
    match lastIndex c xs with
    | some i => some (i + 1)
    | none => if x = c then some 0 else none

/-- The text of a `net.AddrError`. -/
def addrErr (addr why : String) : String :=
  if addr = "" then why else "address " ++ addr ++ ": " ++ why

def missingPort : String := "missing port in address"

def tooManyColons : String := "too many colons in address"

/-- The end of `net.SplitHostPort`: no bracket may come from the positions `j` and `k` on. -/
def checkBrackets (hostport : String) (host : List Char) (i j k : Nat) :
    Except String (String × String) :=
  if '[' ∈ hostport.toList.drop j then .error (addrErr hostport "unexpected '[' in address")
  else if ']' ∈ hostport.toList.drop k then .error (addrErr hostport "unexpected ']' in address")
  else .ok (String.ofList host, String.ofList (hostport.toList.drop (i + 1)))

/-- `net.SplitHostPort`. -/
def splitHostPort (hostport : String) : Except String (String × String) :=
  match lastIndex ':' hostport.toList with
  | none => .error (addrErr hostport missingPort)
  | some i =>
    if hostport.toList.head? = some '[' then
      match firstIndex ']' hostport.toList with
      | none => .error (addrErr hostport "missing ']' in address")
      | some e =>
        if e + 1 = hostport.toList.length then .error (addrErr hostport missingPort)
        else if e + 1 = i then
          checkBrackets hostport ((hostport.toList.take e).drop 1) i 1 (e + 1)
        else if hostport.toList[e + 1]? = some ':' then .error (addrErr hostport tooManyColons)
        else .error (addrErr hostport missingPort)
    else if ':' ∈ hostport.toList.take i then .error (addrErr hostport tooManyColons)
    else checkBrackets hostport (hostport.toList.take i) i 0 0

def validateHostPort (addr : String) : Except String PUnit :=
  match splitHostPort addr with
  | .error err => .error ("must be a valid host:port: " ++ err)
  | .ok (host, port) =>
    if host = "" then .error "host must not be empty"
    else
      match Exec.atoi port with
      | none => .error "port must be between 1 and 65535"
      | some portNumber =>
        if portNumber.toInt < 1 ∨ 65535 < portNumber.toInt then
          .error "port must be between 1 and 65535"
        else .ok ()

/-! ## Splitting -/

theorem firstIndex_of_not_mem {c : Char} {a b : List Char} (h : c ∉ a) :
    firstIndex c (a ++ c :: b) = some a.length := by
  induction a with
  | nil => simp [firstIndex]
  | cons x a ih =>
    rw [List.mem_cons, not_or] at h
    rw [List.cons_append, firstIndex, if_neg (Ne.symm h.1), ih h.2]
    rfl

theorem firstIndex_eq_some {c : Char} {l : List Char} {i : Nat} (h : firstIndex c l = some i) :
    ∃ a b, l = a ++ c :: b ∧ c ∉ a ∧ a.length = i := by
  induction l generalizing i with
  | nil => cases h
  | cons x l ih =>
    rw [firstIndex] at h
    split_ifs at h with hx
    · cases h
      exact ⟨[], l, by rw [hx]; rfl, List.not_mem_nil, rfl⟩
    · obtain ⟨j, hj, rfl⟩ := Option.map_eq_some_iff.mp h
      obtain ⟨a, b, hl, hno, hlen⟩ := ih hj
      refine ⟨x :: a, b, congrArg (x :: ·) hl, ?_, congrArg (· + 1) hlen⟩
      rw [List.mem_cons, not_or]
      exact ⟨Ne.symm hx, hno⟩

theorem lastIndex_eq (c : Char) (l : List Char) :
    lastIndex c l = (Client.rsplitOnce c l).map (·.1.length) := by
  induction l with
  | nil => rfl
  | cons x l ih =>
    rw [lastIndex, Client.rsplitOnce, ih]
    cases Client.rsplitOnce c l with
    | some parts => rfl
    | none => by_cases hx : x = c <;> simp [hx]

theorem lastIndex_of_not_mem {c : Char} {a b : List Char} (h : c ∉ b) :
    lastIndex c (a ++ c :: b) = some a.length := by
  rw [lastIndex_eq, Client.rsplitOnce_of_not_mem h]
  rfl

theorem lastIndex_eq_some {c : Char} {l : List Char} {i : Nat} (h : lastIndex c l = some i) :
    ∃ a b, l = a ++ c :: b ∧ c ∉ b ∧ a.length = i := by
  rw [lastIndex_eq] at h
  obtain ⟨parts, hparts, rfl⟩ := Option.map_eq_some_iff.mp h
  obtain ⟨hl, hno⟩ := Client.rsplitOnce_append hparts
  exact ⟨parts.1, parts.2, hl, hno, rfl⟩

theorem checkBrackets_ok {hostport host port : String} {h : List Char} {i j k : Nat} :
    checkBrackets hostport h i j k = .ok (host, port) ↔
      '[' ∉ hostport.toList.drop j ∧ ']' ∉ hostport.toList.drop k ∧ host = String.ofList h ∧
        port = String.ofList (hostport.toList.drop (i + 1)) := by
  unfold checkBrackets
  split_ifs with hopen hclose
  · simp [hopen]
  · simp [hclose]
  · simp only [hopen, hclose, not_false_eq_true, true_and, Except.ok.injEq, Prod.mk.injEq]
    exact and_congr eq_comm eq_comm

/-- The host and the port of an address that has no bracket but the pair around its host. -/
inductive Parts : List Char → List Char → List Char → Prop
  | bracketed {host port : List Char} (hhost : '[' ∉ host ∧ ']' ∉ host)
      (hport : '[' ∉ port ∧ ']' ∉ port ∧ ':' ∉ port) :
      Parts ('[' :: host ++ ']' :: ':' :: port) host port
  | plain {host port : List Char} (hhost : '[' ∉ host ∧ ']' ∉ host ∧ ':' ∉ host)
      (hport : '[' ∉ port ∧ ']' ∉ port ∧ ':' ∉ port) :
      Parts (host ++ ':' :: port) host port

section Address

variable {address : String} {h p : List Char}

theorem splitHostPort_of_parts (hparts : Parts address.toList h p) :
    splitHostPort address = .ok (String.ofList h, String.ofList p) := by
  generalize hl : address.toList = l at hparts
  cases hparts with
  | bracketed hhost hport =>
    have hlast : lastIndex ':' address.toList = some (h.length + 2) := by
      rw [hl, show '[' :: h ++ ']' :: ':' :: p = ('[' :: h ++ [']']) ++ ':' :: p by simp,
        lastIndex_of_not_mem hport.2.2]
      simp
    have hfirst : firstIndex ']' address.toList = some (h.length + 1) := by
      rw [hl, firstIndex_of_not_mem (by simp [hhost.2])]
      simp
    unfold splitHostPort
    simp only [hlast, hfirst]
    rw [if_pos (by rw [hl]; rfl), if_neg (by rw [hl]; simp), if_pos trivial, checkBrackets_ok, hl]
    simp [hhost, hport]
  | plain hhost hport =>
    have hlast : lastIndex ':' address.toList = some h.length := by
      rw [hl, lastIndex_of_not_mem hport.2.2]
    have hhead : address.toList.head? ≠ some '[' := by
      rw [hl]
      intro hhead
      have hmem : '[' ∈ h ++ ':' :: p := List.mem_of_mem_head? hhead
      simp [hhost.1, hport.1] at hmem
    have htake : address.toList.take h.length = h := by
      rw [hl, List.take_left]
    unfold splitHostPort
    simp only [hlast]
    rw [if_neg hhead, htake, if_neg hhost.2.2, checkBrackets_ok, hl]
    simp [hhost, hport]

theorem parts_of_splitHostPort {host port : String}
    (hok : splitHostPort address = .ok (host, port)) :
    ∃ h p, Parts address.toList h p ∧ host = String.ofList h ∧ port = String.ofList p := by
  unfold splitHostPort at hok
  cases hlast : lastIndex ':' address.toList with
  | none =>
    rw [hlast] at hok
    cases hok
  | some i =>
    obtain ⟨a, b, hl, hcolon, rfl⟩ := lastIndex_eq_some hlast
    simp only [hlast] at hok
    split_ifs at hok with hhead hmany
    · cases hfirst : firstIndex ']' address.toList with
      | none =>
        rw [hfirst] at hok
        cases hok
      | some e =>
        obtain ⟨x, y, hx, hclose, rfl⟩ := firstIndex_eq_some hfirst
        simp only [hfirst] at hok
        split_ifs at hok with hend hnext hsecond
        -- the bracket is right before the colon, so the two cuts are one
        obtain ⟨rfl, rfl⟩ : a = x ++ [']'] ∧ ':' :: b = y := by
          refine List.append_inj ?_ (by simp [← hnext])
          rw [← hl, hx]
          simp
        obtain ⟨hopen, hrest, rfl, rfl⟩ := checkBrackets_ok.mp hok
        cases x with
        | nil =>
          rw [hx] at hhead
          cases hhead
        | cons c x =>
          rw [hx] at hhead
          cases hhead
          rw [hx] at hopen hrest
          simp at hopen hrest hclose
          have hparts : Parts ('[' :: x ++ ']' :: ':' :: b) x b :=
            .bracketed ⟨hopen.1, hclose⟩ ⟨hopen.2, hrest, hcolon⟩
          refine ⟨x, b, by rw [hx]; exact hparts, ?_, ?_⟩
          · rw [hx]
            simp
          · rw [hx]
            simp
    · obtain ⟨hopen, hrest, rfl, rfl⟩ := checkBrackets_ok.mp hok
      rw [hl] at hopen hrest hmany
      simp at hopen hrest hmany
      refine ⟨a, b, ?_, by rw [hl, List.take_left], by rw [hl]; simp⟩
      rw [hl]
      exact .plain ⟨hopen.1, hrest.1, hmany⟩ ⟨hopen.2, hrest.2, hcolon⟩

theorem splitHostPort_ok {host port : String} :
    splitHostPort address = .ok (host, port) ↔
      ∃ h p, Parts address.toList h p ∧ host = String.ofList h ∧ port = String.ofList p := by
  constructor
  · exact parts_of_splitHostPort
  · rintro ⟨h, p, hparts, rfl, rfl⟩
    exact splitHostPort_of_parts hparts

end Address

/-! ## Ports -/

theorem int64?_eq_some {v : Int} {w : Int64} (h : Exec.int64? v = some w) : w.toInt = v := by
  rw [Exec.int64?, Option.ite_none_right_eq_some, Option.some.injEq] at h
  obtain ⟨hrange, rfl⟩ := h
  exact Int64.toInt_ofInt_of_le hrange.1 hrange.2

theorem atoi_of_not_minus {p : List Char} (h : p.head? ≠ some '-') :
    Exec.atoi (String.ofList p) =
      (Exec.digitsValue (Client.unsigned p)).bind fun v => Exec.int64? v := by
  unfold Exec.atoi Client.unsigned
  rw [String.toList_ofList]
  split
  · exact absurd rfl h
  · rfl
  · split
    · rename_i rest _ hplus
      exact absurd rfl (hplus rest)
    · rfl

theorem atoi_minus_le {digits : List Char} {v : Int64}
    (h : Exec.atoi (String.ofList ('-' :: digits)) = some v) : v.toInt ≤ 0 := by
  unfold Exec.atoi at h
  simp only [String.toList_ofList] at h
  obtain ⟨n, -, hv⟩ := Option.bind_eq_some_iff.mp h
  rw [int64?_eq_some hv]
  omega

theorem parseU16_minus (digits : List Char) : Client.parseU16 ('-' :: digits) = none := by
  cases hp : Client.parseU16 ('-' :: digits) with
  | none => rfl
  | some n =>
    have hchar := Client.mem_of_parseU16 hp List.mem_cons_self
    exact absurd hchar (by decide)

/-- `u16::from_str` and `strconv.Atoi` read the same ports. -/
theorem parseU16_iff_atoi {p : List Char} {n : Nat} (hn : n ≠ 0) :
    Client.parseU16 p = some n ↔
      ∃ v, Exec.atoi (String.ofList p) = some v ∧ v.toInt = n ∧ n ≤ 65535 := by
  by_cases hminus : p.head? = some '-'
  · obtain ⟨digits, rfl⟩ := List.head?_eq_some_iff.mp hminus
    rw [parseU16_minus]
    refine iff_of_false (by simp) ?_
    rintro ⟨v, hv, hvalue, -⟩
    have hle := atoi_minus_le hv
    omega
  · rw [Client.parseU16_eq_some, Client.digitsValue_eq, atoi_of_not_minus hminus]
    constructor
    · rintro ⟨hne, hdigits, hvalue, hlt⟩
      have hrange : -2 ^ 63 ≤ (n : Int) ∧ (n : Int) < 2 ^ 63 := by omega
      refine ⟨Int64.ofInt n, ?_, Int64.toInt_ofInt_of_le hrange.1 hrange.2, by omega⟩
      rw [Exec.digitsValue, if_pos ⟨hne, hdigits⟩, hvalue, Option.bind_some, Exec.int64?,
        if_pos hrange]
    · rintro ⟨v, hv, hvalue, hle⟩
      obtain ⟨m, hm, hv⟩ := Option.bind_eq_some_iff.mp hv
      rw [Exec.digitsValue, Option.ite_none_right_eq_some, Option.some.injEq] at hm
      obtain ⟨⟨hne, hdigits⟩, hm⟩ := hm
      have hback := int64?_eq_some hv
      exact ⟨hne, hdigits, by omega, by omega⟩

/-! ## Agreement -/

theorem Parts.client {l h p : List Char} (hparts : Parts l h p) : Client.Parts l h p := by
  cases hparts with
  | bracketed hhost hport =>
    have hsplit : Client.splitOnce [']', ':'] (h ++ [']', ':'] ++ p) = some (h, p) :=
      Client.splitOnce_of_not_mem hhost.2
    rw [List.append_assoc] at hsplit
    exact .inl ⟨_, rfl, hsplit⟩
  | plain hhost hport =>
    refine .inr ⟨?_, rfl, hhost.2.2, hport.2.2⟩
    intro hhead
    have hmem : '[' ∈ h ++ ':' :: p := List.mem_of_mem_head? hhead
    simp [hhost.1, hport.1] at hmem

theorem Parts.host {l h p : List Char} (hparts : Parts l h p) : '[' ∉ h ∧ ']' ∉ h := by
  cases hparts with
  | bracketed hhost _ => exact hhost
  | plain hhost _ => exact ⟨hhost.1, hhost.2.1⟩

/-- A number has neither brackets nor colons. -/
theorem Parts.of_client {l h p : List Char} {n : Nat} (hparts : Client.Parts l h p)
    (hhost : '[' ∉ h ∧ ']' ∉ h) (hport : Client.parseU16 p = some n) : Parts l h p := by
  have hnumber : ∀ c ∈ p, c.isDigit = true ∨ c = '+' := fun c hc => Client.mem_of_parseU16 hport hc
  have hmarks : '[' ∉ p ∧ ']' ∉ p ∧ ':' ∉ p := by
    refine ⟨fun h => ?_, fun h => ?_, fun h => ?_⟩
    · exact absurd (hnumber '[' h) (by decide)
    · exact absurd (hnumber ']' h) (by decide)
    · exact absurd (hnumber ':' h) (by decide)
  rcases hparts with ⟨rest, rfl, hsplit⟩ | ⟨-, rfl, hcolon, -⟩
  · rw [Client.splitOnce_append hsplit, List.append_assoc]
    exact .bracketed hhost hmarks
  · exact .plain ⟨hhost.1, hhost.2, hcolon⟩ hmarks

theorem validateHostPort_ok {address : String} :
    validateHostPort address = .ok () ↔
      ∃ host port v, splitHostPort address = .ok (host, port) ∧ host ≠ "" ∧
        Exec.atoi port = some v ∧ 1 ≤ v.toInt ∧ v.toInt ≤ 65535 := by
  unfold validateHostPort
  cases hsplit : splitHostPort address with
  | error err => simp
  | ok parts =>
    by_cases hhost : parts.1 = ""
    · simp only [if_pos hhost]
      refine iff_of_false (by simp) ?_
      rintro ⟨host, port, v, heq, hne, -⟩
      cases heq
      exact hne hhost
    · simp only [if_neg hhost]
      cases hport : Exec.atoi parts.2 with
      | none =>
        refine iff_of_false (by simp) ?_
        rintro ⟨host, port, v, heq, -, hv, -⟩
        cases heq
        rw [hport] at hv
        cases hv
      | some v =>
        by_cases hrange : v.toInt < 1 ∨ 65535 < v.toInt
        · simp only [if_pos hrange]
          refine iff_of_false (by simp) ?_
          rintro ⟨host, port, w, heq, -, hw, hlow, hhigh⟩
          cases heq
          rw [hport] at hw
          cases hw
          omega
        · simp only [if_neg hrange, true_iff]
          exact ⟨parts.1, parts.2, v, rfl, hhost, hport, by omega, by omega⟩

section Agreement

variable {address : String}

/-- What the Rust client accepts, with no bracket in the host. -/
theorem accepts_of_unbracketed {h p : List Char} {port : Nat}
    (hparts : Client.Parts address.toList h p) (hne : h ≠ [])
    (hport : Client.parseU16 p = some port) (hzero : port ≠ 0) (hhost : '[' ∉ h ∧ ']' ∉ h) :
    validateHostPort address = .ok () ∧ ∃ v,
      splitHostPort address = .ok (String.ofList h, String.ofList p) ∧
      Exec.atoi (String.ofList p) = some v ∧ v.toInt = port := by
  have hsplit := splitHostPort_of_parts (Parts.of_client hparts hhost hport)
  obtain ⟨v, hv, hvalue, hle⟩ := (parseU16_iff_atoi hzero).mp hport
  refine ⟨validateHostPort_ok.mpr ⟨_, _, v, hsplit, ?_, hv, ?_, ?_⟩, v, hsplit, hv, hvalue⟩
  · intro hempty
    exact hne (String.ofList_eq_empty_iff.mp hempty)
  · omega
  · omega

/-- What the Go client accepts. -/
theorem client_of_accepts (hok : validateHostPort address = .ok ()) :
    ∃ r, Client.validateHostPort address = .ok r := by
  obtain ⟨host, port, v, hsplit, hne, hv, hlow, hhigh⟩ := validateHostPort_ok.mp hok
  obtain ⟨h, p, hparts, rfl, rfl⟩ := splitHostPort_ok.mp hsplit
  have hnat : v.toInt = (v.toInt.toNat : Nat) := by omega
  have hzero : v.toInt.toNat ≠ 0 := by omega
  have hport := (parseU16_iff_atoi hzero).mpr ⟨v, hv, hnat, by omega⟩
  have hhost : h ≠ [] := by
    rintro rfl
    exact hne rfl
  exact ⟨_, Client.validateHostPort_ok.mpr
    ⟨h, p, hparts.client, Client.checkParts_ok.mpr ⟨hhost, hport, hzero, rfl⟩⟩⟩

end Agreement

/-- The clients accept the same addresses, and read the same host and port, if and only if the
address is not a host with a stray bracket in front of the number of a port. -/
theorem host_port_agreement (address : String) :
    (((∃ r, Client.validateHostPort address = .ok r) ↔ validateHostPort address = .ok ()) ∧
      ∀ host port, Client.validateHostPort address = .ok (host, port) →
        ∃ text v, splitHostPort address = .ok (host, text) ∧ Exec.atoi text = some v ∧
          v.toInt = port) ↔
    ∀ h p n, Client.Parts address.toList h p → h ≠ [] → Client.parseU16 p = some n → n ≠ 0 →
      '[' ∉ h ∧ ']' ∉ h := by
  constructor
  · rintro ⟨-, hsame⟩ h p n hparts hne hport hzero
    have hok : Client.validateHostPort address = .ok (String.ofList h, n) :=
      Client.validateHostPort_ok.mpr
        ⟨h, p, hparts, Client.checkParts_ok.mpr ⟨hne, hport, hzero, rfl⟩⟩
    obtain ⟨text, v, hsplit, -, -⟩ := hsame _ _ hok
    obtain ⟨h', p', hparts', heq, -⟩ := splitHostPort_ok.mp hsplit
    rw [String.ofList_inj.mp heq]
    exact hparts'.host
  · intro hhost
    have haccepts : ∀ host port, Client.validateHostPort address = .ok (host, port) →
        validateHostPort address = .ok () ∧ ∃ text v, splitHostPort address = .ok (host, text) ∧
          Exec.atoi text = some v ∧ v.toInt = port := by
      intro host port hok
      obtain ⟨h, p, hparts, hcheck⟩ := Client.validateHostPort_ok.mp hok
      obtain ⟨hne, hport, hzero, rfl⟩ := Client.checkParts_ok.mp hcheck
      obtain ⟨hgo, v, hsplit, hv⟩ := accepts_of_unbracketed hparts hne hport hzero
        (hhost h p port hparts hne hport hzero)
      exact ⟨hgo, _, v, hsplit, hv⟩
    refine ⟨⟨?_, client_of_accepts⟩, fun host port hok => (haccepts host port hok).2⟩
    rintro ⟨⟨host, port⟩, hok⟩
    exact (haccepts host port hok).1

/-- A bracket that closes nothing: a host for the Rust client, an error for the Go client. -/
theorem host_port_stray_bracket :
    Client.validateHostPort "a]:80" = .ok ("a]", 80) ∧
      validateHostPort "a]:80" =
        .error "must be a valid host:port: address a]:80: unexpected ']' in address" := by
  decide +kernel

end WsClient
end Montray
