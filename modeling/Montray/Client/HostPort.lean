import Montray.Client.Config

/-!
# Montray.Client.HostPort

The two parsers of an address: `validate_host_port` of the configuration, and `split_host_port` of
the connection, which relies on it.

The text of the standard library's error for a number is left to a parameter.

* `validateHostPort_ok`: the addresses that are accepted, as texts.
* `splitHostPort_of_validate`: on these the parsers agree.
-/

namespace Montray
namespace Client

/-- `split_host_port`. -/
def splitHostPort (parseIntError : List Char → String) (address : String) :
    Except Chain (String × Nat) := do
  let (host, port) ← match address.toList with
    | '[' :: rest =>
      match splitOnce [']', ':'] rest with
      | none => bail "address must be host:port"
      | some parts => pure parts
    | chars =>
      match rsplitOnce ':' chars with
      | none => bail "address must be host:port"
      | some parts => pure parts
  match parseU16 port with
  | none => .error ["address port is invalid", parseIntError port]
  | some port => pure (String.ofList host, port)

/-! ## Splitting -/

theorem splitOnce_append {sep l a b : List Char} (h : splitOnce sep l = some (a, b)) :
    l = a ++ sep ++ b := by
  induction l generalizing a with
  | nil =>
    unfold splitOnce at h
    split at h
    · rename_i hsep
      cases h
      rw [hsep]
      rfl
    · cases h
  | cons c l ih =>
    unfold splitOnce at h
    split at h
    · rename_i hpre
      cases h
      rw [List.nil_append]
      exact (List.prefix_iff_eq_append.mp (List.isPrefixOf_iff_prefix.mp hpre)).symm
    · obtain ⟨p, hp, heq⟩ := Option.map_eq_some_iff.mp h
      cases heq
      rw [ih hp]
      simp

/-- A separator whose first character is not in what is before it. -/
theorem splitOnce_of_not_mem {c : Char} {sep a b : List Char} (h : c ∉ a) :
    splitOnce (c :: sep) (a ++ (c :: sep) ++ b) = some (a, b) := by
  induction a with
  | nil => simp [splitOnce]
  | cons x a ih =>
    rw [List.mem_cons, not_or] at h
    have hno : (c :: sep).isPrefixOf (x :: (a ++ (c :: sep) ++ b)) = false := by
      simp [List.isPrefixOf, h.1]
    rw [List.cons_append, List.cons_append, splitOnce, hno, ih h.2]
    rfl

theorem rsplitOnce_eq_none {c : Char} {l : List Char} : rsplitOnce c l = none ↔ c ∉ l := by
  induction l with
  | nil => simp [rsplitOnce]
  | cons x l ih =>
    rw [List.mem_cons, not_or, ← ih, rsplitOnce]
    cases rsplitOnce c l with
    | some p => simp
    | none => simp [eq_comm]

theorem rsplitOnce_of_not_mem {c : Char} {a b : List Char} (h : c ∉ b) :
    rsplitOnce c (a ++ c :: b) = some (a, b) := by
  induction a with
  | nil => simp only [List.nil_append, rsplitOnce, rsplitOnce_eq_none.mpr h, if_true]
  | cons x a ih => simp only [List.cons_append, rsplitOnce, ih]

theorem rsplitOnce_append {c : Char} {l a b : List Char} (h : rsplitOnce c l = some (a, b)) :
    l = a ++ c :: b ∧ c ∉ b := by
  induction l generalizing a with
  | nil => cases h
  | cons x l ih =>
    rw [rsplitOnce] at h
    cases hl : rsplitOnce c l with
    | some p =>
      simp only [hl, Option.some.injEq, Prod.mk.injEq] at h
      obtain ⟨rfl, rfl⟩ := h
      obtain ⟨hsplit, hno⟩ := ih hl
      exact ⟨congrArg (x :: ·) hsplit, hno⟩
    | none =>
      simp only [hl, Option.ite_none_right_eq_some, Option.some.injEq, Prod.mk.injEq] at h
      obtain ⟨rfl, rfl, rfl⟩ := h
      exact ⟨rfl, rsplitOnce_eq_none.mp hl⟩

/-- The host and the port of an address, as texts. -/
def Parts (address host port : List Char) : Prop :=
  (∃ rest, address = '[' :: rest ∧ splitOnce [']', ':'] rest = some (host, port)) ∨
    address.head? ≠ some '[' ∧ address = host ++ ':' :: port ∧ ':' ∉ host ∧ ':' ∉ port

/-! ## Numbers -/

theorem unsigned_eq_self {cs : List Char} (h : '+' ∉ cs) : unsigned cs = cs := by
  unfold unsigned
  split
  · exact absurd List.mem_cons_self h
  · rfl

theorem parseU16_eq_some {cs : List Char} {n : Nat} :
    parseU16 cs = some n ↔ unsigned cs ≠ [] ∧ (unsigned cs).all Char.isDigit = true ∧
      digitsValue (unsigned cs) = n ∧ n < 2 ^ 16 := by
  rw [parseU16, Option.ite_none_right_eq_some, Option.some.injEq]
  constructor
  · rintro ⟨⟨hne, hdigits, hlt⟩, rfl⟩
    exact ⟨hne, hdigits, rfl, hlt⟩
  · rintro ⟨hne, hdigits, rfl, hlt⟩
    exact ⟨⟨hne, hdigits, hlt⟩, rfl⟩

theorem digitsValue_eq (cs : List Char) : digitsValue cs = Nat.ofDigitChars 10 cs 0 := by
  unfold digitsValue Nat.ofDigitChars
  congr 1
  funext n c
  rw [Nat.mul_comm]

theorem mem_unsigned {cs : List Char} {c : Char} (h : c ∈ cs) : c ∈ unsigned cs ∨ c = '+' := by
  unfold unsigned
  split
  · exact (List.mem_cons.mp h).symm
  · exact .inl h

/-- The characters of a number. -/
theorem mem_of_parseU16 {cs : List Char} {n : Nat} (h : parseU16 cs = some n) {c : Char}
    (hc : c ∈ cs) : c.isDigit = true ∨ c = '+' := by
  obtain ⟨-, hdigits, -, -⟩ := parseU16_eq_some.mp h
  exact (mem_unsigned hc).imp_left (List.all_eq_true.mp hdigits c)

theorem parseU16_toDigits {n : Nat} (h : n < 2 ^ 16) : parseU16 (Nat.toDigits 10 n) = some n := by
  have hdigits : ∀ c ∈ Nat.toDigits 10 n, c.isDigit = true := fun c hc =>
    Nat.isDigit_of_mem_toDigits (by decide) (by decide) hc
  have hself : unsigned (Nat.toDigits 10 n) = Nat.toDigits 10 n :=
    unsigned_eq_self fun hmem => absurd (hdigits '+' hmem) (by decide)
  rw [parseU16_eq_some, hself]
  refine ⟨Nat.toDigits_ne_nil, List.all_eq_true.mpr hdigits, ?_, h⟩
  rw [digitsValue_eq, Nat.ofDigitChars_ten_toDigits]

/-! ## What is accepted -/

theorem checkParts_ok {h p : List Char} {host : String} {port : Nat} :
    checkParts h p = .ok (host, port) ↔
      h ≠ [] ∧ parseU16 p = some port ∧ port ≠ 0 ∧ host = String.ofList h := by
  unfold checkParts
  by_cases hh : h = []
  · simp [hh, bail]
  · rw [if_neg hh]
    cases hp : parseU16 p with
    | none => simp [bail]
    | some n =>
      by_cases hn : n = 0
      · subst hn
        have hnone : (some 0).filter (fun n : Nat => decide (n ≠ 0)) = none := rfl
        rw [hnone]
        refine iff_of_false (by simp [bail]) ?_
        rintro ⟨-, hport, hne, -⟩
        cases hport
        exact hne rfl
      · simp only [Option.filter_some, hn, hh, ne_eq, not_false_eq_true, decide_true, if_true,
          pure, Except.pure, Except.ok.injEq, Prod.mk.injEq, Option.some.injEq, true_and]
        constructor
        · rintro ⟨rfl, rfl⟩
          exact ⟨rfl, hn, rfl⟩
        · rintro ⟨rfl, -, rfl⟩
          exact ⟨rfl, rfl⟩

section Address

variable {address : String} {h p : List Char}

theorem validateHostPort_of_parts (hparts : Parts address.toList h p) :
    validateHostPort address = checkParts h p := by
  unfold validateHostPort
  rcases hparts with ⟨rest, hl, hs⟩ | ⟨hfirst, hl, hhost, hport⟩
  · simp only [hl, hs]
    rfl
  · have hs := rsplitOnce_of_not_mem (a := h) hport
    rw [← hl] at hs
    split
    · rename_i rest heq
      rw [heq] at hfirst
      exact absurd rfl hfirst
    · simp only [hs, hhost, if_false]
      rfl

theorem splitHostPort_of_parts (parseIntError : List Char → String)
    (hparts : Parts address.toList h p) {port : Nat} (hport : parseU16 p = some port) :
    splitHostPort parseIntError address = .ok (String.ofList h, port) := by
  unfold splitHostPort
  rcases hparts with ⟨rest, hl, hs⟩ | ⟨hfirst, hl, -, hcolon⟩
  · simp only [hl, hs, pure_bind, hport]
    rfl
  · have hs := rsplitOnce_of_not_mem (a := h) hcolon
    rw [← hl] at hs
    split
    · rename_i rest heq
      rw [heq] at hfirst
      exact absurd rfl hfirst
    · simp only [hs, pure_bind, hport]
      rfl

theorem exists_parts {r : String × Nat} (hok : validateHostPort address = .ok r) :
    ∃ h p, Parts address.toList h p := by
  unfold validateHostPort at hok
  split at hok
  · rename_i rest hl
    cases hs : splitOnce [']', ':'] rest with
    | none =>
      rw [hs] at hok
      cases hok
    | some parts => exact ⟨parts.1, parts.2, .inl ⟨rest, hl, hs⟩⟩
  · rename_i hl
    cases hs : rsplitOnce ':' address.toList with
    | none =>
      rw [hs] at hok
      cases hok
    | some parts =>
      obtain ⟨hsplit, hport⟩ := rsplitOnce_append hs
      refine ⟨parts.1, parts.2, .inr ⟨?_, hsplit, ?_, hport⟩⟩
      · intro hhead
        obtain ⟨rest, heq⟩ := List.head?_eq_some_iff.mp hhead
        exact hl rest heq
      · intro hcolon
        simp only [hs, hcolon, if_true] at hok
        cases hok

theorem validateHostPort_ok {host : String} {port : Nat} :
    validateHostPort address = .ok (host, port) ↔
      ∃ h p, Parts address.toList h p ∧ checkParts h p = .ok (host, port) := by
  constructor
  · intro hok
    obtain ⟨h, p, hparts⟩ := exists_parts hok
    exact ⟨h, p, hparts, (validateHostPort_of_parts hparts).symm.trans hok⟩
  · rintro ⟨h, p, hparts, hcheck⟩
    exact (validateHostPort_of_parts hparts).trans hcheck

/-- The connection reads the host and the port that were validated. -/
theorem splitHostPort_of_validate (parseIntError : List Char → String) {host : String} {port : Nat}
    (hok : validateHostPort address = .ok (host, port)) :
    splitHostPort parseIntError address = .ok (host, port) ∧ port ≠ 0 := by
  obtain ⟨h, p, hparts, hcheck⟩ := validateHostPort_ok.mp hok
  obtain ⟨-, hport, hne, rfl⟩ := checkParts_ok.mp hcheck
  exact ⟨splitHostPort_of_parts parseIntError hparts hport, hne⟩

end Address

end Client
end Montray
