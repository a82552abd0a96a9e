import Montray.Lib.Keyed

/-!
# Montray.Lib.Json

JSON values, and records that keep the members they do not know.

An object is the list of its members as they stand in the document, so a name may occur twice. A
float is its text.

* `field`: the member with a name, which may not occur twice.
* `part`: a field of a record, by its name in an object or by its place in an array.
* `member`, `descend`: the value of a member, and the one at the end of a path of members.
* `Extra`: the members outside a list of known names.
* `field_append_extra`, `ofMembers_append_extra`: writing a record's own members before its extra
  ones, each is read back.
-/

namespace Montray
namespace Lib

inductive Json where
  | null
  | bool (b : Bool)
  | int (n : Int)
  | float (text : String)
  | str (s : String)
  | arr (items : List Json)
  | obj (members : List (String × Json))

namespace Json

abbrev Members := List (String × Json)

/-- The value of the member `name`, if there is one; no result if there are several. -/
def field (members : Members) (name : String) : Option (Option Json) :=
  match members.filter fun p => p.1 = name with
  | [] => some none
  | [p] => some (some p.2)
  | _ => none

/-- A member that may be missing. -/
def optional {α : Type} (read : Json → Option α) (default : α) : Option Json → Option α
  | none => some default
  | some j => read j

/-- A member that must be there. -/
def required {α : Type} (read : Json → Option α) (o : Option Json) : Option α := o.bind read

@[simp] theorem optional_some {α : Type} (read : Json → Option α) (default : α) (j : Json) :
    optional read default (some j) = read j := rfl

@[simp] theorem optional_none {α : Type} (read : Json → Option α) (default : α) :
    optional read default none = some default := rfl

@[simp] theorem required_some {α : Type} (read : Json → Option α) (j : Json) :
    required read (some j) = read j := rfl

/-! ## Records read from a value

In a value, as opposed to a text, the last of several members with a name has replaced the others. -/

/-- A field of a record: by name from an object, by position from an array. -/
def part (name : String) (index : Nat) : Json → Option Json
  | .obj members => (KeyMap.ofEntries members)[name]?
  | .arr items => items[index]?
  | _ => none

/-- What a record of `arity` fields may be read from. -/
def isRecord (arity : Nat) : Json → Bool
  | .obj _ => true
  | .arr items => items.length ≤ arity
  | _ => false

@[simp] theorem part_null (name : String) (index : Nat) : part name index .null = none := rfl

theorem part_obj (name : String) (index : Nat) (members : Members) :
    part name index (.obj members) =
      (members.reverse.find? fun p => p.1 = name).map Prod.snd :=
  KeyMap.ofEntries_lookup members name

/-- A member that does not occur twice is the field of that name. -/
theorem part_of_field {members : Members} {name : String} (index : Nat) {o : Option Json}
    (h : field members name = some o) : part name index (.obj members) = o := by
  rw [part_obj, ← List.head?_filter, List.filter_reverse]
  unfold field at h
  split at h
  · rename_i hnil
    cases h
    rw [hnil]
    rfl
  · rename_i p hone
    cases h
    rw [hone]
    rfl
  · cases h

/-- Reading every element of a list. -/
theorem mapM_eq_some_iff {α β : Type} {read : α → Option β} {l : List α} {l' : List β} :
    l.mapM read = some l' ↔ List.Forall₂ (fun a b => read a = some b) l l' := by
  induction l generalizing l' with
  | nil => simp [eq_comm]
  | cons a l ih =>
    simp only [List.mapM_cons, Option.bind_eq_bind, Option.bind_eq_some_iff, Option.pure_def,
      Option.some.injEq, List.forall₂_cons_left_iff, ih]
    constructor
    · rintro ⟨b, hb, bs, hbs, rfl⟩
      exact ⟨b, bs, hb, hbs, rfl⟩
    · rintro ⟨b, bs, hb, hbs, rfl⟩
      exact ⟨b, hb, bs, hbs, rfl⟩

/-! ## Members of a value -/

def member (name : String) : Json → Option Json
  | .obj members => (KeyMap.ofEntries members)[name]?
  | _ => none

/-- The value that a path of members leads to. -/
def descend : List String → Json → Option Json
  | [], j => some j
  | name :: path, j => (member name j).bind (descend path)

theorem member_of_field {members : Members} {name : String} {o : Option Json}
    (h : field members name = some o) : member name (.obj members) = o :=
  part_of_field 0 h

/-- The members of a record that are not among its `known` ones. -/
structure Extra (known : List String) where
  members : KeyMap Json
  unknown : ∀ k ∈ known, members[k]? = none

namespace Extra

variable {known : List String}

def empty : Extra known := ⟨∅, by simp⟩

def ofMembers (known : List String) (members : Members) : Extra known where
  members := KeyMap.ofEntries (members.filter fun p => p.1 ∉ known)
  unknown := by
    intro k hk
    apply KeyMap.ofEntries_lookup_none
    rintro p hp rfl
    simp [hk] at hp

theorem ext {e e' : Extra known} (h : e.members = e'.members) : e = e' := by
  cases e
  cases e'
  simp_all

theorem mem_toList_unknown (e : Extra known) {p : String × Json} (hp : p ∈ e.members.toList) :
    p.1 ∉ known := by
  intro hk
  have hnone := e.unknown p.1 hk
  rw [KeyMap.mem_toList.mp hp] at hnone
  cases hnone

variable (e : Extra known) {named : Members}

/-- A known member is not looked for among the extra ones. -/
theorem field_append_extra {name : String} (hname : name ∈ known) :
    field (named ++ e.members.toList) name = field named name := by
  have hnone : (e.members.toList.filter fun p => p.1 = name) = [] := by
    rw [List.filter_eq_nil_iff]
    intro p hp heq
    exact e.mem_toList_unknown hp (by simpa using of_decide_eq_true heq ▸ hname)
  simp [field, List.filter_append, hnone]

/-- The extra members are read back from behind the known ones. -/
theorem ofMembers_append_extra (hnamed : ∀ p ∈ named, p.1 ∈ known) :
    ofMembers known (named ++ e.members.toList) = e := by
  apply ext
  have hnone : (named.filter fun p => p.1 ∉ known) = [] := by
    rw [List.filter_eq_nil_iff]
    intro p hp
    simpa using hnamed p hp
  have hall : (e.members.toList.filter fun p => p.1 ∉ known) = e.members.toList := by
    rw [List.filter_eq_self]
    intro p hp
    simpa using e.mem_toList_unknown hp
  simp only [ofMembers, List.filter_append, hnone, hall, List.nil_append]
  exact KeyMap.ofEntries_toList e.members

/-- A record keeps the members that it does not know. -/
theorem ofMembers_lookup {name : String} (hname : name ∉ known) (members : Members) :
    (ofMembers known members).members[name]? = member name (.obj members) := by
  have hfind : ∀ l : Members, (l.filter fun p => p.1 ∉ known).find? (fun p => p.1 = name) =
      l.find? fun p => p.1 = name := by
    intro l
    induction l with
    | nil => rfl
    | cons p l ih =>
      by_cases hp : p.1 = name
      · simp [hp, hname]
      · by_cases hk : p.1 ∈ known <;> simpa [List.filter_cons, hk, hp] using ih
  simp only [ofMembers, member, KeyMap.ofEntries_lookup, ← List.filter_reverse, hfind]

end Extra

end Json
end Lib
end Montray
