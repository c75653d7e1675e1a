import SignalPipeline.Json.Number

/-!
# JSON values

The values that handlers, nodes and providers exchange. An object is a list of members; every
function that builds a value from a text or from a set of keys lists the members with ascending
keys, each once (`Json.Canonical`).

* `Json.object`: an object from members in any order; the last of equal keys wins.
* `Json.canonicalize`: the same value with sorted members at every level.
* `Json.Canonical`: the values that are their own canonical form.
-/

namespace SignalPipeline

/-- A JSON value. -/
inductive Json where
  | null
  | bool (b : Bool)
  | number (n : Number)
  | string (s : String)
  | array (items : List Json)
  | object (members : List (String × Json))

/-- A member of an object. -/
abbrev Member := String × Json

/-! ## Members by key -/

/-- Puts a member into members with ascending keys, in place of one with the same key. -/
def insertMember {α : Type} (key : String) (value : α) : List (String × α) → List (String × α)
  | [] => [(key, value)]
  | (k, v) :: rest =>
    if key < k then (key, value) :: (k, v) :: rest
    else if key = k then (key, value) :: rest
    else (k, v) :: insertMember key value rest

/-- Members in ascending order of their keys; the last of equal keys wins. -/
def sortMembers {α : Type} (members : List (String × α)) : List (String × α) :=
  members.foldl (fun sorted (k, v) => insertMember k v sorted) []

/-- The keys ascend, so none repeats. -/
def Ascending {α : Type} (members : List (String × α)) : Prop :=
  (members.map Prod.fst).Pairwise (· < ·)

namespace Json

instance : Inhabited Json := ⟨.null⟩

/-- An object from members in any order; the last of equal keys wins. -/
def ofMembers (members : List Member) : Json :=
  .object (sortMembers members)

/-- A whole number. -/
def ofNat (n : Nat) : Json :=
  .number (.integer n)

/-- A float; one that is not finite has no literal and becomes null. -/
def ofFloat (x : Float) : Json :=
  if x.isFinite then .number (.real x) else .null

/-- A list of texts. -/
def ofStrings (ss : List String) : Json :=
  .array (ss.map .string)

/-- A text or null. -/
def ofString? : Option String → Json
  | none => .null
  | some s => .string s

/-- The member of an object with a key. -/
def member? (key : String) : Json → Option Json
  | .object members => members.lookup key
  | _ => none

/-- The member of an object with a key; null where there is none. -/
def member (key : String) (v : Json) : Json :=
  (v.member? key).getD .null

/-! ## Equality

Floats are compared as numbers, so that `0.0` equals `-0.0`; an integer equals no float. -/

mutual

/-- Equality of values. -/
def same : Json → Json → Bool
  | .null, .null => true
  | .bool a, .bool b => a == b
  | .number a, .number b => a == b
  | .string a, .string b => a == b
  | .array a, .array b => sameItems a b
  | .object a, .object b => sameMembers a b
  | _, _ => false

/-- Equality of lists of values. -/
def sameItems : List Json → List Json → Bool
  | [], [] => true
  | a :: as, b :: bs => same a b && sameItems as bs
  | _, _ => false

/-- Equality of lists of members. -/
def sameMembers : List (String × Json) → List (String × Json) → Bool
  | [], [] => true
  | (k, a) :: as, (l, b) :: bs => k == l && same a b && sameMembers as bs
  | _, _ => false

end

instance : BEq Json := ⟨same⟩

/-! ## The canonical form -/

mutual

/-- The same value with ascending members at every level. -/
def canonicalize : Json → Json
  | .array items => .array (canonicalizeItems items)
  | .object members => .object (sortMembers (canonicalizeMembers members))
  | v => v

/-- Canonical forms of the items of an array. -/
def canonicalizeItems : List Json → List Json
  | [] => []
  | v :: vs => canonicalize v :: canonicalizeItems vs

/-- Canonical forms of the values of members, in the same order. -/
def canonicalizeMembers : List (String × Json) → List (String × Json)
  | [] => []
  | (k, v) :: rest => (k, canonicalize v) :: canonicalizeMembers rest

end

/-- Values with valid numbers and ascending members at every level. -/
inductive Canonical : Json → Prop where
  | null : Canonical .null
  | bool (b : Bool) : Canonical (.bool b)
  | number {n : Number} (valid : n.Valid) : Canonical (.number n)
  | string (s : String) : Canonical (.string s)
  | array {items : List Json} (each : ∀ v ∈ items, Canonical v) : Canonical (.array items)
  | object {members : List Member} (each : ∀ m ∈ members, Canonical m.2)
      (ascending : Ascending members) : Canonical (.object members)

/-- How deep arrays and objects are nested. -/
def depth : Json → Nat
  | .array items => 1 + depthItems items
  | .object members => 1 + depthMembers members
  | _ => 0
where
  depthItems : List Json → Nat
    | [] => 0
    | v :: vs => max (depth v) (depthItems vs)
  depthMembers : List (String × Json) → Nat
    | [] => 0
    | (_, v) :: rest => max (depth v) (depthMembers rest)

end Json

end SignalPipeline
