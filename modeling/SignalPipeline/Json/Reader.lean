import SignalPipeline.Json.Document

/-!
# Reading records from documents

A reader turns a document into a value of a domain type or says why it cannot. A record is read
from an object: each field at most once under any of its names, other members ignored. It is also
read from an array that lists the fields in order.

* `Read.record`: the documents of a record's fields.
* `Slots.required`, `Slots.defaulted`, `Slots.optional`: one field of a record.
* `ReadError.message`: the text of an error.
-/

namespace SignalPipeline

/-- Why a document is not the record it should be. -/
inductive ReadError where
  | missing (field : String)
  | repeated (field : String)
  | unexpected (found expected : String)
  | unknownName (name expected : String)
  | wrongLength (length : Nat) (expected : String)
  | unreadable
  | malformedTimestamp
  deriving Repr, DecidableEq

namespace ReadError

/-- A name between grave accents. -/
def marked (name : String) : String :=
  "`" ++ name ++ "`"

/-- The text of an error. -/
def message : ReadError → String
  | missing field => "missing field " ++ marked field
  | repeated field => "duplicate field " ++ marked field
  | unexpected found expected => s!"invalid type: {found}, expected {expected}"
  | unknownName name expected => s!"unknown variant {marked name}, expected {expected}"
  | wrongLength length expected => s!"invalid length {length}, expected {expected}"
  | unreadable => "unreadable part"
  | malformedTimestamp => "input contains invalid characters"

end ReadError

/-- A reader of a domain type. -/
abbrev Reader (α : Type) := Document → Except ReadError α

namespace Read

/-- What a document is, in the words of an error. -/
def describe : Document → String
  | .null => "null"
  | .bool b => "boolean " ++ ReadError.marked (toString b)
  | .number (.integer i) => "integer " ++ ReadError.marked (toString i)
  | .number n => "floating point " ++ ReadError.marked n.text
  | .string s => "string " ++ String.ofList (StringPart.quote s.toList)
  | .unreadable => "unreadable part"
  | .array _ => "sequence"
  | .object _ => "map"

/-- The error for a document of another kind. -/
def mismatch {α : Type} (expected : String) : Reader α
  | .unreadable => throw .unreadable
  | d => throw (.unexpected (describe d) expected)

/-! ## Plain values -/

/-- Any value. -/
def value : Reader Json := fun d =>
  match d.value? with
  | some v => pure v
  | none => throw .unreadable

/-- A text. -/
def string : Reader String
  | .string s => pure s
  | d => mismatch "a string" d

/-- A truth value. -/
def bool : Reader Bool
  | .bool b => pure b
  | d => mismatch "a boolean" d

/-- A float; an integer counts as one. -/
def float : Reader Float
  | .number n => pure n.toFloat
  | d => mismatch "f64" d

/-- A whole number that is not negative; a float is none, even without a fraction. -/
def natural : Reader Nat
  | .number (.integer i) =>
    if 0 ≤ i then pure i.toNat else throw (.unexpected (describe (.number (.integer i))) "usize")
  | d => mismatch "usize" d

/-- A value, or null. -/
def optional {α : Type} (read : Reader α) : Reader (Option α)
  | .null => pure none
  | d => some <$> read d

/-- Items in order. -/
def list {α : Type} (read : Reader α) : Reader (List α)
  | .array items => items.mapM read
  | d => mismatch "a sequence" d

/-- Texts in order. -/
def strings : Reader (List String) := list string

/-- Two items. -/
def pair {α β : Type} (first : Reader α) (second : Reader β) : Reader (α × β)
  | .array [a, b] => do
    let a ← first a
    let b ← second b
    pure (a, b)
  | .array items => throw (.wrongLength items.length "a tuple of size 2")
  | d => mismatch "a tuple of size 2" d

/-- The members of an object; the last of repeated keys wins. -/
def members {α : Type} (read : Reader α) : Reader (List (String × α))
  | .object ms => do
    let found ← ms.mapM fun (key, d) => do
      match key with
      | some key => pure (key, ← read d)
      | none => throw .unreadable
    pure (sortMembers found)
  | d => mismatch "a map" d

/-- One of several names: a text, or an object with that name as its only key and no value. -/
def oneOf {α : Type} (expected : String) (named : String → Option α) : Reader α
  | .string name => choose name
  | .object [(some name, .null)] => choose name
  | d => mismatch expected d
where
  choose (name : String) : Except ReadError α :=
    match named name with
    | some a => pure a
    | none => throw (.unknownName name expected)

end Read

/-! ## Records -/

/-- A field of a record: its name and the other names that are read alike. -/
structure Field where
  name : String
  aliases : List String := []

/-- The documents of the fields that are present, under the first names of the fields. -/
abbrev Slots := List (String × Document)

namespace Read

/-- The first name of the field that a key names. -/
def fieldOf? (fields : List Field) (key : String) : Option String :=
  (fields.find? fun f => f.name == key || f.aliases.contains key).map Field.name

/-- The fields among members; a field that occurs twice is an error. -/
def collect (fields : List Field) (found : Slots) :
    List (Option String × Document) → Except ReadError Slots
  | [] => pure found
  | (none, _) :: _ => throw .unreadable
  | (some key, d) :: rest =>
    match fieldOf? fields key with
    | none => collect fields found rest
    | some name =>
      if (found.lookup name).isSome then throw (.repeated name)
      else collect fields (found ++ [(name, d)]) rest

/-- The documents of a record's fields, from an object only. -/
def recordObject (expected : String) (fields : List Field) : Reader Slots
  | .object members => collect fields [] members
  | d => mismatch expected d

/-- The documents of a record's fields, from an object or from an array in the order of the
fields. An array lists at least the first `least` of them. -/
def recordListing (least : Nat) (expected : String) (fields : List Field) : Reader Slots
  | .array items =>
    if least ≤ items.length ∧ items.length ≤ fields.length then
      pure ((fields.map Field.name).zip items)
    else throw (.wrongLength items.length expected)
  | d => recordObject expected fields d

/-- The documents of a record's fields, from an object or from an array that lists any number of
them in their order. -/
def record (expected : String) (fields : List Field) : Reader Slots :=
  recordListing 0 expected fields

end Read

namespace Slots

/-- A field that has to be present. -/
def required {α : Type} (slots : Slots) (field : String) (read : Reader α) : Except ReadError α :=
  match slots.lookup field with
  | some d => read d
  | none => throw (.missing field)

/-- A field with a value that stands in where it is absent. -/
def defaulted {α : Type} (slots : Slots) (field : String) (read : Reader α) (absent : α) :
    Except ReadError α :=
  match slots.lookup field with
  | some d => read d
  | none => pure absent

/-- A field that may be absent or null. -/
def optional {α : Type} (slots : Slots) (field : String) (read : Reader α) :
    Except ReadError (Option α) :=
  slots.defaulted field (Read.optional read) none

end Slots

/-! ## Whole texts and values -/

/-- Reads a record from a text. -/
def Reader.text? {α : Type} (read : Reader α) (s : String) : Option α :=
  (Document.parse? s).bind fun d => (read d).toOption

/-- Reads a record from a value. -/
def Reader.value {α : Type} (read : Reader α) (v : Json) : Except ReadError α :=
  read v.toDocument

end SignalPipeline
