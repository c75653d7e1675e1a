import SignalPipeline.Json.Basic
import SignalPipeline.Json.Token

/-!
# JSON texts of values

Two layouts of a value: compact, without white space, and indented, one item or member a line.
Both have the same tokens; members are written in the order in which the object lists them.

* `Json.tokens`: the tokens of a value.
* `Json.compact`: the tokens next to one another.
* `Json.indented`: two spaces a level, and an empty container without a line of its own.
-/

namespace SignalPipeline.Json

/-! ## Tokens -/

mutual

/-- The tokens of a value. -/
def tokens : Json → List Token
  | .null => [.null]
  | .bool b => [.bool b]
  | .number n => [.number (some n)]
  | .string s => [.string (some s)]
  | .array [] => [.openArray, .closeArray]
  | .array (v :: vs) => .openArray :: (tokens v ++ itemTokens vs)
  | .object [] => [.openObject, .closeObject]
  | .object ((key, v) :: rest) =>
    .openObject :: .string (some key) :: .colon :: (tokens v ++ memberTokens rest)

/-- The tokens of the items after the first one, and the end of the array. -/
def itemTokens : List Json → List Token
  | [] => [.closeArray]
  | v :: vs => .comma :: (tokens v ++ itemTokens vs)

/-- The tokens of the members after the first one, and the end of the object. -/
def memberTokens : List (String × Json) → List Token
  | [] => [.closeObject]
  | (key, v) :: rest =>
    .comma :: .string (some key) :: .colon :: (tokens v ++ memberTokens rest)

end

/-- The text of a value without white space. -/
def compact (v : Json) : String :=
  String.ofList (v.tokens.flatMap Token.chars)

/-! ## The indented layout -/

/-- A new line at a level. -/
def newLine (level : Nat) : List Char :=
  '\n' :: List.replicate (2 * level) ' '

/-- A key, a colon and a space. -/
def keyChars (key : String) : List Char :=
  StringPart.quote key.toList ++ [':', ' ']

mutual

/-- The text of a value at a level. -/
def indentedChars (level : Nat) : Json → List Char
  | .array (v :: vs) =>
    '[' :: (newLine (level + 1) ++ indentedChars (level + 1) v ++ indentedItems level vs)
  | .object ((key, v) :: rest) =>
    '\x7b' :: (newLine (level + 1) ++ keyChars key ++ indentedChars (level + 1) v ++
      indentedMembers level rest)
  | .array [] => ['[', ']']
  | .object [] => ['\x7b', '\x7d']
  | .null => Token.chars .null
  | .bool b => Token.chars (.bool b)
  | .number n => Token.chars (.number (some n))
  | .string s => Token.chars (.string (some s))

/-- The text of the items after the first one, and the end of the array. -/
def indentedItems (level : Nat) : List Json → List Char
  | [] => newLine level ++ [']']
  | v :: vs =>
    ',' :: (newLine (level + 1) ++ indentedChars (level + 1) v ++ indentedItems level vs)

/-- The text of the members after the first one, and the end of the object. -/
def indentedMembers (level : Nat) : List (String × Json) → List Char
  | [] => newLine level ++ ['\x7d']
  | (key, v) :: rest =>
    ',' :: (newLine (level + 1) ++ keyChars key ++ indentedChars (level + 1) v ++
      indentedMembers level rest)

end

/-- The text of a value with one item or member a line. -/
def indented (v : Json) : String :=
  String.ofList (v.indentedChars 0)

end SignalPipeline.Json
