/-!
# Quoted strings

The text of a string between its quotes. A quote, a backslash and the control characters are
escaped; every other character stands for itself. A reader also takes escapes for code units, in
pairs where the character needs two.

* `StringPart.quote`: a string with its quotes.
* `StringPart.scan?`: the parts of a string up to its closing quote.
* `StringPart.assemble?`: the characters that parts spell.
-/

namespace SignalPipeline

/-- One part of a string between its quotes. -/
inductive StringPart where
  | char (c : Char)
  /-- A code unit written as an escape. -/
  | escaped (unit : Nat)
  deriving Repr, DecidableEq

namespace StringPart

/-- Whether a code unit opens a surrogate pair. -/
def isHighSurrogate (unit : Nat) : Bool :=
  0xd800 ≤ unit && unit < 0xdc00

/-- Whether a code unit closes a surrogate pair. -/
def isLowSurrogate (unit : Nat) : Bool :=
  0xdc00 ≤ unit && unit < 0xe000

/-- The characters that parts spell; none if half of a surrogate pair stands alone. -/
def assemble? : List StringPart → Option (List Char)
  | [] => some []
  | .char c :: ps => (assemble? ps).map (c :: ·)
  | .escaped u :: .escaped v :: ps =>
    if isHighSurrogate u then
      if isLowSurrogate v then
        (assemble? ps).map (Char.ofNat (0x10000 + (u - 0xd800) * 0x400 + (v - 0xdc00)) :: ·)
      else none
    else if isLowSurrogate u then none
    else (assemble? (.escaped v :: ps)).map (Char.ofNat u :: ·)
  | .escaped u :: ps =>
    if isHighSurrogate u || isLowSurrogate u then none
    else (assemble? ps).map (Char.ofNat u :: ·)

/-- The value of a hexadecimal digit. -/
def hexValue? (c : Char) : Option Nat :=
  if c.isDigit then some (c.toNat - '0'.toNat)
  else if 'a' ≤ c && c ≤ 'f' then some (c.toNat - 'a'.toNat + 10)
  else if 'A' ≤ c && c ≤ 'F' then some (c.toNat - 'A'.toNat + 10)
  else none

/-- The value of four hexadecimal digits. -/
def hexUnit? (a b c d : Char) : Option Nat := do
  some ((((← hexValue? a) * 16 + (← hexValue? b)) * 16 + (← hexValue? c)) * 16 + (← hexValue? d))

/-- The short escapes and what they stand for. -/
def shortEscape? : Char → Option Char
  | '"' => some '"'
  | '\\' => some '\\'
  | '/' => some '/'
  | 'b' => some '\x08'
  | 'f' => some '\x0c'
  | 'n' => some '\n'
  | 'r' => some '\r'
  | 't' => some '\t'
  | _ => none

/-- The parts of a string up to its closing quote, and what follows; control characters have to be
escaped. -/
def scan? : List Char → Option (List StringPart × List Char)
  | [] => none
  | '"' :: r => some ([], r)
  | '\\' :: 'u' :: a :: b :: c :: d :: r => do
    let u ← hexUnit? a b c d
    let (ps, r) ← scan? r
    some (.escaped u :: ps, r)
  | '\\' :: e :: r => do
    let c ← shortEscape? e
    let (ps, r) ← scan? r
    some (.char c :: ps, r)
  | c :: r =>
    if c.toNat < 0x20 || c == '\\' then none
    else do
      let (ps, r) ← scan? r
      some (.char c :: ps, r)

theorem scan?_length {cs r : List Char} {ps : List StringPart} (h : scan? cs = some (ps, r)) :
    r.length < cs.length := by
  fun_induction scan? cs generalizing ps r with
  | case1 => simp at h
  | case2 => simp_all
  | case3 a b c d r' ih =>
    simp only [Option.bind_eq_bind, Option.bind_eq_some_iff] at h
    obtain ⟨u, -, ⟨qs, r''⟩, hs, he⟩ := h
    have := ih hs
    simp only [Option.some.injEq, Prod.mk.injEq] at he
    obtain ⟨-, rfl⟩ := he
    simp only [List.length_cons]
    omega
  | case4 e r' hne ih =>
    simp only [Option.bind_eq_bind, Option.bind_eq_some_iff] at h
    obtain ⟨u, -, ⟨qs, r''⟩, hs, he⟩ := h
    have := ih hs
    simp only [Option.some.injEq, Prod.mk.injEq] at he
    obtain ⟨-, rfl⟩ := he
    simp only [List.length_cons]
    omega
  | case5 => simp_all
  | case6 c r' _ _ _ _ ih =>
    simp only [Option.bind_eq_bind, Option.bind_eq_some_iff] at h
    obtain ⟨⟨qs, r''⟩, hs, he⟩ := h
    have := ih hs
    simp only [Option.some.injEq, Prod.mk.injEq] at he
    obtain ⟨-, rfl⟩ := he
    simp only [List.length_cons]
    omega

/-- The short escape of a character, if it has one. -/
def escapeChar (c : Char) : List Char :=
  if c == '"' then ['\\', '"']
  else if c == '\\' then ['\\', '\\']
  else if c == '\x08' then ['\\', 'b']
  else if c == '\x0c' then ['\\', 'f']
  else if c == '\n' then ['\\', 'n']
  else if c == '\r' then ['\\', 'r']
  else if c == '\t' then ['\\', 't']
  else if c.toNat < 0x20 then
    ['\\', 'u', '0', '0', Nat.digitChar (c.toNat / 16), Nat.digitChar (c.toNat % 16)]
  else [c]

/-- A string between quotes: only quotes, backslashes and control characters are escaped. -/
def quote (s : List Char) : List Char :=
  '"' :: s.flatMap escapeChar ++ ['"']

end StringPart

end SignalPipeline
