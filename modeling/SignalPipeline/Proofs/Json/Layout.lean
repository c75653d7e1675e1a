import SignalPipeline.Proofs.Json.Spelling

/-!
# Both layouts have the tokens of the value

* `Layout`: a text in which tokens stand one after the other, perhaps with white space between
  them.
* `lex?_layout`: the lexer finds the tokens of a layout.
* `ReadBack`: tokens whose numbers are read back.
* `Json.lex?_compact`, `Json.lex?_indented`: the tokens of a written value are those of the value.
-/

namespace SignalPipeline

/-- A text in which tokens stand one after the other, perhaps with white space between them. -/
inductive Layout : List Token → List Char → Prop
  | done : Layout [] []
  | space (c : Char) (blank : isSpace c = true) (ts : List Token) (cs : List Char)
      (rest : Layout ts cs) : Layout ts (c :: cs)
  | token (t : Token) (ts : List Token) (cs : List Char)
      (found : Token.scan? (t.chars ++ cs) = some (t, cs)) (rest : Layout ts cs) :
      Layout (t :: ts) (t.chars ++ cs)

/-- The lexer finds the tokens of a layout. -/
theorem lex?_layout {ts : List Token} {cs : List Char} (h : Layout ts cs) :
    lex? cs = some ts := by
  induction h with
  | done => rw [lex?]
  | space c blank ts cs rest ih => rw [lex?, if_pos blank, ih]
  | token t ts cs found rest ih =>
    cases hchars : t.chars ++ cs with
    | nil =>
      rw [hchars] at found
      cases found
    | cons c r =>
      rw [hchars] at found
      have hspace : ¬ isSpace c = true := by
        intro hc
        rw [Token.scan?_space hc] at found
        cases found
      rw [lex?, if_neg hspace]
      split
      · next hnone =>
        rw [found] at hnone
        cases hnone
      · next t' r' hsome =>
        rw [found] at hsome
        cases hsome
        rw [ih]
        rfl

namespace Layout

variable {ts : List Token} {cs : List Char}

theorem string (s : String) (h : Layout ts cs) :
    Layout (.string (some s) :: ts) (StringPart.quote s.toList ++ cs) :=
  .token (.string (some s)) ts cs (Token.scan?_string s cs) h

theorem newLine (level : Nat) (h : Layout ts cs) : Layout ts (Json.newLine level ++ cs) := by
  refine .space '\n' rfl _ _ ?_
  induction 2 * level with
  | zero => exact h
  | succ n ih => exact .space ' ' rfl _ _ ih

theorem key (key : String) (h : Layout ts cs) :
    Layout (.string (some key) :: .colon :: ts) (Json.keyChars key ++ cs) := by
  rw [Json.keyChars, List.append_assoc]
  exact .string key (.token .colon ts (' ' :: cs) rfl (.space ' ' rfl _ _ h))

end Layout

/-- Every number among the tokens is read back. -/
def ReadBack (ts : List Token) : Prop :=
  ∀ n, .number (some n) ∈ ts → n.ReadsBack

theorem ReadBack.tail {t : Token} {ts : List Token} (h : ReadBack (t :: ts)) : ReadBack ts :=
  fun n hn => h n (List.mem_cons_of_mem t hn)

theorem ReadBack.split {ts us : List Token} (h : ReadBack (ts ++ us)) : ReadBack ts ∧ ReadBack us :=
  ⟨fun n hn => h n (List.mem_append_left us hn), fun n hn => h n (List.mem_append_right ts hn)⟩

namespace Json

/-! ## The indented layout -/

theorem ends_indentedItems (level : Nat) (vs : List Json) (cs : List Char) :
    Ends (indentedItems level vs ++ cs) := by
  cases vs with
  | nil => exact ends_cons rfl
  | cons v vs => exact ends_cons rfl

theorem ends_indentedMembers (level : Nat) (ms : List Member) (cs : List Char) :
    Ends (indentedMembers level ms ++ cs) := by
  cases ms with
  | nil => exact ends_cons rfl
  | cons m ms => exact ends_cons rfl

mutual

theorem layout_indented (level : Nat) : ∀ (v : Json) {ts : List Token} {cs : List Char},
    ReadBack v.tokens → Ends cs → Layout ts cs →
      Layout (v.tokens ++ ts) (v.indentedChars level ++ cs)
  | .null, ts, cs, _, _, h => .token .null ts cs rfl h
  | .bool true, ts, cs, _, _, h => .token (.bool true) ts cs rfl h
  | .bool false, ts, cs, _, _, h => .token (.bool false) ts cs rfl h
  | .number n, ts, cs, hv, hend, h =>
    .token (.number (some n)) ts cs (Token.scan?_number (hv n List.mem_cons_self) hend) h
  | .string s, _, _, _, _, h => .string s h
  | .array [], ts, cs, _, _, h =>
    .token .openArray _ _ rfl (.token .closeArray ts cs rfl h)
  | .array (v :: vs), ts, cs, hv, _, h => by
    rw [tokens] at hv ⊢
    obtain ⟨hv, hvs⟩ := hv.tail.split
    simp only [indentedChars, List.cons_append, List.append_assoc]
    exact .token .openArray _ _ rfl (.newLine _ (layout_indented (level + 1) v hv
      (ends_indentedItems level vs cs) (layout_indentedItems level vs hvs h)))
  | .object [], ts, cs, _, _, h =>
    .token .openObject _ _ rfl (.token .closeObject ts cs rfl h)
  | .object ((key, v) :: rest), ts, cs, hv, _, h => by
    rw [tokens] at hv ⊢
    obtain ⟨hv, hrest⟩ := hv.tail.tail.tail.split
    simp only [indentedChars, List.cons_append, List.append_assoc]
    exact .token .openObject _ _ rfl (.newLine _ (.key key (layout_indented (level + 1) v hv
      (ends_indentedMembers level rest cs) (layout_indentedMembers level rest hrest h))))

theorem layout_indentedItems (level : Nat) : ∀ (vs : List Json) {ts : List Token} {cs : List Char},
    ReadBack (itemTokens vs) → Layout ts cs →
      Layout (itemTokens vs ++ ts) (indentedItems level vs ++ cs)
  | [], ts, cs, _, h => by
    rw [itemTokens, indentedItems, List.append_assoc]
    exact .newLine level (.token .closeArray ts cs rfl h)
  | v :: vs, ts, cs, hv, h => by
    rw [itemTokens] at hv ⊢
    obtain ⟨hv, hvs⟩ := hv.tail.split
    simp only [indentedItems, List.cons_append, List.append_assoc]
    exact .token .comma _ _ rfl (.newLine _ (layout_indented (level + 1) v hv
      (ends_indentedItems level vs cs) (layout_indentedItems level vs hvs h)))

theorem layout_indentedMembers (level : Nat) : ∀ (ms : List Member) {ts : List Token}
    {cs : List Char}, ReadBack (memberTokens ms) → Layout ts cs →
      Layout (memberTokens ms ++ ts) (indentedMembers level ms ++ cs)
  | [], ts, cs, _, h => by
    rw [memberTokens, indentedMembers, List.append_assoc]
    exact .newLine level (.token .closeObject ts cs rfl h)
  | (key, v) :: rest, ts, cs, hv, h => by
    rw [memberTokens] at hv ⊢
    obtain ⟨hv, hrest⟩ := hv.tail.tail.tail.split
    simp only [indentedMembers, List.cons_append, List.append_assoc]
    exact .token .comma _ _ rfl (.newLine _ (.key key (layout_indented (level + 1) v hv
      (ends_indentedMembers level rest cs) (layout_indentedMembers level rest hrest h))))

end

/-! ## The compact layout -/

/-- A text that spells tokens is a layout of them if the numbers are read back. -/
theorem layout_of_spelled {ts : List Token} {cs : List Char} (h : Spelled ts cs)
    (hr : ReadBack ts) : Layout ts cs := by
  induction h with
  | done => exact .done
  | mark t ts cs fixed rest ih =>
    exact .token t ts cs (Token.scan?_mark fixed cs) (ih hr.tail)
  | number n ts cs ends rest ih =>
    exact .token (.number (some n)) ts cs
      (Token.scan?_number (hr n List.mem_cons_self) ends) (ih hr.tail)
  | string s ts cs rest ih => exact .string s (ih hr.tail)

/-- The compact text of a value has the tokens of the value. -/
theorem lex?_compact {v : Json} (hv : ReadBack v.tokens) :
    lex? v.compact.toList = some v.tokens :=
  lex?_layout (layout_of_spelled v.spelled_compact hv)

/-- So has the indented text. -/
theorem lex?_indented {v : Json} (hv : ReadBack v.tokens) :
    lex? v.indented.toList = some v.tokens := by
  have h := layout_indented 0 v hv ends_nil .done
  rw [List.append_nil, List.append_nil] at h
  rw [indented, String.toList_ofList]
  exact lex?_layout h

end Json
end SignalPipeline
