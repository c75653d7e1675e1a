import SignalPipeline.Json.Printer
import SignalPipeline.Proofs.Json.Scan

/-!
# Spelling

The compact text of a value spells its tokens one directly after the other. A string shows by its
quotes where it ends, and all else but a number has a fixed text; a number stands in front of
something that it does not go on with.

* `Spelled`: a text that spells tokens so.
* `Json.spelled_compact`: the compact text of a value.
-/

namespace SignalPipeline

/-- Whether a token has a fixed text. -/
def Token.isMark : Token → Bool
  | .number _ => false
  | .string _ => false
  | _ => true

/-- The fixed text of a token is scanned in front of everything. -/
theorem Token.scan?_mark {t : Token} (h : t.isMark = true) (rest : List Char) :
    scan? (t.chars ++ rest) = some (t, rest) := by
  cases t with
  | bool b => cases b <;> rfl
  | number n => cases h
  | string s => cases h
  | _ => rfl

/-- A text that spells tokens one directly after the other. -/
inductive Spelled : List Token → List Char → Prop
  | done : Spelled [] []
  | mark (t : Token) (ts : List Token) (cs : List Char) (fixed : t.isMark = true)
      (rest : Spelled ts cs) : Spelled (t :: ts) (t.chars ++ cs)
  | number (n : Number) (ts : List Token) (cs : List Char) (ends : Ends cs)
      (rest : Spelled ts cs) : Spelled (.number (some n) :: ts) (n.chars ++ cs)
  | string (s : String) (ts : List Token) (cs : List Char) (rest : Spelled ts cs) :
      Spelled (.string (some s) :: ts) (StringPart.quote s.toList ++ cs)

namespace Json

theorem ends_itemTokens (vs : List Json) (cs : List Char) :
    Ends ((itemTokens vs).flatMap Token.chars ++ cs) := by
  cases vs with
  | nil => exact ends_cons rfl
  | cons v vs => exact ends_cons rfl

theorem ends_memberTokens (ms : List Member) (cs : List Char) :
    Ends ((memberTokens ms).flatMap Token.chars ++ cs) := by
  cases ms with
  | nil => exact ends_cons rfl
  | cons m ms => exact ends_cons rfl

mutual

theorem spelled_tokens : ∀ (v : Json) {ts : List Token} {cs : List Char}, Ends cs →
    Spelled ts cs → Spelled (v.tokens ++ ts) (v.tokens.flatMap Token.chars ++ cs)
  | .null, ts, cs, _, h => .mark .null ts cs rfl h
  | .bool true, ts, cs, _, h => .mark (.bool true) ts cs rfl h
  | .bool false, ts, cs, _, h => .mark (.bool false) ts cs rfl h
  | .number n, ts, cs, hend, h => by
    rw [tokens, List.flatMap_singleton]
    exact .number n ts cs hend h
  | .string s, ts, cs, _, h => by
    rw [tokens, List.flatMap_singleton]
    exact .string s ts cs h
  | .array [], ts, cs, _, h => .mark .openArray _ _ rfl (.mark .closeArray ts cs rfl h)
  | .array (v :: vs), ts, cs, _, h => by
    simp only [tokens, List.flatMap_cons, List.flatMap_append, List.cons_append,
      List.append_assoc]
    exact .mark .openArray _ _ rfl
      (spelled_tokens v (ends_itemTokens vs cs) (spelled_itemTokens vs h))
  | .object [], ts, cs, _, h => .mark .openObject _ _ rfl (.mark .closeObject ts cs rfl h)
  | .object ((key, v) :: rest), ts, cs, _, h => by
    simp only [tokens, List.flatMap_cons, List.flatMap_append, List.cons_append,
      List.append_assoc]
    exact .mark .openObject _ _ rfl (.string key _ _ (.mark .colon _ _ rfl
      (spelled_tokens v (ends_memberTokens rest cs) (spelled_memberTokens rest h))))

theorem spelled_itemTokens : ∀ (vs : List Json) {ts : List Token} {cs : List Char},
    Spelled ts cs → Spelled (itemTokens vs ++ ts) ((itemTokens vs).flatMap Token.chars ++ cs)
  | [], ts, cs, h => .mark .closeArray ts cs rfl h
  | v :: vs, ts, cs, h => by
    simp only [itemTokens, List.flatMap_cons, List.flatMap_append, List.cons_append,
      List.append_assoc]
    exact .mark .comma _ _ rfl
      (spelled_tokens v (ends_itemTokens vs cs) (spelled_itemTokens vs h))

theorem spelled_memberTokens : ∀ (ms : List Member) {ts : List Token} {cs : List Char},
    Spelled ts cs → Spelled (memberTokens ms ++ ts) ((memberTokens ms).flatMap Token.chars ++ cs)
  | [], ts, cs, h => .mark .closeObject ts cs rfl h
  | (key, v) :: rest, ts, cs, h => by
    simp only [memberTokens, List.flatMap_cons, List.flatMap_append, List.cons_append,
      List.append_assoc]
    exact .mark .comma _ _ rfl (.string key _ _ (.mark .colon _ _ rfl
      (spelled_tokens v (ends_memberTokens rest cs) (spelled_memberTokens rest h))))

end

/-- The compact text of a value spells its tokens. -/
theorem spelled_compact (v : Json) : Spelled v.tokens v.compact.toList := by
  have h := spelled_tokens v ends_nil .done
  rw [List.append_nil, List.append_nil] at h
  rw [compact, String.toList_ofList]
  exact h

end Json
end SignalPipeline
