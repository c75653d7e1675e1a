import SignalPipeline.Json.Document
import SignalPipeline.Proofs.Json.Layout

/-!
# What is written is parsed again

* `Json.readValue?_tokens`: the parser finds the document of a value in its tokens, if the value
  does not nest too deep.
* `Json.parse?_compact`, `Json.parse?_indented`: the documents of written values.
-/

namespace SignalPipeline

namespace Json

open Document

theorem tokens_ne_closeArray (v : Json) (ts us : List Token) :
    v.tokens ++ ts ≠ .closeArray :: us := by
  cases v with
  | array items => cases items <;> exact nofun
  | object members =>
    cases members with
    | nil => exact nofun
    | cons m rest => exact nofun
  | _ => exact nofun

/-- A container that is not nested too deep is kept. -/
theorem nest_of_lt {stack : List Frame} (h : stack.length < maxDepth) (d : Document) :
    nest stack d = d :=
  if_pos h

mutual

/-- Where the tokens of a value begin, its document is read. -/
theorem readValue?_tokens : ∀ (v : Json) {stack : List Frame} {ts : List Token},
    v.depth + stack.length ≤ maxDepth →
      readValue? stack (v.tokens ++ ts) = resume? stack v.toDocument ts
  | .null, _, _, _ => rfl
  | .bool _, _, _, _ => rfl
  | .number _, _, _, _ => rfl
  | .string _, _, _, _ => rfl
  | .array [], stack, ts, h => by
    rw [depth, depth.depthItems] at h
    change resume? stack (nest stack (.array [])) ts = _
    rw [nest_of_lt (by omega)]
    rfl
  | .array (v :: vs), stack, ts, h => by
    rw [depth, depth.depthItems] at h
    simp only [tokens, List.cons_append, List.append_assoc]
    rw [readValue?.eq_2 _ _ fun us => tokens_ne_closeArray v _ us,
      readValue?_tokens v (by rw [List.length_cons]; omega), resume?_itemTokens vs (by omega)]
    rfl
  | .object [], stack, ts, h => by
    rw [depth, depth.depthMembers] at h
    change resume? stack (nest stack (.object [])) ts = _
    rw [nest_of_lt (by omega)]
    rfl
  | .object ((key, v) :: rest), stack, ts, h => by
    rw [depth, depth.depthMembers] at h
    simp only [tokens, List.cons_append, List.append_assoc]
    rw [readValue?.eq_4, readValue?_tokens v (by rw [List.length_cons]; omega),
      resume?_memberTokens rest (by omega)]
    rfl

/-- Behind an item the other items of its array are read. -/
theorem resume?_itemTokens : ∀ (vs : List Json) {stack : List Frame} {items : List Document}
    {d : Document} {ts : List Token}, 1 + depth.depthItems vs + stack.length ≤ maxDepth →
      resume? (.array items :: stack) d (itemTokens vs ++ ts) =
        resume? stack (.array (items.reverse ++ d :: itemDocuments vs)) ts
  | [], stack, items, d, ts, h => by
    change resume? stack (nest stack (.array (d :: items).reverse)) ts = _
    rw [nest_of_lt (by omega), List.reverse_cons]
    rfl
  | v :: vs, stack, items, d, ts, h => by
    rw [depth.depthItems] at h
    simp only [itemTokens, List.cons_append, List.append_assoc]
    change readValue? (.array (d :: items) :: stack) (v.tokens ++ (itemTokens vs ++ ts)) = _
    rw [readValue?_tokens v (by rw [List.length_cons]; omega), resume?_itemTokens vs (by omega),
      List.reverse_cons, List.append_assoc]
    rfl

/-- Behind the value of a member the other members of its object are read. -/
theorem resume?_memberTokens : ∀ (ms : List Member) {stack : List Frame}
    {members : List (Option String × Document)} {key : Option String} {d : Document}
    {ts : List Token}, 1 + depth.depthMembers ms + stack.length ≤ maxDepth →
      resume? (.object members key :: stack) d (memberTokens ms ++ ts) =
        resume? stack (.object (members.reverse ++ (key, d) :: memberDocuments ms)) ts
  | [], stack, members, key, d, ts, h => by
    change resume? stack (nest stack (.object ((key, d) :: members).reverse)) ts = _
    rw [nest_of_lt (by omega), List.reverse_cons]
    rfl
  | (next, v) :: rest, stack, members, key, d, ts, h => by
    rw [depth.depthMembers] at h
    simp only [memberTokens, List.cons_append, List.append_assoc]
    change readValue? (.object ((key, d) :: members) (some next) :: stack)
      (v.tokens ++ (memberTokens rest ++ ts)) = _
    rw [readValue?_tokens v (by rw [List.length_cons]; omega), resume?_memberTokens rest (by omega),
      List.reverse_cons, List.append_assoc]
    rfl

end

/-- The tokens of a value that does not nest too deep have the document of the value. -/
theorem readValue?_document {v : Json} (h : v.depth ≤ maxDepth) :
    readValue? [] v.tokens = some v.toDocument := by
  have := @readValue?_tokens v [] [] h
  rwa [List.append_nil] at this

theorem parse?_compact {v : Json} (hv : ReadBack v.tokens) (h : v.depth ≤ maxDepth) :
    Document.parse? v.compact = some v.toDocument := by
  rw [Document.parse?, lex?_compact hv]
  exact readValue?_document h

theorem parse?_indented {v : Json} (hv : ReadBack v.tokens) (h : v.depth ≤ maxDepth) :
    Document.parse? v.indented = some v.toDocument := by
  rw [Document.parse?, lex?_indented hv]
  exact readValue?_document h

end Json

end SignalPipeline
