import Mathlib.Data.List.Forall2
import SignalPipeline.Json.Document
import SignalPipeline.Proofs.Json.Scan

/-!
# Texts inside texts

A text that is JSON by itself can stand inside another one, in front of anything that its last
number does not go on with. It has the same tokens there. The parser finds the same document there,
if the containers around it leave enough of the depth for those inside.

* `lex?_append`: the tokens of a text in front of another one.
* `Token.nesting`: how deep the containers of some tokens nest.
* `Document.readValue?_append`: the document of a text inside open containers.
* `Document.parse?_arrayText`: the document of an array of texts.
-/

namespace SignalPipeline

/-! ## Tokens -/

theorem StringPart.scan?_append {cs r : List Char} {ps : List StringPart}
    (h : scan? cs = some (ps, r)) (rest : List Char) :
    scan? (cs ++ rest) = some (ps, r ++ rest) := by
  fun_induction scan? cs generalizing ps r with
  | case1 => cases h
  | case2 r' =>
    cases h
    rfl
  | case3 a b c d r' ih =>
    simp only [Option.bind_eq_bind, Option.bind_eq_some_iff] at h
    obtain ⟨u, hu, ⟨qs, r''⟩, hs, he⟩ := h
    cases he
    simp only [List.cons_append, scan?, hu, ih hs, Option.bind_eq_bind, Option.bind_some]
  | case4 e r' _ ih =>
    simp only [Option.bind_eq_bind, Option.bind_eq_some_iff] at h
    obtain ⟨c, hc, ⟨qs, r''⟩, hs, he⟩ := h
    cases he
    have hunit : e ≠ 'u' := by
      rintro rfl
      cases hc
    rw [List.cons_append, List.cons_append, scan?_short hunit hc, ih hs]
    rfl
  | case5 => cases h
  | case6 c r' hquote _ hescape hplain ih =>
    simp only [Option.bind_eq_bind, Option.bind_eq_some_iff] at h
    obtain ⟨⟨qs, r''⟩, hs, he⟩ := h
    cases he
    have hbackslash : c ≠ '\\' := by
      rintro rfl
      exact hplain rfl
    rw [List.cons_append, scan?.eq_5 c _ hquote (fun _ _ _ _ _ h _ => hbackslash h)
      (fun _ _ h _ => hbackslash h), if_neg hplain, ih hs]
    rfl

theorem Token.scan?_append {cs r rest : List Char} {t : Token} (h : scan? cs = some (t, r))
    (hrest : Ends rest) : scan? (cs ++ rest) = some (t, r ++ rest) := by
  rw [scan?.eq_def] at h
  split at h
  iterate 9
    · cases h
      rfl
  · obtain ⟨⟨ps, r'⟩, hs, he⟩ := Option.map_eq_some_iff.1 h
    cases he
    rw [List.cons_append, scan?, StringPart.scan?_append hs rest]
    rfl
  · obtain ⟨⟨l, r'⟩, hs, he⟩ := Option.map_eq_some_iff.1 h
    cases he
    cases cs with
    | nil => cases hs
    | cons c cs =>
      rw [List.cons_append, scan?_of_number (of_scan?_number hs), ← List.cons_append,
        Number.scan?_append hs fun _ => hrest]
      rfl

theorem lex?_symbol {c : Char} {t : Token} {cs : List Char} (hspace : isSpace c = false)
    (h : Token.scan? (c :: cs) = some (t, cs)) : lex? (c :: cs) = (lex? cs).map (t :: ·) := by
  rw [lex?, if_neg (Bool.eq_false_iff.1 hspace)]
  split
  · next hnone => cases hnone.symm.trans h
  · next hsome =>
    cases hsome.symm.trans h
    rfl

/-- A text in front of another one keeps its tokens. -/
theorem lex?_append {cs rest : List Char} {ts : List Token} (h : lex? cs = some ts)
    (hrest : Ends rest) : lex? (cs ++ rest) = (lex? rest).map (ts ++ ·) := by
  fun_induction lex? cs generalizing ts with
  | case1 =>
    cases h
    simp
  | case2 c cs hspace ih =>
    rw [List.cons_append, lex?, if_pos hspace]
    exact ih h
  | case3 => cases h
  | case4 c cs hspace t r hscan ih =>
    obtain ⟨us, hus, rfl⟩ := Option.map_eq_some_iff.1 h
    have happend := Token.scan?_append hscan hrest
    rw [List.cons_append] at happend ⊢
    rw [lex?, if_neg hspace]
    split
    · next hnone => cases hnone.symm.trans happend
    · next t' r' hsome =>
      cases hsome.symm.trans happend
      rw [ih hus, Option.map_map]
      rfl

namespace Token

/-- How many containers are open behind a token. -/
def level : Token → Nat → Nat
  | .openArray, n => n + 1
  | .openObject, n => n + 1
  | .closeArray, n => n - 1
  | .closeObject, n => n - 1
  | _, n => n

/-- The most containers that are open at once inside so many open ones. -/
def nesting (n : Nat) : List Token → Nat
  | [] => n
  | t :: ts => max n (nesting (t.level n) ts)

end Token

namespace Document

/-- The most containers that are open at once in a text. -/
def nesting (s : String) : Nat :=
  (lex? s.toList).elim 0 (Token.nesting 0)

variable {base : List Frame}

theorem nest_append {stack : List Frame} (h : stack.length + base.length < maxDepth)
    (d : Document) : nest (stack ++ base) d = nest stack d := by
  rw [nest, nest, if_pos, if_pos]
  · omega
  · rw [List.length_append]
    omega

/-- Tokens that are a document inside open containers are it inside further ones, in front of what
goes on there. -/
def ReadsInside (base stack : List Frame) (ts : List Token) : Prop :=
  ∀ (d : Document) (rest : List Token), readValue? stack ts = some d →
    Token.nesting stack.length ts + base.length ≤ maxDepth →
      readValue? (stack ++ base) (ts ++ rest) = resume? base d rest

/-- Tokens that complete a document behind a value do so inside further containers. -/
def ResumesInside (base stack : List Frame) (value : Document) (ts : List Token) : Prop :=
  ∀ (d : Document) (rest : List Token), resume? stack value ts = some d →
    Token.nesting stack.length ts + base.length ≤ maxDepth →
      resume? (stack ++ base) value (ts ++ rest) = resume? base d rest

theorem readValue?_token {stack : List Frame} {t : Token} {d : Document} (h : ofToken? t = some d)
    (ts : List Token) : readValue? stack (t :: ts) = resume? stack d ts := by
  cases t with
  | openArray => cases h
  | openObject => cases h
  | _ => rw [readValue?, h, Option.bind_some] <;> exact nofun

theorem level_token {t : Token} {d : Document} (h : ofToken? t = some d) (n : Nat) :
    t.level n = n := by
  cases t <;> first | rfl | cases h

/-- The first item of an array is no closing bracket, whatever comes behind it. -/
theorem readValue?_openArray {stack : List Frame} {ts : List Token} {d : Document}
    (h : readValue? (.array [] :: stack) ts = some d) (stack' : List Frame) (rest : List Token) :
    readValue? stack' (.openArray :: (ts ++ rest)) =
      readValue? (.array [] :: stack') (ts ++ rest) := by
  cases ts with
  | nil => cases h
  | cons t ts =>
    refine readValue?.eq_2 _ _ fun us hus => ?_
    cases hus
    cases h

/-- By induction on the parser's run. What it does with a token depends on the containers of the
document only, as long as none of them is too deep. -/
theorem readsInside_and_resumesInside (base : List Frame) :
    (∀ stack ts, ReadsInside base stack ts) ∧ ∀ stack d ts, ResumesInside base stack d ts := by
  refine readValue?.mutual_induct (ReadsInside base) (ResumesInside base)
    ?emptyArray ?openArray ?emptyObject ?openObject ?token ?noToken
    ?finished ?unfinished ?nextItem ?nextMember ?noMember ?noContainer
    ?closeArray ?notArray ?closeObject ?notObject ?other
  case emptyArray =>
    intro stack ts ih d rest h hdepth
    simp only [Token.nesting, Token.level, Nat.add_sub_cancel] at hdepth
    rw [List.cons_append, List.cons_append, readValue?, nest_append (by omega)]
    exact ih d rest (by rwa [readValue?] at h) (by omega)
  case openArray =>
    intro stack ts hopen ih d rest h hdepth
    simp only [Token.nesting, Token.level] at hdepth
    rw [readValue?.eq_2 _ _ hopen] at h
    rw [List.cons_append, readValue?_openArray h]
    exact ih d rest h (by rw [List.length_cons]; omega)
  case emptyObject =>
    intro stack ts ih d rest h hdepth
    simp only [Token.nesting, Token.level, Nat.add_sub_cancel] at hdepth
    rw [List.cons_append, List.cons_append, readValue?, nest_append (by omega)]
    exact ih d rest (by rwa [readValue?] at h) (by omega)
  case openObject =>
    intro stack key ts ih d rest h hdepth
    simp only [Token.nesting, Token.level] at hdepth
    simp only [List.cons_append, readValue?] at h ⊢
    exact ih d rest h (by rw [List.length_cons]; omega)
  case token =>
    intro stack t ts harray hopen hobject hmember ih d rest h hdepth
    rw [readValue?.eq_5 _ _ _ harray hopen hobject hmember] at h
    obtain ⟨value, hvalue, h⟩ := Option.bind_eq_some_iff.1 h
    rw [Token.nesting, level_token hvalue] at hdepth
    rw [List.cons_append, readValue?_token hvalue]
    exact ih value d rest h (by omega)
  case noToken =>
    intro stack d rest h
    cases h
  case finished =>
    intro stack value hempty d rest h _
    rw [List.isEmpty_iff.1 hempty] at h ⊢
    cases h
    rfl
  case unfinished =>
    intro stack value hempty d rest h
    rw [resume?, if_neg hempty] at h
    cases h
  case nextItem =>
    intro value ts items stack ih d rest h hdepth
    simp only [Token.nesting, Token.level] at hdepth
    simp only [List.cons_append, resume?] at h ⊢
    exact ih d rest h (by rw [List.length_cons] at hdepth ⊢; omega)
  case nextMember =>
    intro value members key stack next ts ih d rest h hdepth
    simp only [Token.nesting, Token.level] at hdepth
    simp only [List.cons_append, resume?] at h ⊢
    exact ih d rest h (by rw [List.length_cons] at hdepth ⊢; omega)
  case noMember =>
    intro value ts members key stack hmember d rest h
    rw [resume?] at h
    · cases h
    · exact hmember
  case noContainer =>
    intro value ts d rest h
    cases h
  case closeArray =>
    intro value ts items stack ih d rest h hdepth
    simp only [Token.nesting, Token.level, List.length_cons, Nat.add_sub_cancel] at hdepth
    simp only [List.cons_append, resume?] at h ⊢
    rw [nest_append (by omega)]
    exact ih d rest h (by omega)
  case notArray =>
    intro stack value ts hstack d rest h
    rw [resume?] at h
    · cases h
    · exact hstack
  case closeObject =>
    intro value ts members key stack ih d rest h hdepth
    simp only [Token.nesting, Token.level, List.length_cons, Nat.add_sub_cancel] at hdepth
    simp only [List.cons_append, resume?] at h ⊢
    rw [nest_append (by omega)]
    exact ih d rest h (by omega)
  case notObject =>
    intro stack value ts hstack d rest h
    rw [resume?] at h
    · cases h
    · exact hstack
  case other =>
    intro ts stack value hnil hcomma harray hobject d rest h
    rw [resume?] at h
    · cases h
    all_goals assumption

/-- A document is found inside open containers that leave it enough of the depth, in front of
whatever goes on there. -/
theorem readValue?_append {ts : List Token} {d : Document} (h : readValue? [] ts = some d)
    (base : List Frame) (hdepth : Token.nesting 0 ts + base.length ≤ maxDepth) (rest : List Token) :
    readValue? base (ts ++ rest) = resume? base d rest :=
  (readsInside_and_resumesInside base).1 [] ts d rest h hdepth

/-! ## Arrays of texts -/

/-- Texts in an array. -/
def arrayText (texts : List String) : String :=
  "[" ++ ",".intercalate texts ++ "]"

/-- A text that is an item of an array. -/
def IsItem (text : String) (d : Document) : Prop :=
  parse? text = some d ∧ nesting text + 1 ≤ maxDepth

theorem lex?_closeArray : lex? [']'] = some [.closeArray] := by
  rw [lex?_symbol rfl rfl, lex?, Option.map_some]

/-- An item in front of the rest of its array. -/
theorem IsItem.exists_lex? {text : String} {d : Document} (h : IsItem text d) {rest : List Char}
    {us : List Token} (hends : Ends rest) (hrest : lex? rest = some us) :
    ∃ ts, lex? (text.toList ++ rest) = some (ts ++ us) ∧
      ∀ items, readValue? [.array items] (ts ++ us) = resume? [.array items] d us := by
  obtain ⟨hparse, hdepth⟩ := h
  obtain ⟨ts, hts, hread⟩ := Option.bind_eq_some_iff.1 hparse
  rw [nesting, hts, Option.elim_some] at hdepth
  refine ⟨ts, ?_, fun items => readValue?_append hread [.array items] hdepth us⟩
  rw [lex?_append hts hends, hrest, Option.map_some]

/-- The items of an array up to its end. -/
theorem exists_lex?_items {text : String} {texts : List String} {d : Document} {ds : List Document}
    (h : IsItem text d) (hs : List.Forall₂ IsItem texts ds) :
    ∃ ts, lex? ((",".intercalate (text :: texts)).toList ++ [']']) = some ts ∧
      ∀ items, readValue? [.array items] ts = some (.array (items.reverse ++ d :: ds)) := by
  induction hs generalizing text d with
  | nil =>
    obtain ⟨ts, hts, hread⟩ := h.exists_lex? (ends_cons rfl) lex?_closeArray
    rw [String.intercalate_singleton]
    refine ⟨_, hts, fun items => (hread items).trans ?_⟩
    simp [resume?, nest, maxDepth]
  | @cons next d' texts ds hnext hs ih =>
    obtain ⟨us, hus, hitems⟩ := ih hnext
    have hcomma : lex? (',' :: ((",".intercalate (next :: texts)).toList ++ [']'])) =
        some (.comma :: us) := by
      rw [lex?_symbol rfl rfl, hus, Option.map_some]
    obtain ⟨ts, hts, hread⟩ := h.exists_lex? (ends_cons rfl) hcomma
    refine ⟨_, ?_, fun items => (hread items).trans ?_⟩
    · rw [String.intercalate_cons_cons, String.toList_append, String.toList_append,
        List.append_assoc, List.append_assoc]
      exact hts
    · rw [resume?, hitems, List.reverse_cons, List.append_assoc]
      rfl

/-- The document of an array of texts that are not nested too deep for it. -/
theorem parse?_arrayText {texts : List String} {ds : List Document}
    (h : List.Forall₂ IsItem texts ds) : parse? (arrayText texts) = some (.array ds) := by
  have hopen : parse? (arrayText texts) =
      (lex? ((",".intercalate texts).toList ++ [']'])).bind fun ts =>
        readValue? [] (.openArray :: ts) := by
    have htext : (arrayText texts).toList =
        '[' :: ((",".intercalate texts).toList ++ [']']) := by
      rw [arrayText, String.toList_append, String.toList_append]
      rfl
    rw [parse?, htext, lex?_symbol rfl rfl]
    cases lex? ((",".intercalate texts).toList ++ [']']) <;> rfl
  rw [hopen]
  cases h with
  | nil =>
    rw [String.intercalate_nil, String.toList_empty, List.nil_append, lex?_closeArray]
    rfl
  | cons hfirst hs =>
    obtain ⟨ts, hts, hread⟩ := exists_lex?_items hfirst hs
    rw [hts, Option.bind_some]
    have hitems := hread []
    have := readValue?_openArray hitems [] []
    rw [List.append_nil] at this
    rw [this, hitems]
    rfl

end Document

end SignalPipeline
