import SignalPipeline.Digest.Sha256

/-!
# Hexadecimal digests

Writing a digest in hexadecimal loses nothing, and neither does the UTF-8 form of a text. So where
two texts have the same digest in hexadecimal, their bytes have the same eight words.

* `Sha256.Collision`: messages with the same digest.
* `eq_or_collision_of_sha256Hex`: texts with the same digest are the same or collide.
-/

namespace SignalPipeline

/-- Two messages with the same digest. -/
def Sha256.Collision (m n : List UInt8) : Prop :=
  m ≠ n ∧ digest m = digest n

namespace Sha256

variable {α β : Type}

/-- Codes of one length are told apart in a row. -/
theorem eq_of_flatMap_eq {f : α → List β} {k : Nat} (hlength : ∀ a, (f a).length = k) (hk : 0 < k)
    (hf : ∀ a b, f a = f b → a = b) {xs ys : List α} (h : xs.flatMap f = ys.flatMap f) :
    xs = ys := by
  have hne : ∀ a (zs : List α), (a :: zs).flatMap f ≠ [] := by
    intro a zs he
    have := hlength a
    rw [(List.append_eq_nil_iff.1 he).1] at this
    exact absurd this (Nat.ne_of_lt hk)
  induction xs generalizing ys with
  | nil =>
    cases ys with
    | nil => rfl
    | cons b ys => exact absurd h.symm (hne b ys)
  | cons a xs ih =>
    cases ys with
    | nil => exact absurd h (hne a xs)
    | cons b ys =>
      obtain ⟨hab, hrest⟩ := List.append_inj h ((hlength a).trans (hlength b).symm)
      rw [hf a b hab, ih hrest]

theorem digitChar_inj {a b : Nat} (ha : a < 16) (hb : b < 16)
    (h : Nat.digitChar a = Nat.digitChar b) : a = b := by
  have hall : ∀ a < 16, ∀ b < 16, Nat.digitChar a = Nat.digitChar b → a = b := by decide
  exact hall a ha b hb h

/-- A byte as two hexadecimal digits. -/
def byteChars (b : UInt8) : List Char :=
  [Nat.digitChar (b.toNat / 16), Nat.digitChar (b.toNat % 16)]

theorem byteChars_inj (a b : UInt8) (h : byteChars a = byteChars b) : a = b := by
  obtain ⟨hhigh, hlow⟩ := List.cons.inj h
  have ha := a.toNat_lt
  have hb := b.toNat_lt
  have hhigh := digitChar_inj (by omega) (by omega) hhigh
  have hlow := digitChar_inj (by omega) (by omega) (List.cons.inj hlow).1
  exact UInt8.toNat_inj.1 (by omega)

theorem bigEndian_four_inj {m n : Nat} (hm : m < 0x100000000) (hn : n < 0x100000000)
    (h : bigEndian 4 m = bigEndian 4 n) : m = n := by
  have hbytes : ∀ k : Nat, bigEndian 4 k = [(k >>> 24).toUInt8, (k >>> 16).toUInt8,
    (k >>> 8).toUInt8, (k >>> 0).toUInt8] := fun k => rfl
  simp only [hbytes, List.cons.injEq, ← UInt8.toNat_inj, UInt8.toNat_ofNat', Nat.toUInt8_eq,
    Nat.shiftRight_eq_div_pow, and_true] at h
  omega

theorem hexChars_inj (w v : UInt32) (h : hexChars w = hexChars v) : w = v := by
  have hbytes : bigEndian 4 w.toNat = bigEndian 4 v.toNat :=
    eq_of_flatMap_eq (f := byteChars) (k := 2) (fun _ => rfl) (by decide) byteChars_inj h
  exact UInt32.toNat_inj.1 (bigEndian_four_inj w.toNat_lt v.toNat_lt hbytes)

theorem words_inj {s t : State} (h : s.words = t.words) : s = t := by
  cases s
  cases t
  simpa [State.words] using h

end Sha256

/-! ## Bytes -/

theorem toList_loop (bs : ByteArray) (i : Nat) (r : List UInt8) :
    ByteArray.toList.loop bs i r = r.reverse ++ bs.data.toList.drop i := by
  induction h : bs.size - i generalizing i r with
  | zero =>
    rw [ByteArray.toList.loop, if_neg (by omega), List.drop_eq_nil_of_le, List.append_nil]
    change bs.size ≤ i
    omega
  | succ n ih =>
    have hi : i < bs.data.toList.length := by
      change i < bs.size
      omega
    have hget : bs.get! i = bs.data.toList[i] := getElem!_pos bs.data i hi
    rw [ByteArray.toList.loop, if_pos (by omega), ih (i + 1) _ (by omega), hget,
      List.reverse_cons, List.append_assoc, List.singleton_append, List.getElem_cons_drop]

theorem toList_eq (bs : ByteArray) : bs.toList = bs.data.toList :=
  toList_loop bs 0 []

theorem toList_toUTF8_inj {s t : String} (h : s.toUTF8.toList = t.toUTF8.toList) : s = t := by
  rw [toList_eq, toList_eq, Array.toList_inj] at h
  exact String.toByteArray_inj.1 (ByteArray.ext h)

/-- Texts with the same digest are the same, or their bytes collide. -/
theorem eq_or_collision_of_sha256Hex {s t : String} (h : sha256Hex s = sha256Hex t) :
    s = t ∨ Sha256.Collision s.toUTF8.toList t.toUTF8.toList := by
  have hwords := Sha256.eq_of_flatMap_eq Sha256.length_hexChars (by decide) Sha256.hexChars_inj
    (String.ofList_injective h)
  by_cases hbytes : s.toUTF8.toList = t.toUTF8.toList
  · exact .inl (toList_toUTF8_inj hbytes)
  · exact .inr ⟨hbytes, Sha256.words_inj hwords⟩

end SignalPipeline
