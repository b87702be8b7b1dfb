import FilterQuery.FieldSet
import Std.Data.TreeSet.Lemmas

/-!
# FilterQuery.Proofs.ByteOrder

Texts in the order of their code points are in the order of their bytes: UTF-8 keeps the
order of characters, and none is encoded as the beginning of another.

* `utf8EncodeChar_append_lt` — the bytes of the lower character come first, whatever
  follows;
* `utf8_lt` — so do those of the lower text, and `FieldSet.pairwise_utf8` those of the
  names in a set.
-/

namespace FilterQuery

/-- The bytes of a text in UTF-8. -/
def Text.utf8 (s : String) : List UInt8 := s.toUTF8.data.toList

namespace Text

/-- The bytes are those of the characters. -/
theorem utf8_eq_flatMap (s : String) : utf8 s = s.toList.flatMap String.utf8EncodeChar := by
  rw [utf8, String.toUTF8_eq_toByteArray, ← String.utf8Encode_toList, List.utf8Encode,
    List.toList_data_toByteArray]

/-- The first byte that differs decides. -/
theorem ofNat_cons_lt {a b : Nat} {xs ys : List UInt8} (hb : b < 256) (hle : a ≤ b)
    (h : a = b → xs < ys) : UInt8.ofNat a :: xs < UInt8.ofNat b :: ys := by
  rw [List.cons_lt_cons_iff]
  obtain hlt | rfl := Nat.lt_or_eq_of_le hle
  · refine .inl (UInt8.lt_iff_toNat_lt.mpr ?_)
    rwa [UInt8.toNat_ofNat_of_lt' (Nat.lt_trans hlt hb), UInt8.toNat_ofNat_of_lt' hb]
  · exact .inr ⟨rfl, h rfl⟩

/-- The bytes of the lower character come before those of the higher one, whatever
follows. -/
theorem utf8EncodeChar_append_lt {c d : Char} (h : c < d) (xs ys : List UInt8) :
    String.utf8EncodeChar c ++ xs < String.utf8EncodeChar d ++ ys := by
  have hlt : c.val.toNat < d.val.toNat := h
  have hd : d.val.toNat < 0x110000 := by
    have hvalid := d.valid
    simp only [UInt32.isValidChar, Nat.isValidChar] at hvalid
    omega
  simp only [String.utf8EncodeChar]
  generalize c.val.toNat = m at hlt
  generalize d.val.toNat = n at hlt hd
  -- The first byte is the greater the more there are.  Where there are as many, they are
  -- the digits of the character to the base 64, not all of which can be the same.
  repeat' split
  all_goals
    simp only [List.cons_append, List.nil_append]
    repeat
      first
      | omega
      | refine ofNat_cons_lt (by omega) (by omega) fun _ => ?_

/-- So do those of the lower text. -/
theorem flatMap_utf8EncodeChar_lt {cs ds : List Char} (h : cs < ds) :
    cs.flatMap String.utf8EncodeChar < ds.flatMap String.utf8EncodeChar := by
  induction cs generalizing ds with
  | nil =>
    cases ds with
    | nil => exact absurd h (List.lt_irrefl _)
    | cons d ds =>
      obtain ⟨b, bs, hd⟩ := List.exists_cons_of_ne_nil (String.utf8EncodeChar_ne_nil (c := d))
      rw [List.flatMap_cons, hd]
      exact List.nil_lt_cons _ _
  | cons c cs ih =>
    cases ds with
    | nil => exact absurd h (List.not_lt_nil _)
    | cons d ds =>
      rw [List.flatMap_cons, List.flatMap_cons]
      obtain hlt | ⟨rfl, hlt⟩ := List.cons_lt_cons_iff.mp h
      · exact utf8EncodeChar_append_lt hlt _ _
      · exact List.append_left_lt (ih hlt)

/-- Texts are in the order of their bytes. -/
theorem utf8_lt {s t : String} (h : s < t) : utf8 s < utf8 t := by
  rw [utf8_eq_flatMap, utf8_eq_flatMap]
  exact flatMap_utf8EncodeChar_lt h

end Text

/-- The names in a set are listed in the order of their bytes. -/
theorem FieldSet.pairwise_utf8 (fields : FieldSet) :
    fields.toList.Pairwise fun a b => Text.utf8 a < Text.utf8 b := by
  refine Std.TreeSet.ordered_toList.imp fun {a b} h => Text.utf8_lt ?_
  exact compareOfLessAndEq_eq_lt.mp h

end FilterQuery
