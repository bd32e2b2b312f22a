import Mathlib.Data.String.Basic

/-! Texts are ordered as the sequences of their bytes are. A character that comes later has a code
that comes later, and no code is the beginning of another. -/
namespace FleetCatalog
namespace Text

/-- The bytes of a text. -/
def bytes (s : String) : List UInt8 := s.toUTF8.data.toList

theorem bytes_eq (s : String) : bytes s = s.toList.flatMap String.utf8EncodeChar := by
  rw [bytes, ← String.ofList_toList (s := s), String.toUTF8, String.toByteArray_ofList,
    List.utf8Encode, List.toList_data_toByteArray, String.toList_ofList]

theorem ofNat_cons_lt {m n : Nat} (hm : m < 256) (hn : n < 256) {xs ys : List UInt8} :
    UInt8.ofNat m :: xs < UInt8.ofNat n :: ys ↔ m < n ∨ m = n ∧ xs < ys := by
  rw [List.cons_lt_cons_iff, UInt8.ofNat_lt_iff_lt hm hn, ← UInt8.toNat_inj,
    UInt8.toNat_ofNat_of_lt' hm, UInt8.toNat_ofNat_of_lt' hn]

theorem utf8EncodeChar_append_lt {c d : Char} (h : c < d) (xs ys : List UInt8) :
    String.utf8EncodeChar c ++ xs < String.utf8EncodeChar d ++ ys := by
  have hcd : c.val.toNat < d.val.toNat := h
  have hd : d.val.toNat < 1114112 := by
    rcases d.valid with h | h
    · exact h.trans (by decide)
    · exact h.2
  -- Every byte after the first holds six bits, so each is a remainder by 64 of the quotient before.
  have hsquare (n : Nat) : n / 4096 = n / 64 / 64 := by omega
  have hcube (n : Nat) : n / 262144 = n / 64 / 64 / 64 := by omega
  unfold String.utf8EncodeChar
  simp only [hsquare, hcube]
  generalize c.val.toNat = m at hcd ⊢
  generalize d.val.toNat = n at hcd hd ⊢
  split_ifs <;> simp (disch := omega) only [List.cons_append, List.nil_append, ofNat_cons_lt] <;>
    omega

theorem flatMap_utf8EncodeChar_lt {cs ds : List Char} (h : List.Lex (· < ·) cs ds) :
    cs.flatMap String.utf8EncodeChar < ds.flatMap String.utf8EncodeChar := by
  induction h with
  | @nil d ds =>
    obtain ⟨b, bs, hb⟩ := List.exists_cons_of_ne_nil (String.utf8EncodeChar_ne_nil (c := d))
    rw [List.flatMap_nil, List.flatMap_cons, hb]
    exact List.nil_lt_cons b _
  | cons _ ih => exact List.append_left_lt ih
  | rel h => exact utf8EncodeChar_append_lt h _ _

theorem bytes_lt_of_lt {a b : String} (h : a < b) : bytes a < bytes b := by
  rw [bytes_eq, bytes_eq]
  exact flatMap_utf8EncodeChar_lt ((List.lt_iff_lex_lt _ _).mp h)

end Text
end FleetCatalog
