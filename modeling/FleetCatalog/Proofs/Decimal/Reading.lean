import Mathlib.Data.List.TakeWhile
import FleetCatalog.Proofs.Decimal.Natural

/-! What each reader of numerals makes of the decimal text of an integer. The readers differ in the
signs that they take and in their ranges: an integer out of range is not read at all. -/
namespace FleetCatalog
namespace Text
variable {cs : List Char} {n : Nat}

theorem digits_of_natural? (h : natural? cs = some n) : cs ≠ [] ∧ ∀ c ∈ cs, isDigit c = true := by
  unfold natural? at h
  split at h
  · next hdigits => exact ⟨hdigits.1, List.all_eq_true.1 hdigits.2⟩
  · cases h

theorem exists_cons_of_natural? (h : natural? cs = some n) :
    ∃ c r, cs = c :: r ∧ isDigit c = true := by
  obtain ⟨hne, hdigits⟩ := digits_of_natural? h
  obtain ⟨c, r, rfl⟩ := List.exists_cons_of_ne_nil hne
  exact ⟨c, r, rfl, hdigits c List.mem_cons_self⟩

theorem ne_of_isDigit {c d : Char} (hc : isDigit c = true) (hd : isDigit d = false) : c ≠ d := by
  rintro rfl
  rw [hd] at hc
  cases hc

theorem unsigned?_of_natural? (h : natural? cs = some n) :
    unsigned? cs = if n < unsignedBound then some n else none := by
  obtain ⟨c, r, rfl, hdigit⟩ := exists_cons_of_natural? h
  have hplus : c ≠ '+' := ne_of_isDigit hdigit rfl
  simp [unsigned?, hplus, h]

theorem unsigned?_neg (cs : List Char) : unsigned? ('-' :: cs) = none := by
  have hdigits : natural? ('-' :: cs) = none := if_neg fun h => by cases h.2
  simp [unsigned?, hdigits]

theorem signed?_of_natural? (h : natural? cs = some n) :
    signed? cs = if (n : Int) < signedBound then some (n : Int) else none := by
  obtain ⟨c, r, rfl, hdigit⟩ := exists_cons_of_natural? h
  have hminus : c ≠ '-' := ne_of_isDigit hdigit rfl
  have hplus : c ≠ '+' := ne_of_isDigit hdigit rfl
  have hlow : -signedBound ≤ (n : Int) := by unfold signedBound; omega
  unfold signed?
  split
  next negative digits hsign =>
  simp only [hminus, hplus, List.cons.injEq, false_and, imp_false, not_false_eq_true, implies_true,
    Prod.mk.injEq] at hsign
  obtain ⟨rfl, rfl⟩ := hsign
  simp only [h, Bool.false_eq_true, if_false, hlow, true_and]

theorem signed?_neg (h : natural? cs = some n) :
    signed? ('-' :: cs) = if (n : Int) ≤ signedBound then some (-(n : Int)) else none := by
  have hlow : -signedBound ≤ -(n : Int) ↔ (n : Int) ≤ signedBound := by omega
  have hhigh : -(n : Int) < signedBound := by unfold signedBound; omega
  unfold signed?
  split
  next negative digits hsign =>
  obtain ⟨rfl, rfl⟩ := Prod.mk.inj (show (true, cs) = (negative, digits) from hsign)
  simp only [h, if_true, hlow, hhigh, and_true]

theorem isDecimal_of_natural? (h : natural? cs = some n) : isDecimal cs = true := by
  obtain ⟨hne, hdigits⟩ := digits_of_natural? h
  have hwhole : cs.takeWhile isDigit = cs := List.takeWhile_eq_self_iff.2 hdigits
  have hrest : cs.dropWhile isDigit = [] := List.dropWhile_eq_nil_iff.2 hdigits
  simp [isDecimal, hwhole, hrest, hne]

end Text

namespace Double
open Text

theorem signed?_integerText (n : Int) : signed? (integerText n) =
    if -signedBound ≤ n ∧ n < signedBound then some n else none := by
  have hdigits := natural?_naturalText n.natAbs
  unfold integerText
  split
  · next h =>
    have habs : -(n.natAbs : Int) = n := by omega
    rw [signed?_neg hdigits, habs]
    exact if_congr (by unfold signedBound; omega) rfl rfl
  · next h =>
    have habs : (n.natAbs : Int) = n := by omega
    rw [signed?_of_natural? hdigits, habs]
    exact if_congr (by unfold signedBound; omega) rfl rfl

theorem unsigned?_integerText (n : Int) : unsigned? (integerText n) =
    if 0 ≤ n ∧ n < unsignedBound then some n.natAbs else none := by
  unfold integerText
  split
  · next h => rw [unsigned?_neg, if_neg (by omega)]
  · next h =>
    rw [unsigned?_of_natural? (natural?_naturalText n.natAbs)]
    exact if_congr (by omega) rfl rfl

theorem isFloat_integerText (n : Int) : isFloat (integerText n) = true := by
  have hdigits := natural?_naturalText n.natAbs
  have hdecimal := isDecimal_of_natural? hdigits
  unfold integerText
  split
  · simp [isFloat, hdecimal]
  · obtain ⟨c, r, hcons, hdigit⟩ := exists_cons_of_natural? hdigits
    have hminus : c ≠ '-' := ne_of_isDigit hdigit rfl
    have hplus : c ≠ '+' := ne_of_isDigit hdigit rfl
    rw [hcons] at hdecimal ⊢
    simp [isFloat, hminus, hplus, hdecimal]

theorem bool?_integerText (n : Int) : bool? (integerText n) = none := by
  unfold integerText
  split
  · simp [bool?]
  · obtain ⟨c, r, hcons, hdigit⟩ := exists_cons_of_natural? (natural?_naturalText n.natAbs)
    have htrue : c ≠ 't' := ne_of_isDigit hdigit rfl
    have hfalse : c ≠ 'f' := ne_of_isDigit hdigit rfl
    simp [bool?, hcons, htrue, hfalse]

end Double
end FleetCatalog
