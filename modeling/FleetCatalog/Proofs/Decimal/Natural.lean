import FleetCatalog.Decimal.Layout
import FleetCatalog.Text.Numeral

/-! The decimal text of a natural is the usual one and stands for that natural, so that different
naturals have different texts. -/
namespace FleetCatalog
namespace Double

/-- A natural by its last digit and the digits before it. -/
theorem decimalDigits_of_pos {n : Nat} (h : 0 < n) :
    decimalDigits n = decimalDigits (n / 10) ++ [n % 10] := by
  rw [decimalDigits, if_neg (by omega)]

theorem decimalDigits_lt (n : Nat) : ∀ d ∈ decimalDigits n, d < 10 := by
  induction n using Nat.strongRecOn with
  | _ n ih =>
    rcases Nat.eq_zero_or_pos n with rfl | hn
    · simp [decimalDigits]
    · rw [decimalDigits_of_pos hn]
      intro d hd
      rcases List.mem_append.mp hd with hd | hd
      · exact ih (n / 10) (by omega) d hd
      · rw [List.mem_singleton.mp hd]
        exact Nat.mod_lt n (by omega)

theorem decimalDigits_ne_nil {n : Nat} (h : 0 < n) : decimalDigits n ≠ [] := by
  rw [decimalDigits_of_pos h]
  simp

theorem toNat_digitChar : ∀ d < 10, (digitChar d).toNat = 48 + d := by decide

theorem isDigit_digitChar : ∀ d < 10, Text.isDigit (digitChar d) = true := by decide

theorem foldl_decimalDigits (n : Nat) :
    ((decimalDigits n).map digitChar).foldl (fun a c => 10 * a + (c.toNat - 48)) 0 = n := by
  induction n using Nat.strongRecOn with
  | _ n ih =>
    rcases Nat.eq_zero_or_pos n with rfl | hn
    · simp [decimalDigits]
    · have hd := toNat_digitChar (n % 10) (Nat.mod_lt n (by omega))
      rw [decimalDigits_of_pos hn, List.map_append, List.foldl_append, ih (n / 10) (by omega)]
      simp only [List.map_cons, List.map_nil, List.foldl_cons, List.foldl_nil, hd]
      omega

theorem natural?_decimalDigits {n : Nat} (h : 0 < n) :
    Text.natural? ((decimalDigits n).map digitChar) = some n := by
  have hdigits : (decimalDigits n).map digitChar ≠ [] ∧
      ((decimalDigits n).map digitChar).all Text.isDigit := by
    refine ⟨by simpa using decimalDigits_ne_nil h, List.all_eq_true.mpr ?_⟩
    intro c hc
    obtain ⟨d, hd, rfl⟩ := List.mem_map.mp hc
    exact isDigit_digitChar d (decimalDigits_lt n d hd)
  unfold Text.natural?
  rw [if_pos hdigits, foldl_decimalDigits]

theorem natural?_naturalText (n : Nat) : Text.natural? (naturalText n) = some n := by
  unfold naturalText
  split
  · next h => subst h; rfl
  · next h => exact natural?_decimalDigits (by omega)

theorem naturalText_injective {m n : Nat} (h : naturalText m = naturalText n) : m = n := by
  have hm := natural?_naturalText m
  rw [h, natural?_naturalText n] at hm
  exact (Option.some.inj hm).symm

theorem naturalText_ne_nil (n : Nat) : naturalText n ≠ [] := by
  intro h
  have hn := natural?_naturalText n
  rw [h] at hn
  cases hn

theorem digitChar_eq : ∀ d < 10, digitChar d = Nat.digitChar d := by decide

theorem map_decimalDigits {n : Nat} (h : 0 < n) :
    (decimalDigits n).map digitChar = Nat.toDigits 10 n := by
  induction n using Nat.strongRecOn with
  | _ n ih =>
    have hlast := digitChar_eq (n % 10) (Nat.mod_lt n (by omega))
    rw [decimalDigits_of_pos h, List.map_append, List.map_singleton, hlast]
    rcases Nat.lt_or_ge n 10 with hn | hn
    · rw [Nat.toDigits_of_lt_base hn, Nat.div_eq_of_lt hn, Nat.mod_eq_of_lt hn]
      simp [decimalDigits]
    · rw [Nat.toDigits_of_base_le (by decide) hn, ih (n / 10) (by omega) (by omega)]

theorem ofList_naturalText (n : Nat) : String.ofList (naturalText n) = toString n := by
  show String.ofList (naturalText n) = n.repr
  rw [Nat.repr_eq_ofList_toDigits]
  unfold naturalText
  split
  · next h => rw [h]; rfl
  · next h => rw [map_decimalDigits (Nat.pos_of_ne_zero h)]

end Double
end FleetCatalog
