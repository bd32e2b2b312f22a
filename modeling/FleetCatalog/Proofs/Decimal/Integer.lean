import Mathlib.Algebra.Group.Nat.Defs
import FleetCatalog.Number

/-! Integers read as floating point. From fifty-three binary digits on only the multiples of a power of
two can be told apart: an integer stands for the nearest of them. Two integers give the same number
just if they stand for the same multiple, which below `2 ^ 53` is the integer itself. -/
namespace FleetCatalog
namespace Double

/-- The power of two of which fifty-three binary digits can tell the multiples apart at the size of
`n`. -/
def spacing (n : Nat) : Nat := 2 ^ (n.log2 - 52)

/-- The multiple of the spacing that is nearest to `n`, of two that are equally near the even one. -/
def rounded (n : Nat) : Nat :=
  let below := n / spacing n * spacing n
  let above := below + spacing n
  if n - below < above - n then below
  else if above - n < n - below then above
  else if n / spacing n % 2 = 0 then below else above

/-- The integer that `n` stands for, by its magnitude. -/
def roundedInteger (n : Int) : Int := if n < 0 then -(rounded n.natAbs) else rounded n.natAbs

theorem spacing_pos (n : Nat) : 0 < spacing n := Nat.two_pow_pos _

theorem spacing_of_lt {n : Nat} (h : n < 2 ^ 53) : spacing n = 1 := by
  have hlog : n.log2 - 52 = 0 := by
    rcases Nat.eq_zero_or_pos n with rfl | hn
    · rfl
    · have := (Nat.log2_lt (Nat.ne_of_gt hn)).2 h
      omega
  rw [spacing, hlog, Nat.pow_zero]

theorem roundQuotient_one (n : Nat) : roundQuotient n 1 = n := by
  simp [roundQuotient, Nat.mod_one]

theorem roundQuotient_cases (n d : Nat) :
    roundQuotient n d = n / d ∧ 2 * (n % d) ≤ d ∨ roundQuotient n d = n / d + 1 ∧ d ≤ 2 * (n % d) := by
  unfold roundQuotient
  dsimp only
  split
  · next h => exact .inl ⟨rfl, Nat.le_of_lt h⟩
  · next h =>
    split
    · next h' => exact .inr ⟨rfl, Nat.le_of_lt h'⟩
    · next h' =>
      split
      · exact .inl ⟨rfl, by omega⟩
      · exact .inr ⟨rfl, by omega⟩

theorem rounded_eq (n : Nat) : rounded n = roundQuotient n (spacing n) * spacing n := by
  have hdiv := Nat.div_add_mod' n (spacing n)
  have hmod := Nat.mod_lt n (spacing_pos n)
  have habove := Nat.add_one_mul (n / spacing n) (spacing n)
  unfold rounded roundQuotient
  dsimp only
  by_cases hbelow : 2 * (n % spacing n) < spacing n
  · rw [if_pos (by omega), if_pos hbelow]
  · by_cases hover : spacing n < 2 * (n % spacing n)
    · rw [if_neg (by omega), if_pos (by omega), if_neg hbelow, if_pos hover, habove]
    · rw [if_neg (by omega), if_neg (by omega), if_neg hbelow, if_neg hover,
        apply_ite (· * spacing n), habove]

theorem rounded_of_lt {n : Nat} (h : n < 2 ^ 53) : rounded n = n := by
  rw [rounded_eq, spacing_of_lt h, roundQuotient_one, Nat.mul_one]

/-- No integer is further from what it stands for than half the spacing. -/
theorem rounded_near (n : Nat) :
    2 * rounded n ≤ 2 * n + spacing n ∧ 2 * n ≤ 2 * rounded n + spacing n := by
  have hdiv := Nat.div_add_mod' n (spacing n)
  rw [rounded_eq]
  rcases roundQuotient_cases n (spacing n) with ⟨hq, hr⟩ | ⟨hq, hr⟩
  · rw [hq]
    omega
  · have hmod := Nat.mod_lt n (spacing_pos n)
    have habove := Nat.add_one_mul (n / spacing n) (spacing n)
    rw [hq]
    omega

/-- A pattern with exponent field `k + 1023` and fifty-two more digits behind the leading one, and the
integer that it stands for. -/
structure Stands (pattern w k q : Nat) : Prop where
  pattern_eq : pattern = (k + 1022) * mantissas + q
  integer_eq : w * mantissas = q * 2 ^ k
  low : mantissas ≤ q
  high : q < 2 * mantissas

theorem Stands.exponent_le {p p' w k k' q q' : Nat} (h : Stands p w k q) (h' : Stands p' w k' q') :
    k ≤ k' := by
  refine Nat.le_of_not_lt fun hlt => ?_
  have hpow : 2 ^ (k' + 1) ≤ 2 ^ k := Nat.pow_le_pow_right (by decide) (by omega)
  have hlow : mantissas * 2 ^ (k' + 1) ≤ q * 2 ^ k := Nat.mul_le_mul h.low hpow
  have hhigh : q' * 2 ^ k' < 2 * mantissas * 2 ^ k' :=
    Nat.mul_lt_mul_of_pos_right h'.high (Nat.two_pow_pos k')
  rw [← h.integer_eq, h'.integer_eq, Nat.pow_succ'] at hlow
  rw [Nat.mul_comm 2 mantissas, Nat.mul_assoc] at hhigh
  omega

/-- Patterns are the same just if they stand for the same integer. -/
theorem Stands.pattern_eq_iff {p p' w w' k k' q q' : Nat} (h : Stands p w k q)
    (h' : Stands p' w' k' q') : p = p' ↔ w = w' := by
  constructor
  · intro hp
    have hpattern := h.pattern_eq
    have hpattern' := h'.pattern_eq
    have hlow := h.low
    have hhigh := h.high
    have hlow' := h'.low
    have hhigh' := h'.high
    have hinteger := h.integer_eq
    have hinteger' := h'.integer_eq
    simp only [mantissas] at *
    obtain ⟨rfl, rfl⟩ : k = k' ∧ q = q' := by omega
    omega
  · rintro rfl
    obtain rfl : k = k' := Nat.le_antisymm (h.exponent_le h') (h'.exponent_le h)
    have hq : q * 2 ^ k = q' * 2 ^ k := h.integer_eq.symm.trans h'.integer_eq
    obtain rfl : q = q' := Nat.eq_of_mul_eq_mul_right (Nat.two_pow_pos k) hq
    rw [h.pattern_eq, h'.pattern_eq]

/-- Rounding up to the next power of two carries into the exponent. -/
theorem stands_of_le {p w k q : Nat} (hp : p = (k + 1022) * mantissas + q)
    (hw : w * mantissas = q * 2 ^ k) (hlow : mantissas ≤ q) (hhigh : q ≤ 2 * mantissas) :
    ∃ k q, Stands p w k q := by
  rcases Nat.lt_or_eq_of_le hhigh with hlt | rfl
  · exact ⟨k, q, hp, hw, hlow, hlt⟩
  · refine ⟨k + 1, mantissas, ?_, ?_, Nat.le_refl _, by decide⟩
    · rw [hp, Nat.add_right_comm k 1 1022, Nat.add_one_mul (k + 1022)]
      omega
    · rw [hw, Nat.pow_succ', ← Nat.mul_assoc, Nat.mul_comm mantissas 2]

/-- Scaled by the power of two that goes with its size, an integer has fifty-three digits before the
point, or it has no others. -/
theorem exists_scaled {n : Nat} (h : 0 < n) : ∃ a d, scaled n 1 ((n.log2 : Int) - 52) = (a, d) ∧
    mantissas ≤ a / d ∧ a / d < 2 * mantissas ∧
    rounded n * mantissas = roundQuotient a d * 2 ^ n.log2 := by
  have hlow : 2 ^ n.log2 ≤ n := Nat.log2_self_le (Nat.ne_of_gt h)
  have hhigh : n < 2 ^ (n.log2 + 1) := Nat.lt_log2_self
  rcases Nat.lt_or_ge n.log2 52 with hlog | hlog
  · obtain ⟨j, hj⟩ : ∃ j, n.log2 + (j + 1) = 52 := ⟨51 - n.log2, by omega⟩
    have hexponent : (n.log2 : Int) - 52 = Int.negSucc j := by omega
    have hpow : 2 ^ n.log2 * 2 ^ (j + 1) = mantissas := by rw [← Nat.pow_add, hj]; rfl
    have hpos : 0 < 2 ^ (j + 1) := Nat.two_pow_pos _
    have hfew : n < 2 ^ 53 :=
      Nat.lt_of_lt_of_le hhigh (Nat.pow_le_pow_right (by decide) (by omega))
    refine ⟨n * 2 ^ (j + 1), 1, ?_, ?_, ?_, ?_⟩
    · rw [hexponent]
      rfl
    · rw [Nat.div_one, ← hpow]
      exact Nat.mul_le_mul_right _ hlow
    · rw [Nat.div_one, ← hpow, ← Nat.mul_assoc, ← Nat.pow_succ']
      exact Nat.mul_lt_mul_of_pos_right hhigh hpos
    · rw [rounded_of_lt hfew, roundQuotient_one, ← hpow, Nat.mul_assoc, Nat.mul_comm (2 ^ (j + 1))]
  · obtain ⟨j, hj⟩ : ∃ j, n.log2 = 52 + j := ⟨n.log2 - 52, by omega⟩
    have hexponent : (n.log2 : Int) - 52 = (j : Int) := by
      rw [hj]
      omega
    have hpow : 2 ^ n.log2 = mantissas * 2 ^ j := by rw [hj, Nat.pow_add]; rfl
    have hpos : 0 < 2 ^ j := Nat.two_pow_pos _
    have hspacing : spacing n = 2 ^ j := by rw [spacing, hj, Nat.add_sub_cancel_left]
    refine ⟨n, 2 ^ j, ?_, ?_, ?_, ?_⟩
    · rw [hexponent]
      show (n, 1 * Nat.pow 2 j) = _
      rw [Nat.one_mul]
      rfl
    · rwa [Nat.le_div_iff_mul_le hpos, ← hpow]
    · rwa [Nat.div_lt_iff_lt_mul hpos, Nat.mul_assoc, ← hpow, ← Nat.pow_succ']
    · rw [rounded_eq, hspacing, hpow, Nat.mul_assoc, Nat.mul_comm (2 ^ j)]

theorem le_roundQuotient {a d m : Nat} (h : m ≤ a / d) : m ≤ roundQuotient a d := by
  rcases roundQuotient_cases a d with ⟨hq, -⟩ | ⟨hq, -⟩ <;> omega

/-- Rounding takes no binary digit away. -/
theorem two_pow_log2_le_rounded {n : Nat} (h : 0 < n) : 2 ^ n.log2 ≤ rounded n := by
  obtain ⟨a, d, -, hlow, -, hrounded⟩ := exists_scaled h
  refine Nat.le_of_mul_le_mul_right ?_ (show 0 < mantissas by decide)
  rw [hrounded, Nat.mul_comm]
  exact Nat.mul_le_mul_right _ (le_roundQuotient hlow)

theorem rounded_pos {n : Nat} (h : 0 < n) : 0 < rounded n :=
  Nat.lt_of_lt_of_le (Nat.two_pow_pos _) (two_pow_log2_le_rounded h)

/-- No other integer stands for one of at most fifty-three binary digits. -/
theorem eq_of_rounded_eq {m n : Nat} (hn : n < 2 ^ 53) (h : rounded m = rounded n) : m = n := by
  rw [rounded_of_lt hn] at h
  rcases Nat.lt_or_ge m (2 ^ 53) with hm | hm
  · rwa [rounded_of_lt hm] at h
  · have hpos : 0 < m := Nat.lt_of_lt_of_le (by decide) hm
    have hlog : 53 ≤ m.log2 := (Nat.le_log2 (Nat.ne_of_gt hpos)).2 hm
    have hpow : 2 ^ 53 ≤ 2 ^ m.log2 := Nat.pow_le_pow_right (by decide) hlog
    have hrounded := two_pow_log2_le_rounded hpos
    omega

/-- The pattern nearest to an integer stands for the rounded one. -/
theorem exists_stands {n : Nat} (h : 0 < n) (hlog : n.log2 < 1023) :
    ∃ k q, Stands (nearestPattern n 1) (rounded n) k q := by
  obtain ⟨a, d, hscaled, hlow, hhigh, hrounded⟩ := exists_scaled h
  have hguess : max (-1074) ((n.log2 : Int) - (Nat.log2 1 : Nat) - 52) = (n.log2 : Int) - 52 := by
    rw [show Nat.log2 1 = 0 from rfl]
    omega
  have hexponent : exponentOf n 1 = (n.log2 : Int) - 52 := by
    unfold exponentOf
    simp only [hguess, hscaled]
    exact if_neg (Nat.not_lt.2 hlow)
  have hq : roundQuotient a d ≤ 2 * mantissas := by
    rcases roundQuotient_cases a d with ⟨hq, -⟩ | ⟨hq, -⟩ <;> omega
  have hfield : ((n.log2 : Int) - 52 + 1074).toNat = n.log2 + 1022 := by omega
  have hfinite : (n.log2 + 1022) * mantissas + roundQuotient a d ≤ infinityBits := by
    have hmul : (n.log2 + 1022) * mantissas ≤ 2044 * mantissas :=
      Nat.mul_le_mul_right _ (by omega)
    have hinfinity : infinityBits = 2047 * mantissas := rfl
    omega
  have hpattern : nearestPattern n 1 = (n.log2 + 1022) * mantissas + roundQuotient a d := by
    unfold nearestPattern
    simp only [if_neg (Nat.ne_of_gt h), hexponent, hscaled, hfield]
    exact Nat.min_eq_right hfinite
  exact stands_of_le hpattern hrounded (le_roundQuotient hlow) hq

theorem nearestPattern_pos {n : Nat} (h : 0 < n) (hlog : n.log2 < 1023) :
    0 < nearestPattern n 1 := by
  obtain ⟨k, q, hstands⟩ := exists_stands h hlog
  have hmantissas : 0 < mantissas := by decide
  have hpattern := hstands.pattern_eq
  have hlow := hstands.low
  omega

theorem nearestPattern_eq_iff {m n : Nat} (hm : m.log2 < 1023) (hn : n.log2 < 1023) :
    nearestPattern m 1 = nearestPattern n 1 ↔ rounded m = rounded n := by
  rcases Nat.eq_zero_or_pos m with rfl | hposm <;> rcases Nat.eq_zero_or_pos n with rfl | hposn
  · exact iff_of_true rfl rfl
  · exact iff_of_false (Nat.ne_of_lt (nearestPattern_pos hposn hn)) (Nat.ne_of_lt (rounded_pos hposn))
  · exact iff_of_false (Nat.ne_of_gt (nearestPattern_pos hposm hm)) (Nat.ne_of_gt (rounded_pos hposm))
  · obtain ⟨k, q, hstands⟩ := exists_stands hposm hm
    obtain ⟨k', q', hstands'⟩ := exists_stands hposn hn
    exact hstands.pattern_eq_iff hstands'

theorem nearestPattern_lt (num den : Nat) : nearestPattern num den < signBit := by
  have hinfinity : infinityBits < signBit := by decide
  unfold nearestPattern
  split
  · decide
  · exact Nat.lt_of_le_of_lt (Nat.min_le_left _ _) hinfinity

theorem toNat_ofMagnitude {negative : Bool} {p : Nat} (h : p < signBit) :
    (ofMagnitude negative p).bits.toNat = if negative then signBit + p else p := by
  have hsign : signBit + signBit = 2 ^ 64 := by decide
  unfold ofMagnitude
  rw [UInt64.toNat_ofNat']
  apply Nat.mod_eq_of_lt
  split <;> omega

theorem magnitude_ofMagnitude {negative : Bool} {p : Nat} (h : p < signBit) :
    (ofMagnitude negative p).magnitude = p := by
  unfold magnitude
  rw [toNat_ofMagnitude h]
  split
  · rw [Nat.add_mod_left, Nat.mod_eq_of_lt h]
  · exact Nat.mod_eq_of_lt h

theorem ofMagnitude_inj {a b : Bool} {p q : Nat} (hp : p < signBit) (hq : q < signBit) :
    ofMagnitude a p = ofMagnitude b q ↔ a = b ∧ p = q := by
  constructor
  · intro h
    have hbits : (ofMagnitude a p).bits.toNat = (ofMagnitude b q).bits.toNat := by rw [h]
    rw [toNat_ofMagnitude hp, toNat_ofMagnitude hq] at hbits
    cases a <;> cases b <;> simp at hbits ⊢ <;> omega
  · rintro ⟨rfl, rfl⟩
    rfl

theorem log2_natAbs_lt {n : Int} (h : Number.InRange n) : n.natAbs.log2 < 64 := by
  have hrange : n.natAbs < 2 ^ 64 := by
    unfold Number.InRange Text.signedBound Text.unsignedBound at h
    omega
  rcases Nat.eq_zero_or_pos n.natAbs with hzero | hpos
  · rw [hzero]
    decide
  · exact (Nat.log2_lt (Nat.ne_of_gt hpos)).2 hrange

/-- No integer is read as the negative zero. -/
theorem canonical_ofInt {n : Int} (h : Number.InRange n) : (ofInt n).canonical = ofInt n := by
  unfold canonical
  split
  · next hzero =>
    have hlog := log2_natAbs_lt h
    unfold ofInt nearest at hzero
    rw [magnitude_ofMagnitude (nearestPattern_lt _ _)] at hzero
    rcases Nat.eq_zero_or_pos n.natAbs with hn | hn
    · rw [Int.natAbs_eq_zero.1 hn]
      rfl
    · have hpos := nearestPattern_pos hn (by omega)
      omega
  · rfl

/-- Integers are read as one number just if they stand for one integer. -/
theorem same_ofInt_iff {m n : Int} (hm : Number.InRange m) (hn : Number.InRange n) :
    Same (ofInt m) (ofInt n) ↔ roundedInteger m = roundedInteger n := by
  have hlogm := log2_natAbs_lt hm
  have hlogn := log2_natAbs_lt hn
  unfold Same
  rw [canonical_ofInt hm, canonical_ofInt hn]
  unfold ofInt nearest
  rw [ofMagnitude_inj (nearestPattern_lt _ _) (nearestPattern_lt _ _),
    nearestPattern_eq_iff (by omega) (by omega), decide_eq_decide]
  have hposm (h : m < 0) : 0 < rounded m.natAbs := rounded_pos (by omega)
  have hposn (h : n < 0) : 0 < rounded n.natAbs := rounded_pos (by omega)
  unfold roundedInteger
  split <;> split <;> omega

/-- Integers of sixty-four bits that stand for the same one are not far apart. -/
theorem near_of_roundedInteger_eq {m n : Int} (hm : Number.InRange m) (hn : Number.InRange n)
    (h : roundedInteger m = roundedInteger n) : (m - n).natAbs ≤ 2048 := by
  have hspacing {n : Int} (hn : Number.InRange n) : spacing n.natAbs ≤ 2 ^ 11 := by
    have hlog := log2_natAbs_lt hn
    exact Nat.pow_le_pow_right (by decide) (by omega)
  have hspacingm := hspacing hm
  have hspacingn := hspacing hn
  have hnearm := rounded_near m.natAbs
  have hnearn := rounded_near n.natAbs
  unfold roundedInteger at h
  split at h <;> split at h <;> omega

theorem eq_of_roundedInteger_eq {m n : Int} (hn : n.natAbs < 2 ^ 53)
    (h : roundedInteger m = roundedInteger n) : m = n := by
  have hmag : rounded m.natAbs = rounded n.natAbs := by
    unfold roundedInteger at h
    split at h <;> split at h <;> omega
  have habs := eq_of_rounded_eq hn hmag
  have hposm (h : m < 0) : 0 < rounded m.natAbs := rounded_pos (by omega)
  have hposn (h : n < 0) : 0 < rounded n.natAbs := rounded_pos (by omega)
  unfold roundedInteger at h
  split at h <;> split at h <;> omega

end Double
end FleetCatalog
