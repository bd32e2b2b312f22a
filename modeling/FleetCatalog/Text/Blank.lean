import FleetCatalog.Text.CharSet
/-!
# Surrounding white space

The white-space characters of the character standard, and their removal from the ends of a text.
-/
namespace FleetCatalog.Text

/-- The characters with the property White_Space. -/
def whiteSpace : CharSet := [
  (0x9, 0xd), (0x20, 0x20), (0x85, 0x85), (0xa0, 0xa0), (0x1680, 0x1680), (0x2000, 0x200a),
  (0x2028, 0x2029), (0x202f, 0x202f), (0x205f, 0x205f), (0x3000, 0x3000)]

def isBlank (c : Char) : Bool := whiteSpace.has c.toNat

/-- Without the white space at the front. -/
def trimStart (cs : List Char) : List Char := cs.dropWhile isBlank

/-- Without the white space at both ends. -/
def trim (cs : List Char) : List Char := (trimStart (trimStart cs).reverse).reverse

variable {cs : List Char}

theorem length_trimStart_le (cs : List Char) : (trimStart cs).length ≤ cs.length :=
  (cs.dropWhile_suffix isBlank).length_le

theorem trimStart_eq_self_iff :
    trimStart cs = cs ↔ ∀ c, cs.head? = some c → isBlank c = false := by
  cases cs with
  | nil => simp [trimStart]
  | cons d r =>
    cases hd : isBlank d with
    | false => simp [trimStart, hd]
    | true =>
      have hfirst : trimStart (d :: r) = trimStart r := by simp [trimStart, hd]
      have hne : trimStart r ≠ d :: r := fun h => by
        have hshort := length_trimStart_le r
        rw [h, List.length_cons] at hshort
        omega
      simp [hfirst, hne, hd]

/-- Just the text that neither starts nor ends with white space is left alone. -/
theorem trim_eq_self_iff : trim cs = cs ↔
    (∀ c, cs.head? = some c → isBlank c = false) ∧
      ∀ c, cs.getLast? = some c → isBlank c = false := by
  rw [← trimStart_eq_self_iff, ← List.head?_reverse, ← trimStart_eq_self_iff]
  unfold trim
  constructor
  · intro h
    have hlength := length_trimStart_le (trimStart cs).reverse
    rw [← List.length_reverse, h, List.length_reverse] at hlength
    have hfront : trimStart cs = cs := (cs.dropWhile_suffix isBlank).eq_of_length_le hlength
    rw [hfront] at h
    exact ⟨hfront, List.reverse_eq_iff.1 h⟩
  · rintro ⟨hfront, hback⟩
    rw [hfront, hback, List.reverse_reverse]

end FleetCatalog.Text
