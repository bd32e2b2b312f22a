import FleetCatalog.Proofs.Decimal.Reading
import FleetCatalog.Schema
import FleetCatalog.Value.Text

/-! What a schema asks of properties, rule by rule, and what it makes of a text that stands for another
value. Truth values and integers are as good in text as they are by themselves, with one exception:
an integer beyond the signed range is an integer, but no text is read as one. -/
namespace FleetCatalog

/-- A property is there if the rule requires it, and if it is there it has the type. -/
def Rule.Satisfied (r : Rule) (given : Option Value) : Prop :=
  (r.required = true → given ≠ none) ∧
    ∀ t v, r.type = some t → given = some v → t.admits v = true

theorem Rule.violation_eq_none_iff {r : Rule} {given : Option Value} :
    r.violation given = none ↔ r.Satisfied given := by
  obtain ⟨required, type⟩ := r
  unfold Rule.violation Rule.Satisfied
  cases given with
  | none => cases required <;> simp
  | some v =>
    cases type with
    | none => simp
    | some t => cases h : t.admits v <;> simp [h]

theorem Rule.satisfied_some_iff {r : Rule} {t : PropertyType} {v : Value} (ht : r.type = some t) :
    r.Satisfied (some v) ↔ t.admits v = true := by
  simp [Rule.Satisfied, ht]

namespace Schema

/-- Every rule is satisfied. -/
def Satisfied (s : Schema) (properties : Mapping) : Prop :=
  ∀ name r, s.rules.get? name = some r → r.Satisfied (Fields.get? name properties)

variable {s : Schema} {properties : Mapping}

theorem get?_violations (s : Schema) (properties : Mapping) (name : String) :
    (s.violations properties).get? name =
      (s.rules.get? name).bind fun r => r.violation (Fields.get? name properties) :=
  SortedMap.get?_filterMap s.rules _ name

/-- The check finds no violation just if there is none. -/
theorem isEmpty_violations_iff : (s.violations properties).isEmpty = true ↔ s.Satisfied properties := by
  rw [SortedMap.isEmpty_iff_get?]
  refine forall_congr' fun name => ?_
  rw [get?_violations]
  simp only [Option.bind_eq_none_iff, Rule.violation_eq_none_iff]

end Schema

/-- A truth value or an integer of sixty-four bits. -/
def Value.Discrete : Value → Prop
  | .bool _ => True
  | .number (.int n) => Number.InRange n
  | _ => False

namespace PropertyType

/-- An integer beyond the signed range where an integer is asked for. -/
def Oversized (t : PropertyType) (v : Value) : Prop :=
  t = .int ∧ ∃ n, v = .number (.int n) ∧ Text.signedBound ≤ n

variable {t : PropertyType} {v : Value}

theorem Oversized.admits (h : t.Oversized v) : t.admits v = true := by
  obtain ⟨rfl, n, rfl, -⟩ := h
  rfl

theorem admits_text_bool (ht : t ≠ .string) (b : Bool) :
    t.admits (.string (Value.bool b).text) = t.admits (.bool b) := by
  cases t with
  | string => exact absurd rfl ht
  | int | uint | float | bool => cases b <;> rfl

theorem admits_text_int (ht : t ≠ .string) {n : Int} (hn : Number.InRange n) :
    t.admits (.string (Value.number (.int n)).text) = true ↔
      t.admits (.number (.int n)) = true ∧ (t = .int → n < Text.signedBound) := by
  have htext : (Value.number (.int n)).text.toList = Double.integerText n := String.toList_ofList
  obtain ⟨hlow, hhigh⟩ := hn
  cases t with
  | string => exact absurd rfl ht
  | int =>
    show (Text.signed? (String.toList _)).isSome = true ↔ _
    rw [htext, Double.signed?_integerText]
    simp [admits, hlow]
  | uint =>
    show (Text.unsigned? (String.toList _)).isSome = true ↔ _
    rw [htext, Double.unsigned?_integerText]
    simp [admits, hhigh]
  | float =>
    show Text.isFloat (String.toList _) = true ↔ _
    rw [htext, Double.isFloat_integerText]
    simp [admits]
  | bool =>
    show (Text.bool? (String.toList _)).isSome = true ↔ _
    rw [htext, Double.bool?_integerText]
    simp [admits]

/-- The text of a truth value or an integer is of a type just if the value is, unless the value is an
integer too large for the reader of the type. -/
theorem admits_text_iff (ht : t ≠ .string) (hv : v.Discrete) :
    t.admits (.string v.text) = true ↔ t.admits v = true ∧ ¬ t.Oversized v := by
  cases v with
  | bool b =>
    rw [admits_text_bool ht]
    simp [Oversized]
  | number n =>
    cases n with
    | float x => exact hv.elim
    | int n =>
      rw [admits_text_int ht hv]
      simp [Oversized]
  | _ => exact hv.elim

end PropertyType

namespace Schema
variable {s : Schema} {key : String} {r : Rule} {t : PropertyType} {v : Value}

theorem satisfied_put_iff (hrule : s.rules.get? key = some r) (v : Value) (properties : Mapping) :
    s.Satisfied (Fields.put key v properties) ↔ r.Satisfied (some v) ∧
      ∀ name q, name ≠ key → s.rules.get? name = some q →
        q.Satisfied (Fields.get? name properties) := by
  constructor
  · intro h
    refine ⟨?_, fun name q hne hq => ?_⟩
    · have hkey := h key r hrule
      rwa [Fields.get?_put_self] at hkey
    · have hname := h name q hq
      rwa [Fields.get?_put_of_ne hne] at hname
  · rintro ⟨hkey, hrest⟩ name q hq
    by_cases hne : name = key
    · subst hne
      cases hrule.symm.trans hq
      rwa [Fields.get?_put_self]
    · rw [Fields.get?_put_of_ne hne]
      exact hrest name q hne hq

/-- Properties with a truth value or an integer are accepted just if they are with its text in its
place, whatever else they hold. The exception is an integer beyond the signed range under a rule that
asks for an integer: the value conforms to the rule and its text is reported as of the wrong type. -/
theorem text_accepted_iff (properties : Mapping) (hrule : s.rules.get? key = some r)
    (htype : r.type = some t) (ht : t ≠ .string) (hv : v.Discrete) :
    (¬ t.Oversized v → ((s.violations (Fields.put key (.string v.text) properties)).isEmpty = true ↔
      (s.violations (Fields.put key v properties)).isEmpty = true)) ∧
    (t.Oversized v → (s.violations (Fields.put key v properties)).get? key = none ∧
      (s.violations (Fields.put key (.string v.text) properties)).get? key =
        some (.mistyped .int "string")) := by
  have hadmits := PropertyType.admits_text_iff ht hv
  constructor
  · intro hfits
    rw [and_iff_left hfits] at hadmits
    rw [isEmpty_violations_iff, isEmpty_violations_iff, satisfied_put_iff hrule,
      satisfied_put_iff hrule, Rule.satisfied_some_iff htype, Rule.satisfied_some_iff htype, hadmits]
  · intro hover
    have htext : t.admits (.string v.text) = false :=
      Bool.eq_false_iff.2 fun h => (hadmits.1 h).2 hover
    simp only [get?_violations, hrule, Option.bind_some, Fields.get?_put_self]
    refine ⟨?_, ?_⟩
    · rw [Rule.violation_eq_none_iff, Rule.satisfied_some_iff htype]
      exact hover.admits
    · obtain ⟨rfl, -⟩ := hover
      rw [Rule.violation]
      simp [htype, htext, Value.shape]

/-- The number `2 ^ 63` is an integer to the check, and its text is not. -/
theorem text_of_oversized_refused :
    ¬ ∀ (s : Schema) (key : String) (r : Rule) (t : PropertyType) (v : Value) (properties : Mapping),
      s.rules.get? key = some r → r.type = some t → t ≠ .string → v.Discrete →
      ((s.violations (Fields.put key (.string v.text) properties)).isEmpty = true ↔
        (s.violations (Fields.put key v properties)).isEmpty = true) := by
  intro h
  have hiff := h ⟨.ofList [("size", { type := some .int })]⟩ "size" { type := some .int } .int
    (.number (.int 9223372036854775808)) [] rfl rfl (by decide) (show Number.InRange _ by decide)
  exact absurd (hiff.2 (by decide +kernel)) (by decide +kernel)

/-- The largest signed integer is taken in both forms, and the largest unsigned one in one of them. -/
theorem text_accepted_largest :
    let s : Schema := ⟨.ofList [("size", { required := true, type := some .int })]⟩
    (s.violations [("size", .string "9223372036854775807")]).isEmpty = true ∧
    (s.violations [("size", .number (.int 18446744073709551615))]).get? "size" = none ∧
    (s.violations [("size", .string "18446744073709551615")]).get? "size" =
      some (.mistyped .int "string") := by
  intro s
  have hfits : ¬ PropertyType.int.Oversized (.number (.int 9223372036854775807)) := by
    rintro ⟨-, n, hn, hover⟩
    cases hn
    exact absurd hover (by decide)
  have hover : PropertyType.int.Oversized (.number (.int 18446744073709551615)) :=
    ⟨rfl, _, rfl, by decide⟩
  have hrule : s.rules.get? "size" = some { required := true, type := some .int } := rfl
  have hlargest := (text_accepted_iff (t := .int) (v := .number (.int 9223372036854775807)) [] hrule
    rfl (by decide) (show Number.InRange _ by decide)).1 hfits
  have hunsigned := (text_accepted_iff (t := .int) (v := .number (.int 18446744073709551615)) [] hrule
    rfl (by decide) (show Number.InRange _ by decide)).2 hover
  have htext : (Value.number (.int 9223372036854775807)).text = "9223372036854775807" := by
    decide +kernel
  have htext' : (Value.number (.int 18446744073709551615)).text = "18446744073709551615" := by
    decide +kernel
  rw [htext] at hlargest
  rw [htext'] at hunsigned
  exact ⟨hlargest.2 (by decide +kernel), hunsigned⟩

end Schema
end FleetCatalog
