import FleetCatalog.Proofs.Decimal.Integer
import FleetCatalog.Proofs.Patch.Sequence

/-! Which entry of a sequence a payload replaces or removes: the first mapping whose value under the
key is like the payload's. Two integers are alike if they are read as one floating-point number, and
two mappings that both lack the key are alike too. -/
namespace FleetCatalog.Patch
open Double (roundedInteger)

/-- Patching a sequence touches the entry between `pre` and `post`: adding puts the payload in its
place, removing takes it out. -/
structure Touched (key : String) (payload : Mapping) (action : Action) (items pre : List Value)
    (entry : Value) (post : List Value) : Prop where
  split : items = pre ++ entry :: post
  patched : sequence items payload key action =
    ⟨true, pre ++ (action.entries (.mapping payload) ++ post)⟩

/-- A mapping with a value under the key. -/
def Keyed (key : String) : Value → Prop
  | .mapping fs => (Fields.get? key fs).isSome = true
  | _ => False

instance (key : String) : (v : Value) → Decidable (Keyed key v)
  | .mapping fs => inferInstanceAs (Decidable ((Fields.get? key fs).isSome = true))
  | .null | .bool _ | .number _ | .string _ | .sequence _ => inferInstanceAs (Decidable False)

variable {key : String} {payload fs : Mapping} {action : Action} {items pre post : List Value}
  {entry : Value} {m n : Int}

theorem addresses_eq (hkey : key ≠ "") :
    (fun entry => decide (key ≠ "") && addresses key payload entry) = addresses key payload := by
  funext entry
  rw [decide_eq_true hkey, Bool.true_and]

theorem Touched.of_first (hkey : key ≠ "") (h : First (addresses key payload) items pre entry post)
    (action : Action) : Touched key payload action items pre entry post := by
  refine ⟨h.split, ?_⟩
  rw [sequence, addresses_eq hkey]
  exact patchFirst_of_first h _ action

theorem Touched.exists_first (hkey : key ≠ "")
    (h : Touched key payload action items pre entry post) :
    ∃ pre post, First (addresses key payload) items pre entry post := by
  have hresult := congrArg Patched.result h.patched
  rw [sequence, addresses_eq hkey] at hresult
  exact exists_first_of_patched h.split hresult

theorem sequence_eq_append_iff (hkey : key ≠ "") (items : List Value) (payload : Mapping)
    (action : Action) : sequence items payload key action =
      ⟨decide (action = .add), items ++ action.entries (.mapping payload)⟩ ↔
        ∀ entry ∈ items, addresses key payload entry = false := by
  rw [sequence, addresses_eq hkey]
  exact patchFirst_eq_append_iff

theorem isSome_eq_of_alike {o o' : Option Value} (h : alike o o' = true) : o.isSome = o'.isSome := by
  cases o with
  | none =>
    cases o' with
    | none => rfl
    | some v => cases h
  | some v =>
    cases o' with
    | none => cases v <;> cases h
    | some w => rfl

/-- Only a mapping is addressed, and it has the key just if the payload has it. -/
theorem keyed_iff_of_addresses (h : addresses key payload entry = true) :
    Keyed key entry ↔ Keyed key (.mapping payload) := by
  cases entry with
  | mapping fs =>
    have hsome : (Fields.get? key fs).isSome = (Fields.get? key payload).isSome :=
      isSome_eq_of_alike h
    simp only [Keyed, hsome]
  | _ => cases h

theorem exists_mapping_of_addresses (h : addresses key payload entry = true) :
    ∃ fs, entry = .mapping fs := by
  cases entry with
  | mapping fs => exact ⟨fs, rfl⟩
  | _ => cases h

theorem addresses_of_not_keyed (hpayload : ¬ Keyed key (.mapping payload))
    (hentry : ¬ Keyed key (.mapping fs)) : addresses key payload (.mapping fs) = true := by
  simp only [Keyed, Bool.not_eq_true, Option.isSome_eq_false_iff, Option.isNone_iff_eq_none] at *
  rw [addresses, hpayload, hentry]
  rfl

/-- A payload that lacks the key addresses no entry just if no mapping of the sequence lacks it. -/
theorem not_addressed_iff (hpayload : ¬ Keyed key (.mapping payload)) :
    (∀ entry ∈ items, addresses key payload entry = false) ↔
      ∀ fs, Value.mapping fs ∈ items → Keyed key (.mapping fs) := by
  constructor
  · intro h fs hmem
    refine Decidable.byContradiction fun hentry => ?_
    have haddressed := addresses_of_not_keyed hpayload hentry
    rw [h _ hmem] at haddressed
    cases haddressed
  · intro h entry hmem
    refine Bool.eq_false_iff.2 fun haddressed => hpayload ?_
    obtain ⟨fs, rfl⟩ := exists_mapping_of_addresses haddressed
    exact (keyed_iff_of_addresses haddressed).1 (h fs hmem)

/-- Whatever entry is touched has the key, and so has the payload, just if the payload has it or all
mappings of the sequence do. A payload that lacks the key leaves all entries as they are just if no
mapping lacks it. -/
theorem only_identified_touched_iff (hkey : key ≠ "") :
    ((∀ pre entry post, Touched key payload action items pre entry post →
        Keyed key entry ∧ Keyed key (.mapping payload)) ↔
      Keyed key (.mapping payload) ∨ ∀ fs, Value.mapping fs ∈ items → Keyed key (.mapping fs)) ∧
    (¬ Keyed key (.mapping payload) →
      (sequence items payload key .remove = ⟨false, items⟩ ↔
        ∀ fs, Value.mapping fs ∈ items → Keyed key (.mapping fs)) ∧
      (sequence items payload key .add = ⟨true, items ++ [.mapping payload]⟩ ↔
        ∀ fs, Value.mapping fs ∈ items → Keyed key (.mapping fs))) := by
  constructor
  · constructor
    · intro h
      by_cases hpayload : Keyed key (.mapping payload)
      · exact .inl hpayload
      · right
        rcases none_or_exists_first (addresses key payload) items with hnone | ⟨pre, entry, post, hfirst⟩
        · exact (not_addressed_iff hpayload).1 hnone
        · exact absurd (h pre entry post (.of_first hkey hfirst action)).2 hpayload
    · intro h pre entry post htouched
      obtain ⟨pre', post', hfirst⟩ := htouched.exists_first hkey
      have hiff := keyed_iff_of_addresses hfirst.holds
      rcases h with hpayload | hall
      · exact ⟨hiff.2 hpayload, hpayload⟩
      · obtain ⟨fs, rfl⟩ := exists_mapping_of_addresses hfirst.holds
        have hentry := hall fs hfirst.mem
        exact ⟨hentry, hiff.1 hentry⟩
  · intro hpayload
    have hremove := sequence_eq_append_iff hkey items payload .remove
    have hadd := sequence_eq_append_iff hkey items payload .add
    rw [not_addressed_iff hpayload] at hremove hadd
    rw [Action.entries, List.append_nil] at hremove
    exact ⟨hremove, hadd⟩

/-- A container without an identifier takes the place of another one, or removes it. -/
theorem keyless_entry_touched :
    (¬ ∀ (key : String) (payload : Mapping) (action : Action) (items pre : List Value) (entry : Value)
        (post : List Value), key ≠ "" → Touched key payload action items pre entry post →
        Keyed key entry ∧ Keyed key (.mapping payload)) ∧
    (¬ ∀ (key : String) (payload : Mapping) (items : List Value), key ≠ "" →
        ¬ Keyed key (.mapping payload) → sequence items payload key .remove = ⟨false, items⟩) ∧
    ¬ ∀ (key : String) (payload : Mapping) (items : List Value), key ≠ "" →
        ¬ Keyed key (.mapping payload) →
        sequence items payload key .add = ⟨true, items ++ [.mapping payload]⟩ := by
  refine ⟨fun h => ?_, fun h => ?_, fun h => ?_⟩
  · have htouched : Touched "id" [("image", .string "b")] .add [.mapping [("image", .string "a")]] []
        (.mapping [("image", .string "a")]) [] := ⟨rfl, rfl⟩
    exact absurd (h _ _ _ _ _ _ _ (by decide) htouched).2 (by decide)
  · cases h "id" [("image", .string "b")] [.mapping [("image", .string "a")]] (by decide) (by decide)
  · have hadd := h "id" [("image", .string "b")] [.mapping [("image", .string "a")]] (by decide)
      (by decide)
    exact absurd (congrArg (fun patched => patched.result.length) hadd) (by decide)

/-- Between entries that all have the identifier, or that are no mappings, a payload without it is
appended. -/
theorem only_identified_touched_keyed :
    let payload : Mapping := [("image", .string "b")]
    let items : List Value := [.mapping [("id", .string "a"), ("image", .string "b")], .string "b"]
    (∀ pre entry post, Touched "id" payload .remove items pre entry post →
      Keyed "id" entry ∧ Keyed "id" (.mapping payload)) ∧
    sequence items payload "id" .remove = ⟨false, items⟩ ∧
    sequence items payload "id" .add = ⟨true, items ++ [.mapping payload]⟩ := by
  intro payload items
  have hkeyed : ∀ fs, Value.mapping fs ∈ items → Keyed "id" (.mapping fs) := by
    intro fs hmem
    simp only [items, List.mem_cons, List.not_mem_nil, or_false, reduceCtorEq, Value.mapping.injEq] at hmem
    rw [hmem]
    rfl
  have h := @only_identified_touched_iff "id" payload .remove items (by decide)
  obtain ⟨hremove, hadd⟩ := h.2 (by decide)
  exact ⟨h.1.2 (.inr hkeyed), hremove.2 hkeyed, hadd.2 hkeyed⟩

theorem alike_int_iff (hm : Number.InRange m) (hn : Number.InRange n) :
    alike (some (.number (.int m))) (some (.number (.int n))) = true ↔
      roundedInteger m = roundedInteger n := by
  rw [← Double.same_ofInt_iff hm hn]
  exact decide_eq_true_iff

/-- An entry with an integer under the key is touched by a payload with an integer only if both stand
for the same integer, which below `2 ^ 53` means that they are equal and elsewhere that they are not
far apart. Where no earlier entry is addressed it is touched. -/
theorem integer_entry_touched (hkey : key ≠ "")
    (hpayload : Fields.get? key payload = some (.number (.int n))) (hn : Number.InRange n)
    (hsplit : items = pre ++ .mapping fs :: post)
    (hentry : Fields.get? key fs = some (.number (.int m))) (hm : Number.InRange m) :
    (Touched key payload action items pre (.mapping fs) post →
      roundedInteger m = roundedInteger n ∧ (m - n).natAbs ≤ 2048 ∧
        (m.natAbs < 2 ^ 53 ∨ n.natAbs < 2 ^ 53 → m = n)) ∧
    ((∀ entry ∈ pre, addresses key payload entry = false) → roundedInteger m = roundedInteger n →
      Touched key payload action items pre (.mapping fs) post) := by
  have haddresses : addresses key payload (.mapping fs) = true ↔
      roundedInteger m = roundedInteger n := by
    rw [addresses, hentry, hpayload]
    exact alike_int_iff hm hn
  constructor
  · intro htouched
    obtain ⟨pre', post', hfirst⟩ := htouched.exists_first hkey
    have hrounded := haddresses.1 hfirst.holds
    refine ⟨hrounded, Double.near_of_roundedInteger_eq hm hn hrounded, ?_⟩
    rintro (hfew | hfew)
    · exact (Double.eq_of_roundedInteger_eq hfew hrounded.symm).symm
    · exact Double.eq_of_roundedInteger_eq hfew hrounded
  · intro hbefore hrounded
    exact .of_first hkey ⟨hsplit, haddresses.2 hrounded, hbefore⟩ action

/-- The entry `2 ^ 53` is removed with a payload that has `2 ^ 53 + 1`. -/
theorem unequal_integers_touched :
    ¬ ∀ (key : String) (payload fs : Mapping) (action : Action) (items pre post : List Value)
        (m n : Int), key ≠ "" → Fields.get? key payload = some (.number (.int n)) →
        Number.InRange n → Fields.get? key fs = some (.number (.int m)) → Number.InRange m →
        Touched key payload action items pre (.mapping fs) post → m = n := by
  intro h
  have htouched : Touched "id" [("id", .number (.int 9007199254740993))] .remove
      [.mapping [("id", .number (.int 9007199254740992))]] []
      (.mapping [("id", .number (.int 9007199254740992))]) [] := ⟨rfl, rfl⟩
  exact absurd (h _ _ _ _ _ _ _ _ _ (by decide) rfl (by decide) rfl (by decide) htouched) (by decide)

/-- Both `2 ^ 53 + 3` and `2 ^ 53 + 5` stand for `2 ^ 53 + 4`, and `2 ^ 53 + 6` for itself. -/
theorem integer_entry_touched_rounded :
    let payload : Mapping := [("id", .number (.int 9007199254740995)), ("image", .string "b")]
    let other : Value := .mapping [("id", .number (.int 9007199254740998))]
    let fs : Mapping := [("id", .number (.int 9007199254740997))]
    roundedInteger 9007199254740995 = 9007199254740996 ∧
    roundedInteger 9007199254740997 = 9007199254740996 ∧
    sequence [other, .mapping fs, .null] payload "id" .add =
      ⟨true, [other, .mapping payload, .null]⟩ := by
  intro payload other fs
  have hbefore : ∀ entry ∈ [other], addresses "id" payload entry = false := by
    simp only [List.mem_singleton, forall_eq]
    decide +kernel
  have h := (@integer_entry_touched "id" payload fs .add [other, .mapping fs, .null] [other] [.null]
    9007199254740997 9007199254740995 (by decide) rfl (by decide) rfl rfl (by decide)).2
  exact ⟨by decide, by decide, (h hbefore (by decide)).patched⟩

end FleetCatalog.Patch
