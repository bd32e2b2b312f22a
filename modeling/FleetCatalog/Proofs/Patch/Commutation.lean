import FleetCatalog.Proofs.Patch.Uniqueness

/-! Patches that are meant for different entries do not get in each other's way. Each replaces or removes
its own entry, whether the other one has been made before or is made after it, and reports the same. The
order shows only where both append, and then only in which of the last two entries comes first. -/
namespace FleetCatalog.Patch

section List
variable {α : Type} {p q : α → Bool} {a b : α} {s t : Action} {l r : List α}

theorem result_patchFirst_nil (p : α → Bool) (a : α) (s : Action) :
    (patchFirst p a s []).result = s.entries a := by
  cases s <;> rfl

/-- What is addressed is replaced or removed, and the search goes on behind what is not. -/
theorem result_patchFirst_cons (p : α → Bool) (a : α) (s : Action) (x : α) (l : List α) :
    (patchFirst p a s (x :: l)).result =
      if p x then s.entries a ++ l else x :: (patchFirst p a s l).result := by
  by_cases hx : p x = true
  · have hfirst : First p (x :: l) [] x l := ⟨rfl, hx, by simp⟩
    rw [patchFirst_of_first hfirst, if_pos hx, List.nil_append]
  · rw [if_neg hx]
    cases s with
    | add =>
      simp only [patchFirst, replaceFirst, if_neg hx]
      cases replaceFirst p [a] l <;> rfl
    | remove =>
      simp only [patchFirst, replaceFirst, if_neg hx]
      cases replaceFirst p [] l <;> rfl

/-- The search goes on behind any number of entries that are not addressed. -/
theorem result_patchFirst_append (hl : ∀ x ∈ l, p x = false) (a : α) (s : Action) (r : List α) :
    (patchFirst p a s (l ++ r)).result = l ++ (patchFirst p a s r).result := by
  induction l with
  | nil => rfl
  | cons x l ih =>
    have hx := hl x List.mem_cons_self
    rw [List.cons_append, result_patchFirst_cons, hx, ih fun y hy => hl y (List.mem_cons_of_mem x hy)]
    rfl

theorem changed_patchFirst (p : α → Bool) (a : α) (s : Action) (l : List α) :
    (patchFirst p a s l).changed = (decide (s = .add) || l.any p) := by
  obtain hnone | ⟨pre, x, post, hfirst⟩ := none_or_exists_first p l
  · have hany : l.any p = false := by simpa using hnone
    rw [patchFirst_of_none hnone, hany, Bool.or_false]
  · have hany : l.any p = true := List.any_eq_true.2 ⟨x, hfirst.mem, hfirst.holds⟩
    rw [patchFirst_of_first hfirst, hany, Bool.or_true]

theorem Action.length_entries_le (a : α) (s : Action) : (s.entries a).length ≤ 1 := by
  cases s <;> simp [Action.entries]

/-- Whether a patch appends its entry. -/
def Appends (p : α → Bool) (s : Action) (l : List α) : Prop := s = .add ∧ ∀ x ∈ l, p x = false

theorem appends_cons {x : α} (hx : p x = false) : Appends p s (x :: l) ↔ Appends p s l := by
  simp [Appends, hx]

theorem result_eq_append_iff : (patchFirst p a s l).result = l ++ [a] ↔ Appends p s l := by
  constructor
  · intro h
    obtain hnone | ⟨pre, x, post, hfirst⟩ := none_or_exists_first p l
    · rw [patchFirst_of_none hnone] at h
      cases s with
      | add => exact ⟨rfl, hnone⟩
      | remove => simp [Action.entries] at h
    · rw [patchFirst_of_first hfirst, hfirst.split] at h
      have hlength := congrArg List.length h
      have hentries := s.length_entries_le a
      simp only [List.length_append, List.length_cons, List.length_nil] at hlength
      omega
  · intro h
    rw [patchFirst_of_none h.2, h.1]
    rfl

/-- The patch of one test does not touch or put in what the other test asks for. -/
structure Apart (p q : α → Bool) (a : α) : Prop where
  disjoint : ∀ x, p x = true → q x = false
  entry : q a = false

theorem Apart.entries (h : Apart p q a) (s : Action) : ∀ x ∈ s.entries a, q x = false := by
  cases s with
  | add => simpa [Action.entries] using h.entry
  | remove => simp [Action.entries]

theorem Apart.any_result (h : Apart p q a) (s : Action) (l : List α) :
    (patchFirst p a s l).result.any q = l.any q := by
  induction l with
  | nil =>
    rw [result_patchFirst_nil]
    simpa using h.entries s
  | cons x l ih =>
    rw [result_patchFirst_cons]
    by_cases hx : p x = true
    · have hentries : (s.entries a).any q = false := by simpa using h.entries s
      rw [if_pos hx, List.any_append, hentries, List.any_cons, h.disjoint x hx]
    · rw [if_neg hx, List.any_cons, List.any_cons, ih]

/-- What a patch reports does not depend on whether the other one has been made. -/
theorem Apart.changed_eq (h : Apart p q a) (b : α) (s t : Action) (l : List α) :
    (patchFirst q b t (patchFirst p a s l).result).changed = (patchFirst q b t l).changed := by
  rw [changed_patchFirst, changed_patchFirst, h.any_result]

/-- Neither test finds an entry. -/
theorem Apart.result_of_none (h : Apart p q a) (hp : ∀ x ∈ l, p x = false)
    (hq : ∀ x ∈ l, q x = false) (b : α) (s t : Action) :
    (patchFirst q b t (patchFirst p a s l).result).result =
      l ++ (s.entries a ++ t.entries b) := by
  rw [patchFirst_of_none hp, result_patchFirst_append hq, patchFirst_of_none (h.entries s)]

/-- The first test finds its entry: the other patch is made behind what has been put there, as it is
behind the entry. -/
theorem Apart.result_cons (h : Apart p q a) {x : α} (hx : p x = true) (b : α) (s t : Action)
    (l : List α) : (patchFirst q b t (patchFirst p a s (x :: l)).result).result =
      (patchFirst p a s (patchFirst q b t (x :: l)).result).result := by
  have hqx := h.disjoint x hx
  rw [result_patchFirst_cons, if_pos hx, result_patchFirst_append (h.entries s),
    result_patchFirst_cons q, hqx, if_neg Bool.false_ne_true, result_patchFirst_cons, if_pos hx]

/-- Two patches that are apart leave the same in either order, unless both of them append. -/
theorem Apart.result_comm (h : Apart p q a) (h' : Apart q p b)
    (hone : ¬ (Appends p s l ∧ Appends q t l)) :
    (patchFirst q b t (patchFirst p a s l).result).result =
      (patchFirst p a s (patchFirst q b t l).result).result := by
  induction l with
  | nil =>
    rw [h.result_of_none (by simp) (by simp), h'.result_of_none (by simp) (by simp)]
    -- An action that does not append has nothing to put in.
    cases s <;> cases t <;> simp [Appends, Action.entries] at hone ⊢
  | cons x l ih =>
    by_cases hp : p x = true
    · exact h.result_cons hp b s t l
    · by_cases hq : q x = true
      · exact (h'.result_cons hq a t s l).symm
      · have hone' : ¬ (Appends p s l ∧ Appends q t l) := by
          rw [appends_cons (by simpa using hp), appends_cons (by simpa using hq)] at hone
          exact hone
        simp only [result_patchFirst_cons, if_neg hp, if_neg hq, ih hone']

/-- Removing what has been appended leaves the list that there was. -/
theorem patchFirst_remove_add (ha : p a = true) (hl : ∀ x ∈ l, p x = false) :
    patchFirst p a .remove (patchFirst p a .add l).result = ⟨true, l⟩ := by
  have hlast : First p (l ++ [a]) l a [] := ⟨rfl, ha, hl⟩
  rw [patchFirst_of_none hl, show (Action.entries a .add : List α) = [a] from rfl,
    patchFirst_of_first hlast]
  simp [Action.entries]

end List

variable {key : String} {p q : Mapping}

theorem alike_iff (o o' : Option Value) : alike o o' = true ↔ o.map keyForm = o'.map keyForm := by
  cases o with
  | none => cases o' <;> simp [alike]
  | some v =>
    cases o' with
    | none => cases v <;> simp [alike]
    | some w => simp [alike_some_iff, sameKey_iff]

/-- Payloads that are not alike under the key are meant for different entries. -/
theorem apart_of_not_alike (h : alike (Fields.get? key p) (Fields.get? key q) = false) :
    Apart (addresses key p) (addresses key q) (.mapping p) where
  entry := h
  disjoint entry hp := by
    obtain ⟨fs, rfl⟩ := exists_mapping_of_addresses hp
    rw [Bool.eq_false_iff] at h ⊢
    intro hq
    -- Being alike is an equivalence, so the entry would make the two payloads alike.
    rw [addresses, alike_iff] at hp hq
    exact h ((alike_iff _ _).2 (hp.symm.trans hq))

theorem alike_symm_false (h : alike (Fields.get? key p) (Fields.get? key q) = false) :
    alike (Fields.get? key q) (Fields.get? key p) = false := by
  rw [Bool.eq_false_iff, ne_eq, alike_iff] at h ⊢
  exact fun h' => h h'.symm

/-- Two patches with payloads that are not alike under the key report the same in either order, and
leave the same unless both of them append. Where no entry is addressed, adding a payload is undone by
removing it. -/
theorem independent_patches_commute (hkey : key ≠ "") :
    (∀ p q : Mapping, alike (Fields.get? key p) (Fields.get? key q) = false →
      ∀ (a b : Action) (items : List Value),
      let first := sequence items p key a
      let second := sequence items q key b
      let pq := sequence first.result q key b
      let qp := sequence second.result p key a
      pq.changed = second.changed ∧ qp.changed = first.changed ∧
      (¬ (first.result = items ++ [.mapping p] ∧ second.result = items ++ [.mapping q]) →
        pq.result = qp.result) ∧
      (first.result = items ++ [.mapping p] → second.result = items ++ [.mapping q] →
        pq.result = items ++ [.mapping p, .mapping q] ∧
          qp.result = items ++ [.mapping q, .mapping p])) ∧
    ∀ (payload : Mapping) (items : List Value),
      (∀ entry ∈ items, addresses key payload entry = false) →
      sequence (sequence items payload key .add).result payload key .remove = ⟨true, items⟩ := by
  simp only [sequence, addresses_eq hkey]
  constructor
  · intro p q hpq a b items
    have hap := apart_of_not_alike hpq
    have haq := apart_of_not_alike (alike_symm_false hpq)
    refine ⟨hap.changed_eq _ a b items, haq.changed_eq _ b a items, ?_, ?_⟩
    · intro hone
      rw [result_eq_append_iff, result_eq_append_iff] at hone
      exact hap.result_comm haq hone
    · intro hfirst hsecond
      obtain ⟨rfl, hp⟩ := result_eq_append_iff.1 hfirst
      obtain ⟨rfl, hq⟩ := result_eq_append_iff.1 hsecond
      exact ⟨hap.result_of_none hp hq _ _ _, haq.result_of_none hq hp _ _ _⟩
  · intro payload items hnone
    exact patchFirst_remove_add (addresses_self key payload) hnone

/-- An entry is removed in front of one that is replaced by an equal number, and two that are new are
appended. -/
theorem independent_patches_commute_numbers :
    let one : Mapping := [("id", .number (.int 1))]
    let float : Mapping := [("id", .number (.float (Double.ofInt 1)))]
    let text : Mapping := [("id", .string "1"), ("image", .string "a")]
    let items : List Value := [.mapping text, .null, .mapping one]
    let third : Mapping := [("id", .string "3")]
    let fourth : Mapping := [("id", .string "4")]
    alike (Fields.get? "id" float) (Fields.get? "id" text) = false ∧
    (sequence (sequence items float "id" .add).result text "id" .remove).result =
      (sequence (sequence items text "id" .remove).result float "id" .add).result ∧
    (sequence (sequence items third "id" .add).result fourth "id" .add).result =
      items ++ [.mapping third, .mapping fourth] ∧
    (sequence (sequence items fourth "id" .add).result third "id" .add).result =
      items ++ [.mapping fourth, .mapping third] ∧
    sequence (sequence items third "id" .add).result third "id" .remove = ⟨true, items⟩ := by
  intro one float text items third fourth
  obtain ⟨hcommute, hundo⟩ := @independent_patches_commute "id" (by decide)
  have halike : alike (Fields.get? "id" float) (Fields.get? "id" text) = false := by decide +kernel
  have hreplaced := (hcommute float text halike .add .remove items).2.2.1 (by decide +kernel)
  have happended := (hcommute third fourth (by decide +kernel) .add .add items).2.2.2
    (by decide +kernel) (by decide +kernel)
  exact ⟨halike, hreplaced, happended.1, happended.2, hundo third items (by decide +kernel)⟩

end FleetCatalog.Patch
