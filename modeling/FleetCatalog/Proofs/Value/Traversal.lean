import FleetCatalog.Value
import FleetCatalog.Proofs.Outcome

/-! The string leaves of a value, and what a traversal of them that may fail gives. A mapping keeps its
keys, so that a key is looked up before or after. A traversal that undoes a replacement of the leaves
gives the value back. -/
namespace FleetCatalog

/-- Entries that are changed one by one have the same keys if each keeps its key. -/
theorem Fields.keys_of_forall₂ {R : String × Value → String × Value → Prop} {fs gs : Mapping}
    (hR : ∀ e e', R e e' → e'.1 = e.1) (h : List.Forall₂ R fs gs) :
    Fields.keys gs = Fields.keys fs := by
  induction h with
  | nil => rfl
  | cons he _ ih => exact congrArg₂ List.cons (hR _ _ he) ih

namespace Value

mutual
/-- The string leaves from the left. -/
def leaves : Value → List String
  | string s => [s]
  | sequence items => leavesItems items
  | mapping fs => leavesFields fs
  | _ => []

def leavesItems : List Value → List String
  | [] => []
  | v :: r => leaves v ++ leavesItems r

def leavesFields : List (String × Value) → List String
  | [] => []
  | (_, v) :: r => leaves v ++ leavesFields r
end

section Sequences
variable {m n : Type → Type} [Monad m] [Monad n]

/-- A relation between computations of two kinds and the leaves that they go through, which holds of a
sequence of computations if it holds of each. -/
structure Sequential (R : (α : Type) → List String → m α → n α → Prop) : Prop where
  pure {α : Type} (a : α) : R α [] (pure a) (pure a)
  bind {α β : Type} {s t : List String} {x : m α} {y : n α} {k : α → m β} {l : α → n β} :
    R α s x y → (∀ a, R β t (k a) (l a)) → R β (s ++ t) (x >>= k) (y >>= l)

variable {R : (α : Type) → List String → m α → n α → Prop} {f : String → m Value}
  {g : String → n Value}

/-- What is done with the result of a computation goes through no leaves. -/
theorem Sequential.map (hR : Sequential R) {α β : Type} {s : List String} {x : m α} {y : n α}
    (h : R α s x y) (k : α → β) :
    R β s (x >>= fun a => Pure.pure (k a)) (y >>= fun a => Pure.pure (k a)) := by
  simpa using hR.bind h fun a => hR.pure (k a)

mutual
/-- Two traversals are related if what they do at each leaf is. -/
theorem Sequential.traverse (hR : Sequential R) (h : ∀ t, R Value [t] (f t) (g t)) : ∀ v : Value,
    R Value v.leaves (v.traverse f) (v.traverse g)
  | null => hR.pure null
  | bool b => hR.pure (bool b)
  | number k => hR.pure (number k)
  | string t => h t
  | sequence items => hR.map (hR.traverseItems h items) sequence
  | mapping fs => hR.map (hR.traverseFields h fs) mapping

theorem Sequential.traverseItems (hR : Sequential R) (h : ∀ t, R Value [t] (f t) (g t)) :
    ∀ items : List Value, R _ (leavesItems items) (traverseItems f items) (traverseItems g items)
  | [] => hR.pure []
  | v :: r => hR.bind (hR.traverse h v) fun w => hR.map (hR.traverseItems h r) (w :: ·)

theorem Sequential.traverseFields (hR : Sequential R) (h : ∀ t, R Value [t] (f t) (g t)) :
    ∀ fs : Mapping, R _ (leavesFields fs) (traverseFields f fs) (traverseFields g fs)
  | [] => hR.pure []
  | (k, v) :: r => hR.bind (hR.traverse h v) fun w => hR.map (hR.traverseFields h r) ((k, w) :: ·)
end

end Sequences

section Outcome
variable {ω ε : Type} (f : String → Journal ω ε Value)

theorem sequential_outcome : Sequential (m := Journal ω ε) (n := Except ε)
    fun _ _ x y => x.outcome = y where
  pure _ := rfl
  bind h hk := by
    rw [Journal.bind_outcome, h]
    exact congrArg _ (funext hk)

/-- The outcome of a traversal is a traversal of the outcomes. -/
theorem traverse_outcome (v : Value) :
    (v.traverse f).outcome = v.traverse fun t => (f t).outcome :=
  sequential_outcome.traverse (fun _ => rfl) v

theorem traverseFields_outcome (fs : List (String × Value)) :
    (traverseFields f fs).outcome = traverseFields (fun t => (f t).outcome) fs :=
  sequential_outcome.traverseFields (fun _ => rfl) fs

end Outcome

section Failure
variable {ε : Type} {g : String → Except ε Value} {e : ε}

theorem sequential_failure (g : String → Except ε Value) :
    Sequential (m := Except ε) (n := Except ε)
      fun _ ts x _ => ∀ e, x = .error e → ∃ t ∈ ts, g t = .error e where
  pure _ _ h := by cases h
  bind hx hk e h := by
    obtain h | ⟨a, -, h⟩ := Except.bind_eq_error.1 h
    · obtain ⟨t, ht, hg⟩ := hx e h
      exact ⟨t, List.mem_append_left _ ht, hg⟩
    · obtain ⟨t, ht, hg⟩ := hk a e h
      exact ⟨t, List.mem_append_right _ ht, hg⟩

/-- A traversal fails as one of the leaves does. -/
theorem exists_leaf_of_traverse_eq_error {v : Value} (h : v.traverse g = .error e) :
    ∃ t ∈ v.leaves, g t = .error e :=
  (sequential_failure g).traverse (g := g) (fun t _ ht => ⟨t, List.mem_singleton_self t, ht⟩) v e h

end Failure

section Lookup
variable {ε : Type} {g : String → Except ε Value} {fs gs : Mapping}

/-- An entry and what a traversal makes of it. -/
def Traversed (g : String → Except ε Value) (e e' : String × Value) : Prop :=
  e'.1 = e.1 ∧ e.2.traverse g = .ok e'.2

theorem traverseFields_eq_ok_iff :
    traverseFields g fs = .ok gs ↔ List.Forall₂ (Traversed g) fs gs := by
  induction fs generalizing gs with
  | nil =>
    rw [List.forall₂_nil_left_iff]
    exact ⟨fun h => (Except.ok.inj h).symm, fun h => congrArg Except.ok h.symm⟩
  | cons e fs ih =>
    rw [List.forall₂_cons_left_iff, traverseFields, Except.bind_eq_ok]
    constructor
    · rintro ⟨w, hw, h⟩
      obtain ⟨ws, hws, h⟩ := Except.bind_eq_ok.1 h
      cases h
      exact ⟨(e.1, w), ws, ⟨rfl, hw⟩, ih.1 hws, rfl⟩
    · rintro ⟨⟨k, w⟩, ws, ⟨rfl, hw⟩, hws, rfl⟩
      exact ⟨w, hw, Except.bind_eq_ok.2 ⟨ws, ih.2 hws, rfl⟩⟩

/-- The entries are traversed one by one: all can be just if each of them can. -/
theorem exists_traverseFields_iff :
    (∃ gs, traverseFields g fs = .ok gs) ↔ ∀ e ∈ fs, ∃ w, e.2.traverse g = .ok w := by
  simp only [traverseFields_eq_ok_iff]
  induction fs with
  | nil => simp
  | cons e fs ih =>
    rw [List.forall_mem_cons, ← ih]
    constructor
    · rintro ⟨_, h⟩
      cases h with
      | cons he hrest => exact ⟨⟨_, he.2⟩, _, hrest⟩
    · rintro ⟨⟨w, hw⟩, gs, hgs⟩
      exact ⟨(e.1, w) :: gs, .cons ⟨rfl, hw⟩ hgs⟩

theorem keys_of_traverseFields (h : traverseFields g fs = .ok gs) :
    Fields.keys gs = Fields.keys fs :=
  Fields.keys_of_forall₂ (fun _ _ he => he.1) (traverseFields_eq_ok_iff.1 h)

theorem distinct_of_traverseFields (h : traverseFields g fs = .ok gs) (hfs : Fields.Distinct fs) :
    Fields.Distinct gs := by
  unfold Fields.Distinct at *
  rwa [keys_of_traverseFields h]

/-- A key is looked up among traversed entries as it is among the entries before. -/
theorem get?_of_traverseFields (h : traverseFields g fs = .ok gs) (key : String) :
    (Fields.get? key fs = none ∧ Fields.get? key gs = none) ∨
      ∃ v w, Fields.get? key fs = some v ∧ v.traverse g = .ok w ∧ Fields.get? key gs = some w := by
  rw [traverseFields_eq_ok_iff] at h
  induction h with
  | nil => exact .inl ⟨rfl, rfl⟩
  | @cons e e' fs gs he _ ih =>
    rw [Fields.get?_cons, Fields.get?_cons, he.1]
    by_cases hkey : e.1 = key
    · rw [if_pos hkey, if_pos hkey]
      exact .inr ⟨e.2, e'.2, rfl, he.2, rfl⟩
    · rwa [if_neg hkey, if_neg hkey]

/-- Entries that are picked by their keys are traversed like the others. -/
theorem traverseFields_filter (h : traverseFields g fs = .ok gs) (p : String → Bool) :
    traverseFields g (fs.filter fun e => p e.1) = .ok (gs.filter fun e => p e.1) := by
  rw [traverseFields_eq_ok_iff] at h ⊢
  induction h with
  | nil => exact .nil
  | @cons e e' fs gs he _ ih =>
    rw [List.filter_cons, List.filter_cons, he.1]
    split
    · exact .cons he ih
    · exact ih

end Lookup

section Replacement
variable {ε : Type} {f : String → String} {g : String → Except ε Value}

theorem mapStringsFields_eq_map (f : String → String) (fs : Mapping) :
    mapStringsFields f fs = fs.map fun e => (e.1, e.2.mapStrings f) := by
  induction fs with
  | nil => rfl
  | cons e fs ih => rw [mapStringsFields, ih, List.map_cons]

theorem mapStringsFields_append (f : String → String) (fs gs : Mapping) :
    mapStringsFields f (fs ++ gs) = mapStringsFields f fs ++ mapStringsFields f gs := by
  simp only [mapStringsFields_eq_map, List.map_append]

mutual
theorem traverse_mapStrings (hg : ∀ s, g (f s) = .ok (.string s)) : ∀ v : Value,
    (v.mapStrings f).traverse g = .ok v
  | null => rfl
  | bool _ => rfl
  | number _ => rfl
  | string s => hg s
  | sequence items => by
    rw [mapStrings, traverse, traverseItems_mapStringsItems hg items]
    rfl
  | mapping fs => by
    rw [mapStrings, traverse, traverseFields_mapStringsFields hg fs]
    rfl

theorem traverseItems_mapStringsItems (hg : ∀ s, g (f s) = .ok (.string s)) :
    ∀ items : List Value, traverseItems g (mapStringsItems f items) = .ok items
  | [] => rfl
  | v :: r => by
    rw [mapStringsItems, traverseItems, traverse_mapStrings hg v, traverseItems_mapStringsItems hg r]
    rfl

theorem traverseFields_mapStringsFields (hg : ∀ s, g (f s) = .ok (.string s)) :
    ∀ fs : List (String × Value), traverseFields g (mapStringsFields f fs) = .ok fs
  | [] => rfl
  | (k, v) :: r => by
    rw [mapStringsFields, traverseFields, traverse_mapStrings hg v,
      traverseFields_mapStringsFields hg r]
    rfl
end

mutual
theorem mapStrings_eq_self : ∀ {v : Value}, (∀ s ∈ v.leaves, f s = s) → v.mapStrings f = v
  | null, _ => rfl
  | bool _, _ => rfl
  | number _, _ => rfl
  | string s, h => congrArg string (h s (List.mem_singleton_self s))
  | sequence _, h => congrArg sequence (mapStringsItems_eq_self h)
  | mapping _, h => congrArg mapping (mapStringsFields_eq_self h)

theorem mapStringsItems_eq_self : ∀ {items : List Value}, (∀ s ∈ leavesItems items, f s = s) →
    mapStringsItems f items = items
  | [], _ => rfl
  | v :: r, h => by
    obtain ⟨hv, hr⟩ := List.forall_mem_append.1 h
    rw [mapStringsItems, mapStrings_eq_self hv, mapStringsItems_eq_self hr]

theorem mapStringsFields_eq_self : ∀ {fs : List (String × Value)},
    (∀ s ∈ leavesFields fs, f s = s) → mapStringsFields f fs = fs
  | [], _ => rfl
  | (k, v) :: r, h => by
    obtain ⟨hv, hr⟩ := List.forall_mem_append.1 h
    rw [mapStringsFields, mapStrings_eq_self hv, mapStringsFields_eq_self hr]
end

end Replacement
end Value
end FleetCatalog
