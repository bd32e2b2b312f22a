import FleetCatalog.Fields
/-!
# Maps in key order

A finite map from strings kept in ascending key order, by code point. The order is part of the
type, so a map is determined by its lookups (`ext_get?`) and no operation has a premise.
-/
namespace FleetCatalog

/-- Entries in strictly ascending key order. -/
structure SortedMap (α : Type) where
  entries : List (String × α)
  ascending : entries.Pairwise fun a b => a.1 < b.1
  deriving DecidableEq

namespace SortedMap
variable {α β : Type}

/-- Gives `k` the value `v` in an ascending list of entries. -/
def place (k : String) (v : α) : List (String × α) → List (String × α)
  | [] => [(k, v)]
  | e :: r =>
    if k < e.1 then (k, v) :: e :: r
    else if k = e.1 then (k, v) :: r
    else e :: place k v r

theorem mem_place {k : String} {v : α} {x : String × α} {es : List (String × α)}
    (h : x ∈ place k v es) : x = (k, v) ∨ x ∈ es := by
  induction es with
  | nil => simpa [place] using h
  | cons e r ih =>
    unfold place at h
    split at h
    · simpa using h
    · split at h
      · rcases List.mem_cons.1 h with h | h
        · exact .inl h
        · exact .inr (List.mem_cons_of_mem _ h)
      · rcases List.mem_cons.1 h with h | h
        · exact .inr (h ▸ List.mem_cons_self)
        · exact (ih h).imp_right (List.mem_cons_of_mem _)

theorem lt_of_not_lt_of_ne {a b : String} (h : ¬ a < b) (hne : a ≠ b) : b < a := by
  rcases String.le_total a b with hab | hba
  · exact absurd (String.le_antisymm hab (String.not_lt.1 h)) hne
  · exact String.not_le.1 fun hab => hne (String.le_antisymm hab hba)

theorem pairwise_place {k : String} {v : α} {es : List (String × α)}
    (h : es.Pairwise fun a b => a.1 < b.1) :
    (place k v es).Pairwise fun a b => a.1 < b.1 := by
  induction es with
  | nil => simp [place]
  | cons e r ih =>
    obtain ⟨he, hr⟩ := List.pairwise_cons.1 h
    unfold place
    split
    · next hk =>
      refine List.pairwise_cons.2 ⟨fun x hx => ?_, h⟩
      rcases List.mem_cons.1 hx with rfl | hx
      · exact hk
      · exact String.lt_trans hk (he x hx)
    · next hk =>
      split
      · next hke => exact List.pairwise_cons.2 ⟨fun x hx => hke ▸ he x hx, hr⟩
      · next hke =>
        refine List.pairwise_cons.2 ⟨fun x hx => ?_, ih hr⟩
        rcases mem_place hx with rfl | hx
        · exact lt_of_not_lt_of_ne hk hke
        · exact he x hx

/-- The map without entries. -/
def empty : SortedMap α := ⟨[], .nil⟩

instance : EmptyCollection (SortedMap α) := ⟨empty⟩
instance : Inhabited (SortedMap α) := ⟨empty⟩

/-- The value at `k`. -/
def get? (m : SortedMap α) (k : String) : Option α := Fields.get? k m.entries

/-- Gives `k` the value `v`. -/
def insert (m : SortedMap α) (k : String) (v : α) : SortedMap α :=
  ⟨place k v m.entries, pairwise_place m.ascending⟩

/-- Leaves `k` without a value. -/
def erase (m : SortedMap α) (k : String) : SortedMap α :=
  ⟨Fields.erase k m.entries, m.ascending.sublist List.filter_sublist⟩

/-- Entries read in order, the last of equal keys counting. -/
def ofList (es : List (String × α)) : SortedMap α := es.foldl (fun m e => m.insert e.1 e.2) ∅

/-- The entries in key order. -/
def toList (m : SortedMap α) : List (String × α) := m.entries

/-- The keys in order. -/
def keys (m : SortedMap α) : List String := m.entries.map Prod.fst

/-- The number of entries. -/
def size (m : SortedMap α) : Nat := m.entries.length

/-- Whether there is no entry. -/
def isEmpty (m : SortedMap α) : Bool := m.entries.isEmpty

/-- The entries for which `f` gives a value, with that value. -/
def filterMap (f : String → α → Option β) (m : SortedMap α) : SortedMap β :=
  ⟨m.entries.filterMap fun e => (f e.1 e.2).map (e.1, ·), by
    refine (List.pairwise_filterMap).2 (m.ascending.imp ?_)
    intro a b hab x hx y hy
    obtain ⟨_, _, rfl⟩ := Option.map_eq_some_iff.1 hx
    obtain ⟨_, _, rfl⟩ := Option.map_eq_some_iff.1 hy
    exact hab⟩

theorem get?_place (j k : String) (v : α) (es : List (String × α)) :
    Fields.get? j (place k v es) = if j = k then some v else Fields.get? j es := by
  induction es with
  | nil => simp [place, Fields.get?_cons, eq_comm]
  | cons e r ih =>
    unfold place
    split
    · simp [Fields.get?_cons, eq_comm]
    · split
      · next h =>
        subst h
        by_cases hj : j = e.1
        · simp [Fields.get?_cons, hj]
        · simp [Fields.get?_cons, hj, Ne.symm hj]
      · next hk =>
        rw [Fields.get?_cons, ih, Fields.get?_cons]
        by_cases hj : e.1 = j
        · subst hj
          have : ¬ e.1 = k := fun h => hk h.symm
          simp [this]
        · simp [hj]

@[simp] theorem get?_empty (k : String) : (∅ : SortedMap α).get? k = none := rfl

theorem get?_insert (m : SortedMap α) (j k : String) (v : α) :
    (m.insert k v).get? j = if j = k then some v else m.get? j := get?_place j k v m.entries

theorem get?_erase (m : SortedMap α) (j k : String) :
    (m.erase k).get? j = if j = k then none else m.get? j := Fields.get?_erase j k m.entries

theorem get?_eq_some_iff (m : SortedMap α) (k : String) (v : α) :
    m.get? k = some v ↔ (k, v) ∈ m.entries := by
  obtain ⟨es, hes⟩ := m
  refine ⟨Fields.mem_of_get?_eq_some, fun h => ?_⟩
  show Fields.get? k es = some v
  induction es with
  | nil => cases h
  | cons e r ih =>
    obtain ⟨he, hr⟩ := List.pairwise_cons.1 hes
    rw [Fields.get?_cons]
    rcases List.mem_cons.1 h with rfl | h
    · exact if_pos rfl
    · have hne : e.1 ≠ k := fun hk => String.lt_irrefl k (hk ▸ he (k, v) h)
      rw [if_neg hne, ih hr h]

theorem get?_filterMap (m : SortedMap α) (f : String → α → Option β) (k : String) :
    (m.filterMap f).get? k = (m.get? k).bind (f k) := by
  apply Option.ext
  intro b
  rw [get?_eq_some_iff, Option.bind_eq_some_iff]
  show (k, b) ∈ m.entries.filterMap (fun e => (f e.1 e.2).map (e.1, ·)) ↔ _
  rw [List.mem_filterMap]
  constructor
  · rintro ⟨e, he, hb⟩
    obtain ⟨b', hb, heq⟩ := Option.map_eq_some_iff.1 hb
    cases heq
    exact ⟨e.2, (get?_eq_some_iff _ _ _).2 he, hb⟩
  · rintro ⟨a, ha, hb⟩
    exact ⟨(k, a), (get?_eq_some_iff _ _ _).1 ha, Option.map_eq_some_iff.2 ⟨b, hb, rfl⟩⟩

theorem mem_keys_iff (m : SortedMap α) (k : String) : k ∈ m.keys ↔ (m.get? k).isSome :=
  (Fields.get?_isSome_iff k m.entries).symm

/-- A map is determined by its lookups. -/
theorem ext_get? {m n : SortedMap α} (h : ∀ k, m.get? k = n.get? k) : m = n := by
  obtain ⟨es, he⟩ := m
  obtain ⟨ds, hd⟩ := n
  have key : ∀ (es ds : List (String × α)), es.Pairwise (fun a b => a.1 < b.1) →
      ds.Pairwise (fun a b => a.1 < b.1) →
      (∀ k, Fields.get? k es = Fields.get? k ds) → es = ds := by
    intro es
    induction es with
    | nil =>
      intro ds _ _ h
      cases ds with
      | nil => rfl
      | cons d r => have := h d.1; simp [Fields.get?_cons] at this
    | cons e r ih =>
      intro ds he hd h
      cases ds with
      | nil => have := h e.1; simp [Fields.get?_cons] at this
      | cons d t =>
        obtain ⟨her, hr⟩ := List.pairwise_cons.1 he
        obtain ⟨hdt, ht⟩ := List.pairwise_cons.1 hd
        have hkey : e.1 = d.1 := by
          rcases Classical.em (e.1 = d.1) with hc | hc
          · exact hc
          exfalso
          by_cases hlt : e.1 < d.1
          · have hh := h e.1
            rw [Fields.get?_cons, if_pos rfl, Fields.get?_cons, if_neg (Ne.symm hc)] at hh
            have hm := Fields.mem_of_get?_eq_some hh.symm
            exact String.lt_asymm hlt (hdt _ hm)
          · have hlt' := lt_of_not_lt_of_ne hlt hc
            have hh := h d.1
            rw [Fields.get?_cons, if_neg hc, Fields.get?_cons, if_pos rfl] at hh
            have hm := Fields.mem_of_get?_eq_some hh
            exact String.lt_asymm hlt' (her _ hm)
        have hval : e.2 = d.2 := by
          have hh := h e.1
          simpa [Fields.get?_cons, hkey] using hh
        have htail : ∀ k, Fields.get? k r = Fields.get? k t := by
          intro k
          by_cases hk : e.1 = k
          · subst hk
            have h1 : Fields.get? e.1 r = none := by
              rw [Fields.get?_eq_none_iff]
              intro hm
              obtain ⟨x, hx, hxe⟩ := List.mem_map.1 hm
              exact String.lt_irrefl e.1 (by simpa [hxe] using her x hx)
            have h2 : Fields.get? e.1 t = none := by
              rw [Fields.get?_eq_none_iff]
              intro hm
              obtain ⟨x, hx, hxe⟩ := List.mem_map.1 hm
              exact String.lt_irrefl e.1 (by simpa [hxe, hkey] using hdt x hx)
            rw [h1, h2]
          · have hh := h k
            have hk' : ¬ d.1 = k := fun hd' => hk (hkey.trans hd')
            simpa [Fields.get?_cons, hk, hk'] using hh
        rw [ih t hr ht htail, Prod.ext hkey hval]
  have : es = ds := key es ds he hd h
  subst this
  rfl

/-- Values for different keys are given in either order. -/
theorem insert_comm {j k : String} (h : j ≠ k) (v w : α) (m : SortedMap α) :
    (m.insert k w).insert j v = (m.insert j v).insert k w := by
  apply ext_get?
  intro i
  simp only [get?_insert]
  by_cases hj : i = j
  · have hk : i ≠ k := fun hk => h (hj.symm.trans hk)
    simp only [if_pos hj, if_neg hk]
  · simp only [if_neg hj]

/-- Of two values for one key the later counts. -/
theorem insert_insert (k : String) (v w : α) (m : SortedMap α) :
    (m.insert k w).insert k v = m.insert k v := by
  apply ext_get?
  intro i
  simp only [get?_insert]
  by_cases hi : i = k
  · simp only [if_pos hi]
  · simp only [if_neg hi]

theorem isEmpty_iff (m : SortedMap α) : m.isEmpty = true ↔ m = ∅ := by
  constructor
  · intro h
    obtain ⟨es, hes⟩ := m
    obtain rfl : es = [] := List.isEmpty_iff.1 h
    rfl
  · rintro rfl
    rfl

theorem isEmpty_iff_get? (m : SortedMap α) : m.isEmpty = true ↔ ∀ k, m.get? k = none := by
  rw [isEmpty_iff]
  constructor
  · rintro rfl k
    exact get?_empty k
  · exact fun h => ext_get? h

end SortedMap
end FleetCatalog
