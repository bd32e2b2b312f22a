/-!
# Ordered fields

Keyed entries in the order in which their keys first appeared. Writing a key that is there
already keeps its place; a new key goes to the end. Looking up after a write needs no premise
on the entries: `get?_put` holds of every list.
-/
namespace FleetCatalog

/-- Entries of a record, in the order in which their keys appeared. -/
abbrev Fields (α : Type) := List (String × α)

namespace Fields
variable {κ α β : Type} [DecidableEq κ]

/-- The value of the first entry with key `k`. -/
def get? (k : κ) : List (κ × α) → Option α
  | [] => none
  | e :: r => if e.1 = k then some e.2 else get? k r

/-- Gives the first entry with key `k` the value `v`, or adds such an entry at the end. -/
def put (k : κ) (v : α) : List (κ × α) → List (κ × α)
  | [] => [(k, v)]
  | e :: r => if e.1 = k then (k, v) :: r else e :: put k v r

/-- Drops every entry with key `k`. -/
def erase (k : κ) (fs : List (κ × α)) : List (κ × α) :=
  fs.filter fun e => decide (e.1 ≠ k)

/-- The keys in order. -/
def keys (fs : List (κ × α)) : List κ := fs.map Prod.fst

/-- No key appears twice. -/
def Distinct (fs : List (κ × α)) : Prop := (keys fs).Nodup

instance (fs : List (κ × α)) : Decidable (Distinct fs) :=
  inferInstanceAs (Decidable (keys fs).Nodup)

@[simp] theorem get?_nil (k : κ) : get? k ([] : List (κ × α)) = none := rfl

theorem get?_cons (k : κ) (e : κ × α) (r : List (κ × α)) :
    get? k (e :: r) = if e.1 = k then some e.2 else get? k r := rfl

theorem get?_append (k : κ) (fs gs : List (κ × α)) :
    get? k (fs ++ gs) = (get? k fs).or (get? k gs) := by
  induction fs with
  | nil => simp
  | cons e r ih => by_cases h : e.1 = k <;> simp [get?_cons, h, ih]

@[simp] theorem get?_put_self (k : κ) (v : α) (fs : List (κ × α)) :
    get? k (put k v fs) = some v := by
  induction fs with
  | nil => simp [put, get?]
  | cons e r ih => by_cases h : e.1 = k <;> simp [put, get?, h, ih]

theorem get?_put_of_ne {j k : κ} (hjk : j ≠ k) (v : α) (fs : List (κ × α)) :
    get? j (put k v fs) = get? j fs := by
  induction fs with
  | nil => simp [put, get?, Ne.symm hjk]
  | cons e r ih =>
    by_cases h : e.1 = k
    · have hj : ¬ k = j := fun hk => hjk hk.symm
      simp [put, get?, h, hj]
    · simp only [put, h, if_false, get?_cons, ih]

theorem get?_put (j k : κ) (v : α) (fs : List (κ × α)) :
    get? j (put k v fs) = if j = k then some v else get? j fs := by
  by_cases h : j = k
  · subst h; simp
  · simp [h, get?_put_of_ne h]

@[simp] theorem put_put (k : κ) (v w : α) (fs : List (κ × α)) :
    put k w (put k v fs) = put k w fs := by
  induction fs with
  | nil => simp [put]
  | cons e r ih => by_cases h : e.1 = k <;> simp [put, h, ih]

theorem get?_erase (j k : κ) (fs : List (κ × α)) :
    get? j (erase k fs) = if j = k then none else get? j fs := by
  induction fs with
  | nil => simp [erase]
  | cons e r ih =>
    unfold erase at ih ⊢
    by_cases h : e.1 = k
    · by_cases hj : j = k
      · simp_all
      · have hk : ¬ k = j := fun hk => hj hk.symm
        simp_all [get?_cons]
    · by_cases hj : e.1 = j
      · have : ¬ j = k := fun hk => h (hj.trans hk)
        simp_all [get?_cons]
      · by_cases hk : j = k <;> simp_all [get?_cons]

theorem get?_isSome_iff (k : κ) (fs : List (κ × α)) : (get? k fs).isSome ↔ k ∈ keys fs := by
  induction fs with
  | nil => simp [keys]
  | cons e r ih =>
    by_cases h : e.1 = k
    · simp [get?_cons, keys, h]
    · have h' : ¬ k = e.1 := fun hk => h hk.symm
      simpa [get?_cons, keys, h, h'] using ih

theorem get?_eq_none_iff (k : κ) (fs : List (κ × α)) : get? k fs = none ↔ k ∉ keys fs := by
  rw [← get?_isSome_iff]; cases get? k fs <;> simp

theorem get?_eq_none_of_forall {k : κ} {fs : List (κ × α)} (h : ∀ e ∈ fs, e.1 ≠ k) :
    get? k fs = none := by
  rw [get?_eq_none_iff]
  intro hk
  obtain ⟨e, he, rfl⟩ := List.mem_map.1 hk
  exact h e he rfl

theorem mem_of_get?_eq_some {k : κ} {v : α} {fs : List (κ × α)} (h : get? k fs = some v) :
    (k, v) ∈ fs := by
  induction fs with
  | nil => simp at h
  | cons e r ih =>
    by_cases hk : e.1 = k
    · rw [get?_cons, if_pos hk, Option.some.injEq] at h
      simp [← hk, ← h]
    · rw [get?_cons, if_neg hk] at h
      exact List.mem_cons_of_mem _ (ih h)

/-- With no key twice every entry is found under its key. -/
theorem get?_of_mem {fs : List (κ × α)} (h : Distinct fs) {e : κ × α} (he : e ∈ fs) :
    get? e.1 fs = some e.2 := by
  induction fs with
  | nil => cases he
  | cons a r ih =>
    obtain ⟨ha, hr⟩ := List.nodup_cons.1 h
    rw [get?_cons]
    rcases List.mem_cons.1 he with rfl | he
    · exact if_pos rfl
    · have hne : a.1 ≠ e.1 := fun hk => ha (hk ▸ List.mem_map_of_mem he)
      rw [if_neg hne]
      exact ih hr he

/-- A key keeps its place; a new one goes to the end. -/
theorem keys_put (k : κ) (v : α) (fs : List (κ × α)) :
    keys (put k v fs) = if k ∈ keys fs then keys fs else keys fs ++ [k] := by
  induction fs with
  | nil => simp [put, keys]
  | cons e r ih =>
    by_cases h : e.1 = k
    · simp [put, keys, h]
    · have h' : ¬ k = e.1 := fun hk => h hk.symm
      by_cases hm : k ∈ keys r <;> simp_all [put, keys]

omit [DecidableEq κ] in
theorem distinct_filter {fs : List (κ × α)} (h : Distinct fs) (p : κ × α → Bool) :
    Distinct (fs.filter p) :=
  List.Nodup.sublist (List.Sublist.map _ List.filter_sublist) h

end Fields
end FleetCatalog
