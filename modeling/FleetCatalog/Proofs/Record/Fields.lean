import FleetCatalog.Record
import FleetCatalog.Proofs.Outcome

/-! Reading back what was written. A record is written part by part into one mapping, and reading
goes through the parts in that order, so that each part can be looked at on its own. -/
namespace FleetCatalog
namespace SortedMap

/-- Entries in key order that are inserted one after another are all there afterwards. -/
theorem get?_foldl_insert {α : Type} (k : String) (es : List (String × α)) (m : SortedMap α)
    (h : es.Pairwise fun a b => a.1 < b.1) :
    (es.foldl (fun m e => m.insert e.1 e.2) m).get? k = (Fields.get? k es).or (m.get? k) := by
  induction es generalizing m with
  | nil => simp
  | cons e r ih =>
    obtain ⟨he, hr⟩ := List.pairwise_cons.1 h
    rw [List.foldl_cons, ih _ hr, Fields.get?_cons, get?_insert]
    by_cases hk : e.1 = k
    · subst hk
      have hn : Fields.get? e.1 r = none := by
        rw [Fields.get?_eq_none_iff]
        intro hm
        obtain ⟨x, hx, hxe⟩ := List.mem_map.1 hm
        exact String.lt_irrefl e.1 (by simpa [hxe] using he x hx)
      simp [hn]
    · simp [hk, Ne.symm hk]

/-- A sorted map is what its entries give when they are read in order. -/
theorem foldl_insert_entries {α : Type} (m : SortedMap α) :
    m.entries.foldl (fun m e => m.insert e.1 e.2) ∅ = m := by
  apply ext_get?
  intro k
  rw [get?_foldl_insert k m.entries ∅ m.ascending, get?_empty, Option.or_none]
  rfl

end SortedMap

namespace Decode
variable {δ : Type} {set : String → Value → δ → Except DecodeError δ} {d : δ}

@[simp] theorem fields_nil (d : δ) : fields set d [] = .ok d := rfl

theorem fields_cons (d : δ) (e : String × Value) (fs : Mapping) :
    fields set d (e :: fs) = set e.1 e.2 d >>= fun d => fields set d fs := by
  simp [fields]

theorem fields_append {d₁ d₂ : δ} {fs gs : Mapping} (hfs : fields set d fs = .ok d₁)
    (hgs : fields set d₁ gs = .ok d₂) : fields set d (fs ++ gs) = .ok d₂ := by
  unfold fields at *
  rw [List.foldlM_append, hfs]
  exact hgs

theorem fields_singleton {key : String} {v : Value} {d' : δ} (h : set key v d = .ok d') :
    fields set d [(key, v)] = .ok d' := by
  rw [fields_cons, h]
  rfl

/-- A text that was left out because it is empty reads as the text that is there. -/
theorem fields_textUnlessEmpty (set : String → Value → δ → Except DecodeError δ) (key : String)
    (put : String → δ) (hempty : put "" = d)
    (hset : ∀ s, set key (.string s) d = .ok (put s)) (s : String) :
    fields set d (Encode.textUnlessEmpty key s) = .ok (put s) := by
  unfold Encode.textUnlessEmpty
  split
  · next h => rw [h, hempty, fields_nil]
  · exact fields_singleton (hset s)

/-- A value that was left out because it is absent reads as absent. -/
theorem fields_unlessAbsent {α : Type} (set : String → Value → δ → Except DecodeError δ)
    (key : String) (value : α → Value) (put : Option α → δ)
    (habsent : put none = d) (hset : ∀ a, set key (value a) d = .ok (put (some a)))
    (o : Option α) :
    fields set d (Encode.unlessAbsent key (o.map value)) = .ok (put o) := by
  cases o with
  | none => simp [Encode.unlessAbsent, habsent]
  | some a => exact fields_singleton (hset a)

/-- A value other than null that was left out because it is absent reads as absent. -/
theorem fields_unlessAbsent_of_ne_null (set : String → Value → δ → Except DecodeError δ)
    (key : String) (put : Option Value → δ) (habsent : put none = d)
    (hset : ∀ v, v ≠ .null → set key v d = .ok (put (some v))) {o : Option Value}
    (ho : o ≠ some .null) : fields set d (Encode.unlessAbsent key o) = .ok (put o) := by
  cases o with
  | none => simp [Encode.unlessAbsent, habsent]
  | some v => exact fields_singleton (hset v fun hv => ho (congrArg some hv))

theorem optional_of_ne_null {α : Type} {v : Value} (h : v ≠ .null)
    (decode : Value → Except DecodeError α) : optional decode v = (decode v).map some := by
  cases v with
  | null => exact absurd rfl h
  | _ => rfl

/-- A sorted map is read back if its values are. -/
theorem sorted_toList {α : Type} {decode : Value → Except DecodeError α} {encode : α → Value}
    (h : ∀ a, decode (encode a) = .ok a) (m : SortedMap α) :
    sorted decode (.mapping (m.toList.map fun e => (e.1, encode e.2))) = .ok m := by
  have hfold (es : List (String × α)) (acc : SortedMap α) :
      (es.map fun e => (e.1, encode e.2)).foldlM
        (fun m e => (decode e.2).map fun a => m.insert e.1 a) acc =
      .ok (es.foldl (fun m e => m.insert e.1 e.2) acc) := by
    induction es generalizing acc with
    | nil => rfl
    | cons e r ih =>
      rw [List.map_cons, List.foldlM_cons, h e.2]
      exact ih (acc.insert e.1 e.2)
  exact (hfold m.entries ∅).trans (congrArg Except.ok (SortedMap.foldl_insert_entries m))

theorem sorted_texts (m : SortedMap String) : sorted text (Encode.texts m) = .ok m := by
  have h : ∀ s, text (.string s) = .ok s := fun _ => rfl
  exact sorted_toList h m

/-- A list is read back if its members are. -/
theorem items_map {α : Type} {decode : Value → Except DecodeError α} {encode : α → Value}
    {xs : List α} (h : ∀ a ∈ xs, decode (encode a) = .ok a) :
    items decode (.sequence (xs.map encode)) = .ok xs := by
  show (xs.map encode).mapM decode = .ok xs
  induction xs with
  | nil => rfl
  | cons a xs ih =>
    rw [List.map_cons, Except.mapM_cons_eq_ok]
    exact ⟨a, xs, h a List.mem_cons_self, ih fun b hb => h b (List.mem_cons_of_mem a hb), rfl⟩

theorem fields_textsUnlessEmpty (set : String → Value → δ → Except DecodeError δ) (key : String)
    (put : SortedMap String → δ) (hempty : put ∅ = d)
    (hset : ∀ m, set key (Encode.texts m) d = .ok (put m)) (m : SortedMap String) :
    fields set d (Encode.textsUnlessEmpty key m) = .ok (put m) := by
  unfold Encode.textsUnlessEmpty
  split
  · next h =>
    obtain ⟨es, hes⟩ := m
    have hn : es = [] := List.isEmpty_iff.1 h
    subst hn
    exact congrArg Except.ok hempty.symm
  · exact fields_singleton (hset m)

theorem fields_cons_eq_ok {e : String × Value} {fs : Mapping} {d' : δ} :
    fields set d (e :: fs) = .ok d' ↔ ∃ d₁, set e.1 e.2 d = .ok d₁ ∧ fields set d₁ fs = .ok d' := by
  rw [fields_cons, Except.bind_eq_ok]

/-- Fields that change nothing when they are read. -/
theorem fields_eq_self {fs : Mapping} (h : ∀ e ∈ fs, set e.1 e.2 d = .ok d) :
    fields set d fs = .ok d := by
  induction fs with
  | nil => rfl
  | cons e fs ih =>
    rw [fields_cons_eq_ok]
    exact ⟨d, h e List.mem_cons_self, ih fun x hx => h x (List.mem_cons_of_mem e hx)⟩

/-- What every field keeps when it is read, all of them keep. -/
theorem fields_keeps {P : δ → Prop} (hset : ∀ key v d d', set key v d = .ok d' → P d → P d')
    {fs : Mapping} {d' : δ} (h : fields set d fs = .ok d') (hd : P d) : P d' := by
  induction fs generalizing d with
  | nil =>
    cases h
    exact hd
  | cons e fs ih =>
    obtain ⟨d₁, he, hfs⟩ := fields_cons_eq_ok.1 h
    exact ih hfs (hset e.1 e.2 d d₁ he hd)

theorem record_keeps {P : δ → Prop} (hset : ∀ key v d d', set key v d = .ok d' → P d → P d')
    {name : String} {declared : List String} {j : Value} {d' : δ}
    (h : record name declared set d j = .ok d') (hd : P d) : P d' := by
  cases j with
  | mapping fs => exact fields_keeps hset h hd
  | sequence vs =>
    obtain ⟨d₁, hfs, h⟩ := Except.bind_eq_ok.1 h
    split at h
    · cases h
    · cases h
      exact fields_keeps hset hfs hd
  | _ => cases h

theorem exists_fields {fs : Mapping} (h : ∀ e ∈ fs, ∀ d, ∃ d', set e.1 e.2 d = .ok d') (d : δ) :
    ∃ d', fields set d fs = .ok d' := by
  induction fs generalizing d with
  | nil => exact ⟨d, rfl⟩
  | cons e fs ih =>
    obtain ⟨d₁, he⟩ := h e List.mem_cons_self d
    obtain ⟨d', hfs⟩ := ih (fun x hx => h x (List.mem_cons_of_mem e hx)) d₁
    exact ⟨d', fields_cons_eq_ok.2 ⟨d₁, he, hfs⟩⟩

section Lookup
variable {α : Type} {key : String} {decode : Value → Except DecodeError α} {get : δ → α}

/-- One part of a record is read from the entry of one key, and from no other. -/
structure Reads (set : String → Value → δ → Except DecodeError δ) (key : String)
    (decode : Value → Except DecodeError α) (get : δ → α) : Prop where
  self : ∀ {v d d'}, set key v d = .ok d' → decode v = .ok (get d')
  other : ∀ {k v d d'}, k ≠ key → set k v d = .ok d' → get d' = get d

theorem Reads.of_cases (h : ∀ {k v d d'}, set k v d = .ok d' →
    (k = key ∧ decode v = .ok (get d')) ∨ (k ≠ key ∧ get d' = get d)) :
    Reads set key decode get where
  self hset := by
    rcases h hset with ⟨-, hv⟩ | ⟨hne, -⟩
    · exact hv
    · exact absurd rfl hne
  other hne hset := by
    rcases h hset with ⟨hkey, -⟩ | ⟨-, hget⟩
    · exact absurd hkey hne
    · exact hget

/-- What fields say of a part that is read from a key: what the entry reads as, or, without one, what
there was before. -/
def Given (decode : Value → Except DecodeError α) (key : String) (fs : Mapping) (old new : α) :
    Prop :=
  match Fields.get? key fs with
  | none => new = old
  | some v => decode v = .ok new

theorem given_of_none {fs : Mapping} {old new : α} (h : Fields.get? key fs = none) :
    Given decode key fs old new ↔ new = old := by
  unfold Given
  rw [h]

theorem given_of_some {fs : Mapping} {old new : α} {v : Value} (h : Fields.get? key fs = some v) :
    Given decode key fs old new ↔ decode v = .ok new := by
  unfold Given
  rw [h]

theorem Given.unique {fs : Mapping} {old a b : α} (ha : Given decode key fs old a)
    (hb : Given decode key fs old b) : a = b := by
  cases hfs : Fields.get? key fs with
  | none => rw [(given_of_none hfs).1 ha, (given_of_none hfs).1 hb]
  | some v => exact Except.ok.inj (((given_of_some hfs).1 ha).symm.trans ((given_of_some hfs).1 hb))

/-- With no key twice the order in which fields are read does not matter. -/
theorem Reads.given (hread : Reads set key decode get) {fs : Mapping} (hfs : Fields.Distinct fs)
    {d' : δ} (h : fields set d fs = .ok d') : Given decode key fs (get d) (get d') := by
  induction fs generalizing d with
  | nil =>
    cases h
    rfl
  | cons e fs ih =>
    obtain ⟨hnew, hdistinct⟩ := List.nodup_cons.1 hfs
    obtain ⟨d₁, he, hrest⟩ := fields_cons_eq_ok.1 h
    have hgiven := ih hdistinct hrest
    by_cases hkey : e.1 = key
    · subst hkey
      have hnone : Fields.get? e.1 fs = none := (Fields.get?_eq_none_iff _ _).2 hnew
      rw [given_of_none hnone] at hgiven
      rw [given_of_some (by rw [Fields.get?_cons, if_pos rfl]), hgiven]
      exact hread.self he
    · rw [← hread.other hkey he]
      unfold Given
      rw [Fields.get?_cons, if_neg hkey]
      exact hgiven

end Lookup

end Decode
end FleetCatalog
