import FleetCatalog.Proofs.Configuration.Reading
import FleetCatalog.Proofs.Value.Traversal
import FleetCatalog.Store.Memory

/-! What the object of a catalog is made of. A property contributes itself, or the entries of the
mapping that it traces to. The keys stand in the order in which they were contributed first; the value
of a key is that of its own property if there is a plain one, and else the first contributed. -/
namespace FleetCatalog

/-- A value that is set under its own key. -/
def Value.Plain : Value → Prop
  | .mapping _ => False
  | _ => True

namespace Tracer

/-- An entry and what tracing makes of it. -/
def Traced (t : Tracer) (overlay : Overlay) (e e' : String × Value) : Prop :=
  e'.1 = e.1 ∧ t.trace overlay e.2 = .ok e'.2

/-- Of the entries that cannot be traced the first fails with this cause. -/
def FirstFailure (t : Tracer) (overlay : Overlay) (fs : Mapping) (cause : Error) : Prop :=
  ∃ before e after, fs = before ++ e :: after ∧ (∀ d ∈ before, ∃ v, t.trace overlay d.2 = .ok v) ∧
    t.trace overlay e.2 = .error cause

variable {t : Tracer} {overlay : Overlay} {fs gs : Mapping} {e : String × Value} {cause : Error}

theorem not_firstFailure_nil : ¬ t.FirstFailure overlay [] cause := by
  rintro ⟨before, e, after, h, -⟩
  cases before <;> cases h

theorem firstFailure_cons : t.FirstFailure overlay (e :: fs) cause ↔
    t.trace overlay e.2 = .error cause ∨
      ∃ v, t.trace overlay e.2 = .ok v ∧ t.FirstFailure overlay fs cause := by
  constructor
  · rintro ⟨_ | ⟨d, before⟩, e', after, h, hbefore, hfails⟩
    · cases h
      exact .inl hfails
    · cases h
      obtain ⟨hd, hbefore⟩ := List.forall_mem_cons.1 hbefore
      obtain ⟨v, hv⟩ := hd
      exact .inr ⟨v, hv, before, e', after, rfl, hbefore, hfails⟩
  · rintro (hfails | ⟨v, hv, before, e', after, rfl, hbefore, hfails⟩)
    · exact ⟨[], e, fs, rfl, List.forall_mem_nil _, hfails⟩
    · exact ⟨e :: before, e', after, rfl, List.forall_mem_cons.2 ⟨⟨v, hv⟩, hbefore⟩, hfails⟩

theorem exists_of_mem_traced (h : List.Forall₂ (t.Traced overlay) fs gs) (he : e ∈ gs) :
    ∃ v, (e.1, v) ∈ fs ∧ t.trace overlay v = .ok e.2 := by
  induction h with
  | nil => cases he
  | @cons d d' fs gs hd _ ih =>
    rcases List.mem_cons.1 he with rfl | he
    · exact ⟨d.2, by rw [hd.1]; exact List.mem_cons_self, hd.2⟩
    · obtain ⟨v, hv, htrace⟩ := ih he
      exact ⟨v, List.mem_cons_of_mem _ hv, htrace⟩

end Tracer

namespace Configuration

/-- What a traced property adds to an object. -/
def contribution : String × Value → Mapping
  | (_, .mapping fs) => fs
  | e => [e]

/-- Traced properties added to an object in order. -/
def spliceAll (acc traced : Mapping) : Mapping :=
  traced.foldl (fun acc e => splice acc e.1 e.2) acc

/-- An object holds the plain ones of some traced properties, under each other key what was
contributed first under it, and the keys in the order of the contributions. -/
structure Merges (traced object : Mapping) : Prop where
  own : ∀ e ∈ traced, e.2.Plain → Fields.get? e.1 object = some e.2
  first : ∀ k, (∀ v, (k, v) ∈ traced → ¬ v.Plain) →
    Fields.get? k object = Fields.get? k (traced.flatMap contribution)
  keys : Fields.keys object = (Fields.keys (traced.flatMap contribution)).eraseDups

section Splice
variable {acc traced : Mapping} {key k : String} {v : Value} {seen : List String}

theorem splice_of_plain (h : v.Plain) : splice acc key v = Fields.put key v acc := by
  cases v with
  | mapping fs => exact h.elim
  | _ => rfl

theorem contribution_of_plain (h : v.Plain) : contribution (key, v) = [(key, v)] := by
  cases v with
  | mapping fs => exact h.elim
  | _ => rfl

/-- What is spliced in is found where nothing was. -/
theorem get?_splice_mapping (fs acc : Mapping) :
    Fields.get? k (splice acc key (.mapping fs)) = (Fields.get? k acc).or (Fields.get? k fs) := by
  induction fs generalizing acc with
  | nil => simp [splice]
  | cons e fs ih =>
    have hstep : splice acc key (.mapping (e :: fs)) =
        splice (if (Fields.get? e.1 acc).isSome then acc else Fields.put e.1 e.2 acc) key
          (.mapping fs) := rfl
    rw [hstep, ih, Fields.get?_cons]
    by_cases hk : e.1 = k
    · subst hk
      cases hacc : Fields.get? e.1 acc <;> simp [hacc]
    · rw [if_neg hk]
      split
      · rfl
      · rw [Fields.get?_put_of_ne (Ne.symm hk)]

theorem get?_splice_of_not_own (h : key = k → ¬ v.Plain) :
    Fields.get? k (splice acc key v) =
      (Fields.get? k acc).or (Fields.get? k (contribution (key, v))) := by
  by_cases hv : v.Plain
  · have hk : key ≠ k := fun hk => h hk hv
    rw [splice_of_plain hv, contribution_of_plain hv, Fields.get?_put_of_ne hk.symm]
    simp [Fields.get?_cons, hk]
  · cases v with
    | mapping fs => exact get?_splice_mapping fs acc
    | _ => exact absurd trivial hv

theorem get?_spliceAll_of_not_own (h : ∀ v, (k, v) ∈ traced → ¬ v.Plain) :
    Fields.get? k (spliceAll acc traced) =
      (Fields.get? k acc).or (Fields.get? k (traced.flatMap contribution)) := by
  induction traced generalizing acc with
  | nil => simp [spliceAll]
  | cons e traced ih =>
    have hhead : e.1 = k → ¬ e.2.Plain := by
      rintro rfl
      exact h e.2 List.mem_cons_self
    have htail : ∀ v, (k, v) ∈ traced → ¬ v.Plain := fun v hv => h v (List.mem_cons_of_mem _ hv)
    show Fields.get? k (spliceAll (splice acc e.1 e.2) traced) = _
    rw [ih htail, get?_splice_of_not_own hhead, List.flatMap_cons, Fields.get?_append,
      Option.or_assoc]

/-- A plain property has the last word, as no other is under its key. -/
theorem get?_spliceAll_of_own (hdistinct : Fields.Distinct traced) {e : String × Value}
    (he : e ∈ traced) (hv : e.2.Plain) : Fields.get? e.1 (spliceAll acc traced) = some e.2 := by
  induction traced generalizing acc with
  | nil => cases he
  | cons d traced ih =>
    obtain ⟨hnew, hdistinct⟩ := List.nodup_cons.1 hdistinct
    show Fields.get? e.1 (spliceAll (splice acc d.1 d.2) traced) = _
    rcases List.mem_cons.1 he with rfl | he
    · have hrest : ∀ v, (e.1, v) ∈ traced → ¬ v.Plain :=
        fun v hmem => absurd (List.mem_map_of_mem hmem) hnew
      rw [get?_spliceAll_of_not_own hrest, splice_of_plain hv, Fields.get?_put_self]
      rfl
    · exact ih hdistinct he

/-- A key that comes after others is new, or dropped. -/
theorem eraseDups_concat (seen : List String) (k : String) :
    (seen ++ [k]).eraseDups = if k ∈ seen then seen.eraseDups else seen.eraseDups ++ [k] := by
  rw [List.eraseDups_append]
  by_cases hk : k ∈ seen <;> simp [List.removeAll, List.eraseDups_cons, hk]

theorem keys_put_of_seen (h : Fields.keys acc = seen.eraseDups) (k : String) (v : Value) :
    Fields.keys (Fields.put k v acc) = (seen ++ [k]).eraseDups := by
  rw [Fields.keys_put, h, eraseDups_concat]
  simp only [List.mem_eraseDups]

theorem keys_splice_mapping (fs : Mapping) (h : Fields.keys acc = seen.eraseDups) :
    Fields.keys (splice acc key (.mapping fs)) = (seen ++ Fields.keys fs).eraseDups := by
  induction fs generalizing acc seen with
  | nil => simpa [splice, Fields.keys] using h
  | cons e fs ih =>
    have hstep : Fields.keys (if (Fields.get? e.1 acc).isSome then acc
        else Fields.put e.1 e.2 acc) = (seen ++ [e.1]).eraseDups := by
      split
      · next hk =>
        rw [Fields.get?_isSome_iff, h, List.mem_eraseDups] at hk
        rw [h, eraseDups_concat, if_pos hk]
      · exact keys_put_of_seen h e.1 e.2
    rw [show seen ++ Fields.keys (e :: fs) = (seen ++ [e.1]) ++ Fields.keys fs by
      simp [Fields.keys]]
    exact ih hstep

theorem keys_splice (h : Fields.keys acc = seen.eraseDups) (e : String × Value) :
    Fields.keys (splice acc e.1 e.2) = (seen ++ Fields.keys (contribution e)).eraseDups := by
  obtain ⟨key, v⟩ := e
  by_cases hv : v.Plain
  · rw [splice_of_plain hv, contribution_of_plain hv]
    exact keys_put_of_seen h key v
  · cases v with
    | mapping fs => exact keys_splice_mapping fs h
    | _ => exact absurd trivial hv

theorem keys_spliceAll (h : Fields.keys acc = seen.eraseDups) :
    Fields.keys (spliceAll acc traced) =
      (seen ++ Fields.keys (traced.flatMap contribution)).eraseDups := by
  induction traced generalizing acc seen with
  | nil => simpa [spliceAll, Fields.keys] using h
  | cons e traced ih =>
    rw [show seen ++ Fields.keys ((e :: traced).flatMap contribution) =
      (seen ++ Fields.keys (contribution e)) ++ Fields.keys (traced.flatMap contribution) by
        simp [Fields.keys]]
    exact ih (keys_splice h e)

theorem merges_spliceAll (hdistinct : Fields.Distinct traced) :
    Merges traced (spliceAll [] traced) where
  own _ he hv := get?_spliceAll_of_own hdistinct he hv
  first _ h := get?_spliceAll_of_not_own h
  keys := by
    have hempty : Fields.keys ([] : Mapping) = ([] : List String).eraseDups := rfl
    exact keys_spliceAll hempty

end Splice

variable {σ : Type} [CatalogStore σ] {s : σ} {t : Tracer} {overlay : Overlay} {object : String}
  {c : Catalog} {fs acc result : Mapping} {cause : Error}

theorem foldlM_splice_eq_ok :
    fs.foldlM (fun acc e => (t.trace overlay e.2).map (splice acc e.1)) acc = .ok result ↔
      ∃ traced, List.Forall₂ (t.Traced overlay) fs traced ∧ spliceAll acc traced = result := by
  induction fs generalizing acc with
  | nil =>
    simp only [List.forall₂_nil_left_iff, exists_eq_left]
    exact ⟨Except.ok.inj, congrArg Except.ok⟩
  | cons e fs ih =>
    rw [List.foldlM_cons, Except.bind_eq_ok]
    constructor
    · rintro ⟨acc', hacc, hrest⟩
      obtain ⟨v, hv, rfl⟩ := Except.map_eq_ok.1 hacc
      obtain ⟨traced, htraced, rfl⟩ := ih.1 hrest
      exact ⟨(e.1, v) :: traced, .cons ⟨rfl, hv⟩ htraced, rfl⟩
    · rintro ⟨_, htraced, rfl⟩
      cases htraced with
      | @cons _ e' _ traced he htraced =>
        refine ⟨splice acc e.1 e'.2, Except.map_eq_ok.2 ⟨e'.2, he.2, rfl⟩, ih.2 ⟨traced, htraced, ?_⟩⟩
        rw [← he.1]
        rfl

theorem foldlM_splice_eq_error :
    fs.foldlM (fun acc e => (t.trace overlay e.2).map (splice acc e.1)) acc = .error cause ↔
      t.FirstFailure overlay fs cause := by
  induction fs generalizing acc with
  | nil =>
    refine ⟨fun h => ?_, fun h => absurd h Tracer.not_firstFailure_nil⟩
    cases h
  | cons e fs ih =>
    rw [List.foldlM_cons, Except.bind_eq_error, Except.map_eq_error, Tracer.firstFailure_cons]
    refine or_congr_right ?_
    constructor
    · rintro ⟨acc', hacc, hrest⟩
      obtain ⟨v, hv, -⟩ := Except.map_eq_ok.1 hacc
      exact ⟨v, hv, ih.1 hrest⟩
    · rintro ⟨v, hv, hrest⟩
      exact ⟨_, Except.map_eq_ok.2 ⟨v, hv, rfl⟩, ih.2 hrest⟩

theorem readObject_of_get (t : Tracer) (overlay : Overlay) (h : CatalogStore.get s object = .ok c) :
    readObject t s overlay object =
      c.spec.properties.foldlM (fun acc e => (t.trace overlay e.2).map (splice acc e.1)) [] := by
  unfold readObject
  rw [h]
  rfl

/-- What reading one field gives is what its property contributes to the whole. -/
theorem read_of_traced {traced : Mapping} (hget : CatalogStore.get s object = .ok c)
    (hdistinct : Fields.Distinct c.spec.properties)
    (htraced : List.Forall₂ (t.Traced overlay) c.spec.properties traced) {e : String × Value}
    (he : e ∈ traced) : read t s overlay object e.1 = .ok e.2 := by
  obtain ⟨v, hv, htrace⟩ := Tracer.exists_of_mem_traced htraced he
  rw [read, readJournal_of_held t overlay hget (Fields.get?_of_mem hdistinct hv)]
  exact htrace

/-- An object is read unless one of its properties cannot be traced; the first of these decides the
error. Otherwise the object merges what the properties trace to. -/
theorem readObject_merges (t : Tracer) (overlay : Overlay)
    (hget : CatalogStore.get s object = .ok c) (hdistinct : Fields.Distinct c.spec.properties) :
    (∀ cause, readObject t s overlay object = .error cause ↔
      t.FirstFailure overlay c.spec.properties cause) ∧
    ∀ result, readObject t s overlay object = .ok result →
      ∃ traced, List.Forall₂ (t.Traced overlay) c.spec.properties traced ∧ Merges traced result ∧
        ∀ e ∈ traced, read t s overlay object e.1 = .ok e.2 := by
  rw [readObject_of_get t overlay hget]
  refine ⟨fun cause => foldlM_splice_eq_error, fun result h => ?_⟩
  obtain ⟨traced, htraced, rfl⟩ := foldlM_splice_eq_ok.1 h
  have htraced' : Fields.Distinct traced := by
    unfold Fields.Distinct at *
    rwa [Fields.keys_of_forall₂ (fun _ _ he => he.1) htraced]
  exact ⟨traced, htraced, merges_spliceAll htraced',
    fun e he => read_of_traced hget hdistinct htraced he⟩

/-- A reference and a mapping, with a plain property between them that is in both. -/
def overlapping : Catalog :=
  ⟨"o", { properties := [("defaults", .string "$\x7bshared\x7d"), ("port", .string "2"),
    ("extra", .mapping [("host", .string "b"), ("path", .string "c")])] }⟩

/-- The reference stands for a host and a port. The plain port takes the place of the spliced one, and
the first host is kept. -/
theorem readObject_merges_overlapping :
    let s := (({} : MemoryCatalogs).upsert "o" overlapping).2
    let c : Catalog := ⟨"o", { overlapping.spec with generation := "1" }⟩
    let t : Tracer := ⟨fun template _ => .ok (if template = "$\x7bshared\x7d"
        then .mapping [("host", .string "a"), ("port", .string "1")] else .string template), {}⟩
    let object : Mapping := [("host", .string "a"), ("port", .string "2"), ("path", .string "c")]
    CatalogStore.get s "o" = .ok c ∧ Fields.Distinct c.spec.properties ∧
    readObject t s {} "o" = .ok object ∧
    ∃ traced, List.Forall₂ (t.Traced {}) c.spec.properties traced ∧ Merges traced object ∧
      ∀ e ∈ traced, read t s {} "o" e.1 = .ok e.2 := by
  intro s c t object
  have hget : CatalogStore.get s "o" = .ok c := by decide +kernel
  have hdistinct : Fields.Distinct c.spec.properties := by decide
  have hobject : readObject t s {} "o" = .ok object := by decide +kernel
  exact ⟨hget, hdistinct, hobject, (readObject_merges t {} hget hdistinct).2 object hobject⟩

end Configuration
end FleetCatalog
