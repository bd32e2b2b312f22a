import FleetCatalog.Proofs.Catalog.Completeness

/-! What the end of a walk says of the parent links above its start. The links form one chain: it ends
at a catalog without a parent, leaves the store at an id that is not stored, or comes back to an id. A
walk tells the three apart, whatever the chain looks like. -/
namespace FleetCatalog
namespace Ancestry
open Relation

variable {s : MemoryCatalogs} {look : Catalog → Option Empty} {visited asked : List String}
  {first id : String} {c : Catalog}

theorem not_present_of_error {cause : StoreError} (h : s.get id = .error cause) : ¬ Present s id := by
  rintro ⟨c, hget⟩
  rw [h] at hget
  cases hget

theorem not_inherits_of_absent (h : ¬ Present s id) (b : String) : ¬ Inherits s id b := by
  rintro ⟨c, hget, -⟩
  exact h ⟨c, hget⟩

theorem not_inherits_of_top (h : s.get id = .ok c) (htop : c.spec.parent = none) (b : String) :
    ¬ Inherits s id b := by
  rw [inherits_iff_of_get h, htop]
  rintro ⟨⟩

theorem not_transGen_of_end (h : ∀ b, ¬ Inherits s id b) {a : String} :
    ¬ TransGen (Inherits s) id a := by
  intro hpath
  obtain ⟨b, hlink, -⟩ := TransGen.head'_iff.1 hpath
  exact h b hlink

/-- Whatever is above an id is the id itself or above its parent. -/
theorem reaches_iff_of_parent {p : String} (h : s.get id = .ok c) (hp : c.spec.parent = some p)
    {a : String} : ReflTransGen (Inherits s) id a ↔ a = id ∨ ReflTransGen (Inherits s) p a := by
  constructor
  · intro hreach
    rcases ReflTransGen.cases_head hreach with heq | ⟨q, hq, hrest⟩
    · exact .inl heq.symm
    · rw [inherits_iff_of_get h, hp, Option.some.injEq] at hq
      exact .inr (hq ▸ hrest)
  · rintro (rfl | hrest)
    · exact .refl
    · exact .head ⟨c, h, hp⟩ hrest

theorem inherits_rightUnique : Relator.RightUnique (Inherits s) := by
  rintro a b b' ⟨c, hget, hb⟩ hb'
  rw [inherits_iff_of_get hget, hb, Option.some.injEq] at hb'
  exact hb'

/-- At most one id on the way up is missing from the store, the last one. -/
theorem eq_of_reaches_of_absent {other : String} (hreach : ReflTransGen (Inherits s) first id)
    (habsent : ¬ Present s id) (hother : ReflTransGen (Inherits s) first other)
    (habsent' : ¬ Present s other) : other = id := by
  rcases ReflTransGen.total_of_right_unique inherits_rightUnique hreach hother with h | h
  · exact (reflTransGen_iff_eq (not_inherits_of_absent habsent)).1 h
  · exact ((reflTransGen_iff_eq (not_inherits_of_absent habsent')).1 h).symm

/-- The id at which a walk is halted was met before the walk or is its own ancestor. -/
theorem Ascent.of_repeated (h : Ascent s look visited first asked (.error (.repeated id))) :
    ReflTransGen (Inherits s) first id ∧ (id ∈ visited ∨ TransGen (Inherits s) id id) := by
  generalize hr : (Except.error (.repeated id) : Except Halt (Option Empty)) = outcome at h
  induction h with
  | repeated hmet =>
    cases hr
    exact ⟨.refl, .inl hmet⟩
  | failed => cases hr
  | found => cases hr
  | top => cases hr
  | @parent visited i c p asked r _ hget _ hparent _ ih =>
    obtain ⟨hreach, hmet⟩ := ih hr
    have hlink : Inherits s i p := ⟨c, hget, hparent⟩
    refine ⟨.head hlink hreach, ?_⟩
    rcases hmet with hmet | hcycle
    · rcases List.mem_cons.1 hmet with rfl | hmet
      · exact .inr (.head' hlink hreach)
      · exact .inl hmet
    · exact .inr hcycle

theorem Ascent.of_failed {cause : StoreError}
    (h : Ascent s look visited first asked (.error (.failed id cause))) :
    ReflTransGen (Inherits s) first id ∧ s.get id = .error cause := by
  generalize hr : (Except.error (.failed id cause) : Except Halt (Option Empty)) = outcome at h
  induction h with
  | repeated => cases hr
  | failed _ hget =>
    cases hr
    exact ⟨.refl, hget⟩
  | found => cases hr
  | top => cases hr
  | @parent visited i c p asked r _ hget _ hparent _ ih =>
    obtain ⟨hreach, hfailed⟩ := ih hr
    exact ⟨.head ⟨c, hget, hparent⟩ hreach, hfailed⟩

/-- A walk that is not halted at an id it had met reaches no such id. -/
theorem Ascent.not_reaches_visited {outcome : Except Halt (Option Empty)}
    (h : Ascent s look visited first asked outcome)
    (hend : ∀ id, outcome ≠ .error (.repeated id)) {v : String} (hv : v ∈ visited) :
    ¬ ReflTransGen (Inherits s) first v := by
  induction h with
  | repeated => exact absurd rfl (hend _)
  | failed hnew hget =>
    rw [reflTransGen_iff_eq (not_inherits_of_absent (not_present_of_error hget))]
    rintro rfl
    exact hnew hv
  | @found _ _ _ a => exact a.elim
  | top hnew hget _ htop =>
    rw [reflTransGen_iff_eq (not_inherits_of_top hget htop)]
    rintro rfl
    exact hnew hv
  | parent hnew hget _ hparent _ ih =>
    rw [reaches_iff_of_parent hget hparent]
    rintro (rfl | hreach)
    · exact hnew hv
    · exact ih hend (List.mem_cons_of_mem _ hv) hreach

/-- Nor is an id that it reaches its own ancestor. -/
theorem Ascent.not_cyclic {outcome : Except Halt (Option Empty)}
    (h : Ascent s look visited first asked outcome)
    (hend : ∀ id, outcome ≠ .error (.repeated id)) {a : String}
    (hreach : ReflTransGen (Inherits s) first a) : ¬ TransGen (Inherits s) a a := by
  induction h with
  | repeated => exact absurd rfl (hend _)
  | failed _ hget =>
    obtain rfl := (reflTransGen_iff_eq (not_inherits_of_absent (not_present_of_error hget))).1 hreach
    exact not_transGen_of_end (not_inherits_of_absent (not_present_of_error hget))
  | @found _ _ _ a => exact a.elim
  | top _ hget _ htop =>
    obtain rfl := (reflTransGen_iff_eq (not_inherits_of_top hget htop)).1 hreach
    exact not_transGen_of_end (not_inherits_of_top hget htop)
  | @parent visited i c p asked r _ hget _ hparent rest ih =>
    rcases (reaches_iff_of_parent hget hparent).1 hreach with rfl | hreach
    · intro hcycle
      obtain ⟨b, hlink, hback⟩ := TransGen.head'_iff.1 hcycle
      rw [inherits_iff_of_get hget, hparent, Option.some.injEq] at hlink
      subst hlink
      exact rest.not_reaches_visited hend List.mem_cons_self hback
    · exact ih hend hreach

/-- Everything above the start of a walk that comes to the top is stored. -/
theorem Ascent.present_of_reaches {r : Option Empty}
    (h : Ascent s look visited first asked (.ok r)) {a : String}
    (hreach : ReflTransGen (Inherits s) first a) : Present s a := by
  generalize hr : (Except.ok r : Except Halt (Option Empty)) = outcome at h
  induction h with
  | repeated => cases hr
  | failed => cases hr
  | @found _ _ _ a => exact a.elim
  | top _ hget _ htop =>
    obtain rfl := (reflTransGen_iff_eq (not_inherits_of_top hget htop)).1 hreach
    exact ⟨_, hget⟩
  | parent _ hget _ hparent _ ih =>
    rcases (reaches_iff_of_parent hget hparent).1 hreach with rfl | hreach
    · exact ⟨_, hget⟩
    · exact ih hreach hr

end Ancestry
end FleetCatalog
