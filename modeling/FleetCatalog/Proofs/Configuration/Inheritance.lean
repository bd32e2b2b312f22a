import FleetCatalog.Proofs.Catalog.Acyclicity

/-! What reading a field gives, said from the chain of parents alone. `ancestor` follows the chain
without a bound and may go round for ever; `verdict` is what the catalog at one step of it settles.
The first verdict on the chain is the outcome, and in a finite store there always is one: a chain that
holds none of the field's values ends, leaves the store or comes back to an id. -/
namespace FleetCatalog

namespace Ancestry
variable {σ α : Type} [CatalogStore σ] {s : σ} {look : Catalog → Option α}

/-- A walk fetches no id twice, and none that it had met. -/
theorem Ascent.fresh {visited asked : List String} {id : String}
    {outcome : Except Halt (Option α)} (h : Ascent s look visited id asked outcome) :
    asked.Nodup ∧ ∀ v ∈ asked, v ∉ visited := by
  induction h with
  | repeated => simp
  | failed hnew => simpa using hnew
  | found hnew => simpa using hnew
  | top hnew => simpa using hnew
  | parent hnew _ _ _ _ ih =>
    obtain ⟨hnodup, hfresh⟩ := ih
    refine ⟨List.nodup_cons.2 ⟨fun hid => hfresh _ hid List.mem_cons_self, hnodup⟩, ?_⟩
    refine List.forall_mem_cons.2 ⟨hnew, fun v hv hmet => ?_⟩
    exact hfresh v hv (List.mem_cons_of_mem _ hmet)

end Ancestry

namespace Configuration
open Ancestry
variable {σ : Type} [CatalogStore σ]

/-- The parent that a stored catalog names. -/
def parentOf (s : σ) (id : String) : Option String :=
  match CatalogStore.get s id with
  | .ok c => c.spec.parent
  | .error _ => none

/-- The id met after a number of steps up from `object`; none once the chain has ended. -/
def ancestor (s : σ) (object : String) : Nat → Option String
  | 0 => some object
  | n + 1 => (ancestor s object n).bind (parentOf s)

/-- What the catalog met after `n` steps settles for a reader of `object`. An id met before is not
fetched again; else the store's refusal counts, then the value as stored, then the end of the chain.
Nothing is settled where none of these is so. -/
def verdict (s : σ) (object field : String) (n : Nat) : Option (Except Error Value) :=
  (ancestor s object n).bind fun id =>
    if ∃ m < n, ancestor s object m = some id then some (.error (.cycle (.chainRepeats id object)))
    else
      match CatalogStore.get s id with
      | .error cause => some (.error (.store cause))
      | .ok c =>
        match Fields.get? field c.spec.properties with
        | some v => some (.ok v)
        | none => if c.spec.parent = none then some (.error (.fieldNotFound field object)) else none

/-- The verdict `r` after `n` steps is the first on the chain. -/
structure FirstVerdict (s : σ) (object field : String) (n : Nat) (r : Except Error Value) : Prop where
  here : verdict s object field n = some r
  before : ∀ m < n, verdict s object field m = none

variable {s : σ} {object field id : String} {n : Nat} {c : Catalog}

theorem FirstVerdict.unique {k : Nat} {q r : Except Error Value}
    (hq : FirstVerdict s object field k q) (hr : FirstVerdict s object field n r) :
    k = n ∧ q = r := by
  obtain hlt | rfl | hlt := Nat.lt_trichotomy k n
  · have := hr.before k hlt
    rw [hq.here] at this
    cases this
  · have := hq.here
    rw [hr.here] at this
    cases this
    exact ⟨rfl, rfl⟩
  · have := hq.before n hlt
    rw [hr.here] at this
    cases this

theorem ancestor_succ {p : String} (hid : ancestor s object n = some id)
    (hget : CatalogStore.get s id = .ok c) (hp : c.spec.parent = some p) :
    ancestor s object (n + 1) = some p := by
  simp only [ancestor, hid, Option.bind_some, parentOf, hget, hp]

theorem verdict_of_met (hid : ancestor s object n = some id)
    (hmet : ∃ m < n, ancestor s object m = some id) :
    verdict s object field n = some (.error (.cycle (.chainRepeats id object))) := by
  simp only [verdict, hid, Option.bind_some, if_pos hmet]

theorem verdict_of_error {cause : StoreError} (hid : ancestor s object n = some id)
    (hnew : ¬ ∃ m < n, ancestor s object m = some id) (hget : CatalogStore.get s id = .error cause) :
    verdict s object field n = some (.error (.store cause)) := by
  simp only [verdict, hid, Option.bind_some, if_neg hnew, hget]

theorem verdict_of_held {v : Value} (hid : ancestor s object n = some id)
    (hnew : ¬ ∃ m < n, ancestor s object m = some id) (hget : CatalogStore.get s id = .ok c)
    (hv : Fields.get? field c.spec.properties = some v) :
    verdict s object field n = some (.ok v) := by
  simp only [verdict, hid, Option.bind_some, if_neg hnew, hget, hv]

theorem verdict_of_top (hid : ancestor s object n = some id)
    (hnew : ¬ ∃ m < n, ancestor s object m = some id) (hget : CatalogStore.get s id = .ok c)
    (hv : Fields.get? field c.spec.properties = none) (hp : c.spec.parent = none) :
    verdict s object field n = some (.error (.fieldNotFound field object)) := by
  simp only [verdict, hid, Option.bind_some, if_neg hnew, hget, hv, if_pos hp]

theorem verdict_of_parent {p : String} (hid : ancestor s object n = some id)
    (hnew : ¬ ∃ m < n, ancestor s object m = some id) (hget : CatalogStore.get s id = .ok c)
    (hv : Fields.get? field c.spec.properties = none) (hp : c.spec.parent = some p) :
    verdict s object field n = none := by
  simp [verdict, hid, if_neg hnew, hget, hv, hp]

/-- A walk from a step of the chain, having met just the ids below it, ends as the first verdict from
there on says. -/
theorem exists_verdict_of_ascent {visited asked : List String} {outcome : Except Halt (Option Value)}
    (h : Ascent s (fun c => Fields.get? field c.spec.properties) visited id asked outcome) (n : Nat)
    (hid : ancestor s object n = some id)
    (hmet : ∀ v, v ∈ visited ↔ ∃ m < n, ancestor s object m = some v) :
    ∃ k, n ≤ k ∧ verdict s object field k = some (inheritedOutcome field object outcome) ∧
      ∀ m, n ≤ m → m < k → verdict s object field m = none := by
  -- on the walk, so that a chain without an end needs no measure; what was met grows by the id at `n`
  induction h generalizing n with
  | repeated hvisited =>
    exact ⟨n, le_rfl, verdict_of_met hid ((hmet _).1 hvisited), fun m _ _ => by omega⟩
  | failed hnew hget =>
    exact ⟨n, le_rfl, verdict_of_error hid (mt (hmet _).2 hnew) hget, fun m _ _ => by omega⟩
  | found hnew hget hlook =>
    exact ⟨n, le_rfl, verdict_of_held hid (mt (hmet _).2 hnew) hget hlook, fun m _ _ => by omega⟩
  | top hnew hget hlook htop =>
    exact ⟨n, le_rfl, verdict_of_top hid (mt (hmet _).2 hnew) hget hlook htop,
      fun m _ _ => by omega⟩
  | @parent visited id c p asked r hnew hget hlook hparent _ ih =>
    have hmet' : ∀ v, v ∈ id :: visited ↔ ∃ m < n + 1, ancestor s object m = some v := by
      intro v
      rw [List.mem_cons, hmet, Nat.exists_lt_succ_right, hid, Option.some.injEq, or_comm, eq_comm]
    obtain ⟨k, hk, hverdict, hbefore⟩ := ih (n + 1) (ancestor_succ hid hget hparent) hmet'
    refine ⟨k, Nat.le_of_succ_le hk, hverdict, fun m hm hmk => ?_⟩
    rcases Nat.eq_or_lt_of_le hm with rfl | hm
    · exact verdict_of_parent hid (mt (hmet _).2 hnew) hget hlook hparent
    · exact hbefore m hm hmk

/-- In a finite store the chain comes to a verdict; the reader is given it, and no catalog is fetched
twice on the way. -/
theorem exists_firstVerdict (hs : Sized s) (object field : String) :
    ∃ n r, FirstVerdict s object field n r ∧ ∀ (t : Tracer) (overlay : Overlay),
      read t s overlay object field = (if n = 0 then r >>= t.trace overlay else r) ∧
      (readJournal t s overlay object field).asked.Nodup := by
  have hself : ancestor s object 0 = some object := rfl
  have hnew : ¬ ∃ m < 0, ancestor s object m = some object := by simp
  have hfirst {r : Except Error Value} (h : verdict s object field 0 = some r) :
      FirstVerdict s object field 0 r := ⟨h, by simp⟩
  have hone : [object].Nodup := List.pairwise_singleton _ _
  cases hget : CatalogStore.get s object with
  | error cause =>
    refine ⟨0, _, hfirst (verdict_of_error hself hnew hget), fun t overlay => ?_⟩
    rw [read, readJournal_of_get_error t overlay hget]
    exact ⟨rfl, hone⟩
  | ok c =>
    cases hv : Fields.get? field c.spec.properties with
    | some v =>
      refine ⟨0, _, hfirst (verdict_of_held hself hnew hget hv), fun t overlay => ?_⟩
      rw [read, readJournal_of_held t overlay hget hv]
      exact ⟨rfl, hone⟩
    | none =>
      cases hp : c.spec.parent with
      | none =>
        refine ⟨0, _, hfirst (verdict_of_top hself hnew hget hv hp), fun t overlay => ?_⟩
        rw [read, readJournal_of_top t overlay hget hv hp]
        exact ⟨rfl, hone⟩
      | some first =>
        have hwalk := walk_ascent hs (fun c => Fields.get? field c.spec.properties) object first
        obtain ⟨hnodup, hfresh⟩ := hwalk.fresh
        obtain ⟨n, hn, hverdict, hbefore⟩ := exists_verdict_of_ascent hwalk 1
          (ancestor_succ hself hget hp) (by simp [ancestor, eq_comm])
        refine ⟨n, _, ⟨hverdict, fun m hm => ?_⟩, fun t overlay => ?_⟩
        · rcases Nat.eq_zero_or_pos m with rfl | hpos
          · exact verdict_of_parent hself hnew hget hv hp
          · exact hbefore m hpos hm
        · rw [read, readJournal_of_parent t overlay hget hv hp]
          refine ⟨?_, List.nodup_cons.2 ⟨fun h => ?_, hnodup⟩⟩
          · rw [if_neg (Nat.one_le_iff_ne_zero.1 hn)]
            exact inherited_outcome s object field first
          · exact hfresh object h (List.mem_singleton_self object)

/-- Whatever the chain of parents looks like, reading a field of a finite store comes to the first
verdict on it and fetches no catalog twice. A value that `object` itself holds is traced; what is
settled above it is given as it is, to every reader alike. -/
theorem read_first_verdict (hs : Sized s) (object field : String) :
    (∃ n r, FirstVerdict s object field n r) ∧
    (∀ n r, FirstVerdict s object field n r → ∀ (t : Tracer) (overlay : Overlay),
      read t s overlay object field = if n = 0 then r >>= t.trace overlay else r) ∧
    ∀ (t : Tracer) (overlay : Overlay), (readJournal t s overlay object field).asked.Nodup := by
  obtain ⟨k, q, hq, hread⟩ := exists_firstVerdict hs object field
  refine ⟨⟨k, q, hq⟩, fun n r hr t overlay => ?_, fun t overlay => (hread t overlay).2⟩
  obtain ⟨rfl, rfl⟩ := hq.unique hr
  exact (hread t overlay).1

/-- Two catalogs that are each other's parent. -/
def roundabout : MemoryCatalogs :=
  (({} : MemoryCatalogs).written "a" ⟨"a", { parentName := some "b" }⟩).written "b"
    ⟨"b", { parentName := some "a" }⟩

/-- On a chain that goes round the second step is back at the start. -/
theorem read_first_verdict_roundabout :
    Sized roundabout ∧
    FirstVerdict roundabout "a" "k" 2 (.error (.cycle (.chainRepeats "a" "a"))) ∧
    read ⟨fun _ _ => .ok .null, {}⟩ roundabout {} "a" "k" =
      .error (.cycle (.chainRepeats "a" "a")) := by
  have hfirst : FirstVerdict roundabout "a" "k" 2 (.error (.cycle (.chainRepeats "a" "a"))) := by
    refine ⟨rfl, fun m hm => ?_⟩
    match m, hm with
    | 0, _ => rfl
    | 1, _ => rfl
  refine ⟨sized_memory _, hfirst, ?_⟩
  exact (read_first_verdict (sized_memory _) "a" "k").2.1 2 _ hfirst _ _

end Configuration
end FleetCatalog
