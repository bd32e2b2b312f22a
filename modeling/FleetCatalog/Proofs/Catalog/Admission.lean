import FleetCatalog.Proofs.Catalog.Lineage
import FleetCatalog.Proofs.Catalog.Schema
import FleetCatalog.Proofs.Store.Ledger

/-! When a catalog is admitted. The schema it names is looked at first, then the chain of parents,
then the tag; the first of them that is found wanting decides the answer. The schema is the one that
is stored when the write is made, so a catalog that is its own schema is held to its last revision. -/
namespace FleetCatalog
open Ancestry Relation

/-- A specification holds a schema, as that of a schema catalog does. -/
def CatalogSpec.Declares (spec : CatalogSpec) (sch : Schema) : Prop :=
  ∃ v, Fields.get? schemaProperty spec.properties = some v ∧ Schema.decode v = .ok sch

namespace Registry

/-- A specification satisfies the stored schema that it names, if it names one. -/
def Conforms (s : MemoryCatalogs) (spec : CatalogSpec) : Prop :=
  ∀ id, spec.metadata.get? schemaKey = some id →
    ∃ c sch, s.get id = .ok c ∧ c.spec.Declares sch ∧ sch.Satisfied spec.properties

/-- Why a specification is refused on account of the schema it names. -/
inductive SchemaRefused (s : MemoryCatalogs) (spec : CatalogSpec) : Refusal → Prop
  | missing {id} (hname : spec.metadata.get? schemaKey = some id) (habsent : ¬ Present s id) :
    SchemaRefused s spec (.schemaMissing id)
  | withoutSpec {id c} (hname : spec.metadata.get? schemaKey = some id) (hget : s.get id = .ok c)
    (hnone : Fields.get? schemaProperty c.spec.properties = none) :
    SchemaRefused s spec (.schemaWithoutSpec id)
  | invalid {id c v cause} (hname : spec.metadata.get? schemaKey = some id)
    (hget : s.get id = .ok c) (hv : Fields.get? schemaProperty c.spec.properties = some v)
    (hdecode : Schema.decode v = .error cause) : SchemaRefused s spec (.schemaInvalid id cause)
  | violated {id c sch} (hname : spec.metadata.get? schemaKey = some id)
    (hget : s.get id = .ok c) (hdeclares : c.spec.Declares sch)
    (hviolated : ¬ sch.Satisfied spec.properties) :
    SchemaRefused s spec (.violations (sch.violations spec.properties))

/-- An id is met on the way up from the parent of a specification. -/
def Above (s : MemoryCatalogs) (spec : CatalogSpec) (id : String) : Prop :=
  ∃ first, spec.parent = some first ∧ ReflTransGen (Inherits s) first id

/-- At an id the way up comes back: to the catalog that is written, or to the id itself. -/
def LeadsBack (s : MemoryCatalogs) (name id : String) : Prop :=
  id = name ∨ TransGen (Inherits s) id id

/-- A tag is given, and it is not on what is stored under the name. -/
def Outdated (s : MemoryCatalogs) (name tag : String) : Prop :=
  tag ≠ "" ∧ ∀ c, s.get name = .ok c → c.spec.generation ≠ tag

/-- What a write is answered, each cause only for want of those before it. -/
structure Answered (s : MemoryCatalogs) (name : String) (spec : CatalogSpec)
    (answer : Except Error String) : Prop where
  schema : ∀ cause, SchemaRefused s spec cause → answer = .error (.refused cause)
  cycle : (∀ cause, ¬ SchemaRefused s spec cause) →
    (∃ id, Above s spec id ∧ LeadsBack s name id) →
    ∃ id, Above s spec id ∧ LeadsBack s name id ∧
      answer = .error (.cycle (.parentLeadsBack id name))
  parent : (∀ cause, ¬ SchemaRefused s spec cause) →
    (∀ id, Above s spec id → ¬ LeadsBack s name id) →
    ∀ id, Above s spec id → ¬ Present s id → answer = .error (.refused (.parentMissing id name))
  outdated : (∀ cause, ¬ SchemaRefused s spec cause) →
    (∀ id, Above s spec id → ¬ LeadsBack s name id ∧ Present s id) →
    Outdated s name spec.generation →
    answer = .error (.store (.conflict .catalog name spec.generation (s.tag name)))
  stored : (∀ cause, ¬ SchemaRefused s spec cause) →
    (∀ id, Above s spec id → ¬ LeadsBack s name id ∧ Present s id) →
    ¬ Outdated s name spec.generation →
    answer = .ok (generationTag (s.nextGeneration name))

variable {s : MemoryCatalogs} {l : Ledger} {name id : String} {spec : CatalogSpec} {c : Catalog}
  {sch : Schema} {cause : Refusal}

section Schema

theorem schema_of_none (h : s.get id = .ok c)
    (hnone : Fields.get? schemaProperty c.spec.properties = none) :
    schema s id = .error (.refused (.schemaWithoutSpec id)) := by
  have hs : CatalogStore.get s id = _ := h
  unfold schema
  simp only [hs, hnone]

theorem schema_of_some {v : Value} (h : s.get id = .ok c)
    (hv : Fields.get? schemaProperty c.spec.properties = some v) :
    schema s id = (Schema.decode v).mapError fun cause => .refused (.schemaInvalid id cause) := by
  have hs : CatalogStore.get s id = _ := h
  unfold schema
  simp only [hs, hv]

theorem schema_eq_ok : schema s id = .ok sch ↔ ∃ c, s.get id = .ok c ∧ c.spec.Declares sch := by
  cases hget : s.get id with
  | error cause =>
    have hs : CatalogStore.get s id = _ := hget
    unfold schema
    rw [hs]
    cases cause <;> simp
  | ok c =>
    unfold CatalogSpec.Declares
    cases hv : Fields.get? schemaProperty c.spec.properties with
    | none => simp [schema_of_none hget hv, hv]
    | some v => simp [schema_of_some hget hv, hv, Except.mapError_eq_ok]

theorem validate_of_named (h : spec.metadata.get? schemaKey = some id) :
    validate s spec = (schema s id).map fun sch => sch.violations spec.properties := by
  unfold validate
  rw [h]

/-- A specification is found without fault just if it satisfies the stored schema. -/
theorem validate_eq_empty_iff : validate s spec = .ok ∅ ↔ Conforms s spec := by
  unfold Conforms
  cases hname : spec.metadata.get? schemaKey with
  | none => simp [validate, hname]
  | some id =>
    rw [validate_of_named hname]
    simp only [Except.map_eq_ok, schema_eq_ok, Option.some.injEq, forall_eq',
      ← Schema.isEmpty_violations_iff, SortedMap.isEmpty_iff]
    constructor
    · rintro ⟨sch, ⟨c, hget, hdeclares⟩, hempty⟩
      exact ⟨c, sch, hget, hdeclares, hempty⟩
    · rintro ⟨c, sch, hget, hdeclares, hempty⟩
      exact ⟨sch, ⟨c, hget, hdeclares⟩, hempty⟩

theorem accept_of_conforms (h : Conforms s spec) :
    accept s name spec = checkParents s name spec := by
  unfold accept
  rw [validate_eq_empty_iff.2 h]
  rfl

/-- After a write every schema is as it was, but for that of the catalog that was written. -/
theorem conforms_written_iff (h : Conforms s spec) (tag : String) :
    Conforms (s.written name ⟨name, spec⟩) { spec with generation := tag } ↔
      (spec.metadata.get? schemaKey = some name →
        ∃ sch, spec.Declares sch ∧ sch.Satisfied spec.properties) := by
  constructor
  · intro hwritten hname
    obtain ⟨c, sch, hget, hdeclares, hsat⟩ := hwritten name hname
    rw [MemoryCatalogs.get_written, if_pos rfl] at hget
    cases hget
    exact ⟨sch, hdeclares, hsat⟩
  · intro hself id hname
    by_cases hid : id = name
    · subst hid
      obtain ⟨sch, hdeclares, hsat⟩ := hself hname
      exact ⟨_, sch, (MemoryCatalogs.get_written s id id _).trans (if_pos rfl), hdeclares, hsat⟩
    · obtain ⟨c, sch, hget, hdeclares, hsat⟩ := h id hname
      refine ⟨c, sch, ?_, hdeclares, hsat⟩
      rwa [MemoryCatalogs.get_written, if_neg hid]

theorem accept_of_schemaRefused (hs : s.Keeps l) (h : SchemaRefused s spec cause) :
    accept s name spec = .error (.refused cause) := by
  unfold accept
  cases h with
  | @missing id hname habsent =>
    rcases hs.get_cases id with ⟨c, hget⟩ | hget
    · exact absurd ⟨c, hget⟩ habsent
    · have hs : CatalogStore.get s id = _ := hget
      rw [validate_of_named hname, schema, hs]
      rfl
  | withoutSpec hname hget hnone =>
    rw [validate_of_named hname, schema_of_none hget hnone]
    rfl
  | invalid hname hget hv hdecode =>
    rw [validate_of_named hname, schema_of_some hget hv, hdecode]
    rfl
  | violated hname hget hdeclares hviolated =>
    rw [validate_of_named hname, schema_eq_ok.2 ⟨_, hget, hdeclares⟩]
    exact if_neg (mt Schema.isEmpty_violations_iff.1 hviolated)

theorem conforms_of_not_schemaRefused (hs : s.Keeps l)
    (h : ∀ cause, ¬ SchemaRefused s spec cause) : Conforms s spec := by
  intro id hname
  rcases hs.get_cases id with ⟨c, hget⟩ | hget
  · cases hv : Fields.get? schemaProperty c.spec.properties with
    | none => exact absurd (.withoutSpec hname hget hv) (h _)
    | some v =>
      cases hdecode : Schema.decode v with
      | error cause => exact absurd (.invalid hname hget hv hdecode) (h _)
      | ok sch =>
        have hdeclares : c.spec.Declares sch := ⟨v, hv, hdecode⟩
        refine ⟨c, sch, hget, hdeclares, ?_⟩
        by_contra hviolated
        exact h _ (.violated hname hget hdeclares hviolated)
  · exact absurd (.missing hname (not_present_of_error hget)) (h _)

end Schema

section Parents

theorem checkParents_of_top (h : spec.parent = none) : checkParents s name spec = .ok () := by
  unfold checkParents
  rw [h]

theorem not_leadsBack_of_ascent {look : Catalog → Option Empty} {first : String}
    {asked : List String} {outcome : Except Halt (Option Empty)}
    (h : Ascent s look [name] first asked outcome) (hend : ∀ id, outcome ≠ .error (.repeated id))
    (hreach : ReflTransGen (Inherits s) first id) : ¬ LeadsBack s name id := by
  rintro (rfl | hcycle)
  · exact h.not_reaches_visited hend (List.mem_singleton_self id) hreach
  · exact h.not_cyclic hend hreach hcycle

/-- The way up comes back at an id, or leaves the store at one, or comes to the top; the check says
which. -/
theorem checkParents_cases (hs : s.Keeps l) (name : String) (spec : CatalogSpec) :
    (∃ id, Above s spec id ∧ LeadsBack s name id ∧
      checkParents s name spec = .error (.cycle (.parentLeadsBack id name))) ∨
    (∀ id, Above s spec id → ¬ LeadsBack s name id) ∧
      ((∃ id, Above s spec id ∧ ¬ Present s id ∧
        checkParents s name spec = .error (.refused (.parentMissing id name))) ∨
      (∀ id, Above s spec id → Present s id) ∧ checkParents s name spec = .ok ()) := by
  cases hparent : spec.parent with
  | none =>
    have hnone : ∀ id, ¬ Above s spec id := by
      rintro id ⟨first, hfirst, -⟩
      rw [hparent] at hfirst
      cases hfirst
    exact .inr ⟨fun id h => absurd h (hnone id),
      .inr ⟨fun id h => absurd h (hnone id), checkParents_of_top hparent⟩⟩
  | some first =>
    have habove : ∀ id, Above s spec id ↔ ReflTransGen (Inherits s) first id := by
      intro id
      simp [Above, hparent]
    simp only [habove]
    have hwalk := walk_ascent (sized_memory s) (fun _ => (none : Option Empty)) name first
    unfold checkParents
    rw [hparent]
    dsimp only
    cases hend : (walk s (fun _ => (none : Option Empty)) name first).outcome with
    | ok r =>
      rw [hend] at hwalk
      exact .inr ⟨fun id => not_leadsBack_of_ascent hwalk nofun,
        .inr ⟨fun id => hwalk.present_of_reaches, rfl⟩⟩
    | error halt =>
      rw [hend] at hwalk
      cases halt with
      | repeated id =>
        obtain ⟨hreach, hmet⟩ := hwalk.of_repeated
        exact .inl ⟨id, hreach, hmet.imp_left List.mem_singleton.1, rfl⟩
      | failed id cause =>
        obtain ⟨hreach, hget⟩ := hwalk.of_failed
        have habsent := not_present_of_error hget
        refine .inr ⟨fun id => not_leadsBack_of_ascent hwalk nofun, .inl ⟨id, hreach, habsent, ?_⟩⟩
        rcases hs.get_cases id with hpresent | hmissing
        · exact absurd hpresent habsent
        · cases hget.symm.trans hmissing
          rfl

theorem eq_of_above_of_absent {other : String} (hid : Above s spec id) (habsent : ¬ Present s id)
    (hother : Above s spec other) (habsent' : ¬ Present s other) : other = id := by
  obtain ⟨first, hfirst, hreach⟩ := hid
  obtain ⟨first', hfirst', hreach'⟩ := hother
  cases hfirst.symm.trans hfirst'
  exact eq_of_reaches_of_absent hreach habsent hreach' habsent'

theorem checkParents_of_leadsBack (hs : s.Keeps l)
    (h : ∃ id, Above s spec id ∧ LeadsBack s name id) :
    ∃ id, Above s spec id ∧ LeadsBack s name id ∧
      checkParents s name spec = .error (.cycle (.parentLeadsBack id name)) := by
  rcases checkParents_cases hs name spec with hcycle | ⟨hfree, -⟩
  · exact hcycle
  · obtain ⟨id, habove, hback⟩ := h
    exact absurd hback (hfree id habove)

theorem checkParents_of_absent (hs : s.Keeps l)
    (hfree : ∀ id, Above s spec id → ¬ LeadsBack s name id) (habove : Above s spec id)
    (habsent : ¬ Present s id) :
    checkParents s name spec = .error (.refused (.parentMissing id name)) := by
  rcases checkParents_cases hs name spec with
    ⟨other, hother, hback, -⟩ | ⟨-, ⟨other, hother, habsent', hcheck⟩ | ⟨hpresent, -⟩⟩
  · exact absurd hback (hfree other hother)
  · rw [hcheck, eq_of_above_of_absent habove habsent hother habsent']
  · exact absurd (hpresent id habove) habsent

theorem checkParents_of_complete (hs : s.Keeps l)
    (h : ∀ id, Above s spec id → ¬ LeadsBack s name id ∧ Present s id) :
    checkParents s name spec = .ok () := by
  rcases checkParents_cases hs name spec with
    ⟨id, habove, hback, -⟩ | ⟨-, ⟨id, habove, habsent, -⟩ | ⟨-, hcheck⟩⟩
  · exact absurd hback (h id habove).1
  · exact absurd (h id habove).2 habsent
  · exact hcheck

end Parents

section Answer

theorem accept_of_not_schemaRefused (hs : s.Keeps l) (h : ∀ cause, ¬ SchemaRefused s spec cause) :
    accept s name spec = checkParents s name spec :=
  accept_of_conforms (conforms_of_not_schemaRefused hs h)

theorem outdated_iff (hs : s.Keeps l) {tag : String} :
    Outdated s name tag ↔ ¬ s.Current name tag := by
  unfold Outdated
  rw [hs.current_iff]
  push Not
  rfl

/-- A write is answered by what the store holds: by the schema that the specification names, else by
the way up from its parent, else by its tag. Nothing is assumed of the parents in the store; they may
be missing, or lead back to each other without leading to what is written. -/
theorem upsert_answered (m : Registry) (calls : List MemoryCatalogs.Call) (name : String)
    (spec : CatalogSpec) :
    let s := MemoryCatalogs.Call.runAll {} calls
    Answered s name spec (m.upsert s name spec).answer := by
  intro s
  have hempty : MemoryCatalogs.Keeps {} Ledger.empty := fun _ => rfl
  have hs : s.Keeps (Ledger.empty.runAll calls) := hempty.runAll calls
  refine ⟨?schema, ?cycle, ?parent, ?outdated, ?stored⟩
  case schema =>
    intro cause h
    rw [m.upsert_of_refused (accept_of_schemaRefused hs h)]
  case cycle =>
    intro hschema h
    obtain ⟨id, habove, hback, hcheck⟩ := checkParents_of_leadsBack hs h
    rw [← accept_of_not_schemaRefused hs hschema] at hcheck
    exact ⟨id, habove, hback, by rw [m.upsert_of_refused hcheck]⟩
  case parent =>
    intro hschema hfree id habove habsent
    have hcheck := checkParents_of_absent hs hfree habove habsent
    rw [← accept_of_not_schemaRefused hs hschema] at hcheck
    rw [m.upsert_of_refused hcheck]
  case outdated =>
    intro hschema h htag
    have hcheck := checkParents_of_complete hs h
    rw [← accept_of_not_schemaRefused hs hschema] at hcheck
    rw [m.upsert_of_not_current hcheck ((outdated_iff hs).1 htag)]
  case stored =>
    intro hschema h htag
    have hcheck := checkParents_of_complete hs h
    rw [← accept_of_not_schemaRefused hs hschema] at hcheck
    rw [outdated_iff hs, not_not] at htag
    rw [m.upsert_of_current hcheck htag]

/-- A way up that comes back is told although the tag is outdated as well, also where it misses what
is written. -/
example :
    let s := MemoryCatalogs.Call.runAll {} [.upsert "a" ⟨"a", { parentName := some "b" }⟩,
      .upsert "b" ⟨"b", { parentName := some "a" }⟩]
    (upsert {} s "c" { parentName := some "a", generation := "7" }).answer =
      .error (.cycle (.parentLeadsBack "a" "c")) := by
  decide +kernel

/-- A specification that is stored satisfies the schema that it names as that was stored before. It
is as good by the schema stored after, unless it was written over that schema: then it is just if its
properties satisfy the schema that they hold. -/
theorem upsert_conforms {m : Registry} {tag : String} (h : (m.upsert s name spec).answer = .ok tag) :
    let stored := { spec with generation := tag }
    let t := (m.upsert s name spec).store
    validate s spec = .ok ∅ ∧ get t name = .ok ⟨name, stored⟩ ∧
      (validate t stored = .ok ∅ ↔ (spec.metadata.get? schemaKey = some name →
        ∃ sch, spec.Declares sch ∧ sch.Satisfied spec.properties)) := by
  intro stored t
  obtain ⟨haccept, rfl, hstore⟩ := m.of_upsert_ok h
  have hvalid := (of_accept haccept).1
  have ht : t = s.written name ⟨name, spec⟩ := hstore
  refine ⟨hvalid, ?_, ?_⟩
  · rw [ht]
    exact Except.mapError_eq_ok.2 ((MemoryCatalogs.get_written s name name _).trans (if_pos rfl))
  · rw [ht, validate_eq_empty_iff, conforms_written_iff (validate_eq_empty_iff.1 hvalid)]

/-- Asks for an owner, has none, and names the catalog `s` as its schema. -/
def ownerless : CatalogSpec :=
  { properties := [("spec", .mapping [("rules", .mapping
      [("owner", .mapping [("required", .bool true)])])])]
    metadata := .ofList [("schema", "s")] }

/-- Written over a catalog `s` that holds a schema without rules, it conforms to that, and would have
to satisfy itself afterwards. -/
theorem upsert_conforms_own_schema :
    let s := CatalogCall.runAll {} [.upsert {} "s" { properties := [("spec", .mapping [])] }]
    let t := (upsert {} s "s" ownerless).store
    (upsert {} s "s" ownerless).answer = .ok "2" ∧
    validate s ownerless = .ok ∅ ∧ get t "s" = .ok ⟨"s", { ownerless with generation := "2" }⟩ ∧
      (validate t { ownerless with generation := "2" } = .ok ∅ ↔
        (ownerless.metadata.get? schemaKey = some "s" →
          ∃ sch, ownerless.Declares sch ∧ sch.Satisfied ownerless.properties)) := by
  intro s t
  have hanswer : (upsert {} s "s" ownerless).answer = .ok "2" := by decide +kernel
  exact ⟨hanswer, upsert_conforms hanswer⟩

/-- It is admitted, and once it is stored it does not satisfy its schema. -/
theorem own_schema_not_satisfied :
    ¬ ∀ (calls : List CatalogCall) (m : Registry) (name tag : String) (spec : CatalogSpec)
      (c : Catalog), let s := CatalogCall.runAll {} calls
      (m.upsert s name spec).answer = .ok tag → get (m.upsert s name spec).store name = .ok c →
      validate (m.upsert s name spec).store c.spec = .ok ∅ := by
  intro h
  have hvalid := h [.upsert {} "s" { properties := [("spec", .mapping [])] }] {} "s" "2" ownerless _
    (by decide +kernel) rfl
  exact absurd hvalid (by decide +kernel)

end Answer

end Registry
end FleetCatalog
