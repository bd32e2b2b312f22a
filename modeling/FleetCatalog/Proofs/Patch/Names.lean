import FleetCatalog.Proofs.Patch.Sources

/-! The names of a solution's components. Only a request for a whole component adds or removes one, the
name of the component that its payload is traced to; a request inside a component leaves the name that
it is found by. Names that differ at first therefore differ after every run. -/
namespace FleetCatalog

namespace MemorySolutions

/-- The names of the components of a stored solution, in their order. -/
def componentNames (s : MemorySolutions) (name scope : String) : Except StoreError (List String) :=
  (s.get name scope).map fun x => x.spec.components.map Component.name

/-- No stored solution has two components of one name. -/
def NamesApart (s : MemorySolutions) : Prop :=
  ∀ name scope names, s.componentNames name scope = .ok names → names.Nodup

variable {s s' : MemorySolutions} {name scope : String} {x : Solution} {old new : SolutionSpec}

theorem componentNames_of_get (h : s.get name scope = .ok x) :
    s.componentNames name scope = .ok (x.spec.components.map Component.name) := by
  unfold componentNames
  rw [h]
  rfl

theorem Revision.componentNames_new (h : s.Revision s' name scope old new) :
    s'.componentNames name scope = .ok (new.components.map Component.name) := by
  obtain ⟨tag, hget⟩ := h.get_new
  exact componentNames_of_get hget

theorem Revision.componentNames_other (h : s.Revision s' name scope old new) {n sc : String}
    (hkey : (sc, n) ≠ (scope, name)) : s'.componentNames n sc = s.componentNames n sc := by
  unfold componentNames
  rw [h.get_other hkey]

theorem namesApart_empty : NamesApart {} := by
  intro name scope names h
  cases h

theorem NamesApart.upsert (hs : s.NamesApart) (name scope : String) {spec : SolutionSpec}
    (hspec : (spec.components.map Component.name).Nodup) :
    (s.upsert name scope spec).2.NamesApart := by
  intro n sc names h
  unfold componentNames get MemorySolutions.upsert at h
  rw [Fields.get?_put] at h
  by_cases hkey : (sc, n) = (scope, name)
  · rw [if_pos hkey] at h
    cases h
    exact hspec
  · rw [if_neg hkey] at h
    exact hs n sc names h

end MemorySolutions

namespace Patch

/-- What an action on a component of a name does to the names, if it changes them. -/
inductive Action.Renames (name : String) : Action → List String → List String → Prop
  | added {names : List String} (h : name ∉ names) : Renames name .add names (names ++ [name])
  | removed {names : List String} (h : name ∈ names) : Renames name .remove names (names.erase name)

theorem Action.Renames.nodup {name : String} {action : Action} {names names' : List String}
    (h : action.Renames name names names') (hnames : names.Nodup) : names'.Nodup := by
  cases h with
  | added hnew =>
    refine List.nodup_append.2 ⟨hnames, by simp, ?_⟩
    rintro a ha b hb rfl
    exact hnew (List.mem_singleton.1 hb ▸ ha)
  | removed _ => exact hnames.erase name

variable {r : Request} {payload : Mapping} {cs ds : List Component}

/-- The names stay as they are unless a whole component is added or removed. -/
theorem Request.Effect.names (h : r.Effect payload cs ds) :
    ds.map Component.name = cs.map Component.name ∨
      r.component = "" ∧ ∃ c, payloadComponent payload = .ok c ∧
        r.action.Renames c.name (cs.map Component.name) (ds.map Component.name) := by
  cases h with
  | @replaced pre post c d hc haction hpayload hfirst =>
    have hname : d.name = c.name := of_decide_eq_true hfirst.holds
    left
    rw [hfirst.split, List.map_append, List.map_append, List.map_cons, List.map_cons, hname]
  | @deleted pre post c d hc haction hpayload hfirst =>
    have hname : d.name = c.name := of_decide_eq_true hfirst.holds
    have hpre : c.name ∉ pre.map Component.name := by
      rw [List.mem_map]
      rintro ⟨b, hb, hbname⟩
      exact named_eq_false_iff.1 hfirst.before b hb hbname
    have herase : (cs.map Component.name).erase c.name = (pre ++ post).map Component.name := by
      rw [hfirst.split, List.map_append, List.map_cons, hname, List.erase_append_right _ hpre,
        List.erase_cons_head, List.map_append]
    have hmem : c.name ∈ cs.map Component.name := by
      rw [← hname]
      exact List.mem_map_of_mem hfirst.mem
    right
    rw [haction, ← herase]
    exact ⟨hc, c, hpayload, .removed hmem⟩
  | @appended c hc haction hpayload hnone =>
    have hnew : c.name ∉ cs.map Component.name := by
      rw [List.mem_map]
      rintro ⟨b, hb, hbname⟩
      exact hnone b hb hbname
    right
    rw [haction, List.map_append]
    exact ⟨hc, c, hpayload, .added hnew⟩
  | @inside pre post c v items around hc hfirst hproperty hat =>
    left
    rw [hfirst.split, List.map_append, List.map_append, List.map_cons, List.map_cons]

variable {κ : Type} [CatalogStore κ] {t : Tracer} {inputs : Mapping} {name scope : String}

/-- A run of the stage that succeeds with a whole component for a solution and changes its names. -/
structure NamesChange (t : Tracer) (st : Stores κ MemorySolutions) (inputs : Mapping)
    (name scope : String) (r : Request) (c : Component) (names names' : List String) : Prop where
  request : Request.ofInputs inputs = .ok r
  objectType : r.objectType = solutionType
  addressed : r.objectName = name ∧ r.scope = scope
  whole : r.component = ""
  payload : ∃ payload, tracedPayload t st.catalogs r = .ok payload ∧
    payloadComponent payload = .ok c
  succeeds : (process t st inputs).1 = .ok {}
  before : st.solutions.componentNames name scope = .ok names
  after : (process t st inputs).2.solutions.componentNames name scope = .ok names'
  renames : r.action.Renames c.name names names'

/-- A run of the stage keeps the names of a solution, or it succeeds with a whole component for it. -/
theorem process_names (t : Tracer) (st : Stores κ MemorySolutions) (inputs : Mapping)
    (name scope : String) :
    (process t st inputs).2.solutions.componentNames name scope =
        st.solutions.componentNames name scope ∨
      ∃ r c names names', NamesChange t st inputs name scope r c names names' := by
  rcases process_cases t st inputs with
    ⟨e, h⟩ | ⟨r, payload, hr, hpayload, ⟨-, h⟩ | ⟨s, p, htype, hs, hp, ⟨-, h⟩ | ⟨hchanged, h⟩⟩⟩
  · exact .inl (by rw [h])
  · exact .inl (by rw [h])
  · exact .inl (by rw [h])
  · have hplan := plan_of_patch st hpayload htype hs hp
    rw [if_pos hchanged] at hplan
    obtain ⟨solutions, hrun, hrevision⟩ := process_of_revision hr hs hplan
    rw [hrun]
    by_cases hkey : (scope, name) = (r.scope, r.objectName)
    · cases hkey
      have hbefore := MemorySolutions.componentNames_of_get hs
      have hafter := hrevision.componentNames_new
      rcases (Request.effect_of_changed hp hchanged).names with hsame | ⟨hwhole, c, hc, hrenames⟩
      · left
        rw [hbefore, hafter, ← hsame]
      · right
        refine ⟨r, c, _, _, hr, htype, ⟨rfl, rfl⟩, hwhole, ⟨payload, hpayload, hc⟩, ?_, hbefore, ?_,
          hrenames⟩
        · rw [hrun]
        · rw [hrun]
          exact hafter
    · exact .inl (hrevision.componentNames_other hkey)

theorem namesApart_process {st : Stores κ MemorySolutions} (h : st.solutions.NamesApart)
    (t : Tracer) (inputs : Mapping) : (process t st inputs).2.solutions.NamesApart := by
  intro name scope names hnames
  rcases process_names t st inputs name scope with hsame | ⟨r, c, old, new, hchange⟩
  · rw [hsame] at hnames
    exact h name scope names hnames
  · rw [hchange.after] at hnames
    cases hnames
    exact hchange.renames.nodup (h name scope old hchange.before)

/-- A call of the stage: the inputs, and the evaluator and base context that it is made with. -/
structure StageCall where
  tracer : Tracer
  inputs : Mapping

/-- The stores after calls one after another, whether they succeed or not. -/
def processAll (st : Stores κ MemorySolutions) (calls : List StageCall) : Stores κ MemorySolutions :=
  calls.foldl (fun st call => (process call.tracer st call.inputs).2) st

/-- Where the components of each solution have names of their own they have so after every run of
calls, and a call changes the names of a solution only as a successful request for a whole component
of that solution: by adding the name of the component that its payload is traced to, or by removing
that name. -/
theorem component_names_stay_apart (st : Stores κ MemorySolutions) :
    (st.solutions.NamesApart → ∀ calls, (processAll st calls).solutions.NamesApart) ∧
    ∀ t inputs name scope,
      (process t st inputs).2.solutions.componentNames name scope ≠
        st.solutions.componentNames name scope →
      ∃ r c names names', NamesChange t st inputs name scope r c names names' := by
  constructor
  · intro h calls
    induction calls generalizing st with
    | nil => exact h
    | cons call calls ih =>
      exact ih (process call.tracer st call.inputs).2
        (namesApart_process h call.tracer call.inputs)
  · intro t inputs name scope hne
    exact (process_names t st inputs name scope).resolve_left hne

/-- A component is added to a solution that has another one, which is then removed. -/
theorem component_names_stay_apart_replaced :
    let web : Component := { name := "web" }
    let st : Stores MemoryCatalogs MemorySolutions :=
      ⟨{}, (({} : MemorySolutions).upsert "shop" "default" { components := [web] }).2⟩
    let add := patchShop "" "inline" (.mapping [("name", .string "db$\x7bvalue\x7d")])
    let remove := ("patchAction", .string "remove") ::
      patchShop "" "inline" (.mapping [("name", .string "web")])
    let t : Tracer := ⟨Template.evaluate, {}⟩
    let after := processAll st [⟨t, add⟩, ⟨t, remove⟩]
    after.solutions.NamesApart ∧ after.solutions.componentNames "shop" "default" = .ok ["db2"] ∧
      ∃ r c, NamesChange t st add "shop" "default" r c ["web"] ["web", "db2"] := by
  intro web st add remove t after
  have hst : st.solutions.NamesApart :=
    MemorySolutions.namesApart_empty.upsert "shop" "default" (by decide)
  have hbefore : st.solutions.componentNames "shop" "default" = .ok ["web"] := rfl
  have hadded : (process t st add).2.solutions.componentNames "shop" "default" =
      .ok ["web", "db2"] := rfl
  obtain ⟨r, c, names, names', hchange⟩ :=
    (component_names_stay_apart st).2 t add "shop" "default" (by rw [hbefore, hadded]; decide)
  have hnames := hchange.before
  have hnames' := hchange.after
  rw [hbefore] at hnames
  rw [hadded] at hnames'
  cases hnames
  cases hnames'
  have hafter : after.solutions.componentNames "shop" "default" = .ok ["db2"] := by rfl
  exact ⟨(component_names_stay_apart st).1 hst _, hafter, r, c, hchange⟩

end Patch
end FleetCatalog
