import FleetCatalog.Proofs.Patch.Effect
import FleetCatalog.Template.Eval

/-! Adding again what has been added. The entry or the component that an addition leaves is the first
one that the same addition finds, so that it is put in its own place. Where entries are not told apart
by a key this fails: each addition inside a component then appends. -/
namespace FleetCatalog

namespace Patch
variable {r : Request} {payload : Mapping} {cs ds : List Component}

/-- The sequence that an addition leaves is left as it is by the same addition. -/
theorem sequence_add_add {key : String} (hkey : key ≠ "") (items : List Value) :
    sequence (sequence items payload key .add).result payload key .add =
      ⟨true, (sequence items payload key .add).result⟩ := by
  apply patchFirst_add_add
  simp [hkey, addresses_self]

/-- The components that an addition leaves are left as they are by the same addition. -/
theorem Request.Effect.again (h : r.Effect payload cs ds) (hadd : r.action = .add)
    (hkey : r.component = "" ∨ r.dedupKey ≠ "") : patchComponents r payload ds = .ok ⟨true, ds⟩ := by
  cases h with
  | @replaced pre post c d hc haction hpayload hfirst =>
    have hsame : First (named c.name) (pre ++ c :: post) pre c post :=
      ⟨rfl, decide_eq_true rfl, hfirst.before⟩
    rw [patchComponents_whole hc, hpayload, hadd]
    exact congrArg Except.ok (patchFirst_of_first hsame c .add)
  | deleted hc haction hpayload hfirst =>
    rw [hadd] at haction
    cases haction
  | @appended c hc haction hpayload hnone =>
    have hlast : First (named c.name) (cs ++ [c]) cs c [] :=
      ⟨rfl, decide_eq_true rfl, named_eq_false_iff.2 hnone⟩
    rw [patchComponents_whole hc, hpayload, hadd]
    exact congrArg Except.ok (patchFirst_of_first hlast c .add)
  | @inside pre post c v items around hc hfirst hproperty hat =>
    have hdedup : r.dedupKey ≠ "" := hkey.resolve_left hc
    generalize hnew : (sequence items payload r.dedupKey r.action).result = new
    have hsequence : (r.target payload).sequence new = ⟨true, new⟩ := by
      rw [← hnew, hadd]
      show sequence _ payload r.dedupKey r.action = _
      rw [hadd]
      exact sequence_add_add hdedup items
    -- The component still is the first of its name, and the property still holds a sequence.
    have hfirst' : First (named r.component)
        (pre ++ { c with properties := Fields.put r.property (around new) c.properties } :: post) pre
        { c with properties := Fields.put r.property (around new) c.properties } post :=
      ⟨rfl, hfirst.holds, hfirst.before⟩
    have hproperty' : Fields.get? (r.target payload).property
        (Fields.put r.property (around new) c.properties) = some (around new) :=
      Fields.get?_put_self _ _ _
    rw [patchComponents_inside hc, Target.patchNamed_of_first hfirst',
      Target.patch_of_some hproperty', Target.patchValue_of_at (hat.replaced new), hsequence]
    show Except.ok _ = Except.ok _
    simp [Patched.map, Request.target]

/-- A request to add a whole component, or an entry that is told apart by a key, does no harm if it is
made again: if it succeeds it succeeds again, and no catalog and no solution is then specified
otherwise than after the first time. -/
theorem added_again {κ : Type} [CatalogStore κ] {t : Tracer} {st after : Stores κ MemorySolutions}
    {inputs : Mapping} {result : StageResult} (hr : Request.ofInputs inputs = .ok r)
    (hadd : r.action = .add) (hkey : r.component = "" ∨ r.dedupKey ≠ "")
    (hrun : process t st inputs = (.ok result, after)) :
    ∃ again, process t after inputs = (.ok result, again) ∧ again.catalogs = after.catalogs ∧
      ∀ name scope, (again.solutions.get name scope).map Solution.spec =
        (after.solutions.get name scope).map Solution.spec := by
  rcases process_cases t st inputs with ⟨e, h⟩ | ⟨r', payload, hr', hpayload, hcases⟩
  · rw [h] at hrun
    cases hrun
  · have hsame : r = r' := Except.ok.inj (hr.symm.trans hr')
    subst hsame
    have hidle (h : process t st inputs = (.ok {}, st)) :
        ∃ again, process t after inputs = (.ok result, again) ∧ again.catalogs = after.catalogs ∧
          ∀ name scope, (again.solutions.get name scope).map Solution.spec =
            (after.solutions.get name scope).map Solution.spec := by
      rw [h] at hrun
      cases hrun
      exact ⟨st, h, rfl, fun _ _ => rfl⟩
    rcases hcases with ⟨-, h⟩ | ⟨s, p, htype, hs, hp, ⟨-, h⟩ | ⟨hchanged, h⟩⟩
    · exact hidle h
    · exact hidle h
    · obtain ⟨solutions, hupsert, hrevision⟩ :=
        MemorySolutions.upsert_of_get hs { s.spec with components := p.result }
      rw [h, show SolutionStore.upsert st.solutions r.objectName r.scope _ = _ from hupsert] at hrun
      cases hrun
      obtain ⟨tag, hget⟩ := hrevision.get_new
      have hagain : patchComponents r payload p.result = .ok ⟨true, p.result⟩ :=
        (Request.effect_of_changed hp hchanged).again hadd hkey
      have hplan : plan t { st with solutions } r =
          .ok (some { s.spec with components := p.result }) :=
        plan_of_patch { st with solutions } hpayload htype hget hagain
      obtain ⟨solutions', hupsert', hrevision'⟩ :=
        MemorySolutions.upsert_of_get hget { s.spec with components := p.result }
      refine ⟨{ st with solutions := solutions' }, ?_, rfl, hrevision'.spec_eq⟩
      rw [process_of_plan_some hr hplan,
        show SolutionStore.upsert solutions r.objectName r.scope _ = _ from hupsert']
      rfl

/-- A solution with one component, which has these ports. -/
def webWithPorts (ports : List Value) : SolutionSpec :=
  { components := [{ name := "web", properties := [("ports", .sequence ports)] }] }

/-- A request to add a port to the component of the solution `shop`, ports being told apart by their
numbers. -/
def addPort (port : Mapping) : Mapping :=
  [("objectType", .string "solution"), ("objectName", .string "shop"),
    ("patchSource", .string "inline"), ("component", .string "web"), ("property", .string "ports"),
    ("dedupKey", .string "port"), ("patchContent", .mapping port)]

/-- The second time the port 2 is found behind the port 1. -/
theorem added_again_port :
    let one : Value := .mapping [("port", .number (.int 1))]
    let two : Mapping := [("port", .number (.int 2))]
    let st : Stores MemoryCatalogs MemorySolutions :=
      ⟨{}, (({} : MemorySolutions).upsert "shop" "default" (webWithPorts [one])).2⟩
    ∃ r after again, Request.ofInputs (addPort two) = .ok r ∧ r.action = .add ∧ r.dedupKey ≠ "" ∧
      process ⟨Template.evaluate, {}⟩ st (addPort two) = (.ok {}, after) ∧
      process ⟨Template.evaluate, {}⟩ after (addPort two) = (.ok {}, again) ∧
      (again.solutions.get "shop" "default").map Solution.spec =
        .ok (webWithPorts [one, .mapping two]) := by
  intro one two st
  obtain ⟨r, hr⟩ : ∃ r, Request.ofInputs (addPort two) = .ok r := ⟨_, rfl⟩
  have hadd : r.action = .add := by cases hr; rfl
  have hkey : r.dedupKey ≠ "" := by cases hr; decide
  obtain ⟨after, hrun⟩ : ∃ after,
      process ⟨Template.evaluate, {}⟩ st (addPort two) = (.ok {}, after) := ⟨_, rfl⟩
  have hafter : (after.solutions.get "shop" "default").map Solution.spec =
      .ok (webWithPorts [one, .mapping two]) := by cases hrun; rfl
  obtain ⟨again, hagain, -, hspec⟩ := added_again hr hadd (.inr hkey) hrun
  exact ⟨r, after, again, hr, hadd, hkey, hrun, hagain, (hspec "shop" "default").trans hafter⟩

end Patch
end FleetCatalog
