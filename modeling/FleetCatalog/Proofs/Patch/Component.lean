import FleetCatalog.Patch.Component
import FleetCatalog.Proofs.Outcome
import FleetCatalog.Proofs.Patch.Sequence

/-! What patching components leaves. The sequence that is addressed inside a component has a place,
in a property or in an entry of one, and only what stands there is changed. -/
namespace FleetCatalog.Patch

def named (name : String) (c : Component) : Bool := decide (c.name = name)

/-- A value holds a sequence where the target addresses one; `around` puts another in its place. -/
inductive Target.At (t : Target) (items : List Value) : Value → (List Value → Value) → Prop
  | property (h : t.subKey = "") : At t items (.sequence items) .sequence
  | entry {detail : Mapping} (h : t.subKey ≠ "")
      (hd : Fields.get? t.subKey detail = some (.sequence items)) :
      At t items (.mapping detail) fun new => .mapping (Fields.put t.subKey (.sequence new) detail)

/-- The sequence that is addressed, patched with the payload. -/
def Target.sequence (t : Target) (items : List Value) : Patched (List Value) :=
  Patch.sequence items t.payload t.key t.action

variable {t : Target} {v : Value} {c : Component} {cs pre post : List Component} {name : String}

theorem named_eq_false_iff :
    (∀ d ∈ cs, named name d = false) ↔ ∀ d ∈ cs, d.name ≠ name := by
  simp [named]

/-- The sequence stays as it is just if an entry is to be removed and none is addressed. -/
theorem Target.changed_sequence_iff {items : List Value} : (t.sequence items).changed = false ↔
    t.action = .remove ∧ ∀ entry ∈ items, t.key = "" ∨ addresses t.key t.payload entry = false := by
  unfold sequence Patch.sequence
  rw [changed_patchFirst_iff]
  simp only [Bool.and_eq_false_iff, decide_eq_false_iff_not, ne_eq, Decidable.not_not]

theorem Target.patchValue_of_at {items : List Value} {around : List Value → Value}
    (h : t.At items v around) : t.patchValue v = .ok ((t.sequence items).map around) := by
  cases h with
  | property hsub => simp only [patchValue, if_pos hsub, sequence]
  | entry hsub hd => simp only [patchValue, if_neg hsub, hd, sequence]

/-- Where one sequence was another is put in its place, and it is addressed there. -/
theorem Target.At.replaced {items : List Value} {around : List Value → Value}
    (h : t.At items v around) (new : List Value) : t.At new (around new) around := by
  cases h with
  | property hsub => exact .property hsub
  | @entry detail hsub hd =>
    have hnew := At.entry hsub (Fields.get?_put_self t.subKey (.sequence new) detail)
    simpa only [Fields.put_put] using hnew

/-- A value that does not hold a sequence where one is addressed is not patched. -/
theorem Target.exists_at_of_patchValue {p : Patched Value} (h : t.patchValue v = .ok p) :
    ∃ items around, t.At items v around := by
  unfold patchValue at h
  by_cases hsub : t.subKey = ""
  · rw [if_pos hsub] at h
    cases v with
    | sequence items => exact ⟨items, .sequence, .property hsub⟩
    | _ => cases h
  · rw [if_neg hsub] at h
    cases v with
    | mapping detail =>
      cases hd : Fields.get? t.subKey detail with
      | none =>
        simp only [hd] at h
        cases h
      | some w =>
        cases w with
        | sequence items => exact ⟨items, _, .entry hsub hd⟩
        | _ =>
          simp only [hd] at h
          cases h
    | _ => cases h

theorem Target.patch_of_none (h : Fields.get? t.property c.properties = none) :
    t.patch c = .ok ⟨false, c⟩ := by
  unfold patch
  rw [h]

theorem Target.patch_of_some (h : Fields.get? t.property c.properties = some v) :
    t.patch c = (t.patchValue v).map fun p =>
      p.map fun w => { c with properties := Fields.put t.property w c.properties } := by
  unfold patch
  rw [h]

theorem Target.patchNamed_of_none (h : ∀ d ∈ cs, named name d = false) :
    t.patchNamed name cs = .ok ⟨false, cs⟩ := by
  induction cs with
  | nil => rfl
  | cons d cs ih =>
    have hd : ¬ d.name = name := of_decide_eq_false (h d List.mem_cons_self)
    rw [patchNamed, if_neg hd, ih fun x hx => h x (List.mem_cons_of_mem d hx)]
    rfl

theorem Target.patchNamed_of_first (h : First (named name) cs pre c post) :
    t.patchNamed name cs = (t.patch c).map fun p => p.map fun d => pre ++ d :: post := by
  obtain ⟨rfl, hc, hpre⟩ := h
  induction pre with
  | nil => rw [List.nil_append, patchNamed, if_pos (of_decide_eq_true hc)]; rfl
  | cons b pre ih =>
    have hb : ¬ b.name = name := of_decide_eq_false (hpre b List.mem_cons_self)
    rw [List.cons_append, patchNamed, if_neg hb, ih fun x hx => hpre x (List.mem_cons_of_mem b hx)]
    cases t.patch c with
    | error e => rfl
    | ok p => rfl

end FleetCatalog.Patch
