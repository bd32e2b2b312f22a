import Mathlib.Data.List.Forall2
import FleetCatalog.Connection
import FleetCatalog.Context.Record
import FleetCatalog.Schema
import FleetCatalog.Proofs.Catalog.Envelope
import FleetCatalog.Proofs.Record.Component

/-! Records come back from what is written of them. A field is left out only where it reads as what it
is without an entry: a text or a map that is empty, an option that is absent. A record that was read
has no null where an option may be absent, and keeps no field under a name of its own. -/
namespace FleetCatalog

namespace Decode

theorem items_eq_ok {α : Type} {decode : Value → Except DecodeError α} {v : Value} {xs : List α}
    (h : items decode v = .ok xs) : ∃ vs, v = .sequence vs ∧ vs.mapM decode = .ok xs := by
  cases v with
  | sequence vs => exact ⟨vs, rfl, h⟩
  | _ => cases h

/-- Null reads as absence, so that a value that is there is not null. -/
theorem ne_null_of_optional {v : Value} {o : Option Value} (h : optional .ok v = .ok o) :
    o ≠ some .null := by
  cases v <;> cases h <;> simp

end Decode

theorem CatalogDocument.status_ne_null {j : Value} {d : CatalogDocument} (h : decode j = .ok d) :
    d.status ≠ some .null := by
  obtain ⟨draft, hdraft, h⟩ := Except.bind_eq_ok.1 h
  obtain ⟨apiVersion, -, h⟩ := Except.bind_eq_ok.1 h
  obtain ⟨kind, -, h⟩ := Except.bind_eq_ok.1 h
  obtain ⟨metadata, -, h⟩ := Except.bind_eq_ok.1 h
  obtain ⟨spec, -, h⟩ := Except.bind_eq_ok.1 h
  cases h
  show draft.status ≠ some .null
  have hset (key : String) (v : Value) (d d' : Draft) (h : setField key v d = .ok d')
      (hd : d.status ≠ some .null) : d'.status ≠ some .null := by
    unfold setField at h
    split at h
    case h_5 =>
      obtain ⟨x, hx, rfl⟩ := Except.map_eq_ok.1 h
      exact Decode.ne_null_of_optional hx
    case h_6 =>
      cases h
      exact hd
    all_goals
      obtain ⟨x, -, rfl⟩ := Except.map_eq_ok.1 h
      exact hd
  exact Decode.record_keeps hset hdraft (by simp)

namespace Context

theorem decode_encode {c : Context} (hvalue : c.value ≠ some .null)
    (hdeployment : c.deployment ≠ some .null) : decode c.encode = .ok c := by
  obtain ⟨inputs, outputs, value, properties, component, deployment⟩ := c
  have hmaps : Decode.fields setField {}
      [("inputs", .mapping inputs), ("outputs", .mapping outputs)] = .ok { inputs, outputs } := rfl
  have hvalue := Decode.fields_unlessAbsent_of_ne_null setField "value"
    (fun x => { inputs, outputs, value := x }) rfl
    (fun v hv => by rw [setField, Decode.optional_of_ne_null hv]; rfl) hvalue
  have hproperties : Decode.fields setField { inputs, outputs, value }
      [("properties", .mapping properties)] = .ok { inputs, outputs, value, properties } :=
    Decode.fields_singleton rfl
  have hcomponent := Decode.fields_unlessAbsent setField "component" .string
    (fun x => { inputs, outputs, value, properties, component := x }) rfl (fun _ => rfl) component
  have hdeployment := Decode.fields_unlessAbsent_of_ne_null setField "deploymentSpec"
    (fun x => { inputs, outputs, value, properties, component, deployment := x }) rfl
    (fun v hv => by rw [setField, Decode.optional_of_ne_null hv]; rfl) hdeployment
  exact Decode.fields_append (Decode.fields_append (Decode.fields_append
    (Decode.fields_append hmaps hvalue) hproperties) hcomponent) hdeployment

theorem ne_null_of_decode {j : Value} {c : Context} (h : decode j = .ok c) :
    c.value ≠ some .null ∧ c.deployment ≠ some .null := by
  have hset (key : String) (v : Value) (c c' : Context) (h : setField key v c = .ok c')
      (hc : c.value ≠ some .null ∧ c.deployment ≠ some .null) :
      c'.value ≠ some .null ∧ c'.deployment ≠ some .null := by
    unfold setField at h
    split at h
    case h_3 =>
      obtain ⟨x, hx, rfl⟩ := Except.map_eq_ok.1 h
      exact ⟨Decode.ne_null_of_optional hx, hc.2⟩
    case h_6 =>
      obtain ⟨x, hx, rfl⟩ := Except.map_eq_ok.1 h
      exact ⟨hc.1, Decode.ne_null_of_optional hx⟩
    case h_7 =>
      cases h
      exact hc
    all_goals
      obtain ⟨x, -, rfl⟩ := Except.map_eq_ok.1 h
      exact hc
  exact Decode.record_keeps hset h (by simp)

end Context

theorem PropertyType.decode_encode (t : PropertyType) : decode t.encode = .ok t := by
  cases t <;> rfl

theorem Rule.decode_encode (r : Rule) : decode r.encode = .ok r := by
  obtain ⟨required, type⟩ := r
  have hrequired : Decode.fields setField {} [("required", .bool required)] = .ok { required } := rfl
  have htype := Decode.fields_unlessAbsent setField "type" PropertyType.encode
    (fun x => { required, type := x }) rfl
    (fun t => by rw [setField, Decode.optional_of_ne_null Value.noConfusion, t.decode_encode]; rfl)
    type
  exact Decode.fields_append hrequired htype

theorem Schema.decode_encode (s : Schema) : decode s.encode = .ok s := by
  have hrules : setField "rules" (.mapping (s.rules.toList.map fun e => (e.1, e.2.encode))) {} =
      .ok s := by
    rw [setField, Decode.sorted_toList Rule.decode_encode]
    rfl
  exact Decode.fields_singleton hrules

theorem Connection.decode_encode (c : Connection) : decode c.encode = .ok c := by
  obtain ⟨baseUrl, user, password⟩ := c
  unfold encode Encode.textUnlessEmpty
  by_cases h : password = ""
  · rw [if_pos h, h]
    rfl
  · rw [if_neg h]
    rfl

namespace SolutionSpec
variable {j : Value} {s : SolutionSpec}

/-- Reading a field gives the components of its value, or leaves the components as they are. -/
theorem setField_cases {key : String} {v : Value} {s' : SolutionSpec}
    (h : setField key v s = .ok s') :
    (key = "components" ∧ Decode.items Component.decode v = .ok s'.components) ∨
    (key ≠ "components" ∧ s'.components = s.components) := by
  unfold setField at h
  split at h
  case h_3 =>
    obtain ⟨cs, hcs, rfl⟩ := Except.map_eq_ok.1 h
    exact .inl ⟨rfl, hcs⟩
  case h_4 hcomponents =>
    cases h
    exact .inr ⟨hcomponents, rfl⟩
  all_goals
    obtain ⟨x, -, rfl⟩ := Except.map_eq_ok.1 h
    exact .inr ⟨by decide, rfl⟩

theorem setField_of_not_declared {key : String} {v : Value} (h : key ∉ declared) :
    setField key v s = .ok s := by
  simp only [declared, List.mem_cons, List.not_mem_nil, or_false, not_or] at h
  unfold setField
  split <;> simp_all

theorem decode_eq_ok (h : decode j = .ok s) : ∃ fs s₀, j = .mapping fs ∧
    Decode.fields setField {} fs = .ok s₀ ∧ s = { s₀ with extra := others fs } := by
  cases j with
  | mapping fs =>
    obtain ⟨s₀, hfs, hs⟩ := Except.map_eq_ok.1 h
    exact ⟨fs, s₀, rfl, hfs, hs.symm⟩
  | _ => cases h

theorem reads_components :
    Decode.Reads setField "components" (Decode.items Component.decode) SolutionSpec.components :=
  .of_cases setField_cases

/-- The fields of a solution that it names, as they are written. -/
def known (s : SolutionSpec) : Mapping :=
  Encode.textUnlessEmpty "displayName" s.displayName ++
    Encode.textsUnlessEmpty "metadata" s.metadata ++
    [("components", .sequence (s.components.map Component.encode))]

theorem encode_eq (s : SolutionSpec) : s.encode = .mapping (s.known ++ s.extra) := rfl

theorem key_of_mem_known {e : String × Value} (h : e ∈ s.known) : e.1 ∈ declared := by
  simp only [known, List.mem_append, List.mem_singleton] at h
  rcases h with (h | h) | rfl
  · simp [declared, Encode.key_of_mem_textUnlessEmpty h]
  · simp [declared, Encode.key_of_mem_textsUnlessEmpty h]
  · simp [declared]

/-- None of the fields that are kept is one that the solution or a component of it names. -/
def Apart (s : SolutionSpec) : Prop :=
  (∀ e ∈ s.extra, e.1 ∉ declared) ∧ ∀ c ∈ s.components, c.Apart

theorem apart_of_decode (h : decode j = .ok s) : s.Apart := by
  obtain ⟨fs, s₀, -, hfs, rfl⟩ := decode_eq_ok h
  have hset (key : String) (v : Value) (s s' : SolutionSpec) (h : setField key v s = .ok s')
      (hs : ∀ c ∈ s.components, c.Apart) : ∀ c ∈ s'.components, c.Apart := by
    rcases setField_cases h with ⟨-, h⟩ | ⟨-, h⟩
    · obtain ⟨vs, -, hvs⟩ := Decode.items_eq_ok h
      intro c hc
      obtain ⟨v, -, hv⟩ := (Except.mem_of_mapM_eq_ok hvs).1 hc
      exact Component.apart_of_decode hv
    · rw [h]
      exact hs
  have hcomponents : ∀ c ∈ s₀.components, c.Apart := Decode.fields_keeps hset hfs (by simp)
  exact ⟨fun e he => of_decide_eq_true (List.mem_filter.1 he).2, hcomponents⟩

theorem decode_encode (h : s.Apart) : decode s.encode = .ok s := by
  obtain ⟨displayName, metadata, components, extra⟩ := s
  obtain ⟨hextra, hcomponents⟩ := h
  have hname := Decode.fields_textUnlessEmpty setField "displayName"
    (fun x => { displayName := x }) rfl (fun _ => rfl) displayName
  have hmetadata := Decode.fields_textsUnlessEmpty setField "metadata"
    (fun x => { displayName, metadata := x }) rfl
    (fun m => by simp only [setField, Decode.sorted_texts]; rfl) metadata
  have hitems : Decode.items Component.decode (.sequence (components.map Component.encode)) =
      .ok components := Decode.items_map fun c hc => Component.decode_encode (hcomponents c hc)
  have hlist : Decode.fields setField { displayName, metadata }
      [("components", .sequence (components.map Component.encode))] =
      .ok { displayName, metadata, components } := by
    apply Decode.fields_singleton
    rw [setField, hitems]
    rfl
  have hrest : Decode.fields setField { displayName, metadata, components } extra =
      .ok { displayName, metadata, components } :=
    Decode.fields_eq_self fun e he => setField_of_not_declared (hextra e he)
  have hfields := Decode.fields_append
    (Decode.fields_append (Decode.fields_append hname hmetadata) hlist) hrest
  have hothers : others (known ⟨displayName, metadata, components, extra⟩ ++ extra) = extra :=
    filter_not_declared (fun e he => key_of_mem_known he) hextra
  refine Except.map_eq_ok.2 ⟨_, hfields, ?_⟩
  exact congrArg (SolutionSpec.mk displayName metadata components) hothers

theorem carries_encode (h : decode j = .ok s) : Carries declared j s.encode := by
  obtain ⟨fs, s₀, hj, -, rfl⟩ := decode_eq_ok h
  exact ⟨fs, known s₀, hj, rfl, fun e he => key_of_mem_known he⟩

theorem get?_components (s : SolutionSpec) : Fields.get? "components" (s.known ++ s.extra) =
    some (.sequence (s.components.map Component.encode)) := by
  have hname : Fields.get? "components" (Encode.textUnlessEmpty "displayName" s.displayName) =
      none := by
    apply Fields.get?_eq_none_of_forall
    intro e he
    rw [Encode.key_of_mem_textUnlessEmpty he]
    decide
  have hmetadata : Fields.get? "components" (Encode.textsUnlessEmpty "metadata" s.metadata) =
      none := by
    apply Fields.get?_eq_none_of_forall
    intro e he
    rw [Encode.key_of_mem_textsUnlessEmpty he]
    decide
  simp [known, Fields.get?_append, hname, hmetadata, Fields.get?_cons]

/-- The components of a solution are written as those that were read, with the fields they kept. -/
theorem components_carried {fs : Mapping} {vs : List Value} (h : decode (.mapping fs) = .ok s)
    (hfs : Fields.Distinct fs) (hvs : Fields.get? "components" fs = some (.sequence vs)) :
    List.Forall₂ (Carries Component.declared) vs (s.components.map Component.encode) := by
  obtain ⟨fs', s₀, hfs', hread, rfl⟩ := decode_eq_ok h
  cases hfs'
  have hgiven := reads_components.given hfs hread
  rw [Decode.given_of_some hvs] at hgiven
  rw [List.forall₂_map_right_iff]
  exact (Except.forall₂_of_mapM_eq_ok hgiven).imp fun v c hc => Component.carries_encode hc

end SolutionSpec

/-- Whatever a record has been read from, what is written of it reads as the record again. -/
def Record.ReadsBack (α : Type) [Record α] : Prop :=
  ∀ (j : Value) (r : α), decode j = .ok r → decode (encode r) = .ok r

/-- All records read back from what is written of them. A component and a solution are written with all
fields of what they were read from, those that they name in front and the others as they were and in
their order, and so are the components inside a solution. -/
theorem records_read_back :
    Record.ReadsBack CatalogSpec ∧ Record.ReadsBack CatalogDocument ∧
    Record.ReadsBack Component ∧ Record.ReadsBack SolutionSpec ∧ Record.ReadsBack Context ∧
    Record.ReadsBack Schema ∧ Record.ReadsBack Connection ∧
    (∀ j c, Component.decode j = .ok c → Carries Component.declared j c.encode) ∧
    ∀ j s, SolutionSpec.decode j = .ok s → Carries SolutionSpec.declared j s.encode ∧
      ∀ fs vs, j = .mapping fs → Fields.Distinct fs →
        Fields.get? "components" fs = some (.sequence vs) →
        ∃ gs ws, s.encode = .mapping gs ∧ Fields.get? "components" gs = some (.sequence ws) ∧
          List.Forall₂ (Carries Component.declared) vs ws := by
  refine ⟨fun _ s _ => s.decode_encode, ?_, ?_, ?_, ?_, fun _ s _ => s.decode_encode,
    fun _ c _ => c.decode_encode, fun j c => Component.carries_encode, ?_⟩
  · intro j d h
    exact d.decode_encode (CatalogDocument.status_ne_null h)
  · intro j c h
    exact Component.decode_encode (Component.apart_of_decode h)
  · intro j s h
    exact SolutionSpec.decode_encode (SolutionSpec.apart_of_decode h)
  · intro j c h
    obtain ⟨hvalue, hdeployment⟩ := Context.ne_null_of_decode h
    exact Context.decode_encode hvalue hdeployment
  · intro j s h
    refine ⟨SolutionSpec.carries_encode h, ?_⟩
    rintro fs vs rfl hfs hvs
    exact ⟨_, _, s.encode_eq, s.get?_components, SolutionSpec.components_carried h hfs hvs⟩

end FleetCatalog
