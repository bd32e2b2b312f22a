import FleetCatalog.Solution
import FleetCatalog.Proofs.Record.Fields

/-! Components as they are read and written. The fields that a component does not name are kept as they
are and in their order, and are written behind those that it names. -/
namespace FleetCatalog

/-- What was read is written with all fields that are not among the declared ones, as they were and in
the same order, behind entries for declared ones. -/
def Carries (declared : List String) (j w : Value) : Prop :=
  ∃ fs known, j = .mapping fs ∧
    w = .mapping (known ++ fs.filter fun e => decide (e.1 ∉ declared)) ∧
    ∀ e ∈ known, e.1 ∈ declared

theorem filter_not_declared {declared : List String} {known extra : Mapping}
    (hknown : ∀ e ∈ known, e.1 ∈ declared) (hextra : ∀ e ∈ extra, e.1 ∉ declared) :
    ((known ++ extra).filter fun e => decide (e.1 ∉ declared)) = extra := by
  have hnone : (known.filter fun e => decide (e.1 ∉ declared)) = [] := by
    rw [List.filter_eq_nil_iff]
    intro e he
    simpa using hknown e he
  have hall : (extra.filter fun e => decide (e.1 ∉ declared)) = extra := by
    rw [List.filter_eq_self]
    intro e he
    simpa using hextra e he
  rw [List.filter_append, hnone, hall, List.nil_append]

theorem Encode.key_of_mem_textUnlessEmpty {key s : String} {e : String × Value}
    (h : e ∈ Encode.textUnlessEmpty key s) : e.1 = key := by
  unfold Encode.textUnlessEmpty at h
  split at h
  · cases h
  · rw [List.mem_singleton.1 h]

theorem Encode.key_of_mem_textsUnlessEmpty {key : String} {m : SortedMap String}
    {e : String × Value} (h : e ∈ Encode.textsUnlessEmpty key m) : e.1 = key := by
  unfold Encode.textsUnlessEmpty at h
  split at h
  · cases h
  · rw [List.mem_singleton.1 h]

theorem Decode.text_eq_ok_iff {v : Value} {s : String} : text v = .ok s ↔ v = .string s := by
  cases v <;> simp [text]

theorem Decode.mapping_eq_ok_iff {v : Value} {fs : Mapping} :
    mapping v = .ok fs ↔ v = .mapping fs := by
  cases v <;> simp [mapping]

namespace Component
variable {key : String} {v : Value} {d d' : Draft} {c : Component} {fs : Mapping}

/-- All that reading one field does. -/
theorem setField_cases (h : setField key v d = .ok d') :
    (key = "name" ∧ ∃ s, v = .string s ∧ d' = { d with name := some s }) ∨
    (key = "type" ∧ ∃ s, v = .string s ∧ d' = { d with kind := s }) ∨
    (key = "properties" ∧ ∃ ps, v = .mapping ps ∧ d' = { d with properties := ps }) ∨
    (key ∉ declared ∧ d' = d) := by
  unfold setField at h
  split at h
  · obtain ⟨s, hs, rfl⟩ := Except.map_eq_ok.1 h
    exact .inl ⟨rfl, s, Decode.text_eq_ok_iff.1 hs, rfl⟩
  · obtain ⟨s, hs, rfl⟩ := Except.map_eq_ok.1 h
    exact .inr (.inl ⟨rfl, s, Decode.text_eq_ok_iff.1 hs, rfl⟩)
  · obtain ⟨ps, hps, rfl⟩ := Except.map_eq_ok.1 h
    exact .inr (.inr (.inl ⟨rfl, ps, Decode.mapping_eq_ok_iff.1 hps, rfl⟩))
  · next hname hkind hproperties =>
    cases h
    have hkey : key ∉ declared := by
      simp only [declared, List.mem_cons, List.not_mem_nil, or_false, not_or]
      exact ⟨hname, hkind, hproperties⟩
    exact .inr (.inr (.inr ⟨hkey, rfl⟩))

theorem setField_of_not_declared (h : key ∉ declared) : setField key v d = .ok d := by
  simp only [declared, List.mem_cons, List.not_mem_nil, or_false, not_or] at h
  unfold setField
  split <;> simp_all

/-- A component is read from the fields of a mapping; all other fields of the mapping are kept. -/
theorem decode_eq_ok_iff {j : Value} : decode j = .ok c ↔
    ∃ fs, j = .mapping fs ∧
      Decode.fields setField {} fs = .ok ⟨some c.name, c.kind, c.properties⟩ ∧
      c.extra = others fs := by
  constructor
  · intro h
    cases j with
    | mapping fs =>
      obtain ⟨⟨name, kind, properties⟩, hfs, h⟩ := Except.bind_eq_ok.1 h
      obtain ⟨n, hname, h⟩ := Except.bind_eq_ok.1 h
      cases name with
      | none => cases hname
      | some m =>
        cases hname
        cases h
        exact ⟨fs, rfl, hfs, rfl⟩
    | _ => cases h
  · rintro ⟨fs, rfl, hfs, hextra⟩
    obtain ⟨name, kind, properties, extra⟩ := c
    dsimp only at hfs hextra
    subst hextra
    unfold decode
    simp only
    rw [hfs]
    rfl

theorem reads_name :
    Decode.Reads setField "name" (fun v => (Decode.text v).map some) Draft.name := by
  apply Decode.Reads.of_cases
  intro key v d d' h
  obtain ⟨rfl, s, rfl, rfl⟩ | ⟨rfl, s, -, rfl⟩ | ⟨rfl, ps, -, rfl⟩ | ⟨hkey, rfl⟩ := setField_cases h
  · exact .inl ⟨rfl, rfl⟩
  · exact .inr ⟨by decide, rfl⟩
  · exact .inr ⟨by decide, rfl⟩
  · exact .inr ⟨fun heq => hkey (by simp [declared, heq]), rfl⟩

theorem reads_kind : Decode.Reads setField "type" Decode.text Draft.kind := by
  apply Decode.Reads.of_cases
  intro key v d d' h
  obtain ⟨rfl, s, -, rfl⟩ | ⟨rfl, s, rfl, rfl⟩ | ⟨rfl, ps, -, rfl⟩ | ⟨hkey, rfl⟩ := setField_cases h
  · exact .inr ⟨by decide, rfl⟩
  · exact .inl ⟨rfl, rfl⟩
  · exact .inr ⟨by decide, rfl⟩
  · exact .inr ⟨fun heq => hkey (by simp [declared, heq]), rfl⟩

theorem reads_properties :
    Decode.Reads setField "properties" Decode.mapping Draft.properties := by
  apply Decode.Reads.of_cases
  intro key v d d' h
  obtain ⟨rfl, s, -, rfl⟩ | ⟨rfl, s, -, rfl⟩ | ⟨rfl, ps, rfl, rfl⟩ | ⟨hkey, rfl⟩ := setField_cases h
  · exact .inr ⟨by decide, rfl⟩
  · exact .inr ⟨by decide, rfl⟩
  · exact .inl ⟨rfl, rfl⟩
  · exact .inr ⟨fun heq => hkey (by simp [declared, heq]), rfl⟩

/-- What a mapping without repeated keys says of a component, whatever the order of its fields. -/
structure Says (fs : Mapping) (c : Component) : Prop where
  name : Fields.get? "name" fs = some (.string c.name)
  kind : Decode.Given Decode.text "type" fs "" c.kind
  properties : Decode.Given Decode.mapping "properties" fs [] c.properties
  extra : c.extra = others fs

theorem says_of_decode (hfs : Fields.Distinct fs) (h : decode (.mapping fs) = .ok c) :
    Says fs c := by
  obtain ⟨fs', hj, hfields, hextra⟩ := decode_eq_ok_iff.1 h
  cases hj
  refine ⟨?_, reads_kind.given hfs hfields, reads_properties.given hfs hfields, hextra⟩
  have hname := reads_name.given hfs hfields
  cases hget : Fields.get? "name" fs with
  | none =>
    rw [Decode.given_of_none hget] at hname
    cases hname
  | some v =>
    rw [Decode.given_of_some hget, Except.map_eq_ok] at hname
    obtain ⟨s, hs, hsome⟩ := hname
    cases hsome
    rw [Decode.text_eq_ok_iff.1 hs]

/-- A field is one of the three that a component names, with its value, or it is kept. -/
theorem Says.cases (h : Says fs c) (hfs : Fields.Distinct fs) {e : String × Value} (he : e ∈ fs) :
    e = ("name", .string c.name) ∨ e = ("type", .string c.kind) ∨
      e = ("properties", .mapping c.properties) ∨ e.1 ∉ declared ∧ e ∈ c.extra := by
  obtain ⟨key, v⟩ := e
  have hget : Fields.get? key fs = some v := Fields.get?_of_mem hfs he
  by_cases hkey : key ∈ declared
  · simp only [declared, List.mem_cons, List.not_mem_nil, or_false] at hkey
    rcases hkey with rfl | rfl | rfl
    · rw [h.name] at hget
      exact .inl (Prod.ext rfl (Option.some.inj hget).symm)
    · have hkind := (Decode.given_of_some hget).1 h.kind
      exact .inr (.inl (Prod.ext rfl (Decode.text_eq_ok_iff.1 hkind)))
    · have hproperties := (Decode.given_of_some hget).1 h.properties
      exact .inr (.inr (.inl (Prod.ext rfl (Decode.mapping_eq_ok_iff.1 hproperties))))
  · rw [h.extra]
    exact .inr (.inr (.inr ⟨hkey, List.mem_filter.2 ⟨he, decide_eq_true hkey⟩⟩))

theorem Says.decode (h : Says fs c) (hfs : Fields.Distinct fs) : decode (.mapping fs) = .ok c := by
  have hfield : ∀ e ∈ fs, ∀ d, ∃ d', setField e.1 e.2 d = .ok d' := by
    intro e he d
    obtain rfl | rfl | rfl | ⟨hkey, -⟩ := h.cases hfs he
    · exact ⟨{ d with name := some c.name }, rfl⟩
    · exact ⟨{ d with kind := c.kind }, rfl⟩
    · exact ⟨{ d with properties := c.properties }, rfl⟩
    · exact ⟨d, setField_of_not_declared hkey⟩
  obtain ⟨⟨name, kind, properties⟩, hfields⟩ := Decode.exists_fields hfield {}
  have hname := (Decode.given_of_some h.name).1 (reads_name.given hfs hfields)
  have hkind := (reads_kind.given hfs hfields).unique h.kind
  have hproperties := (reads_properties.given hfs hfields).unique h.properties
  cases hname
  cases hkind
  cases hproperties
  exact decode_eq_ok_iff.2 ⟨fs, rfl, hfields, h.extra⟩

theorem decode_mapping_eq_ok_iff (hfs : Fields.Distinct fs) :
    decode (.mapping fs) = .ok c ↔ Says fs c :=
  ⟨says_of_decode hfs, fun h => h.decode hfs⟩

/-- The fields of a component that it names, as they are written. -/
def known (c : Component) : Mapping :=
  [("name", .string c.name)] ++ Encode.textUnlessEmpty "type" c.kind ++
    [("properties", .mapping c.properties)]

theorem encode_eq (c : Component) : c.encode = .mapping (c.known ++ c.extra) := rfl

theorem key_of_mem_known {e : String × Value} (h : e ∈ c.known) : e.1 ∈ declared := by
  simp only [known, List.mem_append, List.mem_singleton] at h
  rcases h with (rfl | h) | rfl
  · simp [declared]
  · simp [declared, Encode.key_of_mem_textUnlessEmpty h]
  · simp [declared]

theorem fields_known (c : Component) :
    Decode.fields setField {} c.known = .ok ⟨some c.name, c.kind, c.properties⟩ := by
  have hname : Decode.fields setField {} [("name", .string c.name)] = .ok { name := c.name } :=
    Decode.fields_singleton rfl
  have hkind := Decode.fields_textUnlessEmpty setField "type"
    (fun x => { name := c.name, kind := x }) rfl (fun _ => rfl) c.kind
  have hproperties : Decode.fields setField { name := c.name, kind := c.kind }
      [("properties", .mapping c.properties)] = .ok ⟨some c.name, c.kind, c.properties⟩ :=
    Decode.fields_singleton rfl
  exact Decode.fields_append (Decode.fields_append hname hkind) hproperties

/-- None of the fields that are kept is one that the component names. -/
def Apart (c : Component) : Prop := ∀ e ∈ c.extra, e.1 ∉ declared

theorem decode_encode (h : c.Apart) : decode c.encode = .ok c := by
  have hextra : Decode.fields setField ⟨some c.name, c.kind, c.properties⟩ c.extra =
      .ok ⟨some c.name, c.kind, c.properties⟩ :=
    Decode.fields_eq_self fun e he => setField_of_not_declared (h e he)
  have hothers : others (c.known ++ c.extra) = c.extra :=
    filter_not_declared (fun e he => key_of_mem_known he) h
  exact decode_eq_ok_iff.2
    ⟨_, encode_eq c, Decode.fields_append (fields_known c) hextra, hothers.symm⟩

theorem apart_of_decode {j : Value} (h : decode j = .ok c) : c.Apart := by
  obtain ⟨fs, -, -, hextra⟩ := decode_eq_ok_iff.1 h
  intro e he
  rw [hextra] at he
  exact of_decide_eq_true (List.mem_filter.1 he).2

theorem distinct_known (c : Component) : Fields.Distinct c.known := by
  unfold known Encode.textUnlessEmpty
  split <;> simp [Fields.Distinct, Fields.keys]

/-- What is written of a component that was read has no key twice either. -/
theorem distinct_written (hfs : Fields.Distinct fs) (h : decode (.mapping fs) = .ok c) :
    Fields.Distinct (c.known ++ c.extra) := by
  have hextra : Fields.Distinct c.extra := by
    rw [(says_of_decode hfs h).extra]
    exact Fields.distinct_filter hfs _
  have hapart := apart_of_decode h
  unfold Fields.Distinct Fields.keys
  rw [List.map_append, List.nodup_append]
  refine ⟨distinct_known c, hextra, ?_⟩
  intro key hkey key' hkey' heq
  obtain ⟨e, he, rfl⟩ := List.mem_map.1 hkey
  obtain ⟨e', he', rfl⟩ := List.mem_map.1 hkey'
  have hdeclared := key_of_mem_known he
  rw [heq] at hdeclared
  exact hapart e' he' hdeclared

theorem carries_encode {j : Value} (h : decode j = .ok c) : Carries declared j c.encode := by
  obtain ⟨fs, hj, -, hextra⟩ := decode_eq_ok_iff.1 h
  refine ⟨fs, c.known, hj, ?_, fun e he => key_of_mem_known he⟩
  rw [encode_eq, hextra]
  rfl

end Component
end FleetCatalog
