import FleetCatalog.Catalog
import FleetCatalog.Proofs.Record.Fields

/-! A catalog comes back from its envelope as it was put in, except for the generation, which the
store keeps apart. -/
namespace FleetCatalog

theorem CatalogSpec.decode_encode (s : CatalogSpec) : decode s.encode = .ok s := by
  obtain ⟨name, kind, parentName, properties, metadata, generation⟩ := s
  have hname := Decode.fields_textUnlessEmpty setField "name" (fun x => { name := x }) rfl
    (fun _ => rfl) name
  have hkind := Decode.fields_textUnlessEmpty setField "type" (fun x => { name, kind := x }) rfl
    (fun _ => rfl) kind
  have hparent := Decode.fields_unlessAbsent setField "parentName" .string
    (fun x => { name, kind, parentName := x }) rfl (fun _ => rfl) parentName
  have hproperties : Decode.fields setField { name, kind, parentName }
      [("properties", .mapping properties)] = .ok { name, kind, parentName, properties } :=
    Decode.fields_singleton rfl
  have hmetadata := Decode.fields_textsUnlessEmpty setField "metadata"
    (fun x => { name, kind, parentName, properties, metadata := x }) rfl
    (fun m => by simp only [setField, Decode.sorted_texts]; rfl) metadata
  have hgeneration := Decode.fields_textUnlessEmpty setField "generation"
    (fun x => { name, kind, parentName, properties, metadata, generation := x }) rfl
    (fun _ => rfl) generation
  exact Decode.fields_append (Decode.fields_append (Decode.fields_append (Decode.fields_append
    (Decode.fields_append hname hkind) hparent) hproperties) hmetadata) hgeneration

/-- An envelope is read back as it was written, unless its status is null, which reads as none. -/
theorem CatalogDocument.decode_encode (d : CatalogDocument) (h : d.status ≠ some .null) :
    decode d.encode = .ok d := by
  obtain ⟨apiVersion, kind, metadata, spec, status⟩ := d
  have hspec : setField "spec" spec.encode ⟨apiVersion, kind, metadata, none, none⟩ =
      .ok ⟨apiVersion, kind, metadata, spec, none⟩ := by
    show Except.map _ (CatalogSpec.decode spec.encode) = _
    rw [CatalogSpec.decode_encode]
    rfl
  have hthree : Decode.fields setField {} [("apiVersion", .string apiVersion),
      ("kind", .string kind), ("metadata", metadata.encode)] =
      .ok ⟨apiVersion, kind, metadata, none, none⟩ := rfl
  have hfour : Decode.fields setField {} [("apiVersion", .string apiVersion),
      ("kind", .string kind), ("metadata", metadata.encode), ("spec", spec.encode)] =
      .ok ⟨apiVersion, kind, metadata, spec, none⟩ :=
    Decode.fields_append hthree (Decode.fields_singleton hspec)
  have hstatus := Decode.fields_unlessAbsent_of_ne_null setField "status"
    (fun x => ⟨apiVersion, kind, metadata, spec, x⟩) rfl
    (fun v hv => by rw [setField, Decode.optional_of_ne_null hv]; rfl) h
  have hrecord : Decode.record "CatalogDocument" declared setField {}
      (encode ⟨apiVersion, kind, metadata, spec, status⟩) =
      .ok ⟨apiVersion, kind, metadata, spec, status⟩ := Decode.fields_append hfour hstatus
  unfold decode
  rw [hrecord]
  rfl

/-- What is put into an envelope is taken out of it, with the tag as its generation. -/
theorem CatalogDocument.decode_ofCatalog (c : Catalog) :
    decode (ofCatalog c).encode = .ok (ofCatalog c) :=
  decode_encode _ (by simp [ofCatalog])

@[simp] theorem CatalogDocument.toCatalog_ofCatalog (c : Catalog) (tag : String) :
    (ofCatalog c).toCatalog tag = ⟨c.id, { c.spec with generation := tag }⟩ := rfl

end FleetCatalog
