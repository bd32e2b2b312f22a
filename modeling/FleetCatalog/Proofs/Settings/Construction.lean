import FleetCatalog.Error
import FleetCatalog.Proofs.Record.RoundTrip
import FleetCatalog.Proofs.Settings.Spelling

/-! The ways to a checked connection: from an object, from settings, from properties taken by their
names. Properties come to the first two as a table of texts, which gives the same connection in
whatever order it is read, so that these two differ only in how they report a base URL given twice.
The third does not know other spellings and agrees wherever there are none. -/
namespace FleetCatalog
namespace Connection
open Setting

/-- A connection or the kind of the error that there is in its place. -/
def graded (x : Except SettingsError Connection) : Except ErrorKind Connection :=
  x.mapError fun e => (Error.settings e).kind

/-- An object of texts. -/
def textObject (es : List (String × String)) : Value :=
  .mapping (es.map fun e => (e.1, .string e.2))

/-- A table of texts. -/
def textTable (es : List (String × String)) : SettingTable := es.map fun e => (e.1, .text e.2)

variable {f : Field} {t t' : SettingTable} {k s : String} {m : SortedMap String} {c c' : Connection}
  {es : List (String × String)}

section Order

theorem eq_of_perm_of_length_le_one {α : Type} {l l' : List α} (h : l.Perm l') (hl : l.length ≤ 1) :
    l' = l := by
  match l with
  | [] => exact h.symm.eq_nil
  | [a] => exact List.perm_singleton.1 h.symm

theorem length_offers_of_ne_baseUrl (ht : Ordered t) (hf : f ≠ .baseUrl) :
    (offers f t).length ≤ 1 :=
  length_offers_le_one ht fun _ ha _ hb =>
    Field.key_unique hf (ofKey?_of_mem_offers ha) (ofKey?_of_mem_offers hb)

/-- Texts are read alike in any order: every field is given once, or the base URL is given twice
whatever comes first. -/
theorem ofSettings_perm (ht : Ordered t) (hr : Readable t) (h : t.Perm t') :
    ofSettings t' = ofSettings t := by
  have hr' : Readable t' := fun e he => hr e (h.mem_iff.2 he)
  have hoffers (f : Field) : (offers f t).Perm (offers f t') := h.filterMap (offer f)
  by_cases hbase : (offers .baseUrl t).length ≤ 1
  · have hone (f : Field) : (offers f t).length ≤ 1 := by
      by_cases hf : f = .baseUrl
      · rw [hf]
        exact hbase
      · exact length_offers_of_ne_baseUrl ht hf
    have hgiven (f : Field) : offers f t = (offers f t).getLast?.toList :=
      eq_getLast?_toList (hone f)
    have hgiven' (f : Field) : offers f t' = (offers f t).getLast?.toList :=
      (eq_of_perm_of_length_le_one (hoffers f) (hone f)).trans (hgiven f)
    rw [ofSettings_of_single hr hgiven, ofSettings_of_single hr' hgiven']
  · have hother (f : Field) (hf : f ≠ .baseUrl) := length_offers_of_ne_baseUrl ht hf
    have hother' (f : Field) (hf : f ≠ .baseUrl) : (offers f t').length ≤ 1 :=
      (hoffers f).length_eq ▸ hother f hf
    have htwo : 1 < (offers .baseUrl t).length := Nat.lt_of_not_le hbase
    rw [ofSettings_of_two hr hother htwo,
      ofSettings_of_two hr' hother' ((hoffers .baseUrl).length_eq ▸ htwo)]

end Order

section Texts

theorem ordered_textTable (m : SortedMap String) : Ordered (textTable m.toList) :=
  List.pairwise_map.2 m.ascending

theorem readable_textTable (es : List (String × String)) : Readable (textTable es) := by
  intro e he f _
  obtain ⟨x, -, rfl⟩ := List.mem_map.1 he
  exact ⟨x.2, rfl⟩

theorem get?_textTable (k : String) (es : List (String × String)) :
    Fields.get? k (textTable es) = (Fields.get? k es).map .text := by
  induction es with
  | nil => rfl
  | cons e es ih =>
    rw [textTable, List.map_cons, Fields.get?_cons, Fields.get?_cons, ← textTable, ih]
    split <;> rfl

/-- An object of texts is read as the table of the same texts is. -/
theorem decode_textObject (es : List (String × String)) :
    decode (textObject es) = (ofSettings (textTable es)).mapError (·.cause) := by
  show (readEntries Decode.text _).mapError _ = _
  unfold ofSettings readEntries textTable
  rw [List.foldlM_map, List.foldlM_map]
  rfl

/-- Properties alone are merged into the table of their texts. -/
theorem merged_properties (h : Host) (m : SortedMap String) :
    Settings.merged h [.properties m] = .ok (textTable m.toList) := by
  have hfold (es : List (String × String)) (acc : SortedMap Setting) :
      Settings.mergeEntries acc.entries (es.map fun e => ⟨[e.1], .text e.2⟩) =
        ((textTable es).foldl (fun m e => m.insert e.1 e.2) acc).entries := by
    induction es generalizing acc with
    | nil => rfl
    | cons e es ih => exact ih (acc.insert e.1 (.text e.2))
  rw [Settings.merged_singleton]
  show Except.ok (Settings.mergeEntries [] _) = _
  refine congrArg Except.ok ((hfold m.toList ∅).trans ?_)
  exact congrArg SortedMap.entries
    (SortedMap.foldl_insert_entries (⟨textTable m.toList, ordered_textTable m⟩ : SortedMap Setting))

theorem connection_properties (h : Host) (m : SortedMap String) :
    Settings.connection h [.properties m] =
      (ofSettings (textTable m.toList)).mapError .undecodable := by
  unfold Settings.connection
  rw [merged_properties]
  rfl

/-- Reported as a fault of an object or of settings, what cannot be read is of the same kind. -/
theorem graded_ofValue_textObject (es : List (String × String)) :
    graded (ofValue (textObject es)) =
      graded ((ofSettings (textTable es)).mapError .undecodable >>= check) := by
  unfold ofValue
  rw [decode_textObject]
  cases ofSettings (textTable es) <;> rfl

end Texts

section Names

/-- Without another spelling of the base URL each field is given by its name alone. -/
theorem offers_textTable (hspaced : m.get? "base_url" = none) (hlower : m.get? "baseurl" = none)
    (f : Field) :
    offers f (textTable m.toList) = ((m.get? f.name).map fun s => (f.name, s)).toList := by
  have hmem (k s : String) : (k, s) ∈ offers f (textTable m.toList) ↔
      Field.ofKey? k = some f ∧ m.get? k = some s := by
    rw [mem_offers_iff (ordered_textTable m), get?_textTable]
    show _ ∧ (∃ v, (m.get? k).map Setting.text = some v ∧ _) ↔ _
    cases m.get? k <;> simp [settingText]
  have hname (k s : String) (hk : (k, s) ∈ offers f (textTable m.toList)) : k = f.name := by
    obtain ⟨hkey, hget⟩ := (hmem k s).1 hk
    have hne : k ≠ "base_url" ∧ k ≠ "baseurl" := by
      constructor
      · rintro rfl
        rw [hspaced] at hget
        cases hget
      · rintro rfl
        rw [hlower] at hget
        cases hget
    unfold Field.ofKey? at hkey
    cases f <;> grind [Field.name]
  have hkey : Field.ofKey? f.name = some f := by cases f <;> rfl
  have hone : (offers f (textTable m.toList)).length ≤ 1 :=
    length_offers_le_one (ordered_textTable m) fun a ha b hb =>
      (hname a.1 a.2 ha).trans (hname b.1 b.2 hb).symm
  cases hget : m.get? f.name with
  | some s => exact eq_singleton_of_length_le_one hone ((hmem _ s).2 ⟨hkey, hget⟩)
  | none =>
    refine List.eq_nil_iff_forall_not_mem.2 fun a ha => ?_
    obtain ⟨-, hsome⟩ := (hmem a.1 a.2).1 ha
    rw [hname a.1 a.2 ha, hget] at hsome
    cases hsome

theorem ofSettings_textTable (hspaced : m.get? "base_url" = none)
    (hlower : m.get? "baseurl" = none) : ofSettings (textTable m.toList) = .ok
      { baseUrl := (m.get? "baseUrl").getD ""
        user := (m.get? "user").getD ""
        password := (m.get? "password").getD "" } := by
  have hvalue (f : Field) :
      ((m.get? f.name).map fun s => (f.name, s)).map Prod.snd = m.get? f.name := by
    cases m.get? f.name <;> rfl
  rw [ofSettings_of_single (readable_textTable _) (offers_textTable hspaced hlower), hvalue, hvalue,
    hvalue]
  rfl

end Names

section Checking

/-- Checking changes nothing. -/
theorem validate_of_eq_ok (h : c.validate = .ok c') : c' = c ∧ c.validate = .ok c := by
  obtain ⟨rfl, -⟩ := validate_eq_ok_iff.1 h
  exact ⟨rfl, h⟩

theorem validate_of_check (h : c'.check = .ok c) : c.validate = .ok c := by
  obtain ⟨rfl, hvalid⟩ := validate_of_eq_ok (Except.mapError_eq_ok.1 h)
  exact hvalid

theorem ofValue_encode (h : c.validate = .ok c) : ofValue c.encode = .ok c := by
  unfold ofValue check
  rw [decode_encode]
  show c.validate.mapError _ = _
  rw [h]
  rfl

/-- A connection that one of the ways to a checked connection gives. -/
inductive Obtained : Connection → Prop
  | object {v : Value} {c : Connection} (h : ofValue v = .ok c) : Obtained c
  | settings {h : Host} {sources : List SettingSource} {c : Connection}
      (hc : (Settings.connection h sources >>= check) = .ok c) : Obtained c
  | properties {m : SortedMap String} {c : Connection} (h : ofProperties m = .ok c) : Obtained c

theorem Obtained.validate_eq (h : Obtained c) : c.validate = .ok c := by
  cases h with
  | object h =>
    obtain ⟨c', -, hcheck⟩ := Except.bind_eq_ok.1 h
    exact validate_of_check hcheck
  | settings h =>
    obtain ⟨c', -, hcheck⟩ := Except.bind_eq_ok.1 h
    exact validate_of_check hcheck
  | properties h =>
    obtain ⟨rfl, hvalid⟩ := validate_of_eq_ok h
    exact hvalid

end Checking

/-- From an object of properties, in any order, comes the same checked connection as from settings
of these properties, or an error of the same kind. Without another spelling of the base URL it comes
by the names of the properties too. However a connection was obtained, checking it again leaves it as
it is, and it is read back from its record. -/
theorem constructions_agree (h : Host) (m : SortedMap String) :
    (∀ es, es.Perm m.toList →
      graded (ofValue (textObject es)) = graded (Settings.connection h [.properties m] >>= check)) ∧
    (m.get? "base_url" = none → m.get? "baseurl" = none →
      (ofProperties m).mapError .connection = Settings.connection h [.properties m] >>= check) ∧
    ∀ c, Obtained c → c.validate = .ok c ∧ ofValue c.encode = .ok c := by
  rw [connection_properties]
  refine ⟨fun es hes => ?_, fun hspaced hlower => ?_, fun c hc => ?_⟩
  · have htable : (textTable m.toList).Perm (textTable es) := hes.symm.map _
    rw [graded_ofValue_textObject,
      ofSettings_perm (ordered_textTable m) (readable_textTable _) htable]
  · rw [ofSettings_textTable hspaced hlower]
    rfl
  · exact ⟨hc.validate_eq, ofValue_encode hc.validate_eq⟩

/-- Properties that give the base URL twice, and properties with one that no connection needs. -/
theorem constructions_agree_spelled_twice :
    let twice : SortedMap String := .ofList [("baseUrl", "http://a"), ("base_url", "http://b")]
    let plain : SortedMap String := .ofList [("baseUrl", "http://a"), ("user", "u"), ("zone", "z")]
    graded (ofValue (textObject twice.toList.reverse)) = .error .config ∧
    plain.get? "base_url" = none ∧ plain.get? "baseurl" = none ∧
    (ofProperties plain).mapError .connection =
      Settings.connection {} [.properties plain] >>= check ∧
    Obtained ⟨"http://a", "u", ""⟩ ∧
    ofValue (encode ⟨"http://a", "u", ""⟩) = .ok ⟨"http://a", "u", ""⟩ := by
  intro twice plain
  have hspaced : plain.get? "base_url" = none := rfl
  have hlower : plain.get? "baseurl" = none := rfl
  have hvalid : ofProperties plain = .ok ⟨"http://a", "u", ""⟩ := by decide
  have hobtained : Obtained ⟨"http://a", "u", ""⟩ := .properties hvalid
  exact ⟨((constructions_agree {} twice).1 _ (List.reverse_perm _)).trans rfl, hspaced, hlower,
    (constructions_agree {} plain).2.1 hspaced hlower, hobtained,
    ((constructions_agree {} plain).2.2 _ hobtained).2⟩

end Connection
end FleetCatalog
