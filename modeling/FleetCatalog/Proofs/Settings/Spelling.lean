import FleetCatalog.Proofs.Settings.Layering

/-! Connections from several sources. Where all sources that give the base URL spell its key alike
the last of them decides, as it does for the user and the password. Where two of them spell the key
differently both spellings end up in the merged table, which cannot be read. -/
namespace FleetCatalog
namespace Connection
open Setting

/-- What an entry gives for a field: the key that it has for it and the text. -/
def offer (f : Field) (e : String × Setting) : Option (String × String) :=
  if Field.ofKey? e.1 = some f then (settingText e.2).toOption.map (e.1, ·) else none

/-- All that a table gives for a field. -/
def offers (f : Field) (t : SettingTable) : List (String × String) := t.filterMap (offer f)

/-- What a table has for the fields of a connection is text. -/
def Readable (t : SettingTable) : Prop :=
  ∀ e ∈ t, ∀ f, Field.ofKey? e.1 = some f → ∃ s, settingText e.2 = .ok s

variable {f g : Field} {own base t m : SettingTable} {tables : List SettingTable} {k s : String}
  {e : String × Setting}

theorem offer_of_ofKey? (hf : Field.ofKey? e.1 = some f) (hs : settingText e.2 = .ok s) :
    offer f e = some (e.1, s) := by
  unfold offer
  rw [if_pos hf, hs]
  rfl

theorem offer_of_ne (hf : Field.ofKey? e.1 ≠ some f) : offer f e = none := if_neg hf

theorem offer_eq_some_iff :
    offer f e = some (k, s) ↔ e.1 = k ∧ Field.ofKey? k = some f ∧ settingText e.2 = .ok s := by
  constructor
  · intro h
    unfold offer at h
    split at h
    · next hf =>
      cases hs : settingText e.2 with
      | error cause =>
        rw [hs] at h
        cases h
      | ok x =>
        rw [hs] at h
        cases h
        exact ⟨rfl, hf, rfl⟩
    · cases h
  · rintro ⟨rfl, hf, hs⟩
    exact offer_of_ofKey? hf hs

theorem ofKey?_of_mem_offers (h : (k, s) ∈ offers f t) : Field.ofKey? k = some f := by
  obtain ⟨e, -, he⟩ := List.mem_filterMap.1 h
  exact (offer_eq_some_iff.1 he).2.1

theorem mem_offers_iff (ht : Ordered t) : (k, s) ∈ offers f t ↔
    Field.ofKey? k = some f ∧ ∃ v, Fields.get? k t = some v ∧ settingText v = .ok s := by
  unfold offers
  rw [List.mem_filterMap]
  constructor
  · rintro ⟨e, he, ho⟩
    obtain ⟨rfl, hf, hs⟩ := offer_eq_some_iff.1 ho
    exact ⟨hf, e.2, ht.get?_eq_some_iff.2 he, hs⟩
  · rintro ⟨hf, v, hv, hs⟩
    exact ⟨(k, v), ht.get?_eq_some_iff.1 hv, offer_eq_some_iff.2 ⟨rfl, hf, hs⟩⟩

/-- Only the base URL has more than one key. -/
theorem Field.key_unique {j : String} (hf : f ≠ .baseUrl) (hj : Field.ofKey? j = some f)
    (hk : Field.ofKey? k = some f) : j = k := by
  unfold Field.ofKey? at hj hk
  cases f with
  | baseUrl => exact absurd rfl hf
  | user => grind
  | password => grind

section Reading

theorem Draft.get_empty (f : Field) : ({} : Draft).get f = none := by cases f <;> rfl

/-- Reading an entry adds what it gives to a draft, unless the draft has that field. -/
theorem readEntry_cases (d : Draft)
    (he : ∀ f, Field.ofKey? e.1 = some f → ∃ s, settingText e.2 = .ok s) :
    (∃ d', readEntry settingText d e = .ok d' ∧
      ∀ f, (d'.get f).toList = (d.get f).toList ++ (offers f [e]).map Prod.snd) ∨
    ∃ f, readEntry settingText d e = .error { cause := .duplicateField f.name } ∧
      1 < ((d.get f).toList ++ (offers f [e]).map Prod.snd).length := by
  unfold readEntry
  cases hkey : Field.ofKey? e.1 with
  | none =>
    refine .inl ⟨d, rfl, fun f => ?_⟩
    have hne : Field.ofKey? e.1 ≠ some f := by simp [hkey]
    simp [offers, offer_of_ne hne]
  | some g =>
    obtain ⟨s, hs⟩ := he g hkey
    have hoffer : offers g [e] = [(e.1, s)] := by simp [offers, offer_of_ofKey? hkey hs]
    cases hget : d.get g with
    | some x => exact .inr ⟨g, by simp [hget], by simp [hget, hoffer]⟩
    | none =>
      refine .inl ⟨d.set g s, by simp [hget, hs], fun f => ?_⟩
      by_cases hfg : f = g
      · subst hfg
        rw [hget, hoffer]
        cases f <;> rfl
      · have hne : Field.ofKey? e.1 ≠ some f := by simp [hkey, Ne.symm hfg]
        have hset : (d.set g s).get f = d.get f := by
          cases f <;> cases g <;> first | rfl | exact absurd rfl hfg
        simp [offers, offer_of_ne hne, hset]

/-- Entries are read into what they give together; that they cannot be read is for a field that is
given twice. -/
theorem readEntries_cases (d : Draft) (t : SettingTable) (ht : Readable t) :
    (∃ d', t.foldlM (readEntry settingText) d = .ok d' ∧
      ∀ f, (d'.get f).toList = (d.get f).toList ++ (offers f t).map Prod.snd) ∨
    ∃ f, t.foldlM (readEntry settingText) d = .error { cause := .duplicateField f.name } ∧
      1 < ((d.get f).toList ++ (offers f t).map Prod.snd).length := by
  induction t generalizing d with
  | nil => exact .inl ⟨d, rfl, fun f => (List.append_nil _).symm⟩
  | cons e t ih =>
    have hsplit : ∀ f, offers f (e :: t) = offers f [e] ++ offers f t :=
      fun f => List.filterMap_append (l := [e])
    rw [List.foldlM_cons]
    rcases readEntry_cases d (ht e List.mem_cons_self) with ⟨d', hd, hget⟩ | ⟨f, hd, hlength⟩
    · rw [hd]
      rcases ih d' fun x hx => ht x (List.mem_cons_of_mem _ hx) with ⟨d'', hd', hget'⟩ | ⟨f, hd', hl⟩
      · refine .inl ⟨d'', hd', fun f => ?_⟩
        rw [hget', hget, hsplit, List.map_append, List.append_assoc]
      · refine .inr ⟨f, hd', ?_⟩
        rwa [hsplit, List.map_append, ← List.append_assoc, ← hget]
    · rw [hd]
      refine .inr ⟨f, rfl, ?_⟩
      rw [hsplit, List.map_append, ← List.append_assoc, List.length_append]
      omega

/-- A table that gives each field at most once is read as a connection. -/
theorem ofSettings_of_single {given : Field → Option (String × String)} (hr : Readable m)
    (h : ∀ f, offers f m = (given f).toList) :
    ofSettings m = .ok ⟨((given .baseUrl).map Prod.snd).getD "", ((given .user).map Prod.snd).getD "",
      ((given .password).map Prod.snd).getD ""⟩ := by
  rcases readEntries_cases {} m hr with ⟨d, hd, hget⟩ | ⟨f, -, hlength⟩
  · have hfield : ∀ f, d.get f = (given f).map Prod.snd := by
      intro f
      have hf : (d.get f).toList = ((given f).map Prod.snd).toList := by
        rw [hget, h, Draft.get_empty, Option.toList_map]
        rfl
      rw [← Option.head?_toList (o := d.get f), hf, Option.head?_toList]
    unfold ofSettings readEntries
    rw [hd, ← hfield, ← hfield, ← hfield]
    rfl
  · rw [h, Draft.get_empty, ← Option.toList_map] at hlength
    exact absurd hlength (Nat.not_lt.2 Option.length_toList_le)

/-- A table that gives the base URL twice, and only that, is refused for it. -/
theorem ofSettings_of_two (hr : Readable m) (h : ∀ f, f ≠ .baseUrl → (offers f m).length ≤ 1)
    (htwo : 1 < (offers .baseUrl m).length) :
    ofSettings m = .error { cause := .duplicateField "baseUrl" } := by
  rcases readEntries_cases {} m hr with ⟨d, -, hget⟩ | ⟨f, hf, hlength⟩
  · have hle := Option.length_toList_le (o := d.get .baseUrl)
    rw [hget, List.length_append, List.length_map] at hle
    omega
  · have hbase : f = .baseUrl := by
      rcases Decidable.em (f = .baseUrl) with hb | hb
      · exact hb
      · have hle := h f hb
        rw [Draft.get_empty, List.length_append, List.length_map] at hlength
        exact absurd hlength (Nat.not_lt.2 (by simpa using hle))
    subst hbase
    unfold ofSettings readEntries
    rw [hf]
    rfl

end Reading

section Merging

/-- A setting that is text is found as it was given wherever it has been laid over. -/
theorem eq_of_alike {v w : Setting} (h : Alike v w) (hs : settingText v = .ok s) : w = v := by
  rcases h with rfl | ⟨x, y, rfl, -⟩
  · rfl
  · cases hs

theorem exists_mem_offers (ht : Ordered t) (hr : Readable t) {v : Setting}
    (hf : Field.ofKey? k = some f) (hv : Fields.get? k t = some v) :
    ∃ s, settingText v = .ok s ∧ (k, s) ∈ offers f t := by
  obtain ⟨s, hs⟩ := hr (k, v) (ht.get?_eq_some_iff.1 hv) f hf
  exact ⟨s, hs, (mem_offers_iff ht).2 ⟨hf, v, hv, hs⟩⟩

theorem get?_of_mem_offers_over (hown : Ordered own) (hover : Over own base t)
    (h : (k, s) ∈ offers f own) : ∃ v, Fields.get? k t = some v ∧ settingText v = .ok s := by
  obtain ⟨-, v, hv, hs⟩ := (mem_offers_iff hown).1 h
  obtain ⟨w, hw, halike⟩ := hover.taken k v hv
  exact ⟨w, hw, eq_of_alike halike hs ▸ hs⟩

/-- What is given after a table has been laid over another one is given by the upper one, or by the
lower one under a key that the upper one does not have. -/
theorem mem_offers_over_iff (hown : Ordered own) (hbase : Ordered base) (ht : Ordered t)
    (hr : Readable own) (hover : Over own base t) : (k, s) ∈ offers f t ↔
      (k, s) ∈ offers f own ∨ Fields.get? k own = none ∧ (k, s) ∈ offers f base := by
  rw [mem_offers_iff ht]
  constructor
  · rintro ⟨hf, w, hw, hs⟩
    cases hget : Fields.get? k own with
    | none =>
      rw [hover.kept k hget] at hw
      exact .inr ⟨rfl, (mem_offers_iff hbase).2 ⟨hf, w, hw, hs⟩⟩
    | some v =>
      obtain ⟨s', hs', hmem⟩ := exists_mem_offers hown hr hf hget
      obtain ⟨w', hw', hsame⟩ := get?_of_mem_offers_over hown hover hmem
      rw [hw, Option.some.injEq] at hw'
      subst hw'
      rw [hs, Except.ok.injEq] at hsame
      exact .inl (hsame ▸ hmem)
  · rintro (hmem | ⟨hget, hmem⟩)
    · exact ⟨ofKey?_of_mem_offers hmem, get?_of_mem_offers_over hown hover hmem⟩
    · rw [hover.kept k hget]
      exact (mem_offers_iff hbase).1 hmem

theorem Readable.over (hr : Readable own) (hrbase : Readable base) (hown : Ordered own)
    (ht : Ordered t) (hover : Over own base t) : Readable t := by
  rintro ⟨k, w⟩ he f hf
  have hw := ht.get?_eq_some_iff.2 he
  cases hget : Fields.get? k own with
  | none =>
    rw [hover.kept k hget] at hw
    exact hrbase (k, w) (Fields.mem_of_get?_eq_some hw) f hf
  | some v =>
    obtain ⟨s, -, hmem⟩ := exists_mem_offers hown hr hf hget
    obtain ⟨w', hw', hs⟩ := get?_of_mem_offers_over hown hover hmem
    rw [hw, Option.some.injEq] at hw'
    exact ⟨s, hw' ▸ hs⟩

theorem Readable.stacked (h : Stacked base tables m) (hrbase : Readable base)
    (hr : ∀ t ∈ tables, Readable t) : Readable m := by
  induction h with
  | nil t => exact hrbase
  | cons hown ht hover _ ih =>
    exact ih ((hr _ List.mem_cons_self).over hrbase hown ht hover)
      fun t ht => hr t (List.mem_cons_of_mem _ ht)

/-- Keys under which everything is given alike are one key, and a table has it once. -/
theorem length_offers_le_one (ht : Ordered t)
    (h : ∀ a ∈ offers f t, ∀ b ∈ offers f t, a.1 = b.1) : (offers f t).length ≤ 1 := by
  have hlt : (offers f t).Pairwise fun a b => a.1 < b.1 := by
    refine List.pairwise_filterMap.2 (ht.imp ?_)
    intro a b hab x hx y hy
    rw [← (offer_eq_some_iff (k := x.1) (s := x.2).1 hx).1,
      ← (offer_eq_some_iff (k := y.1) (s := y.2).1 hy).1]
    exact hab
  match hl : offers f t with
  | [] => exact Nat.zero_le 1
  | [a] => exact Nat.le_refl 1
  | a :: b :: r =>
    rw [hl] at h hlt
    have hab : a.1 < b.1 := (List.pairwise_cons.1 hlt).1 b List.mem_cons_self
    rw [h a List.mem_cons_self b (List.mem_cons_of_mem _ List.mem_cons_self)] at hab
    exact absurd hab (String.lt_irrefl b.1)

theorem eq_singleton_of_length_le_one {α : Type} {l : List α} {a : α} (h : l.length ≤ 1)
    (ha : a ∈ l) : l = [a] := by
  match l with
  | [b] => rw [List.mem_singleton.1 ha]

theorem eq_getLast?_toList {α : Type} {l : List α} (h : l.length ≤ 1) : l = l.getLast?.toList := by
  match l with
  | [] => rfl
  | [b] => rfl

/-- Under one key the upper of two tables decides, if it has that key. -/
theorem offers_over (hown : Ordered own) (hbase : Ordered base) (ht : Ordered t)
    (hr : Readable own) (hover : Over own base t)
    (h : ∀ a ∈ offers f base ++ offers f own, ∀ b ∈ offers f base ++ offers f own, a.1 = b.1) :
    offers f t = (offers f base ++ offers f own).getLast?.toList := by
  have hmem := fun k s => mem_offers_over_iff (f := f) (k := k) (s := s) hown hbase ht hr hover
  have hlength : (offers f t).length ≤ 1 := by
    have hsub : offers f t ⊆ offers f base ++ offers f own := by
      rintro ⟨k, s⟩ hk
      rcases (hmem k s).1 hk with hk | ⟨-, hk⟩
      · exact List.mem_append_right _ hk
      · exact List.mem_append_left _ hk
    exact length_offers_le_one ht fun a ha b hb => h a (hsub ha) b (hsub hb)
  cases hlast : (offers f base ++ offers f own).getLast? with
  | none =>
    obtain ⟨hnobase, hnoown⟩ := List.append_eq_nil_iff.1 (List.getLast?_eq_none_iff.1 hlast)
    refine List.eq_nil_iff_forall_not_mem.2 ?_
    rintro ⟨k, s⟩ hk
    rw [hmem, hnobase, hnoown] at hk
    rcases hk with hk | ⟨-, hk⟩ <;> cases hk
  | some a =>
    refine eq_singleton_of_length_le_one hlength ((hmem a.1 a.2).2 ?_)
    rw [List.getLast?_append] at hlast
    cases hupper : (offers f own).getLast? with
    | some b =>
      rw [hupper] at hlast
      cases hlast
      exact .inl (List.mem_of_getLast? hupper)
    | none =>
      rw [hupper] at hlast
      have ha := List.mem_of_getLast? hlast
      refine .inr ⟨?_, ha⟩
      cases hget : Fields.get? a.1 own with
      | none => rfl
      | some v =>
        obtain ⟨s, -, hs⟩ := exists_mem_offers hown hr (ofKey?_of_mem_offers ha) hget
        rw [List.getLast?_eq_none_iff.1 hupper] at hs
        cases hs

/-- The keys that any of the tables has stay. -/
theorem exists_mem_offers_stacked (h : Stacked base tables m) (hbase : Ordered base)
    (hr : ∀ t ∈ tables, Readable t) (hk : (k, s) ∈ offers f base ++ tables.flatMap (offers f)) :
    ∃ s', (k, s') ∈ offers f m := by
  induction h generalizing s with
  | nil t => exact ⟨s, by simpa using hk⟩
  | @cons base own t m tables hown ht hover _ ih =>
    have hrown := hr own List.mem_cons_self
    have hmem := fun s => mem_offers_over_iff (f := f) (k := k) (s := s) hown hbase ht hrown hover
    have hrest := fun s => ih (s := s) ht fun t ht => hr t (List.mem_cons_of_mem _ ht)
    rw [List.flatMap_cons, List.mem_append, List.mem_append] at hk
    rcases hk with hk | hk | hk
    · cases hget : Fields.get? k own with
      | none => exact hrest s (List.mem_append_left _ ((hmem s).2 (.inr ⟨hget, hk⟩)))
      | some v =>
        obtain ⟨s', -, hs'⟩ := exists_mem_offers hown hrown (ofKey?_of_mem_offers hk) hget
        exact hrest s' (List.mem_append_left _ ((hmem s').2 (.inl hs')))
    · exact hrest s (List.mem_append_left _ ((hmem s).2 (.inl hk)))
    · exact hrest s (List.mem_append_right _ hk)

/-- Under one key the last of the tables that has it decides. -/
theorem offers_stacked (h : Stacked base tables m) (hbase : Ordered base)
    (hr : ∀ t ∈ tables, Readable t)
    (hsame : ∀ a ∈ offers f base ++ tables.flatMap (offers f),
      ∀ b ∈ offers f base ++ tables.flatMap (offers f), a.1 = b.1) :
    offers f m = (offers f base ++ tables.flatMap (offers f)).getLast?.toList := by
  induction h with
  | nil t =>
    rw [List.flatMap_nil, List.append_nil] at hsame ⊢
    exact eq_getLast?_toList (length_offers_le_one hbase hsame)
  | @cons base own t m tables hown ht hover _ ih =>
    rw [List.flatMap_cons, ← List.append_assoc] at hsame ⊢
    have hstep := offers_over hown hbase ht (hr own List.mem_cons_self) hover fun a ha b hb =>
      hsame a (List.mem_append_left _ ha) b (List.mem_append_left _ hb)
    have hsub : offers f t ++ tables.flatMap (offers f) ⊆
        (offers f base ++ offers f own) ++ tables.flatMap (offers f) := by
      intro a ha
      rcases List.mem_append.1 ha with ha | ha
      · rw [hstep, Option.mem_toList] at ha
        exact List.mem_append_left _ (List.mem_of_getLast? ha)
      · exact List.mem_append_right _ ha
    rw [ih ht (fun t ht => hr t (List.mem_cons_of_mem _ ht))
      fun a ha b hb => hsame a (hsub ha) b (hsub hb), hstep]
    generalize offers f base ++ offers f own = below
    rw [List.getLast?_append, List.getLast?_append]
    cases below.getLast? <;> rfl

end Merging

/-- The variable for the base URL gives it under a key in lower case. -/
theorem read_baseUrl_variable (url : String) :
    SettingSource.read { environment := [("CATALOG__BASE_URL", url)] }
      (.environment "CATALOG" ⟨'_', ['_']⟩) = .ok [⟨["base_url"], .text url⟩] := by
  have hparts : Text.splitOn '_' ['_'] "BASE_URL".toList = ["BASE_URL".toList] := by
    simp [Text.splitOn]
  have hentry : SettingSource.variableEntry "CATALOG" ⟨'_', ['_']⟩ ("CATALOG__BASE_URL", url) =
      some ⟨(Text.splitOn '_' ['_'] "BASE_URL".toList).map fun p =>
        Text.lowerCase (String.ofList p), .text url⟩ := by
    simp [SettingSource.variableEntry, Separator.toList]
  rw [hparts] at hentry
  show Except.ok (List.filterMap _ [("CATALOG__BASE_URL", url)]) = _
  rw [List.filterMap_cons, hentry]
  rfl

/-- The text of the last of the tables that has a field, empty if none does. -/
def lastText (f : Field) (tables : List SettingTable) : String :=
  ((tables.flatMap (offers f)).getLast?.map Prod.snd).getD ""

/-- Sources are merged of which each, read on its own, has texts for the fields of a connection. If
all of them spell the base URL alike, the connection has for each field the text of the last source
that gives it. If two of them spell it differently there is no connection. -/
theorem connection_of_spellings (h : Host) (sources : List SettingSource)
    (tables : List SettingTable)
    (hread : sources.mapM (fun s => Settings.merged h [s]) = .ok tables)
    (htext : ∀ t ∈ tables, Readable t) :
    ((∀ a ∈ tables.flatMap (offers .baseUrl), ∀ b ∈ tables.flatMap (offers .baseUrl),
        a.1 = b.1) →
      Settings.connection h sources = .ok
        ⟨lastText .baseUrl tables, lastText .user tables, lastText .password tables⟩) ∧
    ((∃ a ∈ tables.flatMap (offers .baseUrl), ∃ b ∈ tables.flatMap (offers .baseUrl),
        a.1 ≠ b.1) →
      Settings.connection h sources =
        .error (.undecodable { cause := .duplicateField "baseUrl" })) := by
  obtain ⟨m, hm, hordered, hstacked⟩ := Settings.merged_stacked hread
  have hempty : Ordered [] := List.Pairwise.nil
  have hreadable : Readable m := .stacked hstacked (by rintro e ⟨⟩) htext
  have hconnection : Settings.connection h sources = (ofSettings m).mapError .undecodable := by
    unfold Settings.connection
    rw [hm]
    rfl
  have hlast : ∀ f, (∀ a ∈ tables.flatMap (offers f), ∀ b ∈ tables.flatMap (offers f),
      a.1 = b.1) → offers f m = (tables.flatMap (offers f)).getLast?.toList :=
    fun f hsame => offers_stacked hstacked hempty htext hsame
  have hother : ∀ f, f ≠ .baseUrl → offers f m = (tables.flatMap (offers f)).getLast?.toList := by
    refine fun f hf => hlast f fun a ha b hb => ?_
    obtain ⟨t, -, ha⟩ := List.mem_flatMap.1 ha
    obtain ⟨u, -, hb⟩ := List.mem_flatMap.1 hb
    exact Field.key_unique hf (ofKey?_of_mem_offers ha) (ofKey?_of_mem_offers hb)
  rw [hconnection]
  constructor
  · intro hsame
    have hall : ∀ f, offers f m = (tables.flatMap (offers f)).getLast?.toList := by
      intro f
      by_cases hf : f = .baseUrl
      · subst hf
        exact hlast _ hsame
      · exact hother f hf
    rw [ofSettings_of_single hreadable hall]
    rfl
  · rintro ⟨a, ha, b, hb, hab⟩
    -- Both spellings have come to the merged table, as entries that differ.
    obtain ⟨x, hx⟩ := exists_mem_offers_stacked hstacked hempty htext (k := a.1) (s := a.2) ha
    obtain ⟨y, hy⟩ := exists_mem_offers_stacked hstacked hempty htext (k := b.1) (s := b.2) hb
    have htwo : 1 < (offers .baseUrl m).length := by
      refine Nat.lt_of_not_le fun hle => ?_
      rw [eq_singleton_of_length_le_one hle hx, List.mem_singleton, Prod.mk.injEq] at hy
      exact hab hy.1.symm
    have hle : ∀ f, f ≠ .baseUrl → (offers f m).length ≤ 1 := by
      intro f hf
      rw [hother f hf]
      exact Option.length_toList_le
    rw [ofSettings_of_two hreadable hle htwo]
    rfl

/-- A property and a variable that spell the base URL alike: the variable, which comes later, is
taken. -/
theorem connection_of_one_spelling :
    let h : Host := { environment := [("CATALOG__BASE_URL", "http://b")] }
    let sources : List SettingSource :=
      [.properties (.ofList [("base_url", "http://a"), ("user", "u")]),
        .environment "CATALOG" ⟨'_', ['_']⟩]
    let tables : List SettingTable := [[("base_url", .text "http://a"), ("user", .text "u")],
      [("base_url", .text "http://b")]]
    sources.mapM (fun s => Settings.merged h [s]) = .ok tables ∧ (∀ t ∈ tables, Readable t) ∧
      Settings.connection h sources = .ok ⟨"http://b", "u", ""⟩ := by
  intro h sources tables
  have hread : sources.mapM (fun s => Settings.merged h [s]) = .ok tables := by
    simp only [sources, List.mapM_cons, Settings.merged_singleton, h, read_baseUrl_variable]
    rfl
  have htext : ∀ t ∈ tables, Readable t := by
    simp only [tables, Readable, List.forall_mem_cons, settingText]
    simp
  refine ⟨hread, htext, ((connection_of_spellings h sources tables hread htext).1 ?_).trans rfl⟩
  decide

/-- The same with the property spelled as the field is: the variable is not taken in its place. -/
theorem other_spelling_does_not_override :
    ¬ ∀ (h : Host) (sources : List SettingSource) (tables : List SettingTable),
      sources.mapM (fun s => Settings.merged h [s]) = .ok tables → (∀ t ∈ tables, Readable t) →
      (∀ t ∈ tables, (offers .baseUrl t).length ≤ 1) →
      ∃ c, Settings.connection h sources = .ok c ∧ c.baseUrl = lastText .baseUrl tables := by
  intro hall
  have htext : ∀ t ∈ ([[("baseUrl", .text "http://a"), ("user", .text "u")],
      [("base_url", .text "http://b")]] : List SettingTable), Readable t := by
    simp only [Readable, List.forall_mem_cons, settingText]
    simp
  have hread : [SettingSource.properties (.ofList [("baseUrl", "http://a"), ("user", "u")]),
      .environment "CATALOG" ⟨'_', ['_']⟩].mapM (fun s =>
        Settings.merged { environment := [("CATALOG__BASE_URL", "http://b")] } [s]) =
      .ok [[("baseUrl", .text "http://a"), ("user", .text "u")],
        [("base_url", .text "http://b")]] := by
    simp only [List.mapM_cons, Settings.merged_singleton, read_baseUrl_variable]
    rfl
  obtain ⟨c, hc, -⟩ := hall _ _ _ hread htext (by decide)
  unfold Settings.connection Settings.merged at hc
  simp only [List.foldlM_cons, read_baseUrl_variable] at hc
  cases hc

end Connection
end FleetCatalog
