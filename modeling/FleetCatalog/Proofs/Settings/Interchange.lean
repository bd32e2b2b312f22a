import FleetCatalog.Proofs.Settings.Precedence

/-! The order of entries that say nothing of each other's paths. Where two paths part, the entries
change different keys of one table; up to there both only go down through the same tables. So two
such entries can change places, and any number of them give one table in any order. -/
namespace FleetCatalog
namespace Setting
variable {own base t : SettingTable} {j k : String} {v w : Setting} {p q : List String}

theorem Ordered.place_comm (h : Ordered t) (hjk : j ≠ k) (v w : Setting) :
    SortedMap.place j v (SortedMap.place k w t) = SortedMap.place k w (SortedMap.place j v t) :=
  congrArg SortedMap.entries (SortedMap.insert_comm hjk v w ⟨t, h⟩)

theorem Ordered.place_place (h : Ordered t) (k : String) (v w : Setting) :
    SortedMap.place k v (SortedMap.place k w t) = SortedMap.place k v t :=
  congrArg SortedMap.entries (SortedMap.insert_insert k v w ⟨t, h⟩)

section Ascent

theorem ascendingEntries_iff : AscendingEntries t ↔ ∀ e ∈ t, e.2.Ascending := by
  induction t with
  | nil => simp [AscendingEntries]
  | cons e t ih => rw [AscendingEntries, ih, List.forall_mem_cons]

theorem Ascending.place (h : (table t).Ascending) (hv : v.Ascending) (k : String) :
    (table (SortedMap.place k v t)).Ascending := by
  refine ⟨SortedMap.pairwise_place h.1, ascendingEntries_iff.2 fun e he => ?_⟩
  rcases SortedMap.mem_place he with rfl | he
  · exact hv
  · exact ascendingEntries_iff.1 h.2 e he

mutual
/-- What is laid over something is in key order at every level if both are. -/
theorem Ascending.laidOver : ∀ {v : Setting} {o : Option Setting}, v.Ascending →
    (∀ b ∈ o, b.Ascending) → (Setting.laidOver v o).Ascending
  | text _, _, hv, _ => hv
  | integer _, _, hv, _ => hv
  | float _, _, hv, _ => hv
  | bool _, _, hv, _ => hv
  | moment _, _, hv, _ => hv
  | list _, _, hv, _ => hv
  | table own, o, hv, ho => by
    rcases o with _ | b
    · exact hv
    · rcases plain_or_table b with hb | ⟨base, rfl⟩
      · rw [laidOver_plain hb]
        exact hv
      · rw [Setting.laidOver]
        exact ascending_merge hv.2 (ho _ rfl)

theorem ascending_merge : ∀ {own base : SettingTable}, AscendingEntries own →
    (table base).Ascending → (table (merge own base)).Ascending
  | [], _, _, hbase => by
    rw [merge]
    exact hbase
  | (k, v) :: own, base, hown, hbase => by
    rw [merge]
    refine ascending_merge hown.2 (hbase.place (Ascending.laidOver hown.1 ?_) k)
    exact fun b hb => ascending_of_get? hbase.2 hb
end

theorem Ascending.mergeAt (ht : (table t).Ascending) (hv : v.Ascending) (path : List String) :
    (table (Setting.mergeAt t path v)).Ascending := by
  rw [mergeAt_eq_merge]
  exact ascending_merge (hv.branch path).2 ht

end Ascent

section Commutation

theorem tableAt_place (k : String) (x t : SettingTable) :
    tableAt k (SortedMap.place k (table x) t) = x := by
  rw [tableAt, SortedMap.get?_place, if_pos rfl]

theorem Ascending.tableAt (h : (table t).Ascending) (k : String) :
    (table (Setting.tableAt k t)).Ascending := by
  unfold Setting.tableAt
  split
  · next entries hget => exact ascending_of_get? h.2 hget
  · exact ⟨.nil, trivial⟩

theorem mergeAt_cons_cons (t : SettingTable) (k j : String) (path : List String) (v : Setting) :
    mergeAt t (k :: j :: path) v =
      SortedMap.place k (table (mergeAt (tableAt k t) (j :: path) v)) t := rfl

/-- Going down again changes only the table that has been placed at the first key. -/
theorem Ordered.mergeAt_place (h : Ordered t) (x : SettingTable) (k j : String)
    (path : List String) (v : Setting) :
    Setting.mergeAt (SortedMap.place k (table x) t) (k :: j :: path) v =
      SortedMap.place k (table (Setting.mergeAt x (j :: path) v)) t := by
  rw [mergeAt_cons_cons, tableAt_place, h.place_place]

/-- A value for a path that is not empty is laid over what there is at the first key. -/
theorem exists_mergeAt_cons (k : String) (path : List String) (v : Setting) : ∃ x, ∀ t,
    mergeAt t (k :: path) v = SortedMap.place k (laidOver x (Fields.get? k t)) t := by
  cases path with
  | nil => exact ⟨v, fun _ => rfl⟩
  | cons i path =>
    refine ⟨table (branch (i :: path) v), fun t => ?_⟩
    have hbranch : branch (k :: i :: path) v = [(k, table (branch (i :: path) v))] := rfl
    rw [mergeAt_eq_merge, hbranch, merge_singleton]

theorem mergeAt_comm_of_ne (ht : Ordered t) (h : j ≠ k) (p q : List String) (v w : Setting) :
    mergeAt (mergeAt t (j :: p) v) (k :: q) w = mergeAt (mergeAt t (k :: q) w) (j :: p) v := by
  obtain ⟨x, hx⟩ := exists_mergeAt_cons j p v
  obtain ⟨y, hy⟩ := exists_mergeAt_cons k q w
  simp only [hx, hy, SortedMap.get?_place, if_neg h, if_neg h.symm]
  exact ht.place_comm h.symm _ _

/-- Values for paths of which neither leads through the other can be laid over in either order. -/
theorem mergeAt_comm (ht : (table t).Ascending) (hpq : ¬ p <+: q) (hqp : ¬ q <+: p)
    (v w : Setting) : mergeAt (mergeAt t p v) q w = mergeAt (mergeAt t q w) p v := by
  -- along both paths, as long as they go through the same table
  induction p generalizing q t with
  | nil => exact absurd List.nil_prefix hpq
  | cons j p ih =>
    cases q with
    | nil => exact absurd List.nil_prefix hqp
    | cons k q =>
      by_cases hjk : j = k
      · subst hjk
        rw [List.cons_prefix_cons] at hpq hqp
        have hp : ¬ p <+: q := fun h => hpq ⟨rfl, h⟩
        have hq : ¬ q <+: p := fun h => hqp ⟨rfl, h⟩
        rcases p with _ | ⟨i, p⟩
        · exact absurd List.nil_prefix hp
        rcases q with _ | ⟨i', q⟩
        · exact absurd List.nil_prefix hq
        rw [mergeAt_cons_cons t j i, ht.ordered.mergeAt_place, mergeAt_cons_cons t j i',
          ht.ordered.mergeAt_place, ih (ht.tableAt j) hp hq]
      · exact mergeAt_comm_of_ne ht.ordered hjk p q v w

end Commutation
end Setting

open Setting

/-- Neither of two entries has a path that is the other's or leads through it. -/
def SettingEntry.Apart (a b : SettingEntry) : Prop := ¬ a.path <+: b.path ∧ ¬ b.path <+: a.path

namespace Settings

/-- Two entries give the same table in either order, over any table of a kind. -/
def Interchange (P : SettingTable → Prop) (a b : SettingEntry) : Prop :=
  ∀ t, P t → mergeAt (mergeAt t a.path a.value) b.path b.value =
    mergeAt (mergeAt t b.path b.value) a.path a.value

variable {P : SettingTable → Prop} {es es' : List SettingEntry} {base t : SettingTable}

theorem Interchange.symm {a b : SettingEntry} (h : Interchange P a b) : Interchange P b a :=
  fun t ht => (h t ht).symm

/-- Entries that can change places two by two give the same table in any order. -/
theorem mergeEntries_perm (h : es.Perm es')
    (hkeep : ∀ e ∈ es, ∀ t, P t → P (mergeAt t e.path e.value)) (hes : es.Pairwise (Interchange P))
    (ht : P t) : mergeEntries t es' = mergeEntries t es := by
  induction h generalizing t with
  | nil => rfl
  | cons e _ ih =>
    obtain ⟨he, hkeep⟩ := List.forall_mem_cons.1 hkeep
    exact ih hkeep (List.pairwise_cons.1 hes).2 (he t ht)
  | swap a b es =>
    have hba : Interchange P b a := (List.pairwise_cons.1 hes).1 a List.mem_cons_self
    exact congrArg (fun t => mergeEntries t es) (hba t ht).symm
  | trans hfirst _ ih ih' =>
    have hpairs := (hfirst.pairwise_iff Interchange.symm).1 hes
    rw [ih' (fun e he => hkeep e (hfirst.mem_iff.2 he)) hpairs ht, ih hkeep hes ht]

theorem mergeEntries_perm_of_apart (h : es.Perm es') (ht : (table t).Ascending)
    (hvalues : ∀ e ∈ es, e.value.Ascending) (hapart : es.Pairwise SettingEntry.Apart) :
    mergeEntries t es' = mergeEntries t es := by
  refine mergeEntries_perm (P := fun t => (table t).Ascending) h
    (fun e he t ht => ht.mergeAt (hvalues e he) e.path) (hapart.imp fun hab t ht => ?_) ht
  exact mergeAt_comm ht hab.1 hab.2 _ _

/-- Properties have different keys, so that it does not matter what is in the tables below. -/
theorem mergeEntries_perm_of_properties {m : SortedMap String}
    (h : es.Perm (m.toList.map fun e => ⟨[e.1], .text e.2⟩)) (ht : Ordered t) :
    mergeEntries t es = mergeEntries t (m.toList.map fun e => ⟨[e.1], .text e.2⟩) := by
  refine mergeEntries_perm (P := Ordered) h.symm
    (fun e _ t ht => ht.mergeAt e.path e.value) ?_ ht
  refine List.pairwise_map.2 (m.ascending.imp fun hab t ht => ?_)
  exact mergeAt_comm_of_ne ht (fun heq => String.lt_irrefl _ (heq ▸ hab)) _ _ _ _

theorem Ordered.foldlM_read {h : Host} {sources : List SettingSource} (hbase : Ordered base)
    (ht : sources.foldlM (fun t s => (s.read h).map (mergeEntries t)) base = .ok t) : Ordered t := by
  induction sources generalizing base with
  | nil =>
    cases ht
    exact hbase
  | cons s sources ih =>
    rw [List.foldlM_cons] at ht
    obtain ⟨t', hs, hrest⟩ := Except.bind_eq_ok.1 ht
    obtain ⟨es, -, rfl⟩ := Except.map_eq_ok.1 hs
    exact ih (hbase.mergeEntries es) hrest

/-- A source can stand for another one if it does over every table that sources before it give. -/
theorem merged_congr {h : Host} (before after : List SettingSource) {s s' : SettingSource}
    (hs : ∀ t, Ordered t → (s.read h).map (mergeEntries t) = (s'.read h).map (mergeEntries t)) :
    merged h (before ++ s :: after) = merged h (before ++ s' :: after) := by
  unfold merged
  rw [List.foldlM_append, List.foldlM_append]
  cases ht : before.foldlM (fun t s => (s.read h).map (mergeEntries t)) [] with
  | error e => rfl
  | ok t =>
    have hempty : Ordered [] := List.Pairwise.nil
    have hok (f : SettingTable → Except SettingsError SettingTable) : (.ok t >>= f) = f t := rfl
    rw [hok, hok, List.foldlM_cons, List.foldlM_cons, hs t (Ordered.foldlM_read hempty ht)]

/-- Entries of which no path is another's or leads through it give the same table in any order, over
any base. All tables have their keys in order, as maps do. So the table that sources give does not
depend on the order in which the properties of one of them are gone through, whatever sources are
before it or behind it. -/
theorem merged_in_any_order :
    (∀ (t : SettingTable) (es es' : List SettingEntry), (table t).Ascending →
      (∀ e ∈ es, e.value.Ascending) → es.Pairwise SettingEntry.Apart → es.Perm es' →
      mergeEntries t es' = mergeEntries t es) ∧
    ∀ (h : Host) (before after : List SettingSource) (m : SortedMap String)
      (es es' : List SettingEntry), (SettingSource.properties m).read h = .ok es → es.Perm es' →
      merged h (before ++ .entries es' :: after) = merged h (before ++ .properties m :: after) := by
  refine ⟨fun t es es' ht hvalues hapart h => mergeEntries_perm_of_apart h ht hvalues hapart,
    fun h before after m es es' hread hperm => merged_congr before after fun t ht => ?_⟩
  cases hread
  exact congrArg Except.ok (mergeEntries_perm_of_properties hperm.symm ht)

/-- Two entries below a key at which there is a text, and properties over a table at one of their
keys. -/
theorem merged_in_any_order_below_text :
    let below : List SettingEntry := [⟨["a", "b"], .text "1"⟩, ⟨["a", "c"], .text "2"⟩]
    let m : SortedMap String := .ofList [("a", "1"), ("b", "2")]
    let nested : SettingSource := .entries [⟨["a", "c"], .text "3"⟩]
    below.Pairwise SettingEntry.Apart ∧
    mergeEntries [("a", .text "x")] below.reverse = mergeEntries [("a", .text "x")] below ∧
    merged {} [nested, .entries [⟨["b"], .text "2"⟩, ⟨["a"], .text "1"⟩]] =
      merged {} [nested, .properties m] := by
  intro below m nested
  have hapart : below.Pairwise SettingEntry.Apart := by
    simp [below, SettingEntry.Apart, List.cons_prefix_cons]
  have hvalues : ∀ e ∈ below, e.value.Ascending := by simp [below, Ascending]
  refine ⟨hapart, merged_in_any_order.1 _ _ _ ?_ hvalues hapart (List.reverse_perm below).symm,
    merged_in_any_order.2 {} [nested] [] m _ _ rfl (List.Perm.swap _ _ _)⟩
  simp [Ascending, AscendingEntries]

end Settings
end FleetCatalog
