import FleetCatalog.Settings.Source
import FleetCatalog.Proofs.Outcome

/-! Tables of settings laid over one another, seen from their keys. The entries of a source have the
same say over a key whatever they are laid over: a key that they leave out keeps what it had, and one
that they give has what they give, but for the merging of tables within. Several sources are merged
by laying the table of each over the tables of those before it. -/
namespace FleetCatalog
namespace Setting

/-- The keys of a table ascend strictly. Nothing is said of the tables within. -/
def Ordered (t : SettingTable) : Prop := t.Pairwise fun a b => a.1 < b.1

/-- Settings that are equal, or tables both. -/
def Alike (v w : Setting) : Prop := v = w ∨ ∃ x y, v = table x ∧ w = table y

/-- What there is at every key once the table `own` has been laid over the table `base`. -/
structure Over (own base t : SettingTable) : Prop where
  kept : ∀ k, Fields.get? k own = none → Fields.get? k t = Fields.get? k base
  taken : ∀ k v, Fields.get? k own = some v → ∃ w, Fields.get? k t = some w ∧ Alike v w

/-- Tables laid over a first one, one after another. -/
inductive Stacked : SettingTable → List SettingTable → SettingTable → Prop
  | nil (t : SettingTable) : Stacked t [] t
  | cons {base own t m tables} (hown : Ordered own) (ht : Ordered t) (hover : Over own base t)
    (rest : Stacked t tables m) : Stacked base (own :: tables) m

variable {own base t m : SettingTable} {k : String} {v w : Setting}

theorem exists_laidOver_table (es : SettingTable) (o : Option Setting) :
    ∃ x, laidOver (table es) o = table x := by
  rcases o with _ | v
  · exact ⟨es, rfl⟩
  · cases v with
    | table base => exact ⟨merge es base, by rw [laidOver]⟩
    | _ => exact ⟨es, rfl⟩

/-- Only for the merging of tables does it matter what a setting is laid over. -/
theorem alike_laidOver (v : Setting) (o o' : Option Setting) :
    Alike (laidOver v o) (laidOver v o') := by
  cases v with
  | table es =>
    obtain ⟨x, hx⟩ := exists_laidOver_table es o
    obtain ⟨y, hy⟩ := exists_laidOver_table es o'
    exact .inr ⟨x, y, hx, hy⟩
  | _ => exact .inl rfl

theorem Over.nil (t : SettingTable) : Over [] t t := ⟨fun _ _ => rfl, fun _ _ h => by cases h⟩

theorem Over.place (h : Over own base t) (hvw : Alike v w) (k : String) :
    Over (SortedMap.place k v own) base (SortedMap.place k w t) := by
  constructor
  · intro j hj
    rw [SortedMap.get?_place] at hj ⊢
    by_cases hjk : j = k
    · rw [if_pos hjk] at hj
      cases hj
    · rw [if_neg hjk] at hj ⊢
      exact h.kept j hj
  · intro j x hj
    rw [SortedMap.get?_place] at hj ⊢
    by_cases hjk : j = k
    · rw [if_pos hjk] at hj ⊢
      cases hj
      exact ⟨w, rfl, hvw⟩
    · rw [if_neg hjk] at hj ⊢
      exact h.taken j x hj

theorem Over.merge (h : Over own base t) (es : SettingTable) :
    Over (merge es own) base (merge es t) := by
  induction es generalizing own t with
  | nil =>
    rw [Setting.merge, Setting.merge]
    exact h
  | cons e es ih =>
    rw [Setting.merge, Setting.merge]
    exact ih (h.place (alike_laidOver e.2 _ _) e.1)

theorem Over.mergeAt (h : Over own base t) (path : List String) (v : Setting) :
    Over (mergeAt own path v) base (mergeAt t path v) := by
  match path, v with
  | [], .table es => exact h.merge es
  | [], .text _ | [], .integer _ | [], .float _ | [], .bool _ | [], .moment _ | [], .list _ => exact h
  | [k], v => exact h.place (alike_laidOver v _ _) k
  | k :: j :: rest, v => exact h.place (.inr ⟨_, _, rfl, rfl⟩) k

theorem Over.mergeEntries (h : Over own base t) (es : List SettingEntry) :
    Over (Settings.mergeEntries own es) base (Settings.mergeEntries t es) := by
  induction es generalizing own t with
  | nil => exact h
  | cons e es ih => exact ih (h.mergeAt e.path e.value)

theorem Ordered.merge (h : Ordered t) (es : SettingTable) : Ordered (merge es t) := by
  induction es generalizing t with
  | nil =>
    rw [Setting.merge]
    exact h
  | cons e es ih =>
    rw [Setting.merge]
    exact ih (SortedMap.pairwise_place h)

theorem Ordered.mergeAt (h : Ordered t) (path : List String) (v : Setting) :
    Ordered (mergeAt t path v) := by
  match path, v with
  | [], .table es => exact h.merge es
  | [], .text _ | [], .integer _ | [], .float _ | [], .bool _ | [], .moment _ | [], .list _ => exact h
  | [k], v => exact SortedMap.pairwise_place h
  | k :: j :: rest, v => exact SortedMap.pairwise_place h

theorem Ordered.mergeEntries (h : Ordered t) (es : List SettingEntry) :
    Ordered (Settings.mergeEntries t es) := by
  induction es generalizing t with
  | nil => exact h
  | cons e es ih => exact ih (h.mergeAt e.path e.value)

theorem Ordered.get?_eq_some_iff (h : Ordered t) : Fields.get? k t = some v ↔ (k, v) ∈ t :=
  SortedMap.get?_eq_some_iff ⟨t, h⟩ k v

end Setting
open Setting

namespace Settings
variable {h : Host} {sources : List SettingSource} {tables : List SettingTable}

theorem merged_singleton (h : Host) (s : SettingSource) :
    merged h [s] = (s.read h).map (mergeEntries []) := by
  unfold merged
  rw [List.foldlM_cons]
  cases s.read h <;> rfl

theorem exists_stacked {base : SettingTable}
    (hread : sources.mapM (fun s => merged h [s]) = .ok tables) (hbase : Ordered base) :
    ∃ m, sources.foldlM (fun t s => (s.read h).map (mergeEntries t)) base = .ok m ∧
      Ordered m ∧ Stacked base tables m := by
  induction sources generalizing base tables with
  | nil =>
    cases hread
    exact ⟨base, rfl, hbase, .nil base⟩
  | cons s sources ih =>
    obtain ⟨own, tables, hown, hrest, rfl⟩ := Except.mapM_cons_eq_ok.1 hread
    rw [merged_singleton, Except.map_eq_ok] at hown
    obtain ⟨es, hes, rfl⟩ := hown
    have hordered : Ordered (mergeEntries base es) := hbase.mergeEntries es
    obtain ⟨m, hm, hmordered, hstacked⟩ := ih hrest hordered
    have hempty : Ordered [] := List.Pairwise.nil
    refine ⟨m, ?_, hmordered,
      .cons (hempty.mergeEntries es) hordered ((Over.nil base).mergeEntries es) hstacked⟩
    rw [List.foldlM_cons, hes]
    exact hm

/-- Sources that can each be read can be merged, into their tables laid over one another. -/
theorem merged_stacked (hread : sources.mapM (fun s => merged h [s]) = .ok tables) :
    ∃ m, merged h sources = .ok m ∧ Ordered m ∧ Stacked [] tables m :=
  exists_stacked hread List.Pairwise.nil

end Settings
end FleetCatalog
