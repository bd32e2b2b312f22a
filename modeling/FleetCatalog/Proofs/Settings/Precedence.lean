import FleetCatalog.Proofs.Settings.Layering

/-! What merged entries hold at a path. Laying a value over a table at a path is laying over the table
that holds the value there and nothing else, so every entry counts as a table of its own. A table has
a say over a path if it reaches it, or ends on the way in something that is no table; of the entries
merged, the last that has a say over a path decides what there is. -/
namespace FleetCatalog
namespace Setting

/-- A setting that is no table. -/
def Plain : Setting → Prop
  | table _ => False
  | _ => True

/-- A setting laid over others decides what there is at a path: it has something there, or something
on the way that is no table. -/
def Touches (v : Setting) (path : List String) : Prop :=
  (∃ u, v.at? path = some u) ∨
    ∃ front u, front <+: path ∧ front ≠ path ∧ v.at? front = some u ∧ u.Plain

variable {own base t : SettingTable} {k : String} {v w : Setting} {path : List String}

theorem plain_or_table (v : Setting) : v.Plain ∨ ∃ t, v = table t := by
  cases v with
  | table t => exact .inr ⟨t, rfl⟩
  | _ => exact .inl trivial

theorem not_plain_table (t : SettingTable) : ¬ (table t).Plain := fun h => h

theorem at?_nil (v : Setting) : v.at? [] = some v := by
  cases v <;> rfl

theorem at?_table_cons (t : SettingTable) (k : String) (path : List String) :
    (table t).at? (k :: path) = (Fields.get? k t).bind fun v => v.at? path := rfl

theorem at?_cons_of_plain (h : v.Plain) (k : String) (path : List String) :
    v.at? (k :: path) = none := by
  cases v with
  | table t => cases h
  | _ => rfl

theorem touches_nil (v : Setting) : Touches v [] := .inl ⟨v, at?_nil v⟩

/-- What is no table has a say over everything below it. -/
theorem touches_of_plain (h : v.Plain) (path : List String) : Touches v path := by
  cases path with
  | nil => exact touches_nil v
  | cons k path => exact .inr ⟨[], v, List.nil_prefix, (List.cons_ne_nil k path).symm, at?_nil v, h⟩

/-- A table has the say over a path that what it has at the first key has over the rest. -/
theorem touches_table_cons (t : SettingTable) (k : String) (path : List String) :
    Touches (table t) (k :: path) ↔ ∃ v, Fields.get? k t = some v ∧ Touches v path := by
  constructor
  · rintro (⟨u, hu⟩ | ⟨front, u, hprefix, hne, hu, hplain⟩)
    · rw [at?_table_cons, Option.bind_eq_some_iff] at hu
      obtain ⟨v, hv, hu⟩ := hu
      exact ⟨v, hv, .inl ⟨u, hu⟩⟩
    · cases front with
      | nil =>
        rw [at?_nil, Option.some.injEq] at hu
        subst hu
        cases hplain
      | cons j front =>
        obtain ⟨rfl, hfront⟩ := List.cons_prefix_cons.1 hprefix
        rw [at?_table_cons, Option.bind_eq_some_iff] at hu
        obtain ⟨v, hv, hu⟩ := hu
        exact ⟨v, hv, .inr ⟨front, u, hfront, fun h => hne (congrArg (j :: ·) h), hu, hplain⟩⟩
  · rintro ⟨v, hv, ⟨u, hu⟩ | ⟨front, u, hprefix, hne, hu, hplain⟩⟩
    · refine .inl ⟨u, ?_⟩
      rw [at?_table_cons, hv]
      exact hu
    · refine .inr ⟨k :: front, u, List.cons_prefix_cons.2 ⟨rfl, hprefix⟩, ?_, ?_, hplain⟩
      · exact fun h => hne (List.tail_eq_of_cons_eq h)
      · rw [at?_table_cons, hv]
        exact hu

theorem laidOver_none (v : Setting) : laidOver v none = v := by
  cases v <;> rfl

theorem laidOver_of_plain (h : v.Plain) (o : Option Setting) : laidOver v o = v := by
  cases v with
  | table t => cases h
  | _ => rfl

theorem laidOver_plain (h : w.Plain) (v : Setting) : laidOver v (some w) = v := by
  cases w with
  | table t => cases h
  | _ => cases v <;> rfl

theorem merge_singleton (k : String) (v : Setting) (base : SettingTable) :
    merge [(k, v)] base = SortedMap.place k (laidOver v (Fields.get? k base)) base := by
  rw [merge, merge]

/-- A table laid over what is at a key is merged into the table there, or into an empty one. -/
theorem laidOver_table_eq (h : merge own [] = own) (k : String) (t : SettingTable) :
    laidOver (table own) (Fields.get? k t) = table (merge own (tableAt k t)) := by
  unfold tableAt
  rcases hk : Fields.get? k t with _ | v
  · rw [laidOver_none, h]
  · rcases plain_or_table v with hv | ⟨base, rfl⟩
    · rw [laidOver_plain hv]
      cases v with
      | table base => exact absurd hv (not_plain_table base)
      | _ => rw [h]
    · rw [laidOver]

theorem merge_branch_nil (k : String) (path : List String) (v : Setting) :
    merge (branch (k :: path) v) [] = branch (k :: path) v := by
  have hone (w : Setting) : merge [(k, w)] [] = [(k, w)] := by
    rw [merge_singleton, Fields.get?_nil, laidOver_none, SortedMap.place]
  cases path with
  | nil => exact hone v
  | cons j path => exact hone (table (branch (j :: path) v))

/-- A value for a path is laid over as the table that holds it there. -/
theorem mergeAt_eq_merge (t : SettingTable) (path : List String) (v : Setting) :
    mergeAt t path v = merge (branch path v) t := by
  induction path generalizing t with
  | nil => cases v <;> rfl
  | cons k path ih =>
    cases path with
    | nil => rw [mergeAt, branch, merge_singleton]
    | cons j path =>
      have hbranch : branch (k :: j :: path) v = [(k, table (branch (j :: path) v))] := rfl
      have hmerge : mergeAt t (k :: j :: path) v =
          SortedMap.place k (table (mergeAt (tableAt k t) (j :: path) v)) t := rfl
      -- a missing or plain middle level becomes an empty table on one side and is replaced on the other
      rw [hmerge, ih, hbranch, merge_singleton, laidOver_table_eq (merge_branch_nil j path v)]

theorem Ordered.get?_eq_none (h : Ordered ((k, v) :: t)) : Fields.get? k t = none := by
  rw [Fields.get?_eq_none_iff, Fields.keys]
  intro hk
  obtain ⟨e, he, rfl⟩ := List.mem_map.1 hk
  exact String.lt_irrefl _ ((List.pairwise_cons.1 h).1 e he)

/-- What a merged table has at a key. -/
theorem get?_merge (h : Ordered own) (base : SettingTable) (k : String) :
    Fields.get? k (merge own base) =
      match Fields.get? k own with
      | none => Fields.get? k base
      | some v => some (laidOver v (Fields.get? k base)) := by
  induction own generalizing base with
  | nil => rw [merge, Fields.get?_nil]
  | cons e own ih =>
    obtain ⟨j, v⟩ := e
    rw [merge, ih h.of_cons, Fields.get?_cons, SortedMap.get?_place]
    by_cases hjk : j = k
    · subst hjk
      simp only [h.get?_eq_none, if_true]
    · simp only [if_neg hjk, if_neg (Ne.symm hjk)]

theorem Ascending.ordered (h : (table t).Ascending) : Ordered t := h.1

theorem ascending_of_get? (h : AscendingEntries t) (hv : Fields.get? k t = some v) :
    v.Ascending := by
  induction t with
  | nil => cases hv
  | cons e t ih =>
    obtain ⟨j, u⟩ := e
    rw [Fields.get?_cons] at hv
    split at hv
    · cases hv
      exact h.1
    · exact ih h.2 hv

theorem Ascending.branch (h : v.Ascending) (path : List String) :
    (table (branch path v)).Ascending := by
  induction path with
  | nil =>
    cases v with
    | table t => exact h
    | _ => exact ⟨.nil, trivial⟩
  | cons k path ih =>
    cases path with
    | nil => exact ⟨List.pairwise_singleton _ _, h, trivial⟩
    | cons j path => exact ⟨List.pairwise_singleton _ _, ih, trivial⟩

/-- A setting laid over others leaves what they have at a path only where it has no say. -/
theorem at?_laidOver (hv : v.Ascending) (hw : w.Plain) (o : Option Setting) (path : List String) :
    (laidOver v o).at? path = some w ↔
      v.at? path = some w ∨ ¬ Touches v path ∧ ∃ b, o = some b ∧ b.at? path = some w := by
  -- along the path: one key down, what was there under `v` is again something laid over something
  induction path generalizing v o with
  | nil =>
    rcases plain_or_table v with hplain | ⟨x, rfl⟩
    · simp [laidOver_of_plain hplain, touches_nil]
    · obtain ⟨y, hy⟩ := exists_laidOver_table x o
      have hne (t : SettingTable) : table t ≠ w := fun h => not_plain_table t (h ▸ hw)
      simp [hy, at?_nil, touches_nil, hne]
  | cons k path ih =>
    rcases plain_or_table v with hplain | ⟨x, rfl⟩
    · simp [laidOver_of_plain hplain, touches_of_plain hplain]
    rcases o with _ | b
    · simp [laidOver_none]
    rcases plain_or_table b with hb | ⟨y, rfl⟩
    · simp [laidOver_plain hb, at?_cons_of_plain hb]
    rw [laidOver, at?_table_cons, at?_table_cons, touches_table_cons, get?_merge hv.ordered]
    rcases hk : Fields.get? k x with _ | u
    · simp [at?_table_cons]
    · have hu : u.Ascending := ascending_of_get? hv.2 hk
      simp only [Option.bind_some, ih hu, Option.some.injEq, exists_eq_left', at?_table_cons,
        Option.bind_eq_some_iff]

end Setting

open Setting

/-- The table that an entry stands for. -/
def SettingEntry.nested (e : SettingEntry) : Setting := .table (branch e.path e.value)

namespace Settings
variable {es : List SettingEntry} {w : Setting} {path : List String}

theorem at?_mergeAt {e : SettingEntry} (t : SettingTable) (he : e.value.Ascending) (hw : w.Plain) :
    (table (mergeAt t e.path e.value)).at? path = some w ↔ e.nested.at? path = some w ∨
      ¬ e.nested.Touches path ∧ (table t).at? path = some w := by
  have h := at?_laidOver (he.branch e.path) hw (some (table t)) path
  rw [laidOver, ← mergeAt_eq_merge] at h
  simpa [SettingEntry.nested] using h

/-- The entry `e` is the last of the entries to have a say over a path. -/
def LastTouching (es : List SettingEntry) (path : List String) (e : SettingEntry) : Prop :=
  ∃ before after, es = before ++ e :: after ∧ e.nested.Touches path ∧
    ∀ x ∈ after, ¬ x.nested.Touches path

theorem lastTouching_cons {e x : SettingEntry} :
    LastTouching (e :: es) path x ↔ LastTouching es path x ∨
      (x = e ∧ e.nested.Touches path ∧ ∀ y ∈ es, ¬ y.nested.Touches path) := by
  constructor
  · rintro ⟨before, after, hsplit, hx, hafter⟩
    cases before with
    | nil =>
      cases hsplit
      exact .inr ⟨rfl, hx, hafter⟩
    | cons b before =>
      cases hsplit
      exact .inl ⟨before, after, rfl, hx, hafter⟩
  · rintro (⟨before, after, rfl, hx, hafter⟩ | ⟨rfl, hx, hafter⟩)
    · exact ⟨e :: before, after, rfl, hx, hafter⟩
    · exact ⟨[], es, rfl, hx, hafter⟩

theorem touches_of_at? {v u : Setting} (h : v.at? path = some u) : Touches v path := .inl ⟨u, h⟩

theorem at?_mergeEntries (t : SettingTable) (hes : ∀ e ∈ es, e.value.Ascending) (hw : w.Plain) :
    (table (mergeEntries t es)).at? path = some w ↔
      (∃ e, LastTouching es path e ∧ e.nested.at? path = some w) ∨
      (∀ e ∈ es, ¬ e.nested.Touches path) ∧ (table t).at? path = some w := by
  induction es generalizing t with
  | nil => simp [mergeEntries, LastTouching]
  | cons e es ih =>
    obtain ⟨he, hes⟩ := List.forall_mem_cons.1 hes
    have hstep : mergeEntries t (e :: es) = mergeEntries (mergeAt t e.path e.value) es := rfl
    rw [hstep, ih _ hes, at?_mergeAt t he hw]
    constructor
    · rintro (⟨x, hx, hat⟩ | ⟨hnone, hat | ⟨hnot, hat⟩⟩)
      · exact .inl ⟨x, lastTouching_cons.2 (.inl hx), hat⟩
      · exact .inl ⟨e, lastTouching_cons.2 (.inr ⟨rfl, touches_of_at? hat, hnone⟩), hat⟩
      · exact .inr ⟨List.forall_mem_cons.2 ⟨hnot, hnone⟩, hat⟩
    · rintro (⟨x, hx, hat⟩ | ⟨hnone, hat⟩)
      · rcases lastTouching_cons.1 hx with hx | ⟨rfl, -, hnone⟩
        · exact .inl ⟨x, hx, hat⟩
        · exact .inr ⟨hnone, .inl hat⟩
      · obtain ⟨hnot, hnone⟩ := List.forall_mem_cons.1 hnone
        exact .inr ⟨hnone, .inr ⟨hnot, hat⟩⟩

theorem at?_empty_ne (hw : w.Plain) : (table []).at? path ≠ some w := by
  cases path with
  | nil =>
    rw [at?_nil, Ne, Option.some.injEq]
    rintro rfl
    exact not_plain_table [] hw
  | cons k path => rintro ⟨⟩

/-- To lay a value over a table at a path is to merge the table that holds it there. In entries merged
from nothing a path holds something other than a table just if an entry has a say over the path and
the last of those that do has that there. -/
theorem layered_merge :
    (∀ t path v, mergeAt t path v = merge (branch path v) t) ∧
    ∀ (es : List SettingEntry) (path : List String) (w : Setting),
      (∀ e ∈ es, e.value.Ascending) → w.Plain →
      ((table (mergeEntries [] es)).at? path = some w ↔
        ∃ e, LastTouching es path e ∧ e.nested.at? path = some w) := by
  refine ⟨mergeAt_eq_merge, fun es path w hes hw => ?_⟩
  rw [at?_mergeEntries [] hes hw]
  constructor
  · rintro (h | ⟨-, h⟩)
    · exact h
    · exact absurd h (at?_empty_ne hw)
  · exact .inl

/-- A text at a key, a text below that key, and a table at the key that leaves the text below alone. -/
def layers : List SettingEntry :=
  [⟨["a"], .text "1"⟩, ⟨["a", "b"], .text "2"⟩, ⟨[], .table [("a", .table [("c", .text "3")])]⟩]

theorem layered_merge_layers :
    (∀ e ∈ layers, e.value.Ascending) ∧ (text "2").Plain ∧
    (table (mergeEntries [] layers)).at? ["a", "b"] = some (.text "2") := by
  have hes : ∀ e ∈ layers, e.value.Ascending := by simp [layers, Ascending, AscendingEntries]
  have hlast : ¬ (SettingEntry.nested ⟨[], .table [("a", .table [("c", .text "3")])]⟩).Touches
      ["a", "b"] := by
    simp [SettingEntry.nested, branch, touches_table_cons, Fields.get?_cons]
  refine ⟨hes, trivial, (layered_merge.2 layers ["a", "b"] (.text "2") hes trivial).2 ?_⟩
  exact ⟨⟨["a", "b"], .text "2"⟩, ⟨[_], [_], rfl, touches_of_at? rfl, by simpa using hlast⟩, rfl⟩

end Settings
end FleetCatalog
