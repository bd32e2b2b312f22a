import FleetCatalog.Proofs.Configuration.Inheritance

/-! What the readers of a field see of a write to one catalog. The write is seen from below just where the
chain of a reader arrives at the written catalog and no nearer catalog holds the field; all other reads
give what they gave before. The links between catalogs are not touched, so that the chains of a store before
and after a write are the same, and they settle alike except at the written catalog itself. -/
namespace FleetCatalog
namespace Configuration
open Ancestry

section Chain
variable {σ : Type} [CatalogStore σ] {s : σ} {d o id field : String} {n m : Nat}

theorem ancestor_add (s : σ) (d : String) (k n : Nat) :
    ancestor s d (k + n) = (ancestor s d k).bind fun id => ancestor s id n := by
  induction n with
  | zero => cases ancestor s d k <;> rfl
  | succ n ih =>
    rw [← Nat.add_assoc, ancestor, ih]
    cases ancestor s d k <;> rfl

/-- A chain that goes on past a step has met an id there, it is stored, and its parent is met next. -/
theorem exists_get_of_ancestor (h : ancestor s d n = some o) (hm : m < n) :
    ∃ id c p, ancestor s d m = some id ∧ CatalogStore.get s id = .ok c ∧ c.spec.parent = some p := by
  obtain ⟨k, rfl⟩ := Nat.exists_eq_add_of_lt hm
  rw [show m + k + 1 = m + (1 + k) by omega, ancestor_add] at h
  obtain ⟨id, hid, h⟩ := Option.bind_eq_some_iff.1 h
  rw [ancestor_add] at h
  obtain ⟨p, hp, -⟩ := Option.bind_eq_some_iff.1 h
  change parentOf s id = some p at hp
  unfold parentOf at hp
  cases hget : CatalogStore.get s id with
  | error cause => simp [hget] at hp
  | ok c => exact ⟨id, c, p, hid, hget, by simpa [hget] using hp⟩

theorem ancestor_ne_none (h : ancestor s d n = some o) (hm : m ≤ n) : ancestor s d m ≠ none := by
  obtain ⟨k, rfl⟩ := Nat.exists_eq_add_of_le hm
  rw [ancestor_add] at h
  obtain ⟨id, hid, -⟩ := Option.bind_eq_some_iff.1 h
  simp [hid]

/-- After `n` steps the chain of `d` comes to `o`, which no step before did, and none of the catalogs on
the way there holds the field. -/
structure Arrives (s : σ) (field o d : String) (n : Nat) : Prop where
  here : ancestor s d n = some o
  below : ∀ m < n, ∀ id, ancestor s d m = some id →
    id ≠ o ∧ ∀ c, CatalogStore.get s id = .ok c → Fields.get? field c.spec.properties = none

theorem Arrives.self (s : σ) (field o : String) : Arrives s field o o 0 := ⟨rfl, by simp⟩

theorem Arrives.ne_below (h : Arrives s field o d n) : ¬ ∃ m < n, ancestor s d m = some o := by
  rintro ⟨m, hm, hid⟩
  exact (h.below m hm o hid).1 rfl

/-- A chain that arrives has not gone round on the way, and settles nothing there. -/
theorem Arrives.verdict_below (h : Arrives s field o d n) (hm : m < n) :
    verdict s d field m = none := by
  obtain ⟨id, c, p, hid, hget, hp⟩ := exists_get_of_ancestor h.here hm
  have hnew : ¬ ∃ k < m, ancestor s d k = some id := by
    rintro ⟨k, hk, hkid⟩
    -- from the second visit on the chain repeats the steps from the first, which would come to `o` sooner
    obtain ⟨j, rfl⟩ := Nat.exists_eq_add_of_lt hm
    have hsooner : ancestor s d (k + (j + 1)) = some o := by
      rw [ancestor_add, hkid, ← h.here, Nat.add_assoc, ancestor_add, hid]
    exact h.ne_below ⟨k + (j + 1), by omega, hsooner⟩
  exact verdict_of_parent hid hnew hget ((h.below m hm id hid).2 c hget) hp

/-- What a reader of `d` is given by the chain from the step after `n` on: the first verdict there, or
that the field is not found if the chain ends with step `n`. -/
inductive GoesOn (s : σ) (d field : String) (n : Nat) : Except Error Value → Prop
  | top (h : ancestor s d (n + 1) = none) : GoesOn s d field n (.error (.fieldNotFound field d))
  | settled {k : Nat} {r : Except Error Value} (hk : n < k) (here : verdict s d field k = some r)
    (between : ∀ m, n < m → m < k → verdict s d field m = none) : GoesOn s d field n r

theorem FirstVerdict.read_eq {r : Except Error Value} (h : FirstVerdict s d field n r) (hs : Sized s)
    (t : Tracer) (overlay : Overlay) :
    read t s overlay d field = if n = 0 then r >>= t.trace overlay else r := by
  obtain ⟨k, q, hq, hread⟩ := exists_firstVerdict hs d field
  obtain ⟨rfl, rfl⟩ := hq.unique h
  exact (hread t overlay).1

end Chain

section Rewritten
variable {σ : Type} [CatalogStore σ] {s s' : σ} {d o id field g : String} {w : Option Value} {n : Nat}
  {r : Except Error Value}

/-- Two stores that differ in what `o` holds under a field, which is `w` in the second one. -/
structure Rewritten (s s' : σ) (o field : String) (w : Option Value) : Prop where
  others : ∀ id, id ≠ o → CatalogStore.get s' id = CatalogStore.get s id
  here : ∃ c c', CatalogStore.get s o = .ok c ∧ CatalogStore.get s' o = .ok c' ∧
    c'.spec.parent = c.spec.parent ∧ Fields.get? field c'.spec.properties = w ∧
    ∀ g, g ≠ field → Fields.get? g c'.spec.properties = Fields.get? g c.spec.properties

theorem Rewritten.parentOf_eq (h : Rewritten s s' o field w) (id : String) :
    parentOf s' id = parentOf s id := by
  unfold parentOf
  by_cases hid : id = o
  · obtain ⟨c, c', hget, hget', hparent, -⟩ := h.here
    subst hid
    simp only [hget, hget', hparent]
  · rw [h.others id hid]

theorem Rewritten.ancestor_eq (h : Rewritten s s' o field w) (d : String) (n : Nat) :
    ancestor s' d n = ancestor s d n := by
  induction n with
  | zero => rfl
  | succ n ih =>
    rw [ancestor, ancestor, ih]
    congr 1
    funext id
    exact h.parentOf_eq id

/-- A step of a chain settles the same in both stores, unless it is the first one at `o` and the field
that differs is read. -/
theorem Rewritten.verdict_eq (h : Rewritten s s' o field w)
    (hn : ancestor s d n = some o → g = field → ∃ m < n, ancestor s d m = some o) :
    verdict s' d g n = verdict s d g n := by
  unfold verdict
  simp only [h.ancestor_eq]
  cases hid : ancestor s d n with
  | none => rfl
  | some id =>
    simp only [Option.bind_some]
    by_cases hmet : ∃ m < n, ancestor s d m = some id
    · simp only [if_pos hmet]
    · simp only [if_neg hmet]
      by_cases ho : id = o
      · subst ho
        have hg : g ≠ field := fun hg => hmet (hn hid hg)
        obtain ⟨c, c', hget, hget', hparent, -, hkeep⟩ := h.here
        simp only [hget, hget', hparent, hkeep g hg]
      · rw [h.others id ho]

/-- Where the steps up to the first verdict settle the same, both stores are read alike. -/
theorem read_eq_of_verdict_eq (hs : Sized s) (hs' : Sized s')
    (hsame : ∀ n r, FirstVerdict s d g n r → ∀ m ≤ n, verdict s' d g m = verdict s d g m)
    (t : Tracer) (overlay : Overlay) : read t s' overlay d g = read t s overlay d g := by
  obtain ⟨n, r, hfirst, -⟩ := exists_firstVerdict hs d g
  have hfirst' : FirstVerdict s' d g n r := by
    refine ⟨(hsame n r hfirst n le_rfl).trans hfirst.here, fun m hm => ?_⟩
    rw [hsame n r hfirst m hm.le]
    exact hfirst.before m hm
  rw [hfirst'.read_eq hs', hfirst.read_eq hs]

/-- A reader whose chain does not arrive at `o` is settled before the difference shows. -/
theorem Rewritten.read_of_not_arrives (h : Rewritten s s' o field w) (hs : Sized s) (hs' : Sized s')
    (hd : ¬ ∃ n, Arrives s field o d n) (t : Tracer) (overlay : Overlay) :
    read t s' overlay d field = read t s overlay d field := by
  refine read_eq_of_verdict_eq hs hs' (fun n r hfirst m hm => h.verdict_eq fun hid _ => ?_) t overlay
  by_contra hnew
  apply hd
  refine ⟨m, hid, fun k hk id hkid => ?_⟩
  have hopen := hfirst.before k (by omega)
  constructor
  · rintro rfl
    exact hnew ⟨k, hk, hkid⟩
  · intro c hget
    cases hv : Fields.get? field c.spec.properties with
    | none => rfl
    | some v =>
      by_cases hmet : ∃ j < k, ancestor s d j = some id
      · rw [verdict_of_met hkid hmet] at hopen
        cases hopen
      · rw [verdict_of_held hkid hmet hget hv] at hopen
        cases hopen

theorem Rewritten.verdict_below (h : Rewritten s s' o field w) (hd : Arrives s field o d n) {m : Nat}
    (hm : m < n) : verdict s' d field m = none := by
  rw [h.verdict_eq fun hid _ => absurd ⟨m, hm, hid⟩ hd.ne_below]
  exact hd.verdict_below hm

theorem Rewritten.not_met (h : Rewritten s s' o field w) (hd : Arrives s field o d n) :
    ¬ ∃ m < n, ancestor s' d m = some o := by
  simp only [h.ancestor_eq]
  exact hd.ne_below

/-- What `o` holds now is the first verdict where a chain arrives. -/
theorem Rewritten.firstVerdict_of_held {v : Value} (h : Rewritten s s' o field (some v))
    (hd : Arrives s field o d n) : FirstVerdict s' d field n (.ok v) := by
  obtain ⟨_, c', _, hget', _, hv, _⟩ := h.here
  exact ⟨verdict_of_held ((h.ancestor_eq d n).trans hd.here) (h.not_met hd) hget' hv,
    fun m hm => h.verdict_below hd hm⟩

/-- Where `o` no longer holds the field the chain ends with it, or nothing is settled there. -/
theorem Rewritten.verdict_here (h : Rewritten s s' o field none) (hd : Arrives s field o d n) :
    verdict s' d field n =
      if ancestor s d (n + 1) = none then some (.error (.fieldNotFound field d)) else none := by
  obtain ⟨c, c', hget, hget', hparent, hv, -⟩ := h.here
  have hhere : ancestor s' d n = some o := (h.ancestor_eq d n).trans hd.here
  have hnext : ancestor s d (n + 1) = c'.spec.parent := by
    simp only [ancestor, hd.here, Option.bind_some, parentOf, hget, hparent]
  rw [hnext]
  cases hp : c'.spec.parent with
  | none =>
    rw [if_pos rfl]
    exact verdict_of_top hhere (h.not_met hd) hget' hv hp
  | some p =>
    rw [if_neg (Option.some_ne_none p)]
    exact verdict_of_parent hhere (h.not_met hd) hget' hv hp

/-- Above `o` all is as before: if the chain comes back to it, that is a repetition in either store. -/
theorem Rewritten.verdict_above (h : Rewritten s s' o field w) (hd : Arrives s field o d n) {m : Nat}
    (hm : n < m) : verdict s' d field m = verdict s d field m :=
  h.verdict_eq fun _ _ => ⟨n, hm, hd.here⟩

theorem Rewritten.firstVerdict_of_goesOn (h : Rewritten s s' o field none)
    (hd : Arrives s field o d n) (hr : GoesOn s d field n r) :
    ∃ k, FirstVerdict s' d field k r ∧ (k = 0 → r = .error (.fieldNotFound field d)) := by
  cases hr with
  | top hend =>
    refine ⟨n, ⟨?_, fun m hm => h.verdict_below hd hm⟩, fun _ => rfl⟩
    rw [h.verdict_here hd, if_pos hend]
  | @settled k _ hk hverdict hbetween =>
    refine ⟨k, ⟨(h.verdict_above hd hk).trans hverdict, fun m hm => ?_⟩, by omega⟩
    obtain hlt | rfl | hgt := Nat.lt_trichotomy m n
    · exact h.verdict_below hd hlt
    · obtain ⟨id, hid, -⟩ := Option.bind_eq_some_iff.1 hverdict
      rw [h.verdict_here hd, if_neg (ancestor_ne_none hid hk)]
    · rw [h.verdict_above hd hgt]
      exact hbetween m hgt hm

theorem Rewritten.goesOn_of_firstVerdict {k : Nat} (h : Rewritten s s' o field none)
    (hd : Arrives s field o d n) (hfirst : FirstVerdict s' d field k r) : GoesOn s d field n r := by
  have hhere := hfirst.here
  obtain hlt | rfl | hgt := Nat.lt_trichotomy k n
  · rw [h.verdict_below hd hlt] at hhere
    cases hhere
  · rw [h.verdict_here hd] at hhere
    split at hhere
    · next hend =>
      cases hhere
      exact .top hend
    · cases hhere
  · refine .settled hgt ((h.verdict_above hd hgt).symm.trans hhere) fun m hm hmk => ?_
    rw [← h.verdict_above hd hm]
    exact hfirst.before m hmk

/-- A reader whose chain arrives at `o` is given what the chain goes on to. -/
theorem Rewritten.read_of_goesOn (h : Rewritten s s' o field none) (hs' : Sized s')
    (hd : Arrives s field o d n) (hr : GoesOn s d field n r) (t : Tracer) (overlay : Overlay) :
    read t s' overlay d field = r := by
  obtain ⟨k, hfirst, hzero⟩ := h.firstVerdict_of_goesOn hd hr
  rw [hfirst.read_eq hs']
  by_cases hk : k = 0
  · rw [if_pos hk, hzero hk]
    rfl
  · rw [if_neg hk]

theorem Rewritten.exists_goesOn (h : Rewritten s s' o field none) (hs' : Sized s')
    (hd : Arrives s field o d n) : ∃ r, GoesOn s d field n r := by
  obtain ⟨k, r, hfirst, -⟩ := exists_firstVerdict hs' d field
  exact ⟨r, h.goesOn_of_firstVerdict hd hfirst⟩

end Rewritten

section Memory
variable {s s' : MemoryCatalogs} {o field : String} {e : Edit} {v : Value}

/-- An edit that succeeds has written what it makes of the properties that it found. -/
theorem of_edit_ok (h : edit s o e = (.ok (), s')) : ∃ c properties, s.get o = .ok c ∧
    e.apply o c.spec.properties = .ok properties ∧ s' = s.written o (c.withProperties properties) := by
  cases hget : s.get o with
  | error cause =>
    rw [edit_of_get_error hget] at h
    cases h
  | ok c =>
    cases happly : e.apply o c.spec.properties with
    | error err =>
      rw [edit_of_apply_error hget happly] at h
      cases h
    | ok properties =>
      rw [edit_of_apply_ok hget happly] at h
      cases h
      exact ⟨c, properties, rfl, happly, rfl⟩

theorem rewritten_of_get {c : Catalog} {properties : Mapping} {w : Option Value}
    (hget : s.get o = .ok c) (hw : Fields.get? field properties = w)
    (hkeep : ∀ g, g ≠ field → Fields.get? g properties = Fields.get? g c.spec.properties) :
    Rewritten s (s.written o (c.withProperties properties)) o field w := by
  constructor
  · intro id hid
    exact (MemoryCatalogs.get_written s o id _).trans (if_neg hid)
  · exact ⟨c, _, hget, (MemoryCatalogs.get_written s o o _).trans (if_pos rfl), rfl, hw, hkeep⟩

theorem rewritten_of_set (h : edit s o (.set field v) = (.ok (), s')) :
    Rewritten s s' o field (some v) := by
  obtain ⟨c, properties, hget, happly, rfl⟩ := of_edit_ok h
  cases happly
  exact rewritten_of_get hget (Fields.get?_put_self field v _) fun g hg => Fields.get?_put_of_ne hg v _

theorem rewritten_of_remove (h : edit s o (.remove field) = (.ok (), s')) :
    Rewritten s s' o field none := by
  obtain ⟨c, properties, hget, happly, rfl⟩ := of_edit_ok h
  simp only [Edit.apply] at happly
  split at happly
  · cases happly
    exact rewritten_of_get hget (by rw [Fields.get?_erase, if_pos rfl]) fun g hg => by
      rw [Fields.get?_erase, if_neg hg]
  · cases happly

/-- What all readers see of a write to a field of `o`, which leaves `w` there, or nothing. -/
structure Seen (s s' : MemoryCatalogs) (o field : String) (w : Option Value) : Prop where
  /-- All other fields are read as before. -/
  otherFields : ∀ d g, g ≠ field → ∀ t overlay, read t s' overlay d g = read t s overlay d g
  /-- So is the field where the chain finds it, or ends, before it comes to `o`. -/
  elsewhere : ∀ d, (¬ ∃ n, Arrives s field o d n) → ∀ t overlay,
    read t s' overlay d field = read t s overlay d field
  /-- What is written is traced for the readers of `o`, and given as it is to all who inherit it. -/
  overridden : ∀ v, w = some v → (∀ t overlay, read t s' overlay o field = t.trace overlay v) ∧
    ∀ d n, d ≠ o → Arrives s field o d n → ∀ t overlay, read t s' overlay d field = .ok v
  /-- If nothing is left, the readers of `o` and those who inherited from it are given what their
  chains went on to above it. -/
  uncovered : w = none → ∀ d n, Arrives s field o d n → (∃ r, GoesOn s d field n r) ∧
    ∀ r, GoesOn s d field n r → ∀ t overlay, read t s' overlay d field = r

theorem Rewritten.seen {w : Option Value} (h : Rewritten s s' o field w) : Seen s s' o field w := by
  have hs := sized_memory s
  have hs' := sized_memory s'
  refine ⟨?otherFields, ?elsewhere, ?overridden, ?uncovered⟩
  case otherFields =>
    intro d g hg t overlay
    refine read_eq_of_verdict_eq hs hs' (fun n r _ m _ => ?_) t overlay
    exact h.verdict_eq fun _ hgf => absurd hgf hg
  case elsewhere =>
    intro d hd t overlay
    exact h.read_of_not_arrives hs hs' hd t overlay
  case overridden =>
    rintro v rfl
    constructor
    · intro t overlay
      exact (h.firstVerdict_of_held (Arrives.self s field o)).read_eq hs' t overlay
    · intro d n hne hd t overlay
      have hn : n ≠ 0 := by
        rintro rfl
        exact hne (Option.some.inj hd.here)
      rw [(h.firstVerdict_of_held hd).read_eq hs', if_neg hn]
  case uncovered =>
    rintro rfl d n hd
    exact ⟨h.exists_goesOn hs' hd, fun r hr t overlay => h.read_of_goesOn hs' hd hr t overlay⟩

/-- A write to a field of one catalog is seen in that field alone, by the readers of the catalog and by
those whose chains come to it before anything is settled, whatever the links between the catalogs are
like. -/
theorem field_write_seen (s : MemoryCatalogs) (o field : String) :
    (∀ v s', edit s o (.set field v) = (.ok (), s') → Seen s s' o field (some v)) ∧
    ∀ s', edit s o (.remove field) = (.ok (), s') → Seen s s' o field none :=
  ⟨fun _ _ h => (rewritten_of_set h).seen, fun _ h => (rewritten_of_remove h).seen⟩

/-- The template in `b` covers what `a` holds, and `c` inherits from `b`. -/
def covered : MemoryCatalogs :=
  ((({} : MemoryCatalogs).written "a" ⟨"a", { properties := [("k", .string "1")] }⟩).written "b"
    ⟨"b", { parentName := some "a", properties := [("k", .string "$\x7bvalue\x7d")] }⟩).written "c"
    ⟨"c", { parentName := some "b" }⟩

/-- A reader of `c` is given another template as it is, a reader of `b` what it is traced to. Without it
both are given what `a` holds. -/
theorem field_write_seen_covered :
    let template : Value := .string "$\x7bproperties\x7d"
    let set := edit covered "b" (.set "k" template)
    let removed := edit covered "b" (.remove "k")
    set.1 = .ok () ∧ removed.1 = .ok () ∧ Arrives covered "k" "b" "c" 1 ∧
    (∀ t overlay, read t set.2 overlay "b" "k" = t.trace overlay template ∧
      read t set.2 overlay "c" "k" = .ok template ∧ read t set.2 overlay "a" "k" =
        read t covered overlay "a" "k") ∧
    ∀ t overlay, read t removed.2 overlay "b" "k" = .ok (.string "1") ∧
      read t removed.2 overlay "c" "k" = .ok (.string "1") := by
  intro template set removed
  have hset : set.1 = .ok () := by decide +kernel
  have hremoved : removed.1 = .ok () := by decide +kernel
  have hc : Arrives covered "k" "b" "c" 1 := by
    refine ⟨rfl, fun m hm id hid => ?_⟩
    obtain rfl : m = 0 := by omega
    cases hid
    refine ⟨by decide, ?_⟩
    rintro c ⟨⟩
    rfl
  have ha : ¬ ∃ n, Arrives covered "k" "b" "a" n := by
    rintro ⟨n, hn⟩
    match n with
    | 0 => exact absurd hn.here (by decide)
    | n + 1 => exact ancestor_ne_none hn.here (show 1 ≤ n + 1 by omega) rfl
  have hseen := (field_write_seen covered "b" "k").1 template set.2 (Prod.ext hset rfl)
  have hgone := (field_write_seen covered "b" "k").2 removed.2 (Prod.ext hremoved rfl)
  have hb := Arrives.self covered "k" "b"
  refine ⟨hset, hremoved, hc, fun t overlay => ⟨?_, ?_, ?_⟩, fun t overlay => ⟨?_, ?_⟩⟩
  · exact (hseen.overridden template rfl).1 t overlay
  · exact (hseen.overridden template rfl).2 "c" 1 (by decide) hc t overlay
  · exact hseen.elsewhere "a" ha t overlay
  · exact (hgone.uncovered rfl "b" 0 hb).2 _ (.settled (k := 1) (by omega) rfl (by omega)) t overlay
  · exact (hgone.uncovered rfl "c" 1 hc).2 _ (.settled (k := 2) (by omega) rfl (by omega)) t overlay

end Memory

end Configuration
end FleetCatalog
