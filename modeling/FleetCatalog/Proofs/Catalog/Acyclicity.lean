import Mathlib.Data.List.Chain
import Mathlib.Logic.Relation
import FleetCatalog.Proofs.Catalog.Operations
import FleetCatalog.Proofs.Catalog.Walk
import FleetCatalog.Proofs.Configuration.Reading

/-! Chains of parents never lead back. A write adds at most the link from what it writes to the
parent, and is admitted only if the chain up from that parent is complete and misses what is
written; every other call keeps the links or takes some away. -/
namespace FleetCatalog
namespace Ancestry
open Relation MemoryCatalogs

/-- The catalog stored under the first id names the second as its parent. -/
def Inherits (s : MemoryCatalogs) (id parent : String) : Prop :=
  ∃ c, s.get id = .ok c ∧ c.spec.parent = some parent

/-- No id is among its own ancestors. -/
def Acyclic (s : MemoryCatalogs) : Prop := ∀ id, ¬ TransGen (Inherits s) id id

variable {s : MemoryCatalogs} {id : String} {c : Catalog}

theorem inherits_iff_of_get (h : s.get id = .ok c) (b : String) :
    Inherits s id b ↔ c.spec.parent = some b := by
  constructor
  · rintro ⟨d, hd, hp⟩
    rw [h, Except.ok.injEq] at hd
    rwa [hd]
  · intro hp
    exact ⟨c, h, hp⟩

theorem inherits_written_self (s : MemoryCatalogs) (id : String) (c : Catalog) (b : String) :
    Inherits (s.written id c) id b ↔ c.spec.parent = some b := by
  have h := get_written s id id c
  rw [if_pos rfl] at h
  exact inherits_iff_of_get h b

theorem inherits_written_of_ne {a : String} (h : a ≠ id) (c : Catalog) (b : String) :
    Inherits (s.written id c) a b ↔ Inherits s a b := by
  unfold Inherits
  rw [get_written, if_neg h]

theorem inherits_of_erased {a b : String} (h : Inherits (s.erased id) a b) : Inherits s a b := by
  obtain ⟨c, hget, hp⟩ := h
  rw [get_erased] at hget
  split at hget
  · cases hget
  · exact ⟨c, hget, hp⟩

theorem Acyclic.mono {t : MemoryCatalogs} (hs : Acyclic s)
    (h : ∀ a b, Inherits t a b → Inherits s a b) : Acyclic t :=
  fun id hcycle => hs id (TransGen.mono h id id hcycle)

theorem acyclic_empty : Acyclic {} := by
  intro id hcycle
  obtain ⟨b, ⟨c, hget, -⟩, -⟩ := TransGen.head'_iff.mp hcycle
  cases hget

/-- A path either was there before a write or goes over what is written to its parent. -/
theorem path_written {a b : String} (h : TransGen (Inherits (s.written id c)) a b) :
    TransGen (Inherits s) a b ∨ ∃ p, c.spec.parent = some p ∧
      ReflTransGen (Inherits (s.written id c)) a id ∧
      ReflTransGen (Inherits (s.written id c)) p b := by
  induction h with
  | @single b hab =>
    by_cases ha : a = id
    · subst ha
      exact .inr ⟨b, (inherits_written_self s a c b).mp hab, .refl, .refl⟩
    · exact .inl (.single ((inherits_written_of_ne ha c b).mp hab))
  | @tail b d hab hbd ih =>
    by_cases hb : b = id
    · subst hb
      exact .inr ⟨d, (inherits_written_self s b c d).mp hbd, hab.to_reflTransGen, .refl⟩
    · rcases ih with hold | ⟨p, hp, hto, hfrom⟩
      · exact .inl (hold.tail ((inherits_written_of_ne hb c d).mp hbd))
      · exact .inr ⟨p, hp, hto, hfrom.tail hbd⟩

/-- A write keeps a store acyclic if the parent does not lead to what is written. -/
theorem Acyclic.written (hs : Acyclic s)
    (h : ∀ p, c.spec.parent = some p → ¬ ReflTransGen (Inherits (s.written id c)) p id) :
    Acyclic (s.written id c) := by
  intro a hcycle
  rcases path_written hcycle with hold | ⟨p, hp, hto, hfrom⟩
  · exact hs a hold
  · exact h p hp (hfrom.trans hto)

/-- A walk that comes to an end misses the ids it had met, also when one of them is written. -/
theorem Ascent.not_reaches {look : Catalog → Option Empty} {visited asked : List String}
    {first origin : String} {r : Option Empty} (h : Ascent s look visited first asked (.ok r))
    (ho : origin ∈ visited) : ¬ ReflTransGen (Inherits (s.written origin c)) first origin := by
  generalize hr : (Except.ok r : Except Halt (Option Empty)) = outcome at h
  induction h with
  | repeated => cases hr
  | failed => cases hr
  | @found _ _ _ a => exact a.elim
  | @top visited id d hnew hget _ htop =>
    intro hreach
    have hne : id ≠ origin := fun he => hnew (he ▸ ho)
    rcases ReflTransGen.cases_head hreach with heq | ⟨q, hq, -⟩
    · exact hne heq
    · rw [inherits_written_of_ne hne, inherits_iff_of_get hget, htop] at hq
      cases hq
  | @parent visited id d p asked r hnew hget _ hparent _ ih =>
    intro hreach
    have hne : id ≠ origin := fun he => hnew (he ▸ ho)
    rcases ReflTransGen.cases_head hreach with heq | ⟨q, hq, hrest⟩
    · exact hne heq
    · rw [inherits_written_of_ne hne, inherits_iff_of_get hget, hparent, Option.some.injEq] at hq
      subst hq
      exact ih (List.mem_cons_of_mem _ ho) hr hrest

theorem sized_memory (s : MemoryCatalogs) : Sized s := fun _ => length_le_size

/-- An admitted catalog is not among the ancestors of its parent. -/
theorem not_reaches_of_accept {name p : String} {spec : CatalogSpec}
    (h : Registry.accept s name spec = .ok ()) (hp : spec.parent = some p) :
    ¬ ReflTransGen (Inherits (s.written name c)) p name := by
  obtain ⟨r, hr⟩ := Registry.walk_of_checkParents (Registry.of_accept h).2 hp
  have hwalk := walk_ascent (sized_memory s) (fun _ => (none : Option Empty)) name p
  rw [hr] at hwalk
  exact hwalk.not_reaches (List.mem_singleton_self name)

theorem Acyclic.change {t : MemoryCatalogs} (hs : Acyclic s) (h : Change s t) : Acyclic t := by
  cases h with
  | unchanged => exact hs
  | admitted haccept _ => exact hs.written fun p hp => not_reaches_of_accept haccept hp
  | @edited object c properties hget =>
    refine hs.mono fun a b hab => ?_
    by_cases ha : a = object
    · subst ha
      rw [inherits_written_self] at hab
      exact (inherits_iff_of_get hget b).mpr hab
    · exact (inherits_written_of_ne ha _ b).mp hab
  | deleted id => exact hs.mono fun a b => inherits_of_erased

theorem Acyclic.runAll (hs : Acyclic s) (calls : List CatalogCall) :
    Acyclic (CatalogCall.runAll s calls) := by
  induction calls generalizing s with
  | nil => exact hs
  | cons call calls ih => exact ih (hs.change (call.change s))

theorem Acyclic.nodup (hs : Acyclic s) {ids : List String} (h : ids.IsChain (Inherits s)) :
    ids.Nodup := by
  have hpaths : ids.IsChain (TransGen (Inherits s)) := h.imp fun _ _ => TransGen.single
  refine hpaths.pairwise.imp ?_
  rintro a b hab rfl
  exact hs a hab

/-- In an acyclic store a walk from the ids it has met meets none of them again. -/
theorem Ascent.ne_repeated {α : Type} {look : Catalog → Option α} {visited asked : List String}
    {first : String} {outcome : Except Halt (Option α)}
    (h : Ascent s look visited first asked outcome) (hs : Acyclic s)
    (hbelow : ∀ v ∈ visited, TransGen (Inherits s) v first) (id : String) :
    outcome ≠ .error (.repeated id) := by
  induction h with
  | repeated hmet => exact absurd (hbelow _ hmet) (hs _)
  | failed => rintro ⟨⟩
  | found => rintro ⟨⟩
  | top => rintro ⟨⟩
  | @parent visited first d p asked r _ hget _ hparent _ ih =>
    have hlink : Inherits s first p := ⟨d, hget, hparent⟩
    refine ih fun v hv => ?_
    rcases List.mem_cons.mp hv with rfl | hv
    · exact .single hlink
    · exact (hbelow v hv).tail hlink

/-- In an acyclic store an inherited field is found or missing, never beyond a cycle. -/
theorem Acyclic.read_kind_ne (hs : Acyclic s) {t : Tracer} {overlay : Overlay}
    {object field : String} {e : Error}
    (hlocal : ∀ c, s.get object = .ok c → Fields.get? field c.spec.properties = none)
    (hread : Configuration.read t s overlay object field = .error e) :
    e.kind ≠ .cycleDetected := by
  cases hget : s.get object with
  | error cause =>
    rw [Configuration.read_of_get_error t overlay hget] at hread
    cases hread
    cases cause <;> rintro ⟨⟩
  | ok c =>
    cases hparent : c.spec.parent with
    | none =>
      rw [Configuration.read_of_top t overlay hget (hlocal c hget) hparent] at hread
      cases hread
      rintro ⟨⟩
    | some first =>
      rw [Configuration.read_of_parent t overlay hget (hlocal c hget) hparent,
        Configuration.inherited_outcome] at hread
      have hwalk := walk_ascent (sized_memory s) (fun c => Fields.get? field c.spec.properties)
        object first
      have hlink : TransGen (Inherits s) object first := .single ⟨c, hget, hparent⟩
      have hne := hwalk.ne_repeated hs fun v hv => List.mem_singleton.mp hv ▸ hlink
      exact Configuration.inheritedOutcome_kind_ne hne hread

end Ancestry

/-- However catalogs are written, edited and deleted, no chain of parents visits an id twice, and no
reader of an inherited field is told of a cycle. -/
theorem parents_never_repeat (calls : List CatalogCall) :
    (∀ ids : List String, ids.IsChain (Ancestry.Inherits (CatalogCall.runAll {} calls)) → ids.Nodup) ∧
    ∀ (t : Tracer) (overlay : Overlay) (object field : String),
      (∀ c, (CatalogCall.runAll {} calls).get object = .ok c →
        Fields.get? field c.spec.properties = none) →
      ∀ e, Configuration.read t (CatalogCall.runAll {} calls) overlay object field = .error e →
        e.kind ≠ .cycleDetected := by
  have hs := Ancestry.acyclic_empty.runAll calls
  exact ⟨fun ids => hs.nodup, fun t overlay object field hlocal e => hs.read_kind_ne hlocal⟩

/-- After a refused attempt to close the loop the two catalogs are still a chain. -/
theorem parents_never_repeat_refused_loop :
    ["b", "a"].IsChain (Ancestry.Inherits (CatalogCall.runAll {} [.upsert {} "a" {},
      .upsert {} "b" { parentName := some "a" }, .upsert {} "a" { parentName := some "b" }])) ∧
    ["b", "a"].Nodup ∧
    Configuration.read ⟨fun _ _ => .ok .null, {}⟩ (CatalogCall.runAll {} [.upsert {} "a" {},
      .upsert {} "b" { parentName := some "a" }, .upsert {} "a" { parentName := some "b" }]) {}
      "b" "k" = .error (.fieldNotFound "k" "b") ∧
    (Error.fieldNotFound "k" "b").kind ≠ .cycleDetected := by
  have h := parents_never_repeat [.upsert {} "a" {}, .upsert {} "b" { parentName := some "a" },
    .upsert {} "a" { parentName := some "b" }]
  have hchain : ["b", "a"].IsChain (Ancestry.Inherits (CatalogCall.runAll {} [.upsert {} "a" {},
      .upsert {} "b" { parentName := some "a" }, .upsert {} "a" { parentName := some "b" }])) :=
    .cons_cons ⟨_, rfl, rfl⟩ (.singleton _)
  have hread : Configuration.read ⟨fun _ _ => .ok .null, {}⟩ (CatalogCall.runAll {}
      [.upsert {} "a" {}, .upsert {} "b" { parentName := some "a" },
      .upsert {} "a" { parentName := some "b" }]) {} "b" "k" = .error (.fieldNotFound "k" "b") := rfl
  refine ⟨hchain, h.1 _ hchain, hread, h.2 _ _ _ _ ?_ _ hread⟩
  rintro c ⟨⟩
  rfl

end FleetCatalog
