import Mathlib.Data.List.Induction
import FleetCatalog.Proofs.Catalog.Operations

/-! What the subscribers of a manager are told. The log of a run has an event for every call that has
stored a specification, one each and in the order of the calls. A call that is refused leaves nothing
behind, neither in the log nor in the store. -/
namespace FleetCatalog

/-- What a subscriber receives. -/
structure Notice where
  topic : String
  event : Announcement

namespace Registry

inductive Call
  | get (name : String)
  | list
  | upsert (name : String) (spec : CatalogSpec)
  | delete (name : String)

inductive Reply
  | catalog (c : Catalog)
  | catalogs (cs : List Catalog)
  | tag (tag : String)
  | deleted

/-- What a manager with a publisher does when it is called. -/
def Call.outcome (s : MemoryCatalogs) : Call → Outcome MemoryCatalogs Reply
  | get name => ⟨(Registry.get s name).map .catalog, s, []⟩
  | list => ⟨(Registry.list s).map .catalogs, s, []⟩
  | upsert name spec =>
    let o := Registry.upsert ⟨true⟩ s name spec
    ⟨o.answer.map .tag, o.store, o.events⟩
  | delete name =>
    let o := Registry.delete s name
    ⟨o.answer.map fun _ => .deleted, o.store, o.events⟩

/-- Calls that have been answered, with the store after them and all that a subscriber has
recorded. -/
structure Run where
  store : MemoryCatalogs
  replies : List (Except Error Reply) := []
  log : List Notice := []

def Run.next (r : Run) (call : Call) : Run :=
  let o := call.outcome r.store
  ⟨o.store, r.replies ++ [o.answer], r.log ++ o.events.map fun e => ⟨Announcement.topic, e⟩⟩

def Run.ofCalls (s : MemoryCatalogs) (calls : List Call) : Run := calls.foldl Run.next { store := s }

/-- The specification that a call has stored, with its name, by the reply to the call. -/
def Call.stored? : Call × Except Error Reply → Option (String × CatalogSpec)
  | (upsert name spec, .ok _) => some (name, spec)
  | _ => none

/-- An upsert writes, answers with the new tag and announces what it was given; or it fails, and does
nothing else. -/
theorem Call.outcome_upsert (s : MemoryCatalogs) (name : String) (spec : CatalogSpec) :
    outcome s (upsert name spec) = ⟨.ok (.tag (generationTag (s.nextGeneration name))),
      s.written name ⟨name, spec⟩, [⟨name, spec⟩]⟩ ∨
    ∃ e, outcome s (upsert name spec) = ⟨.error e, s, []⟩ := by
  cases haccept : accept s name spec with
  | error e =>
    right
    refine ⟨e, ?_⟩
    simp only [outcome, upsert_of_refused _ haccept]
    rfl
  | ok _ =>
    by_cases htag : s.Current name spec.generation
    · left
      simp only [outcome, upsert_of_current _ haccept htag]
      rfl
    · right
      refine ⟨.store (.conflict .catalog name spec.generation (s.tag name)), ?_⟩
      simp only [outcome, upsert_of_not_current _ haccept htag]
      rfl

/-- The events of a call are told by its reply. -/
theorem Call.events_outcome (s : MemoryCatalogs) (call : Call) :
    (call.outcome s).events =
      ((stored? (call, (call.outcome s).answer)).map fun w => (⟨w.1, w.2⟩ : Announcement)).toList := by
  cases call with
  | get name => rfl
  | list => rfl
  | delete name => rfl
  | upsert name spec =>
    rcases outcome_upsert s name spec with h | ⟨e, h⟩
    · rw [h]
      rfl
    · rw [h]
      rfl

theorem Run.ofCalls_append (s : MemoryCatalogs) (calls : List Call) (call : Call) :
    ofCalls s (calls ++ [call]) = (ofCalls s calls).next call := by
  simp [ofCalls]

theorem Run.length_replies (s : MemoryCatalogs) (calls : List Call) :
    (ofCalls s calls).replies.length = calls.length := by
  induction calls using List.reverseRecOn with
  | nil => rfl
  | append_singleton calls call ih => simp [ofCalls_append, next, ih]

theorem Run.log_eq (s : MemoryCatalogs) (calls : List Call) : (ofCalls s calls).log =
    ((calls.zip (ofCalls s calls).replies).filterMap Call.stored?).map fun w =>
      ⟨Announcement.topic, ⟨w.1, w.2⟩⟩ := by
  induction calls using List.reverseRecOn with
  | nil => rfl
  | append_singleton calls call ih =>
    have hlength := (length_replies s calls).symm
    rw [ofCalls_append, next, ih, Call.events_outcome, List.zip_append hlength,
      List.filterMap_append, List.map_append]
    cases h : Call.stored? (call, (call.outcome (ofCalls s calls).store).answer) <;> simp [h]

/-- A manager that answers calls on any store. A subscriber has recorded the writes, in their order:
on the catalog topic the name, the kind and the whole specification of every upsert that was not
refused, as it was given. After such an upsert the name holds what was announced, at the tag of the
reply; one that was refused has changed neither the log nor the store. -/
theorem log_records_writes (s : MemoryCatalogs) :
    (∀ calls, ((Run.ofCalls s calls).log.map fun n =>
        (n.topic, n.event.id, n.event.objectType, n.event.body)) =
      ((calls.zip (Run.ofCalls s calls).replies).filterMap Call.stored?).map fun w =>
        ("catalog", w.1, w.2.kind, w.2)) ∧
    ∀ before name spec,
      let r := Run.ofCalls s before
      let r' := Run.ofCalls s (before ++ [.upsert name spec])
      (∃ tag, r'.replies = r.replies ++ [.ok (.tag tag)] ∧
        r'.log = r.log ++ [⟨"catalog", ⟨name, spec⟩⟩] ∧
        get r'.store name = .ok ⟨name, { spec with generation := tag }⟩) ∨
      ∃ e, r'.replies = r.replies ++ [.error e] ∧ r'.log = r.log ∧ r'.store = r.store := by
  constructor
  · intro calls
    rw [Run.log_eq, List.map_map]
    rfl
  · intro before name spec r r'
    have hr' : r' = r.next (.upsert name spec) := Run.ofCalls_append s before _
    rw [hr']
    rcases Call.outcome_upsert r.store name spec with h | ⟨e, h⟩
    · left
      refine ⟨_, by rw [Run.next, h], by rw [Run.next, h]; rfl, ?_⟩
      have hget := MemoryCatalogs.get_written r.store name name ⟨name, spec⟩
      rw [if_pos rfl] at hget
      rw [Run.next, h]
      exact congrArg (Except.mapError Error.store) hget
    · right
      refine ⟨e, by rw [Run.next, h], by rw [Run.next, h]; simp, by rw [Run.next, h]⟩

end Registry
end FleetCatalog
