import Mathlib.Logic.Function.Basic
import FleetCatalog.Proofs.Outcome
import FleetCatalog.Proofs.Store.History
import FleetCatalog.Proofs.Text.Order

/-! A store of catalogs in memory as its users see it. It answers as a plain map from ids to
specifications and counters does, whatever it was called with before; the envelopes in which it keeps
its catalogs, and the reading of them, never show. -/
namespace FleetCatalog

/-- For every id under which something is stored, the specification that was written last and the
number of its revision. -/
abbrev Ledger := String → Option (CatalogSpec × Nat)

namespace Ledger

def empty : Ledger := fun _ => none

/-- The tag of what is stored under an id, empty if nothing is. -/
def tag (m : Ledger) (id : String) : String :=
  match m id with
  | none => ""
  | some (_, n) => toString n

def next (m : Ledger) (id : String) : Nat :=
  match m id with
  | none => 1
  | some (_, n) => n + 1

def get (m : Ledger) (id : String) : Except StoreError Catalog :=
  match m id with
  | none => .error (.notFound .catalog id)
  | some (spec, n) => .ok ⟨id, { spec with generation := toString n }⟩

def upsert (m : Ledger) (id : String) (c : Catalog) : Except StoreError String × Ledger :=
  if c.spec.generation = "" ∨ c.spec.generation = m.tag id then
    (.ok (toString (m.next id)), Function.update m id (some (c.spec, m.next id)))
  else (.error (.conflict .catalog id c.spec.generation (m.tag id)), m)

def delete (m : Ledger) (id : String) : Except StoreError Unit × Ledger :=
  match m id with
  | none => (.error (.notFound .catalog id), m)
  | some _ => (.ok (), Function.update m id none)

/-- Whether the answer to a list call holds the stored catalogs, each once and in the order of the
bytes of their ids. -/
def Listed (m : Ledger) (answer : Except StoreError (List Catalog)) : Prop :=
  ∃ cs, answer = .ok cs ∧ (cs.map fun c => Text.bytes c.id).Pairwise (· < ·) ∧
    ∀ id c, c ∈ cs ∧ c.id = id ↔ m.get id = .ok c

def run (m : Ledger) : MemoryCatalogs.Call → Ledger
  | .get _ => m
  | .list => m
  | .upsert id c => (m.upsert id c).2
  | .delete id => (m.delete id).2

def runAll (m : Ledger) (calls : List MemoryCatalogs.Call) : Ledger := calls.foldl run m

variable {m : Ledger} {id : String} {c : Catalog}

theorem upsert_of_current (h : c.spec.generation = "" ∨ c.spec.generation = m.tag id) :
    m.upsert id c =
      (.ok (toString (m.next id)), Function.update m id (some (c.spec, m.next id))) := if_pos h

theorem upsert_of_not_current (h : ¬ (c.spec.generation = "" ∨ c.spec.generation = m.tag id)) :
    m.upsert id c = (.error (.conflict .catalog id c.spec.generation (m.tag id)), m) := if_neg h

theorem id_of_get (h : m.get id = .ok c) : c.id = id := by
  unfold get at h
  cases hm : m id with
  | none => simp [hm] at h
  | some e =>
    simp only [hm, Except.ok.injEq] at h
    rw [← h]

theorem get_ne_unreadable (m : Ledger) (id : String) (cause : DecodeError) :
    m.get id ≠ .error (.unreadable cause) := by
  unfold get
  cases m id with
  | none => simp
  | some e => simp

end Ledger

theorem generationTag_eq (n : Nat) : generationTag n = toString n := Double.ofList_naturalText n

namespace MemoryCatalogs

/-- A store answers every call as a ledger does. -/
structure Refines (s : MemoryCatalogs) (m : Ledger) : Prop where
  get : ∀ id, s.get id = m.get id
  upsert : ∀ id c, (s.upsert id c).1 = (m.upsert id c).1
  delete : ∀ id, (s.delete id).1 = (m.delete id).1
  list : m.Listed s.list

/-- A store keeps in its envelopes what a ledger says. -/
def Keeps (s : MemoryCatalogs) (m : Ledger) : Prop :=
  ∀ id, s.entries.get? id =
    (m id).map fun e => ⟨(CatalogDocument.ofCatalog ⟨id, e.1⟩).encode, e.2⟩

/-- How often a call has written an id since the last one that deleted it, counted on from `n`. -/
def standing (id : String) : MemoryCatalogs → Nat → List Call → Nat
  | _, n, [] => n
  | s, n, call :: calls =>
    standing id (call.run s) (if call.removes id s then 0 else n + (call.stores id s).toNat) calls

/-- Whether a call is made to change what is stored under an id. -/
def Call.Changes (id : String) : Call → Prop
  | upsert j _ => j = id
  | delete j => j = id
  | _ => False

variable {s : MemoryCatalogs} {m : Ledger} {id : String} {c : Catalog}

theorem Keeps.get_eq (h : s.Keeps m) (id : String) : s.get id = m.get id := by
  unfold get Ledger.get
  rw [h id]
  cases m id with
  | none => rfl
  | some e =>
    simp only [Option.map_some, revision, CatalogDocument.decode_ofCatalog,
      CatalogDocument.toCatalog_ofCatalog, generationTag_eq]

theorem Keeps.tag_eq (h : s.Keeps m) (id : String) : s.tag id = m.tag id := by
  unfold tag Ledger.tag
  rw [h id]
  cases m id with
  | none => rfl
  | some e => exact generationTag_eq e.2

theorem Keeps.next_eq (h : s.Keeps m) (id : String) : s.nextGeneration id = m.next id := by
  unfold nextGeneration Ledger.next
  rw [h id]
  cases m id <;> rfl

/-- Under an id a catalog is read, or there is nothing. -/
theorem Keeps.get_cases (h : s.Keeps m) (id : String) :
    (∃ c, s.get id = .ok c) ∨ s.get id = .error (.notFound .catalog id) := by
  rw [h.get_eq]
  unfold Ledger.get
  cases m id with
  | none => exact .inr rfl
  | some e => exact .inl ⟨_, rfl⟩

/-- A tag is current if it is empty or on the catalog that is read under the id. -/
theorem Keeps.current_iff (h : s.Keeps m) {tag : String} :
    s.Current id tag ↔ tag = "" ∨ ∃ c, s.get id = .ok c ∧ c.spec.generation = tag := by
  unfold Current
  rw [h.tag_eq, h.get_eq]
  unfold Ledger.tag Ledger.get
  cases m id with
  | none => simp
  | some e => simp [eq_comm]

theorem Keeps.written (h : s.Keeps m) (id : String) (c : Catalog) :
    (s.written id c).Keeps (Function.update m id (some (c.spec, m.next id))) := by
  intro j
  unfold MemoryCatalogs.written
  rw [SortedMap.get?_insert, Function.update_apply, h.next_eq]
  by_cases hj : j = id
  · rw [if_pos hj, if_pos hj, hj]
    rfl
  · rw [if_neg hj, if_neg hj, h j]

theorem Keeps.erased (h : s.Keeps m) (id : String) :
    (s.erased id).Keeps (Function.update m id none) := by
  intro j
  unfold MemoryCatalogs.erased
  rw [SortedMap.get?_erase, Function.update_apply]
  by_cases hj : j = id
  · rw [if_pos hj, if_pos hj]
    rfl
  · rw [if_neg hj, if_neg hj, h j]

/-- A write is answered as by the ledger and keeps to it. -/
theorem Keeps.upsert (h : s.Keeps m) (id : String) (c : Catalog) :
    (s.upsert id c).1 = (m.upsert id c).1 ∧ (s.upsert id c).2.Keeps (m.upsert id c).2 := by
  by_cases htag : s.Current id c.spec.generation
  · have hm : c.spec.generation = "" ∨ c.spec.generation = m.tag id := h.tag_eq id ▸ htag
    rw [upsert_of_current htag, Ledger.upsert_of_current hm, h.next_eq, generationTag_eq]
    exact ⟨rfl, h.written id c⟩
  · have hm : ¬ (c.spec.generation = "" ∨ c.spec.generation = m.tag id) := h.tag_eq id ▸ htag
    rw [upsert_of_not_current htag, Ledger.upsert_of_not_current hm, h.tag_eq]
    exact ⟨rfl, h⟩

theorem Keeps.delete (h : s.Keeps m) (id : String) :
    (s.delete id).1 = (m.delete id).1 ∧ (s.delete id).2.Keeps (m.delete id).2 := by
  unfold Ledger.delete
  have hid := h id
  cases hm : m id with
  | none =>
    rw [hm] at hid
    rw [delete_of_absent hid]
    exact ⟨rfl, h⟩
  | some e =>
    rw [hm] at hid
    rw [delete_of_stored hid]
    exact ⟨rfl, h.erased id⟩

theorem Keeps.run (h : s.Keeps m) (call : Call) : (call.run s).Keeps (m.run call) := by
  cases call with
  | get id => exact h
  | list => exact h
  | upsert id c => exact (h.upsert id c).2
  | delete id => exact (h.delete id).2

theorem Keeps.runAll (h : s.Keeps m) (calls : List Call) :
    (Call.runAll s calls).Keeps (m.runAll calls) := by
  induction calls generalizing s m with
  | nil => exact h
  | cons call calls ih => exact ih (h.run call)

theorem Keeps.get_of_entry (h : s.Keeps m) {e : Stored Value} (he : s.entries.get? id = some e) :
    revision e = m.get id ∧ ∃ c, m.get id = .ok c := by
  have hrevision : revision e = m.get id := by
    rw [← h.get_eq]
    unfold get
    rw [he]
  refine ⟨hrevision, ?_⟩
  have hid := h id
  unfold Ledger.get
  cases hm : m id with
  | none =>
    rw [hm, he] at hid
    cases hid
  | some x => exact ⟨_, rfl⟩

theorem Keeps.list (h : s.Keeps m) : m.Listed s.list := by
  have hentry : ∀ e ∈ s.entries.entries, revision e.2 = m.get e.1 ∧ ∃ c, m.get e.1 = .ok c :=
    fun e he => h.get_of_entry ((SortedMap.get?_eq_some_iff _ _ _).mpr he)
  obtain ⟨cs, hcs⟩ : ∃ cs, s.list = .ok cs := by
    refine Except.exists_mapM_eq_ok fun e he => ?_
    rw [(hentry e he).1]
    exact (hentry e he).2
  have hid : ∀ e ∈ s.entries.entries, ∀ c, revision e.2 = .ok c → c.id = e.1 := by
    intro e he c hc
    rw [(hentry e he).1] at hc
    exact Ledger.id_of_get hc
  refine ⟨cs, hcs, ?_, fun id c => ?_⟩
  · have hbytes : cs.map (fun c => Text.bytes c.id) = s.entries.entries.map fun e => Text.bytes e.1 :=
      Except.map_of_mapM_eq_ok hcs fun e he c hc => congrArg Text.bytes (hid e he c hc)
    rw [hbytes, List.pairwise_map]
    exact s.entries.ascending.imp Text.bytes_lt_of_lt
  · rw [Except.mem_of_mapM_eq_ok hcs]
    constructor
    · rintro ⟨⟨e, he, hc⟩, rfl⟩
      rw [hid e he c hc, ← (hentry e he).1]
      exact hc
    · intro hc
      have hget := (h.get_eq id).trans hc
      obtain ⟨e, he, -⟩ := entry_of_get hget
      refine ⟨⟨(id, e), (SortedMap.get?_eq_some_iff _ _ _).mp he, ?_⟩, Ledger.id_of_get hc⟩
      exact (h.get_of_entry he).1.trans hc

theorem Keeps.refines (h : s.Keeps m) : s.Refines m where
  get := h.get_eq
  upsert id c := (h.upsert id c).1
  delete id := (h.delete id).1
  list := h.list

/-- The revision number of an id is the number of writes that have stood since it was deleted. -/
theorem revisionNumber_runAll_eq_standing (calls : List Call) :
    (Call.runAll s calls).revisionNumber id = standing id s (s.revisionNumber id) calls := by
  induction calls generalizing s with
  | nil => rfl
  | cons call calls ih =>
    have hstep : (call.run s).revisionNumber id =
        if call.removes id s then 0 else s.revisionNumber id + (call.stores id s).toNat := by
      cases hcall : call.removes id s with
      | true => exact revisionNumber_run_of_removes hcall
      | false => exact revisionNumber_run_of_not_removes hcall
    rw [runAll_cons, ih, hstep, standing]

theorem get_run_of_not_changes {call : Call} (h : ¬ call.Changes id) :
    (call.run s).get id = s.get id := by
  rcases call.run_cases s with ⟨hrun, -⟩ | ⟨j, c, rfl, hrun, -⟩ | ⟨j, rfl, hrun, -⟩
  · rw [hrun]
  · rw [hrun, get_written, if_neg (Ne.symm h)]
  · rw [hrun, get_erased, if_neg (Ne.symm h)]

/-- After any calls a store answers as the ledger does that was given the same calls. A catalog that
is written is read back as it was given, under the id and with the tag that the write answered, the
decimal count of the writes of that id since it was created; a call that is refused changes nothing,
a call on one id does not change another, and nothing stored ever fails to be read. -/
theorem refines_ledger (calls : List Call) :
    let s := Call.runAll {} calls
    s.Refines (Ledger.empty.runAll calls) ∧
    (∀ id c e t, s.upsert id c = (.ok e, t) →
      t.get id = .ok ⟨id, { c.spec with generation := e }⟩ ∧
      e = toString (standing id {} 0 calls + 1)) ∧
    (∀ id c err t, s.upsert id c = (.error err, t) → t = s) ∧
    (∀ id err t, s.delete id = (.error err, t) → t = s) ∧
    (∀ id (call : Call), ¬ call.Changes id → (call.run s).get id = s.get id) ∧
    (∀ id cause, s.get id ≠ .error (.unreadable cause)) := by
  intro s
  have hempty : Keeps {} Ledger.empty := fun _ => rfl
  have hkeeps : s.Keeps (Ledger.empty.runAll calls) := hempty.runAll calls
  refine ⟨hkeeps.refines, ?_, fun id c err t => of_upsert_error, fun id err t => of_delete_error,
    fun id call => get_run_of_not_changes, ?_⟩
  · intro id c e t hupsert
    obtain ⟨rfl, rfl⟩ := of_upsert_ok hupsert
    have hnext : s.nextGeneration id = standing id {} 0 calls + 1 := by
      rw [nextGeneration_eq, revisionNumber_runAll_eq_standing]
      rfl
    exact ⟨(get_written s id id c).trans (if_pos rfl), by rw [generationTag_eq, hnext]⟩
  · intro id cause
    rw [hkeeps.get_eq]
    exact Ledger.get_ne_unreadable _ id cause

end MemoryCatalogs
end FleetCatalog
