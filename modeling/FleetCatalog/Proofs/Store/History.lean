import FleetCatalog.Proofs.Store.Memory

/-! Histories of calls to a store of catalogs, and what a tag that was read is worth after one. The
number of a revision counts the writes since its id was created; deleting the id starts the count
again. A tag that was read is therefore refused after a later write, except where the id has been
deleted and written again just as often as before. -/
namespace FleetCatalog
namespace MemoryCatalogs

inductive Call
  | get (id : String)
  | list
  | upsert (id : String) (c : Catalog)
  | delete (id : String)

def Call.run (s : MemoryCatalogs) : Call → MemoryCatalogs
  | get _ => s
  | list => s
  | upsert id c => (s.upsert id c).2
  | delete id => (s.delete id).2

/-- The store after calls one after another. -/
def Call.runAll (s : MemoryCatalogs) (calls : List Call) : MemoryCatalogs := calls.foldl run s

/-- Whether a call stores something under an id. -/
def Call.stores (id : String) (s : MemoryCatalogs) : Call → Bool
  | upsert j c => decide (j = id) && (s.upsert j c).1.isOk
  | _ => false

/-- Whether a call removes what is stored under an id. -/
def Call.removes (id : String) (s : MemoryCatalogs) : Call → Bool
  | delete j => decide (j = id) && (s.delete j).1.isOk
  | _ => false

/-- How many of the calls, each made to the store as the calls before leave it, are such calls. -/
def tally (p : MemoryCatalogs → Call → Bool) : MemoryCatalogs → List Call → Nat
  | _, [] => 0
  | s, call :: calls => (p s call).toNat + tally p (call.run s) calls

/-- The calls delete an id, and since its last deletion the id is written as often as the tag
counts. -/
def Recreated (s : MemoryCatalogs) (calls : List Call) (id tag : String) : Prop :=
  ∃ before after, calls = before ++ .delete id :: after ∧
    Call.removes id (Call.runAll s before) (.delete id) = true ∧
    tally (Call.removes id) (Call.run (Call.runAll s before) (.delete id)) after = 0 ∧
    generationTag (tally (Call.stores id) (Call.run (Call.runAll s before) (.delete id)) after) =
      tag

variable {s : MemoryCatalogs} {id : String}

@[simp] theorem runAll_cons (s : MemoryCatalogs) (call : Call) (calls : List Call) :
    Call.runAll s (call :: calls) = Call.runAll (call.run s) calls := rfl

theorem runAll_append (s : MemoryCatalogs) (xs ys : List Call) :
    Call.runAll s (xs ++ ys) = Call.runAll (Call.runAll s xs) ys := List.foldl_append

/-- What a call does: it is answered without a change, or a catalog is written, or one is
removed. -/
theorem Call.run_cases (s : MemoryCatalogs) (call : Call) :
    (call.run s = s ∧ ∀ id, stores id s call = false ∧ removes id s call = false) ∨
    (∃ j c, call = .upsert j c ∧ call.run s = s.written j c ∧
      ∀ id, stores id s call = decide (j = id) ∧ removes id s call = false) ∨
    (∃ j, call = .delete j ∧ call.run s = s.erased j ∧
      ∀ id, stores id s call = false ∧ removes id s call = decide (j = id)) := by
  cases call with
  | get j => exact .inl ⟨rfl, fun _ => ⟨rfl, rfl⟩⟩
  | list => exact .inl ⟨rfl, fun _ => ⟨rfl, rfl⟩⟩
  | upsert j c =>
    by_cases htag : s.Current j c.spec.generation
    · have hu := upsert_of_current htag
      refine .inr (.inl ⟨j, c, rfl, congrArg Prod.snd hu, fun id => ⟨?_, rfl⟩⟩)
      rw [stores, hu]
      exact Bool.and_true _
    · have hu := upsert_of_not_current htag
      refine .inl ⟨congrArg Prod.snd hu, fun id => ⟨?_, rfl⟩⟩
      rw [stores, hu]
      exact Bool.and_false _
  | delete j =>
    cases he : s.entries.get? j with
    | none =>
      have hd := delete_of_absent he
      refine .inl ⟨congrArg Prod.snd hd, fun id => ⟨rfl, ?_⟩⟩
      rw [removes, hd]
      exact Bool.and_false _
    | some e =>
      have hd := delete_of_stored he
      refine .inr (.inr ⟨j, rfl, congrArg Prod.snd hd, fun id => ⟨rfl, ?_⟩⟩)
      rw [removes, hd]
      exact Bool.and_true _

theorem Numbered.run (hs : s.Numbered) (call : Call) : (call.run s).Numbered := by
  rcases call.run_cases s with ⟨h, -⟩ | ⟨j, c, -, h, -⟩ | ⟨j, -, h, -⟩
  · rwa [h]
  · exact h ▸ hs.written j c
  · exact h ▸ hs.erased j

theorem Numbered.runAll (hs : s.Numbered) (calls : List Call) : (Call.runAll s calls).Numbered := by
  induction calls generalizing s with
  | nil => exact hs
  | cons call calls ih => exact ih (hs.run call)

theorem revisionNumber_run_of_not_removes {call : Call} (h : call.removes id s = false) :
    (call.run s).revisionNumber id = s.revisionNumber id + (call.stores id s).toNat := by
  rcases call.run_cases s with ⟨hrun, hcall⟩ | ⟨j, c, -, hrun, hcall⟩ | ⟨j, -, hrun, hcall⟩
  · rw [hrun, (hcall id).1]
    rfl
  · rw [hrun, (hcall id).1, revisionNumber_written]
    by_cases hj : j = id
    · simp [hj]
    · simp [hj, Ne.symm hj]
  · rw [(hcall id).2, decide_eq_false_iff_not] at h
    rw [hrun, (hcall id).1, revisionNumber_erased, if_neg (Ne.symm h)]
    rfl

theorem revisionNumber_run_of_removes {call : Call} (h : call.removes id s = true) :
    (call.run s).revisionNumber id = 0 := by
  rcases call.run_cases s with ⟨-, hcall⟩ | ⟨j, c, -, -, hcall⟩ | ⟨j, -, hrun, hcall⟩
  · rw [(hcall id).2] at h
    cases h
  · rw [(hcall id).2] at h
    cases h
  · rw [(hcall id).2, decide_eq_true_iff] at h
    rw [hrun, revisionNumber_erased, if_pos h.symm]

/-- Over calls none of which removes an id its number counts the writes. -/
theorem revisionNumber_runAll (calls : List Call) (h : tally (Call.removes id) s calls = 0) :
    (Call.runAll s calls).revisionNumber id =
      s.revisionNumber id + tally (Call.stores id) s calls := by
  induction calls generalizing s with
  | nil => rfl
  | cons call calls ih =>
    rw [tally] at h
    have hcall : call.removes id s = false := by
      cases hc : call.removes id s with
      | false => rfl
      | true => rw [hc, Bool.toNat_true] at h; omega
    rw [runAll_cons, ih (by omega), revisionNumber_run_of_not_removes hcall, tally]
    omega

/-- Calls that remove an id can be cut after the last one that does. -/
theorem exists_last_removal (calls : List Call) (h : tally (Call.removes id) s calls ≠ 0) :
    ∃ before after, calls = before ++ .delete id :: after ∧
      Call.removes id (Call.runAll s before) (.delete id) = true ∧
      tally (Call.removes id) (Call.run (Call.runAll s before) (.delete id)) after = 0 := by
  induction calls generalizing s with
  | nil => exact absurd rfl h
  | cons call calls ih =>
    -- The first call is the last removal only if none comes after it.
    by_cases hrest : tally (Call.removes id) (call.run s) calls = 0
    · have hcall : call.removes id s = true := by
        cases hc : call.removes id s with
        | true => rfl
        | false => rw [tally, hc, hrest] at h; exact absurd rfl h
      have hdelete : call = .delete id := by
        rcases call.run_cases s with ⟨-, hcases⟩ | ⟨j, c, -, -, hcases⟩ | ⟨j, hj, -, hcases⟩
        · rw [(hcases id).2] at hcall
          cases hcall
        · rw [(hcases id).2] at hcall
          cases hcall
        · rw [(hcases id).2, decide_eq_true_iff] at hcall
          rw [hj, hcall]
      subst hdelete
      exact ⟨[], calls, rfl, hcall, hrest⟩
    · obtain ⟨before, after, rfl, hremoves, hnone⟩ := ih hrest
      exact ⟨call :: before, after, rfl, hremoves, hnone⟩

theorem revisionNumber_of_last_removal {before after : List Call}
    (hremoves : Call.removes id (Call.runAll s before) (.delete id) = true)
    (hnone : tally (Call.removes id) (Call.run (Call.runAll s before) (.delete id)) after = 0) :
    (Call.runAll s (before ++ .delete id :: after)).revisionNumber id =
      tally (Call.stores id) (Call.run (Call.runAll s before) (.delete id)) after := by
  rw [runAll_append, runAll_cons, revisionNumber_runAll after hnone,
    revisionNumber_run_of_removes hremoves, Nat.zero_add]

/-- After writes or removals of an id its number is an earlier one just if the id has been removed
and written that often again. -/
theorem revisionNumber_eq_iff_recreated {n : Nat} (calls : List Call)
    (hn : s.revisionNumber id = n)
    (hwrite : 0 < tally (Call.stores id) s calls + tally (Call.removes id) s calls) :
    (Call.runAll s calls).revisionNumber id = n ↔ Recreated s calls id (generationTag n) := by
  constructor
  · intro h
    by_cases hremoved : tally (Call.removes id) s calls = 0
    · rw [revisionNumber_runAll calls hremoved] at h
      omega
    · obtain ⟨before, after, rfl, hremoves, hnone⟩ := exists_last_removal calls hremoved
      rw [revisionNumber_of_last_removal hremoves hnone] at h
      exact ⟨before, after, rfl, hremoves, hnone, congrArg generationTag h⟩
  · rintro ⟨before, after, rfl, hremoves, hnone, htag⟩
    rw [revisionNumber_of_last_removal hremoves hnone]
    exact generationTag_injective htag

/-- A catalog is read, and its id is written or deleted afterwards. An upsert at the tag that was
read is refused, and changes nothing, just if the id has not been recreated at that tag. Where it
has, the upsert goes through and the writes in between are lost. -/
theorem stale_upsert_refused_iff (earlier later : List Call) {read : Catalog} (c : Catalog)
    (hread : (Call.runAll {} earlier).get id = .ok read)
    (hwrite : 0 < tally (Call.stores id) (Call.runAll {} earlier) later +
      tally (Call.removes id) (Call.runAll {} earlier) later)
    (hstale : c.spec.generation = read.spec.generation) :
    let s := Call.runAll (Call.runAll {} earlier) later
    (s.upsert id c = (.error (.conflict .catalog id read.spec.generation (s.tag id)), s) ↔
      ¬ Recreated (Call.runAll {} earlier) later id read.spec.generation) ∧
    (s.upsert id c = (.ok (generationTag (s.nextGeneration id)), s.written id c) ↔
      Recreated (Call.runAll {} earlier) later id read.spec.generation) := by
  intro s
  -- The tag that was read stands for a number, and it is current only while the number is that one.
  obtain ⟨hpos, hgen⟩ := (numbered_empty.runAll earlier).generation_of_get hread
  rw [hgen, ← revisionNumber_eq_iff_recreated later rfl hwrite, ← current_iff hpos, ← hgen,
    ← hstale]
  by_cases htag : s.Current id c.spec.generation
  · rw [upsert_of_current htag]
    simp [s, htag]
  · rw [upsert_of_not_current htag]
    simp [s, htag]

/-- A catalog is read, deleted and written anew, and the one that was read is then written back. -/
theorem stale_upsert_accepted :
    ¬ ∀ (earlier later : List Call) (id : String) (read c : Catalog),
      (Call.runAll {} earlier).get id = .ok read →
      0 < tally (Call.stores id) (Call.runAll {} earlier) later +
        tally (Call.removes id) (Call.runAll {} earlier) later →
      c.spec.generation = read.spec.generation →
      ∃ tag, (Call.runAll (Call.runAll {} earlier) later).upsert id c =
        (.error (.conflict .catalog id read.spec.generation tag),
          Call.runAll (Call.runAll {} earlier) later) := by
  intro h
  have hread : (Call.runAll {} [.upsert "c1" ⟨"c1", {}⟩]).get "c1" =
      .ok ⟨"c1", { generation := generationTag 1 }⟩ := rfl
  obtain ⟨tag, htag⟩ := h [.upsert "c1" ⟨"c1", {}⟩]
    [.delete "c1", .upsert "c1" ⟨"c1", { kind := "new" }⟩] "c1" _ _ hread (by decide +kernel) rfl
  have hok : ((Call.runAll (Call.runAll {} [.upsert "c1" ⟨"c1", {}⟩])
      [.delete "c1", .upsert "c1" ⟨"c1", { kind := "new" }⟩]).upsert "c1"
      ⟨"c1", { generation := generationTag 1 }⟩).1.isOk = true := by decide +kernel
  rw [htag] at hok
  cases hok

theorem stale_upsert_refused_after_update :
    let s := Call.runAll {} [.upsert "c1" ⟨"c1", {}⟩, .upsert "c1" ⟨"c1", { kind := "new" }⟩]
    s.upsert "c1" ⟨"c1", { generation := generationTag 1 }⟩ =
      (.error (.conflict .catalog "c1" (generationTag 1) (s.tag "c1")), s) := by
  intro s
  have hread : (Call.runAll {} [.upsert "c1" ⟨"c1", {}⟩]).get "c1" =
      .ok ⟨"c1", { generation := generationTag 1 }⟩ := rfl
  refine (stale_upsert_refused_iff [.upsert "c1" ⟨"c1", {}⟩]
    [.upsert "c1" ⟨"c1", { kind := "new" }⟩] ⟨"c1", { generation := generationTag 1 }⟩ hread
    (by decide +kernel) rfl).1.mpr ?_
  rintro ⟨before, after, hcalls, -⟩
  have hdelete : Call.delete "c1" ∈ [Call.upsert "c1" ⟨"c1", { kind := "new" }⟩] := by
    rw [hcalls]
    simp
  simp at hdelete

end MemoryCatalogs
end FleetCatalog
