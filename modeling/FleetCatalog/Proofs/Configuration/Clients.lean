import Mathlib.Logic.Function.Basic
import FleetCatalog.Configuration.Editing
import FleetCatalog.Store.Memory

/-! Clients that work on the catalogs of one store at the same time, a step at a time. A task is done
in two steps at most, and nobody waits for anybody else: a client that nobody comes between does its
task as in one go, and one that is come between is finished as soon. -/
namespace FleetCatalog.Configuration

/-- What a client does to one catalog. -/
inductive Task
  | edit (object : String) (e : Edit)
  | removeObject (object : String)

/-- A task done in one go. -/
def Task.run (s : MemoryCatalogs) : Task → Except Error Unit × MemoryCatalogs
  | edit object e => Configuration.edit s object e
  | removeObject object => Configuration.removeObject s object

/-- The store after a task, if the task succeeds. -/
def Task.perform (s : MemoryCatalogs) (t : Task) : Except Error MemoryCatalogs :=
  (t.run s).1.map fun _ => (t.run s).2

/-- How far a client has come with its task. -/
inductive Progress
  | waiting
  /-- It has changed a copy that is still to be written. -/
  | holding (copy : Catalog)
  | finished (answer : Except Error Unit)

/-- How far a client can be after a number of steps of its own. Only an edit holds a copy, and only
between its first step and its second one. -/
inductive Progress.After (t : Task) : Nat → Progress → Prop
  | waiting : After t 0 .waiting
  | holding {object : String} {e : Edit} (copy : Catalog) (edits : t = .edit object e) :
    After t 1 (.holding copy)
  | finished (n : Nat) (answer : Except Error Unit) : After t (n + 1) (.finished answer)

/-- The task is still to be finished. -/
def Progress.Live (p : Progress) : Prop := ∀ answer, p ≠ .finished answer

theorem Progress.live_waiting : Live .waiting := by rintro answer ⟨⟩

theorem Progress.live_holding (copy : Catalog) : Live (.holding copy) := by rintro answer ⟨⟩

/-- A store and the clients at work on it. -/
structure Shared (ι : Type) where
  store : MemoryCatalogs
  progress : ι → Progress := fun _ => .waiting
  /-- The clients whose write or removal has been accepted, in the order in which that was done. -/
  order : List ι := []

namespace Shared
variable {ι : Type} [DecidableEq ι]

/-- A client comes further without a change to the store. -/
def advance (w : Shared ι) (i : ι) (p : Progress) : Shared ι :=
  { w with progress := Function.update w.progress i p }

theorem progress_advance (w : Shared ι) (i j : ι) (p : Progress) :
    (w.advance i p).progress j = if j = i then p else w.progress j := Function.update_apply _ _ _ _

/-- The last step of a client, with the answer to it and the store after it. -/
def conclude (w : Shared ι) (i : ι) : Except Error Unit × MemoryCatalogs → Shared ι
  | (.ok (), s) =>
    ⟨s, Function.update w.progress i (.finished (.ok ())), w.order ++ [i]⟩
  | (.error err, s) => ⟨s, Function.update w.progress i (.finished (.error err)), w.order⟩

/-- The next step of a client. -/
def step (tasks : ι → Task) (w : Shared ι) (i : ι) : Shared ι :=
  match tasks i, w.progress i with
  | .edit object e, .waiting =>
    match prepare w.store object e with
    | .ok copy => w.advance i (.holding copy)
    | .error err => w.advance i (.finished (.error err))
  | .edit object _, .holding copy => w.conclude i (commit w.store object copy)
  | .removeObject object, .waiting => w.conclude i (removeObject w.store object)
  | _, _ => w

def run (tasks : ι → Task) (w : Shared ι) (schedule : List ι) : Shared ι :=
  schedule.foldl (step tasks) w

section Steps
variable {tasks : ι → Task} {w : Shared ι} {i j : ι} {object : String} {e : Edit} {copy : Catalog}

theorem progress_conclude (w : Shared ι) (i j : ι) (x : Except Error Unit × MemoryCatalogs) :
    (w.conclude i x).progress j = if j = i then .finished x.1 else w.progress j := by
  obtain ⟨answer | answer, s⟩ := x <;> exact Function.update_apply _ _ _ _

theorem store_conclude (w : Shared ι) (i : ι) (x : Except Error Unit × MemoryCatalogs) :
    (w.conclude i x).store = x.2 := by
  obtain ⟨answer | answer, s⟩ := x <;> rfl

theorem step_of_fetched (htask : tasks i = .edit object e) (hw : w.progress i = .waiting)
    (h : prepare w.store object e = .ok copy) : w.step tasks i = w.advance i (.holding copy) := by
  simp only [step, htask, hw, h]

theorem step_of_not_fetched {err : Error} (htask : tasks i = .edit object e)
    (hw : w.progress i = .waiting) (h : prepare w.store object e = .error err) :
    w.step tasks i = w.advance i (.finished (.error err)) := by
  simp only [step, htask, hw, h]

theorem step_of_holding (htask : tasks i = .edit object e) (hw : w.progress i = .holding copy) :
    w.step tasks i = w.conclude i (commit w.store object copy) := by
  simp only [step, htask, hw]

theorem step_of_removal (htask : tasks i = .removeObject object) (hw : w.progress i = .waiting) :
    w.step tasks i = w.conclude i (removeObject w.store object) := by
  simp only [step, htask, hw]

theorem step_of_finished {answer : Except Error Unit} (hw : w.progress i = .finished answer) :
    w.step tasks i = w := by
  cases htask : tasks i <;> simp only [step, htask, hw]

/-- A client gets no further by the steps of others. -/
theorem progress_step_of_ne (w : Shared ι) (h : j ≠ i) :
    (w.step tasks i).progress j = w.progress j := by
  unfold step
  split
  · split <;> rw [progress_advance, if_neg h]
  · rw [progress_conclude, if_neg h]
  · rw [progress_conclude, if_neg h]
  · rfl

theorem after_step {n : Nat} (h : (w.progress i).After (tasks i) n) :
    ((w.step tasks i).progress i).After (tasks i) (n + 1) := by
  generalize hw : w.progress i = p at h
  cases h with
  | waiting =>
    cases htask : tasks i with
    | edit object e =>
      cases hprepare : prepare w.store object e with
      | ok copy =>
        rw [step_of_fetched htask hw hprepare, progress_advance, if_pos rfl]
        exact .holding copy rfl
      | error err =>
        rw [step_of_not_fetched htask hw hprepare, progress_advance, if_pos rfl]
        exact .finished 0 _
    | removeObject object =>
      rw [step_of_removal htask hw, progress_conclude, if_pos rfl]
      exact .finished 0 _
  | holding copy htask =>
    rw [step_of_holding htask hw, progress_conclude, if_pos rfl]
    exact .finished 1 _
  | finished n answer =>
    rw [step_of_finished hw, hw]
    exact .finished (n + 1) answer

theorem after_run {n : Nat} (h : (w.progress i).After (tasks i) n) (schedule : List ι) :
    ((w.run tasks schedule).progress i).After (tasks i) (n + schedule.count i) := by
  induction schedule generalizing w n with
  | nil => exact h
  | cons j schedule ih =>
    by_cases hj : j = i
    · subst hj
      rw [List.count_cons_self, Nat.add_comm _ 1, ← Nat.add_assoc]
      exact ih (after_step h)
    · rw [List.count_cons_of_ne hj]
      refine ih ?_
      rwa [progress_step_of_ne w (Ne.symm hj)]

/-- Whoever has had two steps is finished, whatever the others have done: no client waits for another
one. -/
theorem finished_of_two_steps (hw : w.progress i = .waiting) {schedule : List ι}
    (h : 2 ≤ schedule.count i) :
    ∃ answer, (w.run tasks schedule).progress i = .finished answer := by
  have hstart : (w.progress i).After (tasks i) 0 := hw ▸ .waiting
  have hrun := after_run hstart schedule
  generalize (w.run tasks schedule).progress i = p at hrun ⊢
  generalize hn : 0 + schedule.count i = n at hrun
  cases hrun with
  | waiting => omega
  | holding => omega
  | finished _ answer => exact ⟨answer, rfl⟩

/-- A client that nobody comes between does its task as it is done in one go. -/
theorem run_undisturbed (hw : w.progress i = .waiting) :
    (w.run tasks [i, i]).progress i = .finished ((tasks i).run w.store).1 ∧
      (w.run tasks [i, i]).store = ((tasks i).run w.store).2 := by
  have hrun : w.run tasks [i, i] = (w.step tasks i).step tasks i := rfl
  cases htask : tasks i with
  | edit object e =>
    cases hprepare : prepare w.store object e with
    | ok copy =>
      have hheld : (w.advance i (.holding copy)).progress i = .holding copy := by
        rw [progress_advance, if_pos rfl]
      rw [hrun, step_of_fetched htask hw hprepare, step_of_holding htask hheld, progress_conclude,
        if_pos rfl, store_conclude, Task.run, Configuration.edit, hprepare]
      exact ⟨rfl, rfl⟩
    | error err =>
      have hdone : (w.advance i (.finished (.error err))).progress i = .finished (.error err) := by
        rw [progress_advance, if_pos rfl]
      rw [hrun, step_of_not_fetched htask hw hprepare, step_of_finished hdone, Task.run,
        Configuration.edit, hprepare]
      exact ⟨hdone, rfl⟩
  | removeObject object =>
    have hdone : (w.conclude i (removeObject w.store object)).progress i =
        .finished (removeObject w.store object).1 := by
      rw [progress_conclude, if_pos rfl]
    rw [hrun, step_of_removal htask hw, step_of_finished hdone]
    exact ⟨hdone, store_conclude w i _⟩

end Steps

end Shared
end FleetCatalog.Configuration
