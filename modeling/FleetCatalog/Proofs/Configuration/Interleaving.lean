import Mathlib.Data.List.Nodup
import FleetCatalog.Proofs.Catalog.Operations
import FleetCatalog.Proofs.Configuration.Clients
import FleetCatalog.Proofs.Store.Ledger

/-! Clients that edit the catalogs of one store at the same time. An edit fetches a copy and writes it
back later, and steps of other clients may come in between. Nobody creates catalogs meanwhile, so a
copy whose tag is still current is the one that would be fetched now, and writing it is as good as
making the whole edit in one go. -/
namespace FleetCatalog.Configuration
open MemoryCatalogs

/-- A failure of one of the two kinds that clients have to expect: something is not there, or
another client was faster. -/
def Denied (err : Error) : Prop :=
  err.kind = .notFound ∨ ∃ object expected actual,
    err = .store (.conflict .catalog object expected actual)

section Copies
variable {s : MemoryCatalogs} {object j : String} {e : Edit} {c copy : Catalog} {m : Ledger}

/-- A copy of an object is the one that would be fetched now, or it has been overtaken: its tag is
that of an earlier revision, or the object is gone. -/
def Fetched (s : MemoryCatalogs) (object : String) (e : Edit) (copy : Catalog) : Prop :=
  ∃ n, 0 < n ∧ copy.spec.generation = generationTag n ∧
    (prepare s object e = .ok copy ∨ n < s.revisionNumber object ∨ s.revisionNumber object = 0)

theorem prepare_congr {t : MemoryCatalogs} (h : t.get object = s.get object) :
    prepare t object e = prepare s object e := by
  unfold prepare
  rw [show CatalogStore.get t object = CatalogStore.get s object from h]

theorem generation_of_prepare (hs : s.Numbered) (h : prepare s object e = .ok copy) :
    0 < s.revisionNumber object ∧ copy.spec.generation = generationTag (s.revisionNumber object) := by
  obtain ⟨c, properties, hget, -, rfl⟩ := prepare_eq_ok.1 h
  have hread := hs.generation_of_get hget
  exact hread

theorem fetched_of_prepare (hs : s.Numbered) (h : prepare s object e = .ok copy) :
    Fetched s object e copy :=
  ⟨_, (generation_of_prepare hs h).1, (generation_of_prepare hs h).2, .inl h⟩

theorem Fetched.prepare_eq (h : Fetched s object e copy)
    (hcurrent : s.Current object copy.spec.generation) : prepare s object e = .ok copy := by
  obtain ⟨n, hn, hgen, hcopy⟩ := h
  rw [hgen, current_iff hn] at hcurrent
  rcases hcopy with hprepare | hlater | hgone
  · exact hprepare
  · omega
  · omega

/-- No copy becomes current again, for only what is stored is written. -/
theorem Fetched.written (hs : s.Numbered) (h : Fetched s object e copy)
    (hstored : 0 < s.revisionNumber j) (c : Catalog) :
    Fetched (s.written j c) object e copy := by
  obtain ⟨n, hn, hgen, hcopy⟩ := h
  refine ⟨n, hn, hgen, ?_⟩
  rw [revisionNumber_written]
  by_cases hj : object = j
  · subst hj
    rw [if_pos rfl]
    rcases hcopy with hprepare | hlater | hgone
    · have hnow : n = s.revisionNumber object :=
        generationTag_injective (hgen.symm.trans (generation_of_prepare hs hprepare).2)
      exact .inr (.inl (by omega))
    · exact .inr (.inl (by omega))
    · omega
  · rw [if_neg hj, prepare_congr ((get_written s j object c).trans (if_neg hj))]
    exact hcopy

theorem Fetched.erased (h : Fetched s object e copy) (j : String) :
    Fetched (s.erased j) object e copy := by
  obtain ⟨n, hn, hgen, hcopy⟩ := h
  refine ⟨n, hn, hgen, ?_⟩
  rw [revisionNumber_erased]
  by_cases hj : object = j
  · rw [if_pos hj]
    exact .inr (.inr rfl)
  · rw [if_neg hj, prepare_congr ((get_erased s j object).trans (if_neg hj))]
    exact hcopy

theorem denied_of_prepare_error {err : Error} (hs : s.Keeps m)
    (h : prepare s object e = .error err) : Denied err := by
  have hget := hs.get_eq object
  unfold prepare at h
  rw [show CatalogStore.get s object = m.get object from hget] at h
  unfold Ledger.get at h
  cases hm : m object with
  | none =>
    rw [hm] at h
    cases h
    exact .inl rfl
  | some x =>
    rw [hm] at h
    rcases Except.bind_eq_error.1 h with h | ⟨c, -, h⟩
    · cases h
    · rcases Except.bind_eq_error.1 h with h | ⟨properties, -, h⟩
      · obtain ⟨field, rfl⟩ := Edit.apply_eq_error h
        exact .inl rfl
      · cases h

end Copies

namespace Shared
variable {ι : Type} [DecidableEq ι] {tasks : ι → Task} {w : Shared ι} {start : MemoryCatalogs}

/-- What every step leaves as it was: the store can be read, and the copies that clients hold are
fetched from it. -/
structure Sound (tasks : ι → Task) (w : Shared ι) : Prop where
  numbered : w.store.Numbered
  readable : ∃ m, w.store.Keeps m
  fetched : ∀ i object e copy, tasks i = .edit object e → w.progress i = .holding copy →
    Fetched w.store object e copy

/-- All that one step of a client can do. -/
inductive Move (tasks : ι → Task) (w : Shared ι) (i : ι) : Shared ι → Prop
  | idle : Move tasks w i w
  | fetch {object e copy} (htask : tasks i = .edit object e) (hlive : (w.progress i).Live)
    (hcopy : Fetched w.store object e copy) : Move tasks w i (w.advance i (.holding copy))
  | fail {err} (hlive : (w.progress i).Live) (herr : Denied err) :
    Move tasks w i (w.advance i (.finished (.error err)))
  | write {object copy} (hlive : (w.progress i).Live)
    (hstored : 0 < w.store.revisionNumber object)
    (hrun : (tasks i).run w.store = (.ok (), w.store.written object copy)) :
    Move tasks w i (w.conclude i (.ok (), w.store.written object copy))
  | delete {object} (hlive : (w.progress i).Live)
    (hrun : (tasks i).run w.store = (.ok (), w.store.erased object)) :
    Move tasks w i (w.conclude i (.ok (), w.store.erased object))

theorem Sound.move (h : Sound tasks w) (i : ι) : Move tasks w i (w.step tasks i) := by
  cases hprogress : w.progress i with
  | waiting =>
    have hlive : (w.progress i).Live := hprogress ▸ Progress.live_waiting
    cases htask : tasks i with
    | edit object e =>
      cases hprepare : prepare w.store object e with
      | ok copy =>
        rw [step_of_fetched htask hprogress hprepare]
        exact .fetch htask hlive (fetched_of_prepare h.numbered hprepare)
      | error err =>
        obtain ⟨m, hm⟩ := h.readable
        rw [step_of_not_fetched htask hprogress hprepare]
        exact .fail hlive (denied_of_prepare_error hm hprepare)
    | removeObject object =>
      rw [step_of_removal htask hprogress]
      cases he : w.store.entries.get? object with
      | none =>
        rw [removeObject_of_absent he]
        exact .fail hlive (.inl rfl)
      | some entry =>
        rw [removeObject_of_stored he]
        exact .delete hlive (by rw [htask]; exact removeObject_of_stored he)
  | holding copy =>
    have hlive : (w.progress i).Live := hprogress ▸ Progress.live_holding copy
    cases htask : tasks i with
    | edit object e =>
      rw [step_of_holding htask hprogress]
      by_cases hcurrent : w.store.Current object copy.spec.generation
      · have hprepare := (h.fetched i object e copy htask hprogress).prepare_eq hcurrent
        have hcommit := commit_of_current hcurrent
        have hrun : (tasks i).run w.store = (.ok (), w.store.written object copy) := by
          rw [htask, Task.run, Configuration.edit, hprepare]
          exact hcommit
        rw [hcommit]
        exact .write hlive (generation_of_prepare h.numbered hprepare).1 hrun
      · rw [commit_of_not_current hcurrent]
        exact .fail hlive (.inr ⟨object, _, _, rfl⟩)
    | removeObject object =>
      have hidle : w.step tasks i = w := by simp only [step, htask, hprogress]
      rw [hidle]
      exact .idle
  | finished answer =>
    rw [step_of_finished hprogress]
    exact .idle

theorem Sound.fetched_advance {i j : ι} {p : Progress} {object : String} {e : Edit} {copy : Catalog}
    (h : Sound tasks w)
    (hp : p = .holding copy → tasks i = .edit object e → Fetched w.store object e copy)
    (htask : tasks j = .edit object e) (hj : (w.advance i p).progress j = .holding copy) :
    Fetched w.store object e copy := by
  rw [progress_advance] at hj
  split at hj
  · next hji => exact hp hj (hji ▸ htask)
  · exact h.fetched j object e copy htask hj

theorem Sound.step (h : Sound tasks w) (i : ι) : Sound tasks (w.step tasks i) := by
  obtain ⟨m, hm⟩ := h.readable
  have hmove := h.move i
  generalize w.step tasks i = v at hmove ⊢
  cases hmove with
  | idle => exact h
  | @fetch object e copy htask hlive hcopy =>
    refine ⟨h.numbered, h.readable, fun j object' e' copy' => h.fetched_advance ?_⟩
    rintro ⟨⟩ htask'
    cases htask.symm.trans htask'
    exact hcopy
  | fail hlive herr =>
    exact ⟨h.numbered, h.readable, fun j object e copy => h.fetched_advance (by rintro ⟨⟩)⟩
  | @write object copy hlive hstored hrun =>
    refine ⟨h.numbered.written _ _, ⟨_, hm.written _ _⟩, fun j object' e' copy' htask hj => ?_⟩
    exact (h.fetched_advance (by rintro ⟨⟩) htask hj).written h.numbered hstored copy
  | @delete object hlive hrun =>
    refine ⟨h.numbered.erased _, ⟨_, hm.erased _⟩, fun j object' e' copy' htask hj => ?_⟩
    exact (h.fetched_advance (by rintro ⟨⟩) htask hj).erased object

/-- The clients that have succeeded could have done their tasks one after another. -/
structure Serial (tasks : ι → Task) (start : MemoryCatalogs) (w : Shared ι) : Prop where
  performed : w.order.foldlM (fun s i => (tasks i).perform s) start = .ok w.store
  nodup : w.order.Nodup
  mem_order : ∀ i, i ∈ w.order ↔ w.progress i = .finished (.ok ())
  denied : ∀ i err, w.progress i = .finished (.error err) → Denied err

theorem Serial.denied_advance {i : ι} {p : Progress} (h : Serial tasks start w)
    (hdenied : ∀ err, p = .finished (.error err) → Denied err) {j : ι} {err : Error}
    (hj : (w.advance i p).progress j = .finished (.error err)) : Denied err := by
  rw [progress_advance] at hj
  split at hj
  · exact hdenied err hj
  · exact h.denied j err hj

theorem Serial.advance {i : ι} {p : Progress} (h : Serial tasks start w)
    (hlive : (w.progress i).Live) (hok : p ≠ .finished (.ok ()))
    (hdenied : ∀ err, p = .finished (.error err) → Denied err) :
    Serial tasks start (w.advance i p) := by
  refine ⟨h.performed, h.nodup, fun j => ?_, fun j err => h.denied_advance hdenied⟩
  show j ∈ w.order ↔ _
  rw [h.mem_order, progress_advance]
  by_cases hj : j = i
  · rw [if_pos hj, hj]
    exact iff_of_false (hlive _) hok
  · rw [if_neg hj]

theorem Serial.conclude {i : ι} {s : MemoryCatalogs} (h : Serial tasks start w)
    (hlive : (w.progress i).Live) (hrun : (tasks i).run w.store = (.ok (), s)) :
    Serial tasks start (w.conclude i (.ok (), s)) := by
  have hfresh : i ∉ w.order := fun hi => hlive _ ((h.mem_order i).1 hi)
  have hperform : (tasks i).perform w.store = .ok s := by
    rw [Task.perform, hrun]
    rfl
  refine ⟨?_, ?_, fun j => ?_, fun j err => ?_⟩
  · show (w.order ++ [i]).foldlM (fun s i => (tasks i).perform s) start = .ok s
    rw [List.foldlM_append, h.performed]
    show [i].foldlM (fun s i => (tasks i).perform s) w.store = .ok s
    rw [List.foldlM_cons, hperform]
    rfl
  · exact List.nodup_append_comm.2 (List.nodup_cons.2 ⟨hfresh, h.nodup⟩)
  · show j ∈ w.order ++ [i] ↔ (w.advance i (.finished (.ok ()))).progress j = _
    rw [List.mem_append, List.mem_singleton, h.mem_order, progress_advance]
    by_cases hj : j = i
    · rw [if_pos hj]
      exact iff_of_true (.inr hj) rfl
    · rw [if_neg hj, or_iff_left hj]
  · exact h.denied_advance (by rintro err ⟨⟩)

theorem Serial.step (hsound : Sound tasks w) (h : Serial tasks start w) (i : ι) :
    Serial tasks start (w.step tasks i) := by
  have hmove := hsound.move i
  generalize w.step tasks i = v at hmove ⊢
  cases hmove with
  | idle => exact h
  | fetch htask hlive hcopy => exact h.advance hlive (by rintro ⟨⟩) (by rintro err ⟨⟩)
  | fail hlive herr =>
    exact h.advance hlive (by rintro ⟨⟩) (by rintro err ⟨⟩; exact herr)
  | write hlive hstored hrun => exact h.conclude hlive hrun
  | delete hlive hrun => exact h.conclude hlive hrun

theorem Sound.run (h : Sound tasks w) (schedule : List ι) : Sound tasks (w.run tasks schedule) := by
  induction schedule generalizing w with
  | nil => exact h
  | cons i schedule ih => exact ih (h.step i)

theorem Serial.run (hsound : Sound tasks w) (h : Serial tasks start w) (schedule : List ι) :
    Serial tasks start (w.run tasks schedule) := by
  induction schedule generalizing w with
  | nil => exact h
  | cons i schedule ih => exact ih (hsound.step i) (h.step hsound i)

/-- A step that changes the store is the last one of a client that succeeds. -/
theorem Sound.store_step (h : Sound tasks w) (i : ι) :
    (w.step tasks i).store = w.store ∨ i ∈ (w.step tasks i).order := by
  have hmove := h.move i
  generalize w.step tasks i = v at hmove ⊢
  cases hmove with
  | idle => exact .inl rfl
  | fetch htask hlive hcopy => exact .inl rfl
  | fail hlive herr => exact .inl rfl
  | write hlive hstored hrun => exact .inr List.mem_concat_self
  | delete hlive hrun => exact .inr List.mem_concat_self

theorem Sound.order_prefix_run (h : Sound tasks w) (schedule : List ι) :
    w.order <+: (w.run tasks schedule).order := by
  induction schedule generalizing w with
  | nil => exact List.prefix_rfl
  | cons i schedule ih =>
    refine List.IsPrefix.trans ?_ (ih (h.step i))
    have hmove := h.move i
    generalize w.step tasks i = v at hmove ⊢
    cases hmove with
    | idle => exact List.prefix_rfl
    | fetch htask hlive hcopy => exact List.prefix_rfl
    | fail hlive herr => exact List.prefix_rfl
    | write hlive hstored hrun => exact List.prefix_append _ _
    | delete hlive hrun => exact List.prefix_append _ _

/-- Clients edit and remove catalogs in any interleaving of their steps, on a store in any state that
calls can bring about. The store is then the one that the tasks that have succeeded leave if they are
done one after another, in the order of their writes and removals; each of them succeeds there as
well. The others have failed for one of the two expected reasons or are still to be finished, and no
step of theirs has changed the store. -/
theorem serializable (tasks : ι → Task) (calls : List MemoryCatalogs.Call) (schedule : List ι) :
    let start : MemoryCatalogs := Call.runAll {} calls
    let w := Shared.run tasks ⟨start, fun _ => .waiting, []⟩ schedule
    w.order.foldlM (fun s i => (tasks i).perform s) start = .ok w.store ∧
    w.order.Nodup ∧ (∀ i, i ∈ w.order ↔ w.progress i = .finished (.ok ())) ∧
    (∀ i err, w.progress i = .finished (.error err) → Denied err) ∧
    ∀ before i after, schedule = before ++ i :: after → w.progress i ≠ .finished (.ok ()) →
      (Shared.run tasks ⟨start, fun _ => .waiting, []⟩ (before ++ [i])).store =
        (Shared.run tasks ⟨start, fun _ => .waiting, []⟩ before).store := by
  intro start w
  have hkeeps : Keeps {} Ledger.empty := fun _ => rfl
  have hsound : Sound tasks ⟨start, fun _ => .waiting, []⟩ :=
    ⟨numbered_empty.runAll calls, ⟨_, hkeeps.runAll calls⟩, by rintro i object e copy - ⟨⟩⟩
  have hserial : Serial tasks start ⟨start, fun _ => .waiting, []⟩ :=
    ⟨rfl, List.nodup_nil, fun i => iff_of_false List.not_mem_nil (by rintro ⟨⟩), by rintro i err ⟨⟩⟩
  have hw : Serial tasks start w := hserial.run hsound schedule
  refine ⟨hw.performed, hw.nodup, hw.mem_order, hw.denied, ?_⟩
  rintro before i after rfl hfailed
  have hbefore := hsound.run before
  have hstep : Shared.run tasks ⟨start, fun _ => .waiting, []⟩ (before ++ [i]) =
      (Shared.run tasks ⟨start, fun _ => .waiting, []⟩ before).step tasks i := by
    rw [Shared.run, List.foldl_append]
    rfl
  have hrest : w = Shared.run tasks
      ((Shared.run tasks ⟨start, fun _ => .waiting, []⟩ before).step tasks i) after := by
    show Shared.run tasks _ (before ++ i :: after) = _
    rw [Shared.run, List.foldl_append]
    rfl
  rw [hstep]
  refine (hbefore.store_step i).resolve_right fun hi => ?_
  have hmem := ((hbefore.step i).order_prefix_run after).subset hi
  rw [← hrest] at hmem
  exact hfailed ((hw.mem_order i).1 hmem)

/-- Two clients fetch the same catalog before either of them writes. The first write is accepted and is
as good as the whole edit; the second one is refused and changes nothing. -/
theorem serializable_overtaken :
    let tasks : Fin 2 → Task := fun i => .edit "c" (.set "k" (.bool (i = 0)))
    let calls : List MemoryCatalogs.Call := [.upsert "c" ⟨"c", {}⟩]
    let start : Shared (Fin 2) := ⟨Call.runAll {} calls, fun _ => .waiting, []⟩
    let w := start.run tasks [0, 1, 0, 1]
    w.order = [0] ∧ w.store ≠ start.store ∧ (tasks 0).perform start.store = .ok w.store ∧
    (∃ err, w.progress 1 = .finished (.error err) ∧ Denied err) ∧
    w.store = (start.run tasks [0, 1, 0]).store := by
  intro tasks calls start w
  have horder : w.order = [0] := by decide +kernel
  have hchanged : w.store ≠ start.store := by decide +kernel
  obtain ⟨hperformed, -, hmem, hdenied, hunchanged⟩ := serializable tasks calls [0, 1, 0, 1]
  have hfailed : w.progress 1 ≠ .finished (.ok ()) := fun h => by
    have hlast : (1 : Fin 2) ∈ w.order := (hmem 1).2 h
    rw [horder] at hlast
    cases List.mem_singleton.1 hlast
  obtain ⟨answer | answer, hanswer⟩ : ∃ answer, w.progress 1 = .finished answer :=
    finished_of_two_steps rfl (by decide)
  · refine ⟨horder, hchanged, ?_, ⟨_, hanswer, hdenied 1 _ hanswer⟩,
      hunchanged [0, 1, 0] 1 [] rfl hfailed⟩
    change w.order.foldlM (fun s i => (tasks i).perform s) start.store = .ok w.store at hperformed
    rw [horder, List.foldlM_cons] at hperformed
    obtain ⟨s, hs, hdone⟩ := Except.bind_eq_ok.1 hperformed
    cases hdone
    exact hs
  · exact absurd hanswer hfailed

end Shared
end FleetCatalog.Configuration
