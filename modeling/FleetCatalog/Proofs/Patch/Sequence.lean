import FleetCatalog.Patch.Sequence

/-! What patching a list leaves. Only the first entry that is addressed is touched; where none is,
adding appends and removing changes nothing. -/
namespace FleetCatalog.Patch

/-- The first entry of a list that satisfies a test, between what stands before and after it. -/
structure First {α : Type} (p : α → Bool) (l pre : List α) (a : α) (post : List α) : Prop where
  split : l = pre ++ a :: post
  holds : p a = true
  before : ∀ b ∈ pre, p b = false

/-- What an action puts in the place of the entry that it addresses. -/
def Action.entries {α : Type} (a : α) : Action → List α
  | add => [a]
  | remove => []

variable {α : Type} {p : α → Bool} {l pre post : List α} {a : α}

theorem First.mem (h : First p l pre a post) : a ∈ l := by
  rw [h.split]
  exact List.mem_append_right _ List.mem_cons_self

theorem none_or_exists_first (p : α → Bool) (l : List α) :
    (∀ b ∈ l, p b = false) ∨ ∃ pre a post, First p l pre a post := by
  cases hfind : l.find? p with
  | none =>
    left
    intro b hb
    exact Bool.eq_false_iff.2 (List.find?_eq_none.1 hfind b hb)
  | some a =>
    right
    obtain ⟨ha, pre, post, hsplit, hpre⟩ := List.find?_eq_some_iff_append.1 hfind
    refine ⟨pre, a, post, hsplit, ha, ?_⟩
    intro b hb
    exact Bool.eq_false_iff.2 (by simpa using hpre b hb)

theorem replaceFirst_of_first (h : First p l pre a post) (new : List α) :
    replaceFirst p new l = some (pre ++ (new ++ post)) := by
  obtain ⟨rfl, ha, hpre⟩ := h
  induction pre with
  | nil => rw [List.nil_append, replaceFirst, if_pos ha, List.nil_append]
  | cons b pre ih =>
    have hb : ¬ p b = true := Bool.eq_false_iff.1 (hpre b List.mem_cons_self)
    have hpre' : ∀ x ∈ pre, p x = false := fun x hx => hpre x (List.mem_cons_of_mem b hx)
    rw [List.cons_append, replaceFirst, if_neg hb, ih hpre']
    rfl

theorem replaceFirst_of_none (h : ∀ b ∈ l, p b = false) (new : List α) :
    replaceFirst p new l = none := by
  induction l with
  | nil => rfl
  | cons b l ih =>
    have hb : ¬ p b = true := Bool.eq_false_iff.1 (h b List.mem_cons_self)
    rw [replaceFirst, if_neg hb, ih fun x hx => h x (List.mem_cons_of_mem b hx)]
    rfl

theorem patchFirst_of_first (h : First p l pre a post) (new : α) (action : Action) :
    patchFirst p new action l = ⟨true, pre ++ (action.entries new ++ post)⟩ := by
  cases action with
  | add =>
    simp only [patchFirst, replaceFirst_of_first h]
    rfl
  | remove =>
    simp only [patchFirst, replaceFirst_of_first h]
    rfl

example : patchFirst (fun n => n % 2 == 0) 8 .add [1, 2, 4] = ⟨true, [1, 8, 4]⟩ := rfl

/-- If no entry is addressed, adding appends and removing changes nothing. -/
theorem patchFirst_of_none (h : ∀ b ∈ l, p b = false) (new : α) (action : Action) :
    patchFirst p new action l = ⟨decide (action = .add), l ++ action.entries new⟩ := by
  cases action with
  | add =>
    simp only [patchFirst, replaceFirst_of_none h]
    rfl
  | remove =>
    simp only [patchFirst, replaceFirst_of_none h, Action.entries, List.append_nil]
    rfl

/-- What has been added is the first entry that is addressed, if it is addressed at all, and is put in
its own place when it is added again. -/
theorem patchFirst_add_add (h : p a = true) (l : List α) :
    patchFirst p a .add (patchFirst p a .add l).result =
      ⟨true, (patchFirst p a .add l).result⟩ := by
  rcases none_or_exists_first p l with hnone | ⟨pre, b, post, hfirst⟩
  · rw [patchFirst_of_none hnone]
    have hlast : First p (l ++ [a]) l a [] := ⟨rfl, h, hnone⟩
    exact patchFirst_of_first hlast a .add
  · rw [patchFirst_of_first hfirst]
    have hsame : First p (pre ++ ([a] ++ post)) pre a post := ⟨rfl, h, hfirst.before⟩
    exact patchFirst_of_first hsame a .add

/-- Nothing is changed just if an entry is to be removed and none is addressed. -/
theorem changed_patchFirst_iff (p : α → Bool) (new : α) (action : Action) (l : List α) :
    (patchFirst p new action l).changed = false ↔ action = .remove ∧ ∀ b ∈ l, p b = false := by
  rcases none_or_exists_first p l with hnone | ⟨pre, a, post, hfirst⟩
  · rw [patchFirst_of_none hnone, decide_eq_false_iff_not]
    cases action with
    | add => simp
    | remove => simpa using hnone
  · rw [patchFirst_of_first hfirst]
    constructor
    · intro h
      cases h
    · rintro ⟨-, hnone⟩
      have hp := hfirst.holds
      rw [hnone a hfirst.mem] at hp
      cases hp

variable {b new : α} {action : Action}

/-- To put entries in the place of another is not to append them. -/
theorem append_ne_append (pre post : List α) (a : α) (new : List α) :
    pre ++ (new ++ post) ≠ (pre ++ a :: post) ++ new := by
  intro h
  have hlength := congrArg List.length h
  simp only [List.length_append, List.length_cons] at hlength
  omega

theorem eq_of_perm_cons (h : (a :: l).Perm (b :: l)) : a = b := by
  classical
  have hcount := h.count_eq a
  rw [List.count_cons_self, List.count_cons] at hcount
  by_cases hab : b = a
  · exact hab.symm
  · rw [if_neg (by simpa using hab)] at hcount
    omega

theorem patchFirst_eq_append_iff : patchFirst p new action l =
    ⟨decide (action = .add), l ++ action.entries new⟩ ↔ ∀ b ∈ l, p b = false := by
  refine ⟨fun h => ?_, fun h => patchFirst_of_none h new action⟩
  rcases none_or_exists_first p l with hnone | ⟨pre, a, post, hfirst⟩
  · exact hnone
  · rw [patchFirst_of_first hfirst, hfirst.split] at h
    exact absurd (congrArg Patched.result h) (append_ne_append pre post a _)

/-- If an entry has been replaced or removed, then one like it is the first that satisfies the
test. Where equal entries stand side by side the result does not tell which of them it was. -/
theorem exists_first_of_patched (hsplit : l = pre ++ a :: post)
    (h : (patchFirst p new action l).result = pre ++ (action.entries new ++ post)) :
    ∃ pre post, First p l pre a post := by
  rcases none_or_exists_first p l with hnone | ⟨pre', b, post', hfirst⟩
  · rw [patchFirst_of_none hnone, hsplit] at h
    exact absurd h.symm (append_ne_append pre post a _)
  · rw [patchFirst_of_first hfirst] at h
    have hrest : (pre' ++ post').Perm (pre ++ post) := by
      have hperm : (action.entries new ++ (pre' ++ post')).Perm
          (action.entries new ++ (pre ++ post)) := by
        refine (List.perm_append_comm_assoc _ _ _).trans ?_
        rw [show pre' ++ (action.entries new ++ post') = pre ++ (action.entries new ++ post) from h]
        exact List.perm_append_comm_assoc _ _ _
      exact (List.perm_append_left_iff _).1 hperm
    have hsame : (a :: (pre ++ post)).Perm (b :: (pre ++ post)) := by
      have hitems : pre ++ a :: post = pre' ++ b :: post' := hsplit.symm.trans hfirst.split
      have hleft : (a :: (pre ++ post)).Perm (pre' ++ b :: post') := by
        rw [← hitems]
        exact List.perm_middle.symm
      exact hleft.trans (List.perm_middle.trans (hrest.cons b))
    obtain rfl : a = b := eq_of_perm_cons hsame
    exact ⟨pre', post', hfirst⟩

theorem alike_self (o : Option Value) : alike o o = true := by
  cases o with
  | none => rfl
  | some v =>
    cases v with
    | number n => simp [alike, Double.Same.refl]
    | _ => simp [alike, Value.Same.refl]

/-- A payload addresses itself under every key. -/
theorem addresses_self (key : String) (payload : Mapping) :
    addresses key payload (.mapping payload) = true :=
  alike_self (Fields.get? key payload)

end FleetCatalog.Patch
