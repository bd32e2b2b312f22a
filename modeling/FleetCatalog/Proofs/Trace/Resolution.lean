import FleetCatalog.Trace
import FleetCatalog.Proofs.Value.Traversal

/-! Resolution without a limit on its rounds, as a relation, and what tracing has to do with it. The
rank of a value is the greatest number of rounds that one of its leaves takes. Tracing gives what a
value resolves to if its rank is within the limit, and gives nothing otherwise. -/
namespace FleetCatalog
namespace Trace

section Relations
variable (e : Evaluator) (c : Context)

mutual
/-- A value resolves, with a rank, to another. -/
inductive Resolves : Value → Nat → Value → Prop
  | null : Resolves .null 0 .null
  | bool (b : Bool) : Resolves (.bool b) 0 (.bool b)
  | number (n : Number) : Resolves (.number n) 0 (.number n)
  | text {t s : String} : e t c = .ok (.string s) → Resolves (.string t) 0 (.string s)
  | again {t : String} {w r : Value} {n : Nat} : e t c = .ok w → (∀ s, w ≠ .string s) →
      Resolves w n r → Resolves (.string t) (n + 1) r
  | sequence {items rs : List Value} {n : Nat} : ResolvesItems items n rs →
      Resolves (.sequence items) n (.sequence rs)
  | mapping {fs gs : List (String × Value)} {n : Nat} : ResolvesFields fs n gs →
      Resolves (.mapping fs) n (.mapping gs)

inductive ResolvesItems : List Value → Nat → List Value → Prop
  | nil : ResolvesItems [] 0 []
  | cons {v r : Value} {vs rs : List Value} {m n : Nat} : Resolves v m r → ResolvesItems vs n rs →
      ResolvesItems (v :: vs) (max m n) (r :: rs)

inductive ResolvesFields : List (String × Value) → Nat → List (String × Value) → Prop
  | nil : ResolvesFields [] 0 []
  | cons {k : String} {v r : Value} {fs gs : List (String × Value)} {m n : Nat} :
      Resolves v m r → ResolvesFields fs n gs →
      ResolvesFields ((k, v) :: fs) (max m n) ((k, r) :: gs)
end

/-- A leaf of the value evaluates to no string, a leaf of what it evaluates to does so again, and
so on as many times. -/
inductive Expands : Nat → Value → Prop
  | none (v : Value) : Expands 0 v
  | again {t : String} {v w : Value} {n : Nat} : t ∈ v.leaves → e t c = .ok w →
      (∀ s, w ≠ .string s) → Expands n w → Expands (n + 1) v

end Relations

variable {e : Evaluator} {c : Context}

mutual
/-- A value resolves to one value at one rank. -/
theorem Resolves.unique {v r s : Value} {m n : Nat} (hr : Resolves e c v m r)
    (hs : Resolves e c v n s) : m = n ∧ r = s := by
  cases hr with
  | null => cases hs; exact ⟨rfl, rfl⟩
  | bool b => cases hs; exact ⟨rfl, rfl⟩
  | number k => cases hs; exact ⟨rfl, rfl⟩
  | text h =>
    cases hs with
    | text h' =>
      rw [h] at h'
      cases h'
      exact ⟨rfl, rfl⟩
    | again h' hw _ =>
      rw [h] at h'
      cases h'
      exact absurd rfl (hw _)
  | again h hw hr =>
    cases hs with
    | text h' =>
      rw [h] at h'
      cases h'
      exact absurd rfl (hw _)
    | again h' _ hs =>
      rw [h] at h'
      cases h'
      obtain ⟨rfl, rfl⟩ := hr.unique hs
      exact ⟨rfl, rfl⟩
  | sequence hr =>
    cases hs with
    | sequence hs =>
      obtain ⟨rfl, rfl⟩ := hr.unique hs
      exact ⟨rfl, rfl⟩
  | mapping hr =>
    cases hs with
    | mapping hs =>
      obtain ⟨rfl, rfl⟩ := hr.unique hs
      exact ⟨rfl, rfl⟩

theorem ResolvesItems.unique {vs rs ss : List Value} {m n : Nat} (hr : ResolvesItems e c vs m rs)
    (hs : ResolvesItems e c vs n ss) : m = n ∧ rs = ss := by
  cases hr with
  | nil => cases hs; exact ⟨rfl, rfl⟩
  | cons hr hrs =>
    cases hs with
    | cons hs hss =>
      obtain ⟨rfl, rfl⟩ := hr.unique hs
      obtain ⟨rfl, rfl⟩ := hrs.unique hss
      exact ⟨rfl, rfl⟩

theorem ResolvesFields.unique {fs gs hs : List (String × Value)} {m n : Nat}
    (hr : ResolvesFields e c fs m gs) (hs' : ResolvesFields e c fs n hs) : m = n ∧ gs = hs := by
  cases hr with
  | nil => cases hs'; exact ⟨rfl, rfl⟩
  | cons hr hrs =>
    cases hs' with
    | cons hs hss =>
      obtain ⟨rfl, rfl⟩ := hr.unique hs
      obtain ⟨rfl, rfl⟩ := hrs.unique hss
      exact ⟨rfl, rfl⟩
end

section Traversal
variable {g : String → Except Error Value} {k : Nat}

/-- A value that is left as it is and resolves to itself takes no rounds. -/
theorem traverse_eq_ok_iff_of_self {v : Value} (hg : v.traverse g = .ok v)
    (hv : Resolves e c v 0 v) (r : Value) :
    v.traverse g = .ok r ↔ ∃ n, n ≤ k ∧ Resolves e c v n r := by
  rw [hg]
  constructor
  · intro h
    cases h
    exact ⟨0, Nat.zero_le k, hv⟩
  · rintro ⟨n, -, hr⟩
    rw [(hv.unique hr).2]

mutual
/-- If the leaves are given what they resolve to within a number of rounds, so is every value. -/
theorem traverse_eq_ok_iff
    (hg : ∀ t r, g t = .ok r ↔ ∃ n, n ≤ k ∧ Resolves e c (.string t) n r) : ∀ v r : Value,
    v.traverse g = .ok r ↔ ∃ n, n ≤ k ∧ Resolves e c v n r
  | .null, r => traverse_eq_ok_iff_of_self rfl .null r
  | .bool b, r => traverse_eq_ok_iff_of_self rfl (.bool b) r
  | .number m, r => traverse_eq_ok_iff_of_self rfl (.number m) r
  | .string t, r => hg t r
  | .sequence items, r => by
    rw [Value.traverse, Except.bind_eq_ok]
    constructor
    · rintro ⟨rs, h, hr⟩
      cases hr
      obtain ⟨n, hn, hrs⟩ := (traverseItems_eq_ok_iff hg items rs).1 h
      exact ⟨n, hn, .sequence hrs⟩
    · rintro ⟨n, hn, h⟩
      cases h with
      | sequence hrs => exact ⟨_, (traverseItems_eq_ok_iff hg items _).2 ⟨n, hn, hrs⟩, rfl⟩
  | .mapping fs, r => by
    rw [Value.traverse, Except.bind_eq_ok]
    constructor
    · rintro ⟨gs, h, hr⟩
      cases hr
      obtain ⟨n, hn, hgs⟩ := (traverseFields_eq_ok_iff hg fs gs).1 h
      exact ⟨n, hn, .mapping hgs⟩
    · rintro ⟨n, hn, h⟩
      cases h with
      | mapping hgs => exact ⟨_, (traverseFields_eq_ok_iff hg fs _).2 ⟨n, hn, hgs⟩, rfl⟩

theorem traverseItems_eq_ok_iff
    (hg : ∀ t r, g t = .ok r ↔ ∃ n, n ≤ k ∧ Resolves e c (.string t) n r) :
    ∀ items rs : List Value,
      Value.traverseItems g items = .ok rs ↔ ∃ n, n ≤ k ∧ ResolvesItems e c items n rs
  | [], rs => by
    constructor
    · intro h
      cases h
      exact ⟨0, Nat.zero_le k, .nil⟩
    · rintro ⟨n, -, h⟩
      cases h
      rfl
  | v :: vs, rs => by
    simp only [Value.traverseItems, Except.bind_eq_ok]
    constructor
    · rintro ⟨w, hw, ws, hws, hrs⟩
      cases hrs
      obtain ⟨m, hm, hv⟩ := (traverse_eq_ok_iff hg v w).1 hw
      obtain ⟨n, hn, hvs⟩ := (traverseItems_eq_ok_iff hg vs ws).1 hws
      exact ⟨max m n, Nat.max_le.2 ⟨hm, hn⟩, .cons hv hvs⟩
    · rintro ⟨_, hn, h⟩
      cases h with
      | cons hv hvs =>
        obtain ⟨hm, hn⟩ := Nat.max_le.1 hn
        exact ⟨_, (traverse_eq_ok_iff hg v _).2 ⟨_, hm, hv⟩, _,
          (traverseItems_eq_ok_iff hg vs _).2 ⟨_, hn, hvs⟩, rfl⟩

theorem traverseFields_eq_ok_iff
    (hg : ∀ t r, g t = .ok r ↔ ∃ n, n ≤ k ∧ Resolves e c (.string t) n r) :
    ∀ fs gs : List (String × Value),
      Value.traverseFields g fs = .ok gs ↔ ∃ n, n ≤ k ∧ ResolvesFields e c fs n gs
  | [], gs => by
    constructor
    · intro h
      cases h
      exact ⟨0, Nat.zero_le k, .nil⟩
    · rintro ⟨n, -, h⟩
      cases h
      rfl
  | (key, v) :: fs, gs => by
    simp only [Value.traverseFields, Except.bind_eq_ok]
    constructor
    · rintro ⟨w, hw, ws, hws, hgs⟩
      cases hgs
      obtain ⟨m, hm, hv⟩ := (traverse_eq_ok_iff hg v w).1 hw
      obtain ⟨n, hn, hfs⟩ := (traverseFields_eq_ok_iff hg fs ws).1 hws
      exact ⟨max m n, Nat.max_le.2 ⟨hm, hn⟩, .cons hv hfs⟩
    · rintro ⟨_, hn, h⟩
      cases h with
      | cons hv hfs =>
        obtain ⟨hm, hn⟩ := Nat.max_le.1 hn
        exact ⟨_, (traverse_eq_ok_iff hg v _).2 ⟨_, hm, hv⟩, _,
          (traverseFields_eq_ok_iff hg fs _).2 ⟨_, hn, hfs⟩, rfl⟩
end

end Traversal

section Expansion
variable {t : String} {w : Value} {cause : EvalError}

theorem ask_bind_of_error (h : e t c = .error cause) (f : Value → Journal String Error Value) :
    (ask e c t >>= f) = ⟨[t], .error (.eval cause)⟩ := by
  rw [ask, h]
  exact Journal.bind_of_error rfl f

theorem ask_bind_of_ok (h : e t c = .ok w) (f : Value → Journal String Error Value) :
    (ask e c t >>= f) = ⟨t :: (f w).asked, (f w).outcome⟩ := by
  rw [ask, h]
  exact Journal.bind_of_ok rfl f

theorem expand_of_error (h : e t c = .error cause) (rounds : Nat) :
    expand e c rounds t = ⟨[t], .error (.eval cause)⟩ := by
  cases rounds <;> exact ask_bind_of_error h _

theorem expand_of_text {s : String} (h : e t c = .ok (.string s)) (rounds : Nat) :
    expand e c rounds t = ⟨[t], .ok (.string s)⟩ := by
  cases rounds <;> exact ask_bind_of_ok h _

/-- Without further rounds any other leaf fails. -/
theorem expand_zero_of_ne (h : e t c = .ok w) (hw : ∀ s, w ≠ .string s) :
    expand e c 0 t = ⟨[t], .error (.cycle (.expansionTooDeep limit))⟩ := by
  refine (ask_bind_of_ok h _).trans ?_
  cases w with
  | string s => exact absurd rfl (hw s)
  | _ => rfl

/-- With a further round any other leaf is what it evaluates to, traced in one round less. -/
theorem expand_succ_of_ne (h : e t c = .ok w) (hw : ∀ s, w ≠ .string s) (rounds : Nat) :
    expand e c (rounds + 1) t =
      ⟨t :: (w.traverse (expand e c rounds)).asked, (w.traverse (expand e c rounds)).outcome⟩ := by
  refine (ask_bind_of_ok h _).trans ?_
  cases w with
  | string s => exact absurd rfl (hw s)
  | _ => rfl

theorem not_resolves_of_error (h : e t c = .error cause) {n : Nat} {r : Value} :
    ¬ Resolves e c (.string t) n r := by
  intro hr
  cases hr with
  | text h' =>
    rw [h] at h'
    cases h'
  | again h' _ _ =>
    rw [h] at h'
    cases h'

theorem resolves_iff_of_text {s : String} (h : e t c = .ok (.string s)) {n : Nat} {r : Value} :
    Resolves e c (.string t) n r ↔ n = 0 ∧ r = .string s := by
  constructor
  · intro hr
    exact hr.unique (.text h)
  · rintro ⟨rfl, rfl⟩
    exact .text h

theorem resolves_iff_of_ne (h : e t c = .ok w) (hw : ∀ s, w ≠ .string s) {n : Nat} {r : Value} :
    Resolves e c (.string t) n r ↔ ∃ m, n = m + 1 ∧ Resolves e c w m r := by
  constructor
  · intro hr
    cases hr with
    | text h' =>
      rw [h] at h'
      cases h'
      exact absurd rfl (hw _)
    | again h' _ hr =>
      rw [h] at h'
      cases h'
      exact ⟨_, rfl, hr⟩
  · rintro ⟨m, rfl, hr⟩
    exact .again h hw hr

theorem leaf_cases (e : Evaluator) (c : Context) (t : String) :
    (∃ cause, e t c = .error cause) ∨ (∃ s, e t c = .ok (.string s)) ∨
      ∃ w, e t c = .ok w ∧ ∀ s, w ≠ .string s := by
  cases he : e t c with
  | error cause => exact .inl ⟨cause, rfl⟩
  | ok w =>
    by_cases hw : ∃ s, w = .string s
    · obtain ⟨s, rfl⟩ := hw
      exact .inr (.inl ⟨s, rfl⟩)
    · exact .inr (.inr ⟨w, rfl, fun s hs => hw ⟨s, hs⟩⟩)

/-- A leaf is given what it resolves to within the number of rounds. -/
theorem expand_eq_ok_iff (rounds : Nat) (t : String) (r : Value) :
    (expand e c rounds t).outcome = .ok r ↔ ∃ n, n ≤ rounds ∧ Resolves e c (.string t) n r := by
  -- By recursion on the rounds, used at every leaf of what this one evaluates to.
  rcases leaf_cases e c t with ⟨cause, he⟩ | ⟨s, he⟩ | ⟨w, he, hw⟩
  · simp [expand_of_error he, not_resolves_of_error he]
  · rw [expand_of_text he]
    constructor
    · intro h
      cases h
      exact ⟨0, Nat.zero_le rounds, .text he⟩
    · rintro ⟨n, -, hr⟩
      rw [((resolves_iff_of_text he).1 hr).2]
  · cases rounds with
    | zero => simp [expand_zero_of_ne he hw, resolves_iff_of_ne he hw]
    | succ rounds =>
      rw [expand_succ_of_ne he hw, Value.traverse_outcome,
        traverse_eq_ok_iff (expand_eq_ok_iff rounds)]
      constructor
      · rintro ⟨n, hn, hr⟩
        exact ⟨n + 1, Nat.succ_le_succ hn, .again he hw hr⟩
      · rintro ⟨n, hn, ht⟩
        obtain ⟨m, rfl, hr⟩ := (resolves_iff_of_ne he hw).1 ht
        exact ⟨m, Nat.le_of_succ_le_succ hn, hr⟩

/-- A leaf fails as too deep only if it goes on expanding beyond the number of rounds. -/
theorem expands_of_expand_eq_cycle {rounds : Nat} {t : String} {x : Cycle} {v : Value}
    (ht : t ∈ v.leaves) (h : (expand e c rounds t).outcome = .error (.cycle x)) :
    Expands e c (rounds + 1) v := by
  rcases leaf_cases e c t with ⟨cause, he⟩ | ⟨s, he⟩ | ⟨w, he, hw⟩
  · rw [expand_of_error he] at h
    cases h
  · rw [expand_of_text he] at h
    cases h
  · cases rounds with
    | zero => exact .again ht he hw (.none w)
    | succ rounds =>
      rw [expand_succ_of_ne he hw, Value.traverse_outcome] at h
      obtain ⟨u, hu, h⟩ := Value.exists_leaf_of_traverse_eq_error h
      exact .again ht he hw (expands_of_expand_eq_cycle hu h)

end Expansion

end Trace

namespace Tracer
variable {t : Tracer} {overlay : Overlay}

/-- What tracing puts in the place of a string leaf. -/
def leaf (t : Tracer) (overlay : Overlay) (s : String) : Except Error Value :=
  (Trace.expand t.evaluator (t.base.specialise overlay) Trace.limit s).outcome

theorem trace_eq_traverse (t : Tracer) (overlay : Overlay) (v : Value) :
    t.trace overlay v = v.traverse (t.leaf overlay) :=
  Value.traverse_outcome _ v

theorem traceMapping_eq_traverseFields (t : Tracer) (overlay : Overlay) (fs : Mapping) :
    t.traceMapping overlay fs = Value.traverseFields (t.leaf overlay) fs :=
  Value.traverseFields_outcome _ fs

theorem leaf_of_text {s r : String}
    (h : t.evaluator s (t.base.specialise overlay) = .ok (.string r)) :
    t.leaf overlay s = .ok (.string r) := by
  rw [leaf, Trace.expand_of_text h]

theorem expands_of_trace {v : Value} {e : Error} (h : t.trace overlay v = .error e)
    (hkind : e.kind = .cycleDetected) :
    Trace.Expands t.evaluator (t.base.specialise overlay) (Trace.limit + 1) v := by
  rw [trace_eq_traverse] at h
  obtain ⟨s, hs, h⟩ := Value.exists_leaf_of_traverse_eq_error h
  cases e with
  | cycle x => exact Trace.expands_of_expand_eq_cycle hs h
  | store cause => cases cause <;> cases hkind
  | settings cause => cases cause <;> cases hkind
  | _ => cases hkind

/-- A traced value is what the value resolves to, and it is given just if the rank is at most 64. A
trace that fails as too deep has gone through 65 expansions, each of a leaf of what the one before
evaluates to: however deep a value is, it fails so only if a leaf evaluates to no string. -/
theorem trace_refines_resolution (t : Tracer) (overlay : Overlay) (v : Value) :
    (∀ r, t.trace overlay v = .ok r ↔
      ∃ n, n ≤ 64 ∧ Trace.Resolves t.evaluator (t.base.specialise overlay) v n r) ∧
    (∀ e, t.trace overlay v = .error e → e.kind = .cycleDetected →
      Trace.Expands t.evaluator (t.base.specialise overlay) 65 v) ∧
    ((∀ s ∈ v.leaves, ∀ w, t.evaluator s (t.base.specialise overlay) = .ok w →
        ∃ text, w = .string text) →
      ∀ e, t.trace overlay v = .error e → e.kind ≠ .cycleDetected) := by
  refine ⟨fun r => ?_, fun e h hkind => expands_of_trace h hkind, fun hleaves e h hkind => ?_⟩
  · rw [trace, journal, Trace.resolve, Value.traverse_outcome]
    exact Trace.traverse_eq_ok_iff (Trace.expand_eq_ok_iff Trace.limit) v r
  · cases expands_of_trace h hkind with
    | again hs hw hne _ =>
      obtain ⟨text, rfl⟩ := hleaves _ hs _ hw
      exact hne text rfl

end Tracer
end FleetCatalog
