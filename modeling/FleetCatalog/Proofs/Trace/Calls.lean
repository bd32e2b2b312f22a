import FleetCatalog.Proofs.Trace.Resolution

/-! The calls that tracing makes to its evaluator. They follow an agenda of templates, with the number of
rounds that each is given: the first of them is evaluated, and the leaves of what it evaluates to are put
in front of the others. The first call that fails is the last one. As an evaluator may do more than it
returns, its answers may depend here on all calls that were made before. -/
namespace FleetCatalog
namespace Trace

/-- A template that was passed to an evaluator, and what it answered. -/
structure Call where
  template : String
  answer : Except EvalError Value

def Call.Succeeds (call : Call) : Prop := ∃ v, call.answer = .ok v

/-- From some calls on, the further calls that an agenda leads to, and the error that they end in, if they
do. -/
inductive Calls (answer : List Call → Evaluator) (c : Context) :
    List Call → List (Nat × String) → List Call → Option Error → Prop
  | done (before : List Call) : Calls answer c before [] [] none
  | failed {before : List Call} {n : Nat} {t : String} {rest : List (Nat × String)}
      {cause : EvalError} : answer before t c = .error cause →
      Calls answer c before ((n, t) :: rest) [⟨t, .error cause⟩] (some (.eval cause))
  /-- What evaluates to a string is done with. -/
  | text {before calls : List Call} {n : Nat} {t s : String} {rest : List (Nat × String)}
      {e : Option Error} : answer before t c = .ok (.string s) →
      Calls answer c (before ++ [⟨t, .ok (.string s)⟩]) rest calls e →
      Calls answer c before ((n, t) :: rest) (⟨t, .ok (.string s)⟩ :: calls) e
  | deep {before : List Call} {t : String} {w : Value} {rest : List (Nat × String)} :
      answer before t c = .ok w → (∀ s, w ≠ .string s) →
      Calls answer c before ((0, t) :: rest) [⟨t, .ok w⟩] (some (.cycle (.expansionTooDeep limit)))
  /-- The leaves of anything else are next, with one round less. -/
  | again {before calls : List Call} {n : Nat} {t : String} {w : Value} {rest : List (Nat × String)}
      {e : Option Error} : answer before t c = .ok w → (∀ s, w ≠ .string s) →
      Calls answer c (before ++ [⟨t, .ok w⟩]) (w.leaves.map (n, ·) ++ rest) calls e →
      Calls answer c before ((n + 1, t) :: rest) (⟨t, .ok w⟩ :: calls) e

section Agenda
variable {answer : List Call → Evaluator} {c : Context} {before calls more : List Call}
  {agenda rest : List (Nat × String)} {e e' : Option Error}

/-- What stands further back is not looked at after a failure. -/
theorem Calls.of_failure (h : Calls answer c before agenda calls e) (he : e.isSome)
    (rest : List (Nat × String)) : Calls answer c before (agenda ++ rest) calls e := by
  induction h with
  | done => cases he
  | failed h => exact .failed h
  | text h _ ih => exact .text h (ih he)
  | deep h hw => exact .deep h hw
  | again h hw _ ih =>
    apply Calls.again h hw
    simpa using ih he

/-- What stands further back is dealt with once there is nothing else to do. -/
theorem Calls.append (h : Calls answer c before agenda calls e) (he : e = none)
    (hrest : Calls answer c (before ++ calls) rest more e') :
    Calls answer c before (agenda ++ rest) (calls ++ more) e' := by
  induction h with
  | done => simpa using hrest
  | failed => cases he
  | text h _ ih =>
    apply Calls.text h
    apply ih he
    simpa using hrest
  | deep => cases he
  | again h hw _ ih =>
    apply Calls.again h hw
    simpa using ih he (by simpa using hrest)

theorem Call.forall_mem_cons_succeeds {t : String} {w : Value} :
    (∀ call ∈ (⟨t, .ok w⟩ :: calls : List Call), call.Succeeds) ↔ ∀ call ∈ calls, call.Succeeds := by
  simp [Call.Succeeds]

theorem Calls.failed_last {cause : EvalError} (h : Calls answer c before agenda calls e)
    (he : e = some (.eval cause)) : ∃ earlier t, calls = earlier ++ [⟨t, .error cause⟩] ∧
      ∀ call ∈ earlier, call.Succeeds := by
  induction h with
  | done => cases he
  | @failed _ _ t =>
    cases he
    exact ⟨[], t, rfl, by simp⟩
  | text _ _ ih | again _ _ _ ih =>
    obtain ⟨earlier, t, rfl, hearlier⟩ := ih he
    exact ⟨_ :: earlier, t, rfl, Call.forall_mem_cons_succeeds.2 hearlier⟩
  | deep => cases he

theorem Calls.all_succeed (h : Calls answer c before agenda calls e)
    (he : ∀ cause, e ≠ some (.eval cause)) : ∀ call ∈ calls, call.Succeeds := by
  induction h with
  | done => simp
  | failed => exact absurd rfl (he _)
  | text _ _ ih | again _ _ _ ih => exact Call.forall_mem_cons_succeeds.2 (ih he)
  | deep => simp [Call.Succeeds]

end Agenda

/-- A computation that asks an evaluator, told what has been asked and answered before. -/
def Session (α : Type) : Type := List Call → Journal Call Error α

/-- How one leaf is resolved, by whatever means templates are evaluated. -/
def expandBy {m : Type → Type} [Monad m] (ask : String → m Value) (tooDeep : m Value) :
    Nat → String → m Value
  | 0, template => do
    match ← ask template with
    | .string s => return .string s
    | _ => tooDeep
  | rounds + 1, template => do
    match ← ask template with
    | .string s => return .string s
    | v => v.traverse (expandBy ask tooDeep rounds)

theorem expand_eq_expandBy (e : Evaluator) (c : Context) :
    expand e c = expandBy (ask e c) (.fail (.cycle (.expansionTooDeep limit))) := by
  funext rounds
  induction rounds with
  | zero => rfl
  | succ rounds ih =>
    funext template
    exact congrArg (fun again : String → Journal String Error Value =>
      ask e c template >>= fun
        | .string s => pure (.string s)
        | v => v.traverse again) ih

/-- Leaves are resolved alike by means that are alike. -/
theorem expandBy_of_sequential {m n : Type → Type} [Monad m] [Monad n]
    {R : (α : Type) → m α → n α → Prop} (hR : Value.Sequential fun α _ => R α)
    {ask : String → m Value} {ask' : String → n Value} {deep : m Value} {deep' : n Value}
    (hask : ∀ t, R Value (ask t) (ask' t)) (hdeep : R Value deep deep') (rounds : Nat) (t : String) :
    R Value (expandBy ask deep rounds t) (expandBy ask' deep' rounds t) := by
  induction rounds generalizing t with
  | zero =>
    refine hR.bind (s := []) (t := []) (hask t) fun w => ?_
    cases w with
    | string s => exact hR.pure _
    | _ => exact hdeep
  | succ rounds ih =>
    refine hR.bind (s := []) (t := []) (hask t) fun w => ?_
    cases w with
    | string s => exact hR.pure _
    | _ => exact hR.traverse ih _

namespace Session

instance : Monad Session where
  pure a := fun _ => Pure.pure a
  bind x f := fun before => x before >>= fun a => f a (before ++ (x before).asked)

variable (answer : List Call → Evaluator) (c : Context)

/-- Evaluates one template. -/
def ask (template : String) : Session Value := fun before =>
  .ask ⟨template, answer before template c⟩ ((answer before template c).mapError .eval)

def tooDeep : Session Value := fun _ => .fail (.cycle (.expansionTooDeep limit))

/-- Resolves one string leaf. -/
def expand : Nat → String → Session Value := expandBy (ask answer c) tooDeep

/-- Resolves the leaves of a value. -/
def resolve (v : Value) : Session Value := v.traverse (expand answer c limit)

/-- Resolves the values of a mapping. -/
def resolveMapping (fs : Mapping) : Session Mapping := Value.traverseFields (expand answer c limit) fs

variable {answer c} {before : List Call} {t : String}

/-- What comes second is told what the first has asked. -/
theorem bind_eq {α β : Type} (x : Session α) (f : α → Session β) (before : List Call) :
    (x >>= f) before = x before >>= fun a => f a (before ++ (x before).asked) := rfl

theorem ask_bind_of_error {cause : EvalError} (h : answer before t c = .error cause)
    (f : Value → Session Value) :
    (ask answer c t >>= f) before = ⟨[⟨t, .error cause⟩], .error (.eval cause)⟩ := by
  rw [bind_eq, ask, h]
  exact Journal.bind_of_error rfl _

theorem ask_bind_of_ok {w : Value} (h : answer before t c = .ok w) (f : Value → Session Value) :
    (ask answer c t >>= f) before = ⟨⟨t, .ok w⟩ :: (f w (before ++ [⟨t, .ok w⟩])).asked,
      (f w (before ++ [⟨t, .ok w⟩])).outcome⟩ := by
  rw [bind_eq, ask, h]
  exact Journal.bind_of_ok rfl _

theorem expand_of_error {cause : EvalError} (h : answer before t c = .error cause) (rounds : Nat) :
    expand answer c rounds t before = ⟨[⟨t, .error cause⟩], .error (.eval cause)⟩ := by
  cases rounds <;> exact ask_bind_of_error h _

theorem expand_of_text {s : String} (h : answer before t c = .ok (.string s)) (rounds : Nat) :
    expand answer c rounds t before = ⟨[⟨t, .ok (.string s)⟩], .ok (.string s)⟩ := by
  cases rounds <;> exact ask_bind_of_ok h _

theorem expand_zero_of_ne {w : Value} (h : answer before t c = .ok w) (hw : ∀ s, w ≠ .string s) :
    expand answer c 0 t before =
      ⟨[⟨t, .ok w⟩], .error (.cycle (.expansionTooDeep limit))⟩ := by
  refine (ask_bind_of_ok h _).trans ?_
  cases w with
  | string s => exact absurd rfl (hw s)
  | _ => rfl

theorem expand_succ_of_ne {w : Value} (h : answer before t c = .ok w) (hw : ∀ s, w ≠ .string s)
    (rounds : Nat) : expand answer c (rounds + 1) t before =
      ⟨⟨t, .ok w⟩ :: (w.traverse (expand answer c rounds) (before ++ [⟨t, .ok w⟩])).asked,
        (w.traverse (expand answer c rounds) (before ++ [⟨t, .ok w⟩])).outcome⟩ := by
  refine (ask_bind_of_ok h _).trans ?_
  cases w with
  | string s => exact absurd rfl (hw s)
  | _ => rfl

end Session

/-- The error of a computation that fails. -/
def failure {ε α : Type} : Except ε α → Option ε
  | .error e => some e
  | .ok _ => none

section Run
variable {answer : List Call → Evaluator} {c : Context}

/-- The calls of a sequence of computations are those of an agenda with the leaves of both. -/
theorem sequential_calls (n : Nat) : Value.Sequential (m := Session) (n := Session)
    fun _ ts x _ => ∀ before,
      Calls answer c before (ts.map (n, ·)) (x before).asked (failure (x before).outcome) where
  pure _ := Calls.done
  bind {α β ts us x _ k _} hx hk before := by
    have hfirst := hx before
    rw [List.map_append, Session.bind_eq]
    cases houtcome : (x before).outcome with
    | error e =>
      rw [houtcome] at hfirst
      rw [Journal.bind_of_error houtcome]
      exact hfirst.of_failure rfl _
    | ok a =>
      rw [houtcome] at hfirst
      rw [Journal.bind_of_ok houtcome]
      exact hfirst.append rfl (hk a (before ++ (x before).asked))

theorem calls_expand (n : Nat) (t : String) (before : List Call) :
    Calls answer c before [(n, t)] (Session.expand answer c n t before).asked
      (failure (Session.expand answer c n t before).outcome) := by
  -- By recursion on the rounds, used at every leaf of what this one evaluates to.
  obtain ⟨cause, h⟩ | ⟨s, h⟩ | ⟨w, h, hw⟩ := leaf_cases (answer before) c t
  · rw [Session.expand_of_error h]
    exact .failed h
  · rw [Session.expand_of_text h]
    exact .text h (.done _)
  · cases n with
    | zero =>
      rw [Session.expand_zero_of_ne h hw]
      exact .deep h hw
    | succ n =>
      have hleaves := (sequential_calls n).traverse (g := Session.expand answer c n) (calls_expand n) w
      rw [Session.expand_succ_of_ne h hw]
      apply Calls.again h hw
      rw [List.append_nil]
      exact hleaves _

/-- An evaluator whose answers are the same whatever was asked before. -/
theorem sequential_of_evaluator (e : Evaluator) (c : Context) :
    Value.Sequential (m := Journal String Error) (n := Session) fun _ _ x y => ∀ before,
      y before = ⟨x.asked.map fun t => ⟨t, e t c⟩, x.outcome⟩ where
  pure _ _ := rfl
  bind {α β _ _ x y k l} hx hk before := by
    have hfirst := hx before
    rw [Session.bind_eq]
    cases houtcome : x.outcome with
    | error cause =>
      rw [houtcome] at hfirst
      rw [Journal.bind_of_error houtcome, hfirst, Journal.bind_of_error rfl]
    | ok a =>
      rw [houtcome] at hfirst
      rw [Journal.bind_of_ok houtcome, hfirst, Journal.bind_of_ok rfl, hk a, List.map_append]

theorem expand_of_evaluator (e : Evaluator) (c : Context) (n : Nat) (t : String)
    (before : List Call) : Session.expand (fun _ => e) c n t before =
      ⟨(expand e c n t).asked.map fun t => ⟨t, e t c⟩, (expand e c n t).outcome⟩ := by
  have hask : ∀ t before, Session.ask (fun _ => e) c t before =
      ⟨(ask e c t).asked.map fun t => ⟨t, e t c⟩, (ask e c t).outcome⟩ := fun _ _ => rfl
  have hdeep : ∀ before, Session.tooDeep before =
      ⟨(Journal.fail (.cycle (.expansionTooDeep limit)) : Journal String Error Value).asked.map
        fun t => ⟨t, e t c⟩, .error (.cycle (.expansionTooDeep limit))⟩ := fun _ => rfl
  rw [expand_eq_expandBy]
  exact expandBy_of_sequential (sequential_of_evaluator e c) hask hdeep n t before

end Run

/-- What tracing a value calls and how it ends: the calls are those of an agenda with the leaves of the
value, an error of the evaluator is that of the last call, and all other calls succeed. -/
structure FailsFast (answer : List Call → Evaluator) (c : Context) (before : List Call) (v : Value)
    (calls : List Call) (outcome : Except Error Value) : Prop where
  inOrder : Calls answer c before (v.leaves.map (limit, ·)) calls (failure outcome)
  failed : ∀ cause, outcome = .error (.eval cause) →
    ∃ earlier t, calls = earlier ++ [⟨t, .error cause⟩] ∧ ∀ call ∈ earlier, call.Succeeds
  succeeded : (∀ cause, outcome ≠ .error (.eval cause)) → ∀ call ∈ calls, call.Succeeds

theorem FailsFast.of_calls {answer : List Call → Evaluator} {c : Context} {before calls : List Call}
    {v : Value} {outcome : Except Error Value}
    (h : Calls answer c before (v.leaves.map (limit, ·)) calls (failure outcome)) :
    FailsFast answer c before v calls outcome where
  inOrder := h
  failed cause houtcome := h.failed_last (by rw [houtcome, failure])
  succeeded houtcome := by
    apply h.all_succeed
    intro cause hfailure
    cases outcome with
    | error e =>
      cases hfailure
      exact houtcome cause rfl
    | ok w => cases hfailure

end Trace

namespace Tracer
open Trace

/-- The calls to the evaluator that are made to trace a value. -/
def calls (t : Tracer) (overlay : Overlay) (v : Value) : List Call :=
  (t.journal overlay v).asked.map fun s => ⟨s, t.evaluator s (t.base.specialise overlay)⟩

theorem session_resolve_eq (t : Tracer) (overlay : Overlay) (v : Value) (before : List Call) :
    Session.resolve (fun _ => t.evaluator) (t.base.specialise overlay) v before =
      ⟨t.calls overlay v, t.trace overlay v⟩ :=
  (sequential_of_evaluator t.evaluator (t.base.specialise overlay)).traverse
    (expand_of_evaluator _ _ _) v before

/-- Tracing evaluates leaf by leaf, each until nothing is left to expand, and stops at the first call that
fails. So it does if the answers depend on what was asked before, and a mapping is traced as its entries
are. -/
theorem trace_fails_fast (t : Tracer) (overlay : Overlay) (v : Value) (fs : Mapping)
    (answer : List Call → Evaluator) (before : List Call) :
    let c := t.base.specialise overlay
    FailsFast (fun _ => t.evaluator) c [] v (t.calls overlay v) (t.trace overlay v) ∧
    (t.mappingJournal overlay fs).asked = (t.journal overlay (.mapping fs)).asked ∧
    t.trace overlay (.mapping fs) = (t.traceMapping overlay fs).map .mapping ∧
    FailsFast answer c before v (Session.resolve answer c v before).asked
      (Session.resolve answer c v before).outcome ∧
    (Session.resolveMapping answer c fs before).asked =
      (Session.resolve answer c (.mapping fs) before).asked ∧
    (Session.resolve answer c (.mapping fs) before).outcome =
      (Session.resolveMapping answer c fs before).outcome.map .mapping ∧
    Session.resolve (fun _ => t.evaluator) c v before = ⟨t.calls overlay v, t.trace overlay v⟩ := by
  intro c
  have hcalls : ∀ answer before, FailsFast answer c before v (Session.resolve answer c v before).asked
      (Session.resolve answer c v before).outcome := fun answer before =>
    .of_calls ((sequential_calls limit).traverse (g := Session.expand answer c limit)
      (calls_expand limit) v before)
  have hmapping : t.journal overlay (.mapping fs) =
      ⟨(t.mappingJournal overlay fs).asked, (t.mappingJournal overlay fs).outcome.map .mapping⟩ :=
    Journal.bind_pure _ _
  have hsession : Session.resolve answer c (.mapping fs) before =
      ⟨(Session.resolveMapping answer c fs before).asked,
        (Session.resolveMapping answer c fs before).outcome.map .mapping⟩ :=
    Journal.bind_pure _ _
  have htracer := hcalls (fun _ => t.evaluator) []
  rw [t.session_resolve_eq overlay v] at htracer
  refine ⟨htracer, ?_, ?_, hcalls answer before, ?_, ?_, t.session_resolve_eq overlay v before⟩
  · rw [hmapping]
  · rw [trace, hmapping, traceMapping]
  · rw [hsession]
  · rw [hsession]

example : (Tracer.journal
    { evaluator := fun s _ =>
        if s = "ab" then .ok (.sequence [.string "a", .string "b"])
        else if s = "bad" then .error (.failed s) else .ok (.string s) } {}
    (.sequence [.string "ab", .string "c", .string "bad", .string "never"])).asked =
      ["ab", "a", "b", "c", "bad"] := rfl

end Tracer
end FleetCatalog
