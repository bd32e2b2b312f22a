/-!
# Journals

A computation that may fail together with the record of what it asked for. Nothing is asked
after a failure: the record of a sequence is that of its first part alone if that part fails.
-/
namespace FleetCatalog

/-- An outcome with the questions asked on the way, in order. -/
structure Journal (ω ε α : Type) where
  asked : List ω
  outcome : Except ε α

namespace Journal
variable {ω ε α β : Type}

/-- A failure without questions. -/
def fail (e : ε) : Journal ω ε α := ⟨[], .error e⟩

/-- An outcome that took no question. -/
def lift (r : Except ε α) : Journal ω ε α := ⟨[], r⟩

/-- One question and its answer. -/
def ask (q : ω) (r : Except ε α) : Journal ω ε α := ⟨[q], r⟩

/-- Goes on with the result, if there is one. -/
def andThen (x : Journal ω ε α) (f : α → Journal ω ε β) : Journal ω ε β :=
  match x.outcome with
  | .error e => ⟨x.asked, .error e⟩
  | .ok a => ⟨x.asked ++ (f a).asked, (f a).outcome⟩

instance : Monad (Journal ω ε) where
  pure a := ⟨[], .ok a⟩
  bind := andThen

@[simp] theorem pure_asked (a : α) : (pure a : Journal ω ε α).asked = [] := rfl

@[simp] theorem pure_outcome (a : α) : (pure a : Journal ω ε α).outcome = .ok a := rfl

theorem bind_of_error {x : Journal ω ε α} {e : ε} (h : x.outcome = .error e)
    (f : α → Journal ω ε β) : x >>= f = ⟨x.asked, .error e⟩ := by
  show andThen x f = _
  unfold andThen
  rw [h]

theorem bind_of_ok {x : Journal ω ε α} {a : α} (h : x.outcome = .ok a)
    (f : α → Journal ω ε β) : x >>= f = ⟨x.asked ++ (f a).asked, (f a).outcome⟩ := by
  show andThen x f = _
  unfold andThen
  rw [h]

end Journal
end FleetCatalog
