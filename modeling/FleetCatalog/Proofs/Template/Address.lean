import FleetCatalog.Proofs.Decimal.Reading
import FleetCatalog.Proofs.Template.Evaluation

/-! What references address. Where a path leads is said by relations on values: a step goes down by
a key of a mapping or by a spelling of an index of a sequence, and from a scalar it leads nowhere. A
reference has the value that its path leads to, and every part of a context whose keys can be written
in a path has an address that leads to it and to no other part. -/
namespace FleetCatalog

/-- A spelling of an index: digits, after at most one plus sign, of a natural of sixty-four bits. -/
inductive Text.SpellsIndex : List Char → Nat → Prop
  | digits {cs : List Char} {n : Nat} (read : natural? cs = some n) (small : n < unsignedBound) :
      SpellsIndex cs n
  | plus {cs : List Char} {n : Nat} (read : natural? cs = some n) (small : n < unsignedBound) :
      SpellsIndex ('+' :: cs) n

theorem Text.unsigned?_plus (cs : List Char) :
    unsigned? ('+' :: cs) = (natural? cs).filter (· < unsignedBound) := by
  cases h : natural? cs <;> simp [unsigned?, h, Option.filter]

theorem Text.unsigned?_of_ne {cs : List Char} (hplus : ∀ r, cs ≠ '+' :: r) :
    unsigned? cs = (natural? cs).filter (· < unsignedBound) := by
  unfold unsigned?
  split
  · exact absurd rfl (hplus _)
  · cases h : natural? cs <;> simp [h, Option.filter]

theorem Text.unsigned?_eq_some_iff {cs : List Char} {n : Nat} :
    unsigned? cs = some n ↔ SpellsIndex cs n := by
  have hsmall (ds : List Char) : (natural? ds).filter (· < unsignedBound) = some n ↔
      natural? ds = some n ∧ n < unsignedBound := by
    rw [Option.filter_eq_some_iff, decide_eq_true_iff]
  constructor
  · intro h
    by_cases hplus : ∃ r, cs = '+' :: r
    · obtain ⟨r, rfl⟩ := hplus
      rw [unsigned?_plus, hsmall] at h
      exact .plus h.1 h.2
    · rw [unsigned?_of_ne (not_exists.1 hplus), hsmall] at h
      exact .digits h.1 h.2
  · rintro (⟨hread, hn⟩ | ⟨hread, hn⟩)
    · rw [unsigned?_of_natural? hread, if_pos hn]
    · rw [unsigned?_plus, hsmall]
      exact ⟨hread, hn⟩

/-- White space ends below the digits and goes on above them. -/
theorem Text.isBlank_of_isDigit {c : Char} (h : isDigit c = true) : isBlank c = false := by
  have hrange : 48 ≤ c.toNat ∧ c.toNat ≤ 57 := of_decide_eq_true h
  simp only [isBlank, whiteSpace, CharSet.has]
  grind

namespace Value
open Text

/-- One step down from a value to a part of it. -/
inductive StepsTo : Value → List Char → Value → Prop
  | key {fs : Mapping} {step : List Char} {v : Value}
      (h : Fields.get? (String.ofList step) fs = some v) : StepsTo (mapping fs) step v
  | index {items : List Value} {step : List Char} {i : Nat} {v : Value}
      (spelled : SpellsIndex step i) (h : items[i]? = some v) : StepsTo (sequence items) step v

/-- A step for which a value has no part. -/
inductive Lacks : Value → List Char → Prop
  | key {fs : Mapping} {step : List Char} (h : Fields.get? (String.ofList step) fs = none) :
      Lacks (mapping fs) step
  | range {items : List Value} {step : List Char} {i : Nat} (spelled : SpellsIndex step i)
      (h : items.length ≤ i) : Lacks (sequence items) step
  | index {items : List Value} {step : List Char} (h : ∀ i, ¬ SpellsIndex step i) :
      Lacks (sequence items) step
  | null (step : List Char) : Lacks null step
  | bool (b : Bool) (step : List Char) : Lacks (bool b) step
  | number (n : Number) (step : List Char) : Lacks (number n) step
  | string (s : String) (step : List Char) : Lacks (string s) step

/-- Steps down from a value that come to a part of it. -/
inductive LeadsTo : Value → List (List Char) → Value → Prop
  | here (v : Value) : LeadsTo v [] v
  | step {v w u : Value} {step : List Char} {steps : List (List Char)} (first : StepsTo v step w)
      (rest : LeadsTo w steps u) : LeadsTo v (step :: steps) u

/-- Steps down from a value, one of which has no part to go to. -/
inductive LeadsNowhere : Value → List (List Char) → Prop
  | here {v : Value} {step : List Char} (h : Lacks v step) (steps : List (List Char)) :
      LeadsNowhere v (step :: steps)
  | step {v w : Value} {step : List Char} {steps : List (List Char)} (first : StepsTo v step w)
      (rest : LeadsNowhere w steps) : LeadsNowhere v (step :: steps)

/-- Where a part stands in the value that it is a part of. -/
inductive Place
  | key (k : String)
  | index (i : Nat)

/-- The step to a place. -/
def Place.step : Place → List Char
  | key k => k.toList
  | index i => Double.naturalText i

/-- A value has a part, at places one within the other. -/
inductive Holds : Value → List Place → Value → Prop
  | here (v : Value) : Holds v [] v
  | key {fs : Mapping} {k : String} {places : List Place} {v w : Value}
      (h : Fields.get? k fs = some v) (rest : Holds v places w) :
      Holds (mapping fs) (.key k :: places) w
  | index {items : List Value} {i : Nat} {places : List Place} {v w : Value}
      (h : items[i]? = some v) (rest : Holds v places w) :
      Holds (sequence items) (.index i :: places) w

variable {v w : Value} {step : List Char} {steps : List (List Char)}

theorem child_eq_some_iff : v.child step = some w ↔ StepsTo v step w := by
  constructor
  · intro h
    cases v with
    | mapping fs => exact .key h
    | sequence items =>
      obtain ⟨i, hi, h⟩ := Option.bind_eq_some_iff.1 h
      exact .index (unsigned?_eq_some_iff.1 hi) h
    | null | bool | number | string => cases h
  · intro h
    cases h with
    | key h => exact h
    | index spelled h => exact Option.bind_eq_some_iff.2 ⟨_, unsigned?_eq_some_iff.2 spelled, h⟩

theorem child_eq_none_iff : v.child step = none ↔ Lacks v step := by
  constructor
  · intro h
    cases v with
    | mapping fs => exact .key h
    | sequence items =>
      cases hi : unsigned? step with
      | none =>
        refine .index fun i hspelled => ?_
        rw [unsigned?_eq_some_iff.2 hspelled] at hi
        cases hi
      | some i =>
        refine .range (unsigned?_eq_some_iff.1 hi) (List.getElem?_eq_none_iff.1 ?_)
        rwa [child, hi] at h
    | null => exact .null step
    | bool b => exact .bool b step
    | number n => exact .number n step
    | string s => exact .string s step
  · intro h
    cases h with
    | key h => exact h
    | range spelled h =>
      rw [child, unsigned?_eq_some_iff.2 spelled]
      exact List.getElem?_eq_none_iff.2 h
    | index h =>
      rw [child, Option.bind_eq_none_iff]
      exact fun i hi => absurd (unsigned?_eq_some_iff.1 hi) (h i)
    | null | bool | number | string => rfl

theorem follow_eq_some_iff : v.follow steps = some w ↔ LeadsTo v steps w := by
  induction steps generalizing v with
  | nil =>
    rw [follow, Option.some.injEq]
    constructor
    · rintro rfl
      exact .here v
    · rintro ⟨⟩
      rfl
  | cons step steps ih =>
    rw [follow, Option.bind_eq_some_iff]
    constructor
    · rintro ⟨u, hu, h⟩
      exact .step (child_eq_some_iff.1 hu) (ih.1 h)
    · rintro (_ | ⟨first, rest⟩)
      exact ⟨_, child_eq_some_iff.2 first, ih.2 rest⟩

theorem follow_eq_none_iff : v.follow steps = none ↔ LeadsNowhere v steps := by
  induction steps generalizing v with
  | nil =>
    rw [follow]
    exact ⟨fun h => (by cases h), fun h => (by cases h)⟩
  | cons step steps ih =>
    rw [follow]
    constructor
    · intro h
      cases hu : v.child step with
      | none => exact .here (child_eq_none_iff.1 hu) steps
      | some u =>
        rw [hu] at h
        exact .step (child_eq_some_iff.1 hu) (ih.1 h)
    · rintro (⟨hlacks, _⟩ | ⟨first, rest⟩)
      · rw [child_eq_none_iff.2 hlacks, Option.bind_none]
      · rw [child_eq_some_iff.2 first]
        exact ih.2 rest

end Value

namespace Template
open Context Text

/-- A step that can stand between the points of a path. -/
structure Writable (step : List Char) : Prop where
  ne_nil : step ≠ []
  plain : ∀ c ∈ step, c ≠ '.' ∧ c ≠ '}' ∧ isBlank c = false

instance : DecidablePred Writable := fun step =>
  decidable_of_iff (step ≠ [] ∧ step.all (fun c => c ≠ '.' ∧ c ≠ '}' ∧ isBlank c = false) = true)
    ⟨fun h => ⟨h.1, by simpa using h.2⟩, fun h => ⟨h.ne_nil, by simpa using h.plain⟩⟩

/-- A key that can stand between the points of a path, or an index of sixty-four bits. -/
def WritablePlace : Value.Place → Prop
  | .key k => Writable k.toList
  | .index i => i < unsignedBound

instance : DecidablePred WritablePlace := fun p => by
  cases p <;> unfold WritablePlace <;> infer_instance

/-- The path from a root along steps. -/
def path (r : Root) (steps : List (List Char)) : List Char :=
  r.name.toList ++ steps.flatMap fun step => '.' :: step

/-- The template that is one reference along a path. -/
def address (r : Root) (steps : List (List Char)) : String :=
  String.ofList (print [.reference (path r steps)])

/-- A context has a part at places below a root, all of which can be written in a path. -/
def Located (c : Context) (r : Root) (places : List Value.Place) (v : Value) : Prop :=
  ∃ top, c.root r = some top ∧ top.Holds places v ∧ ∀ p ∈ places, WritablePlace p

variable {c : Context} {r : Root} {steps : List (List Char)} {places : List Value.Place}
  {v w : Value}

theorem writable_name (r : Root) : Writable r.name.toList := by
  cases r <;> decide

section Path

theorem plain_of_mem_path (h : ∀ s ∈ steps, Writable s) :
    ∀ c ∈ path r steps, c ≠ '}' ∧ isBlank c = false := by
  intro c hc
  rcases List.mem_append.1 hc with hc | hc
  · exact ((writable_name r).plain c hc).2
  · obtain ⟨step, hstep, hc⟩ := List.mem_flatMap.1 hc
    rcases List.mem_cons.1 hc with rfl | hc
    · decide
    · exact ((h step hstep).plain c hc).2

theorem trim_path (h : ∀ s ∈ steps, Writable s) : trim (path r steps) = path r steps :=
  trim_eq_self_iff.2 ⟨fun c hc => (plain_of_mem_path h c (List.mem_of_head? hc)).2,
    fun c hc => (plain_of_mem_path h c (List.mem_of_getLast? hc)).2⟩

theorem splitAt_append_flatMap {first : List Char} (hfirst : '.' ∉ first)
    (h : ∀ s ∈ steps, '.' ∉ s) :
    splitAt '.' (first ++ steps.flatMap fun step => '.' :: step) = first :: steps := by
  induction steps generalizing first with
  | nil => rw [List.flatMap_nil, List.append_nil, splitAt_of_not_mem hfirst]
  | cons step steps ih =>
    obtain ⟨hstep, hsteps⟩ := List.forall_mem_cons.1 h
    rw [List.flatMap_cons, List.cons_append, splitAt_append_cons hfirst, ih hstep hsteps]

theorem Writable.no_point {step : List Char} (h : Writable step) : '.' ∉ step :=
  fun hmem => (h.plain _ hmem).1 rfl

/-- A path is taken apart at its points into the root and the steps. -/
theorem splitAt_path (h : ∀ s ∈ steps, Writable s) :
    splitAt '.' (path r steps) = r.name.toList :: steps :=
  splitAt_append_flatMap (writable_name r).no_point fun s hs => (h s hs).no_point

theorem named?_name (r : Root) : Root.named? (String.ofList r.name.toList) = some r := by
  cases r <;> rfl

theorem resolve_path (h : ∀ s ∈ steps, Writable s) : c.resolve (path r steps) =
    ((c.root r).bind fun v => v.follow steps).elim
      (.error (.referenceNotFound (String.ofList (path r steps)))) .ok := by
  have hroot : r.name.toList.isEmpty = false := by
    simpa using (writable_name r).ne_nil
  have hsteps : steps.any (·.isEmpty) = false := by
    simpa [List.any_eq_false] using fun s hs => (h s hs).ne_nil
  unfold resolve
  rw [trim_path h, splitAt_path h]
  simp only [hroot, hsteps, named?_name, Bool.or_self, Bool.false_eq_true, if_false]
  cases (c.root r).bind fun v => v.follow steps <;> rfl

theorem evaluate_address (h : ∀ s ∈ steps, Writable s) (c : Context) :
    evaluate (address r steps) c = c.resolve (path r steps) := by
  have hclosed : '}' ∉ path r steps := fun hmem => (plain_of_mem_path h _ hmem).1 rfl
  have hnormal : Normal [.reference (path r steps)] :=
    ⟨List.forall_mem_singleton.2 hclosed, .singleton _⟩
  exact evaluate_of_scan (scan_print hnormal) c

theorem evaluate_address_eq_ok_iff (h : ∀ s ∈ steps, Writable s) :
    evaluate (address r steps) c = .ok v ↔ ∃ top, c.root r = some top ∧ top.LeadsTo steps v := by
  simp only [← Value.follow_eq_some_iff]
  rw [evaluate_address h, resolve_path h, ← Option.bind_eq_some_iff]
  cases (c.root r).bind fun v => v.follow steps <;> simp

theorem evaluate_address_eq_error_iff (h : ∀ s ∈ steps, Writable s) {e : EvalError} :
    evaluate (address r steps) c = .error e ↔
      e = .referenceNotFound (String.ofList (path r steps)) ∧
        (c.root r = none ∨ ∃ top, c.root r = some top ∧ top.LeadsNowhere steps) := by
  have hnowhere : (c.root r = none ∨ ∃ top, c.root r = some top ∧ top.LeadsNowhere steps) ↔
      ((c.root r).bind fun v => v.follow steps) = none := by
    cases c.root r <;> simp [Value.follow_eq_none_iff]
  rw [hnowhere, evaluate_address h, resolve_path h]
  cases (c.root r).bind fun v => v.follow steps <;> simp [eq_comm]

end Path

section Places

theorem writable_naturalText (i : Nat) : Writable (Double.naturalText i) := by
  refine ⟨Double.naturalText_ne_nil i, fun c hc => ?_⟩
  have hdigit : isDigit c = true := (digits_of_natural? (Double.natural?_naturalText i)).2 c hc
  exact ⟨ne_of_isDigit hdigit rfl, ne_of_isDigit hdigit rfl, isBlank_of_isDigit hdigit⟩

theorem writable_step {p : Value.Place} (h : WritablePlace p) : Writable p.step := by
  cases p with
  | key k => exact h
  | index i => exact writable_naturalText i

theorem writable_steps (h : ∀ p ∈ places, WritablePlace p) :
    ∀ s ∈ places.map Value.Place.step, Writable s :=
  List.forall_mem_map.2 fun p hp => writable_step (h p hp)

/-- The steps to the places of a part lead to it. -/
theorem leadsTo_of_holds (hv : v.Holds places w) (h : ∀ p ∈ places, WritablePlace p) :
    v.LeadsTo (places.map Value.Place.step) w := by
  induction hv with
  | here v => exact .here v
  | key hget _ ih =>
    refine .step (.key ?_) (ih fun p hp => h p (List.mem_cons_of_mem _ hp))
    rwa [Value.Place.step, String.ofList_toList]
  | index hget _ ih =>
    have hsmall := h _ List.mem_cons_self
    exact .step (.index (.digits (Double.natural?_naturalText _) hsmall) hget)
      (ih fun p hp => h p (List.mem_cons_of_mem _ hp))

/-- Within one value no two places have the same steps: it is a mapping or a sequence. -/
theorem places_unique {places' : List Value.Place} {w' : Value} (hw : v.Holds places w)
    (hw' : v.Holds places' w') (h : places.map Value.Place.step = places'.map Value.Place.step) :
    places = places' := by
  induction hw generalizing places' with
  | here v => exact (List.map_eq_nil_iff.1 h.symm).symm
  | @key fs k places v w hget _ ih =>
    cases hw' with
    | here => cases h
    | @key _ k' places' v' _ hget' rest' =>
      obtain ⟨hstep, hsteps⟩ := List.cons.inj h
      obtain rfl : k = k' := String.toList_injective hstep
      obtain rfl : v = v' := Option.some.inj (hget.symm.trans hget')
      rw [ih rest' hsteps]
  | @index items i places v w hget _ ih =>
    cases hw' with
    | here => cases h
    | @index _ i' places' v' _ hget' rest' =>
      obtain ⟨hstep, hsteps⟩ := List.cons.inj h
      obtain rfl : i = i' := Double.naturalText_injective hstep
      obtain rfl : v = v' := Option.some.inj (hget.symm.trans hget')
      rw [ih rest' hsteps]

theorem path_of_address_eq {r' : Root} {steps' : List (List Char)}
    (h : address r steps = address r' steps') : path r steps = path r' steps' := by
  have hprint := String.ofList_injective h
  simpa [print, printSegment] using hprint

theorem name_injective {r' : Root} (h : r.name.toList = r'.name.toList) : r = r' := by
  have hr := named?_name r
  rw [h, named?_name r'] at hr
  exact (Option.some.inj hr).symm

end Places

/-- A reference along steps that can be written has the value to which they lead from the root. It
has no value, and says so with its path, if the root is absent or a step leads nowhere. So every part
of a context whose keys can be written has an address, which is the address of no other part. -/
theorem references_address_parts (c : Context) :
    (∀ r steps, (∀ s ∈ steps, Writable s) →
      (∀ v, evaluate (address r steps) c = .ok v ↔
        ∃ top, c.root r = some top ∧ top.LeadsTo steps v) ∧
      ∀ e, evaluate (address r steps) c = .error e ↔
        e = .referenceNotFound (String.ofList (path r steps)) ∧
          (c.root r = none ∨ ∃ top, c.root r = some top ∧ top.LeadsNowhere steps)) ∧
    (∀ r places v, Located c r places v →
      evaluate (address r (places.map Value.Place.step)) c = .ok v) ∧
    ∀ r places v r' places' v', Located c r places v → Located c r' places' v' →
      address r (places.map Value.Place.step) = address r' (places'.map Value.Place.step) →
      r = r' ∧ places = places' := by
  refine ⟨fun r steps h => ⟨fun v => evaluate_address_eq_ok_iff h,
    fun e => evaluate_address_eq_error_iff h⟩, ?_, ?_⟩
  · rintro r places v ⟨top, htop, hholds, hplaces⟩
    rw [evaluate_address_eq_ok_iff (writable_steps hplaces)]
    exact ⟨top, htop, leadsTo_of_holds hholds hplaces⟩
  · rintro r places v r' places' v' ⟨top, htop, hholds, hplaces⟩
      ⟨top', htop', hholds', hplaces'⟩ heq
    have hsplit := congrArg (splitAt '.') (path_of_address_eq heq)
    rw [splitAt_path (writable_steps hplaces), splitAt_path (writable_steps hplaces')] at hsplit
    obtain ⟨hname, hsteps⟩ := List.cons.inj hsplit
    obtain rfl := name_injective hname
    obtain rfl : top = top' := Option.some.inj (htop.symm.trans htop')
    exact ⟨rfl, places_unique hholds hholds' hsteps⟩

/-- An index may be spelled with a sign and a zero in front, which is not its address, and a numeral
may be a key. -/
theorem references_address_parts_numerals :
    let c : Context := { inputs := [("tags", .sequence [.null, .mapping [("1", .bool true)]])] }
    let spelled := ["tags".toList, "+01".toList, "1".toList]
    let places : List Value.Place := [.key "tags", .index 1, .key "1"]
    (∀ s ∈ spelled, Writable s) ∧ Located c .inputs places (.bool true) ∧
    evaluate (address .inputs spelled) c = .ok (.bool true) ∧
    evaluate (address .outputs spelled) c =
      .error (.referenceNotFound (String.ofList (path .outputs spelled))) ∧
    evaluate (address .inputs (places.map Value.Place.step)) c = .ok (.bool true) ∧
    address .inputs (places.map Value.Place.step) ≠
      address .inputs ([.key "tags", .index 1].map Value.Place.step) := by
  intro c spelled places
  have hspelled : ∀ s ∈ spelled, Writable s := by decide
  have hlocated : Located c .inputs places (.bool true) :=
    ⟨_, rfl, .key rfl (.index rfl (.key rfl (.here _))), by decide⟩
  have houter : Located c .inputs [.key "tags", .index 1] (.mapping [("1", .bool true)]) :=
    ⟨_, rfl, .key rfl (.index rfl (.here _)), by decide⟩
  obtain ⟨hreads, hlocates, hunique⟩ := references_address_parts c
  refine ⟨hspelled, hlocated, ((hreads _ _ hspelled).1 _).2 ⟨_, rfl, ?_⟩,
    ((hreads _ _ hspelled).2 _).2 ⟨rfl, .inr ⟨_, rfl, .here (.key rfl) _⟩⟩,
    hlocates _ _ _ hlocated, fun heq => ?_⟩
  · exact .step (.key rfl) (.step (.index (.plus (n := 1) rfl (by decide)) rfl)
      (.step (.key rfl) (.here _)))
  · exact absurd (hunique _ _ _ _ _ _ hlocated houter heq).2 (by simp [places])

end Template
end FleetCatalog
