import FleetCatalog.Proofs.Patch.Matching

/-! Entries that are told apart by a key stay told apart. Of two entries with the key that match, a patch
could touch only the first, so it matters that no patch makes a second one: what it puts in matches what
it takes out, or matches nothing that is there. -/
namespace FleetCatalog.Patch

/-- Two values are one under a key: numbers if they are equal as floating point, other values if they are
the same. -/
def SameKey : Value → Value → Prop
  | .number a, .number b => Double.Same a.toDouble b.toDouble
  | v, w => Value.Same v w

/-- The value of an entry under the key, if the entry is a mapping that has one. -/
def keyValue (key : String) : Value → Option Value
  | .mapping fs => Fields.get? key fs
  | _ => none

/-- Both entries are mappings with the key, and their values under it are one. -/
def Matches (key : String) (a b : Value) : Prop :=
  ∃ v w, keyValue key a = some v ∧ keyValue key b = some w ∧ SameKey v w

/-- No two entries of a sequence match. -/
def Unambiguous (key : String) (items : List Value) : Prop :=
  items.Pairwise fun a b => ¬ Matches key a b

/-- The sequence after patches one after another, whether they change anything or not. -/
def sequenceAll (key : String) (items : List Value) (patches : List (Mapping × Action)) : List Value :=
  patches.foldl (fun items p => (sequence items p.1 key p.2).result) items

/-- A value with its number, if it is one, as floating point, and otherwise in canonical form. -/
def keyForm : Value → Value
  | .number n => .number (.float n.toDouble.canonical)
  | v => v.canonical

theorem sameKey_iff (v w : Value) : SameKey v w ↔ keyForm v = keyForm w := by
  cases v <;> cases w <;>
    simp [SameKey, keyForm, Value.Same, Value.canonical, Double.Same]

theorem alike_some_iff (v w : Value) : alike (some v) (some w) = true ↔ SameKey v w := by
  cases v <;> cases w <;> simp [alike, SameKey]

instance (v w : Value) : Decidable (SameKey v w) := decidable_of_iff _ (alike_some_iff v w)

instance (key : String) (a b : Value) : Decidable (Matches key a b) :=
  decidable_of_iff
    ((keyValue key a).any fun v => (keyValue key b).any fun w => decide (SameKey v w))
    (by simp [Matches, Option.any_eq_true])

instance (key : String) (items : List Value) : Decidable (Unambiguous key items) :=
  inferInstanceAs (Decidable (List.Pairwise _ _))

variable {key : String} {payload fs : Mapping} {action : Action} {items pre post : List Value}
  {a b c entry : Value}

theorem Matches.symm (h : Matches key a b) : Matches key b a := by
  obtain ⟨v, w, ha, hb, h⟩ := h
  rw [sameKey_iff] at h
  exact ⟨w, v, hb, ha, (sameKey_iff w v).2 h.symm⟩

theorem Matches.trans (h : Matches key a b) (h' : Matches key b c) : Matches key a c := by
  obtain ⟨v, w, ha, hb, h⟩ := h
  obtain ⟨w', x, hb', hc, h'⟩ := h'
  rw [hb, Option.some.injEq] at hb'
  subst hb'
  rw [sameKey_iff] at h h'
  exact ⟨v, x, ha, hc, (sameKey_iff v x).2 (h.trans h')⟩

theorem keyed_iff : Keyed key entry ↔ ∃ v, keyValue key entry = some v := by
  cases entry <;> simp [Keyed, keyValue, Option.isSome_iff_exists]

theorem Matches.keyed (h : Matches key a b) : Keyed key b := by
  obtain ⟨v, w, -, hb, -⟩ := h
  exact keyed_iff.2 ⟨w, hb⟩

/-- For a payload with the key the entries that are addressed are those that match it. -/
theorem addresses_iff_matches (h : Keyed key (.mapping payload)) :
    addresses key payload entry = true ↔ Matches key entry (.mapping payload) := by
  obtain ⟨w, hw⟩ := keyed_iff.1 h
  have hw' : Fields.get? key payload = some w := hw
  cases entry with
  | mapping fs =>
    rw [addresses, hw']
    cases hv : Fields.get? key fs with
    | none => simp [alike, Matches, keyValue, hv]
    | some v => simp [alike_some_iff, Matches, keyValue, hv, hw']
  | _ => simp [addresses, Matches, keyValue]

/-- What is put in the place of an entry that it addresses matches no more than the entry did. -/
theorem matches_of_addresses (h : addresses key payload entry = true)
    (ha : Matches key a (.mapping payload)) : Matches key a entry :=
  ha.trans ((addresses_iff_matches ha.keyed).1 h).symm

theorem Unambiguous.append (h : Unambiguous key items)
    (hnone : ∀ entry ∈ items, addresses key payload entry = false) (action : Action) :
    Unambiguous key (items ++ action.entries (.mapping payload)) := by
  cases action with
  | add =>
    refine List.pairwise_append.2 ⟨h, List.pairwise_singleton _ _, ?_⟩
    intro a ha b hb hmatch
    obtain rfl := List.mem_singleton.1 hb
    have haddressed := (addresses_iff_matches hmatch.keyed).2 hmatch
    rw [hnone a ha] at haddressed
    cases haddressed
  | remove => simpa [Action.entries] using h

theorem Unambiguous.replace (h : Unambiguous key items)
    (hfirst : First (addresses key payload) items pre entry post) (action : Action) :
    Unambiguous key (pre ++ (action.entries (.mapping payload) ++ post)) := by
  rw [hfirst.split] at h
  cases action with
  | add =>
    simp only [Unambiguous, Action.entries, List.singleton_append, List.pairwise_append,
      List.pairwise_cons, List.mem_cons, forall_eq_or_imp] at h ⊢
    obtain ⟨hpre, ⟨hentry, hpost⟩, hcross⟩ := h
    refine ⟨hpre, ⟨fun b hb hmatch => ?_, hpost⟩, fun a ha => ⟨fun hmatch => ?_, (hcross a ha).2⟩⟩
    · exact hentry b hb (matches_of_addresses hfirst.holds hmatch.symm).symm
    · exact (hcross a ha).1 (matches_of_addresses hfirst.holds hmatch)
  | remove =>
    refine List.Pairwise.sublist ?_ h
    simp [Action.entries]

/-- A patch makes no two entries match, whether or not its payload has the key. -/
theorem Unambiguous.sequence (hkey : key ≠ "") (h : Unambiguous key items) (payload : Mapping)
    (action : Action) : Unambiguous key (sequence items payload key action).result := by
  obtain hnone | ⟨pre, entry, post, hfirst⟩ := none_or_exists_first (addresses key payload) items
  · rw [(sequence_eq_append_iff hkey items payload action).2 hnone]
    exact h.append hnone action
  · rw [(Touched.of_first hkey hfirst action).patched]
    exact h.replace hfirst action

theorem Unambiguous.sequenceAll (hkey : key ≠ "") (h : Unambiguous key items)
    (patches : List (Mapping × Action)) : Unambiguous key (sequenceAll key items patches) := by
  induction patches generalizing items with
  | nil => exact h
  | cons p patches ih => exact ih (h.sequence hkey p.1 p.2)

/-- What is added stands somewhere in the sequence. -/
theorem exists_split_of_add (hkey : key ≠ "") (items : List Value) (payload : Mapping) :
    ∃ pre post, (Patch.sequence items payload key .add).result = pre ++ .mapping payload :: post := by
  obtain hnone | ⟨pre, entry, post, hfirst⟩ := none_or_exists_first (addresses key payload) items
  · rw [(sequence_eq_append_iff hkey items payload .add).2 hnone]
    exact ⟨items, [], rfl⟩
  · rw [(Touched.of_first hkey hfirst .add).patched]
    exact ⟨pre, post, rfl⟩

/-- Where no two entries match none do after any run of patches, and right after a payload with the key
has been added it is the one entry that matches it. -/
theorem entries_stay_unambiguous (hkey : key ≠ "") (h : Unambiguous key items)
    (patches : List (Mapping × Action)) : Unambiguous key (sequenceAll key items patches) ∧
      ∀ payload, Keyed key (.mapping payload) →
        ∃ pre post, sequenceAll key items (patches ++ [(payload, .add)]) =
            pre ++ .mapping payload :: post ∧ Matches key (.mapping payload) (.mapping payload) ∧
          ∀ entry ∈ pre ++ post, ¬ Matches key entry (.mapping payload) := by
  refine ⟨h.sequenceAll hkey patches, fun payload hpayload => ?_⟩
  have hrun : sequenceAll key items (patches ++ [(payload, .add)]) =
      (Patch.sequence (sequenceAll key items patches) payload key .add).result := by
    simp [sequenceAll]
  obtain ⟨pre, post, hsplit⟩ := exists_split_of_add hkey (sequenceAll key items patches) payload
  have hafter := h.sequenceAll hkey (patches ++ [(payload, .add)])
  rw [hrun, hsplit] at hafter ⊢
  refine ⟨pre, post, rfl, (addresses_iff_matches hpayload).1 (addresses_self key payload), ?_⟩
  simp only [Unambiguous, List.pairwise_append, List.pairwise_cons, List.mem_cons,
    forall_eq_or_imp] at hafter
  obtain ⟨-, ⟨hpost, -⟩, hcross⟩ := hafter
  intro entry hentry hmatch
  obtain hpre | hpost' := List.mem_append.1 hentry
  · exact (hcross entry hpre).1 hmatch
  · exact hpost entry hpost' hmatch.symm

/-- A number takes the place of the integer that it is equal to, and a text with the same digits stays
beside it. A scalar and a mapping without the key stand between them. -/
theorem entries_stay_unambiguous_numbers :
    let one : Mapping := [("id", .number (.int 1)), ("image", .string "a")]
    let text : Value := .mapping [("id", .string "1")]
    let items : List Value := [.mapping one, .string "1", .mapping [("image", .string "a")], text]
    let float : Mapping := [("id", .number (.float (Double.ofInt 1)))]
    let patches : List (Mapping × Action) := [(one, .remove), ([], .remove), (one, .add)]
    Unambiguous "id" items ∧ sequenceAll "id" items patches = [.string "1", text, .mapping one] ∧
    Unambiguous "id" (sequenceAll "id" items patches) ∧
    sequenceAll "id" items (patches ++ [(float, .add)]) = [.string "1", text, .mapping float] ∧
    ∃ pre post, sequenceAll "id" items (patches ++ [(float, .add)]) = pre ++ .mapping float :: post ∧
      Matches "id" (.mapping float) (.mapping float) ∧
      ∀ entry ∈ pre ++ post, ¬ Matches "id" entry (.mapping float) := by
  intro one text items float patches
  have hitems : Unambiguous "id" items := by decide +kernel
  have hafter : sequenceAll "id" items patches = [.string "1", text, .mapping one] := by
    decide +kernel
  have hadded : sequenceAll "id" items (patches ++ [(float, .add)]) =
      [.string "1", text, .mapping float] := by
    decide +kernel
  obtain ⟨hkeeps, hadds⟩ := entries_stay_unambiguous (by decide) hitems patches
  exact ⟨hitems, hafter, hkeeps, hadded, hadds float (by decide)⟩

end FleetCatalog.Patch
