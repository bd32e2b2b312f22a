import FleetCatalog.Text.LowerCase.Table
/-!
# Lower case

Lower case of a text, character by character. A capital sigma becomes the final form where a word
ends: after a cased character and not before one, characters that case ignores being skipped.
-/
namespace FleetCatalog.Text

/-- Whether a code point is one of a run. -/
def CaseRun.has (r : CaseRun) (n : Nat) : Bool :=
  decide (r.first ≤ n ∧ n ≤ r.last ∧ (n - r.first) % r.step = 0)

/-- The lower case of one character on its own. -/
def lowerChar (c : Char) : List Char :=
  let n := c.toNat
  if n < 128 then [c.toLower]
  else if n = 0x130 then ['i', '\u0307']
  else
    match caseRuns.find? fun r => r.has n with
    | some r => [Char.ofNat ((n : Int) + r.shift).toNat]
    | none => [c]

/-- Whether the first character that case does not ignore is cased. -/
def meetsCased (cs : List Char) : Bool :=
  match cs.dropWhile fun c => caseIgnorable.has c.toNat with
  | c :: _ => cased.has c.toNat
  | [] => false

/-- Lower case of `rest`, where `before` are the characters in front of it, nearest first. -/
def lowerFrom : List Char → List Char → List Char
  | _, [] => []
  | before, c :: rest =>
    let lower :=
      if c = 'Σ' then
        if meetsCased before && !meetsCased rest then ['ς'] else ['σ']
      else lowerChar c
    lower ++ lowerFrom (c :: before) rest

/-- A text in lower case. -/
def lowerCase (s : String) : String := String.ofList (lowerFrom [] s.toList)

end FleetCatalog.Text
