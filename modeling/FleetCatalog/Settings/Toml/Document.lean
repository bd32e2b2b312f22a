import FleetCatalog.Settings.Toml.Scalar
/-!
# Documents of the settings format

Keys, arrays, inline tables and the tables of a document. Each table remembers how it came to
be, because that decides what may still be added to it: a table with a header of its own is
complete but for its body, one made by a dotted key grows by dotted keys only, and one implied
by a longer header may still get its own. A table below the root that begins with the reserved
key of points in time stands for one.
-/
namespace FleetCatalog.Toml

/-- How a table of a document came to be. -/
inductive Origin
  | header
  | implied
  | dotted
  deriving DecidableEq

/-- A part of a document. Entries are in the order in which they were added. -/
inductive Node
  | value (v : Setting)
  | list (items : List Node)
  /-- A table within a line, complete as it stands. -/
  | inline (entries : List (String × Node))
  | table (origin : Origin) (entries : List (String × Node))
  /-- An array of tables: its last row, and the earlier rows from the last backwards. -/
  | rows (last : List (String × Node)) (earlier : List (List (String × Node)))
  deriving Inhabited

abbrev Entries := List (String × Node)

mutual
/-- A part of a document as a setting, if the points in time in it are such. -/
def Node.setting? : Node → Option Setting
  | .value v => some v
  | .list items => (itemSettings? items).map .list
  | .inline es => tableSetting? es
  | .table _ es => tableSetting? es
  | .rows last earlier => do
    let v ← tableSetting? last
    let vs ← rowSettings? earlier
    return .list (v :: vs).reverse

/-- A table below the root. Under the reserved key as its first only the text of a point in time may
stand, and further entries do not count. -/
def tableSetting? : List (String × Node) → Option Setting
  | [] => some (.table [])
  | (k, n) :: r =>
    if k = Moment.reservedKey then
      match n with
      | .value (.text s) => (Moment.ofString? s).map .moment
      | _ => none
    else do
      let v ← n.setting?
      let t ← settings? r
      return .table (SortedMap.place k v t)

def settings? : List (String × Node) → Option SettingTable
  | [] => some []
  | (k, n) :: r => do
    let v ← n.setting?
    let t ← settings? r
    return SortedMap.place k v t

def itemSettings? : List Node → Option (List Setting)
  | [] => some []
  | n :: r => do
    let v ← n.setting?
    let vs ← itemSettings? r
    return v :: vs

def rowSettings? : List (List (String × Node)) → Option (List Setting)
  | [] => some []
  | es :: r => do
    let v ← tableSetting? es
    let vs ← rowSettings? r
    return v :: vs
end

/-- Adds a value under a dotted key, given as the tables on the way and the last part. -/
def Entries.insert : List String → String → Node → Entries → Option Entries
  | [], k, v, es => if (Fields.get? k es).isSome then none else some (Fields.put k v es)
  | t :: path, k, v, es =>
    match Fields.get? t es with
    | none => (insert path k v []).map fun c => Fields.put t (.table .dotted c) es
    | some (.table .dotted c) =>
      (insert path k v c).map fun c => Fields.put t (.table .dotted c) es
    | some (.table .implied c) =>
      if path.isEmpty then none
      else (insert path k v c).map fun c => Fields.put t (.table .implied c) es
    | some (.rows last earlier) =>
      if path.isEmpty then none
      else (insert path k v last).map fun c => Fields.put t (.rows c earlier) es
    | some _ => none

/-- Changes the entries at a path of headers. Tables that are not there are implied; of an array
of tables the last row is meant. -/
def Entries.within (change : Entries → Option Entries) : List String → Entries → Option Entries
  | [], es => change es
  | t :: path, es =>
    match Fields.get? t es with
    | none => (within change path []).map fun c => Fields.put t (.table .implied c) es
    | some (.table o c) => (within change path c).map fun c => Fields.put t (.table o c) es
    | some (.rows last earlier) =>
      (within change path last).map fun c => Fields.put t (.rows c earlier) es
    | some _ => none

/-- Opens a table under its header. One that was implied so far moves behind the others. -/
def Entries.openTable (k : String) (es : Entries) : Option Entries :=
  match Fields.get? k es with
  | none => some (Fields.put k (.table .header []) es)
  | some (.table .implied c) => some (Fields.put k (.table .header c) (Fields.erase k es))
  | some _ => none

/-- Opens a further row of an array of tables. -/
def Entries.openRow (k : String) (es : Entries) : Option Entries :=
  match Fields.get? k es with
  | none => some (Fields.put k (.rows [] []) es)
  | some (.rows last earlier) => some (Fields.put k (.rows [] (last :: earlier)) es)
  | some _ => none

def isKeyChar (c : Char) : Bool := c.isAlphanum || c = '_' || c = '-'

/-- One part of a key. -/
def keyPart (cs : List Char) : Option (String × List Char) :=
  match cs with
  | '"' :: r => basicString (r.length + 1) [] r
  | '\'' :: r => literalString r
  | _ =>
    match cs.takeWhile isKeyChar with
    | [] => none
    | ks => some (String.ofList ks, cs.dropWhile isKeyChar)

/-- The most parts a key may have, and one more than the deepest nesting of a value. -/
def depthLimit : Nat := 80

/-- The parts of a key with points between them; blanks around the parts do not count. -/
def keyParts : Nat → List Char → Option (List String × List Char)
  | 0, _ => none
  | n + 1, cs => do
    let (k, r) ← keyPart (skipBlanks cs)
    match skipBlanks r with
    | '.' :: r =>
      let (ks, r) ← keyParts n r
      return (k :: ks, r)
    | r => return ([k], r)

/-- A key as the tables on the way and the last part. -/
def key (cs : List Char) : Option ((List String × String) × List Char) := do
  let (ks, r) ← keyParts (depthLimit - 1) cs
  let last ← ks.getLast?
  return ((ks.dropLast, last), r)

/-- Without a comment at the front. -/
def skipComment : List Char → List Char
  | '#' :: r => r.dropWhile isPlain
  | cs => cs

/-- Without blanks, comments and line ends at the front. -/
def skipBetween : Nat → List Char → List Char
  | 0, cs => cs
  | n + 1, cs =>
    match newline? (skipComment (skipBlanks cs)) with
    | some r => skipBetween n r
    | none => skipBlanks cs

/-- Items up to the closing bracket, a comma after the last being allowed. -/
def arrayItems (item : List Char → Option (Node × List Char)) :
    Nat → List Node → List Char → Option (List Node × List Char)
  | 0, _, _ => none
  | n + 1, read, cs =>
    match skipBetween cs.length cs with
    | ']' :: r => some (read.reverse, r)
    | cs =>
      match item cs with
      | none => none
      | some (v, r) =>
        match skipBetween r.length r with
        | ',' :: r => arrayItems item n (v :: read) r
        | ']' :: r => some ((v :: read).reverse, r)
        | _ => none

/-- Entries up to the closing brace, on one line and without a comma after the last. -/
def inlineEntries (item : List Char → Option (Node × List Char)) :
    Nat → Entries → List Char → Option (Entries × List Char)
  | 0, _, _ => none
  | n + 1, read, cs =>
    match key cs with
    | some ((path, k), '=' :: r) =>
      match item (skipBlanks r) with
      | none => none
      | some (v, r) =>
        match Entries.insert path k v read, skipBlanks r with
        | some read, ',' :: r => inlineEntries item n read r
        | some read, '}' :: r => some (read, r)
        | _, _ => none
    | _ => none

/-- A value that is neither an array nor a table. -/
def scalar : List Char → Option (Setting × List Char)
  | 't' :: 'r' :: 'u' :: 'e' :: r => some (.bool true, r)
  | 'f' :: 'a' :: 'l' :: 's' :: 'e' :: r => some (.bool false, r)
  | '"' :: r => (string? ('"' :: r)).map fun p => (.text p.1, p.2)
  | '\'' :: r => (string? ('\'' :: r)).map fun p => (.text p.1, p.2)
  | cs => number cs

/-- A value, nested no deeper than the first argument says. -/
def value : Nat → List Char → Option (Node × List Char)
  | depth + 1, '[' :: r =>
    (arrayItems (value depth) (r.length + 1) [] r).map fun p => (.list p.1, p.2)
  | depth + 1, '{' :: r =>
    match skipBlanks r with
    | '}' :: r => some (.inline [], r)
    | r => (inlineEntries (value depth) (r.length + 1) [] r).map fun p => (.inline p.1, p.2)
  | _, cs => (scalar cs).map fun p => (.value p.1, p.2)

/-- The text after the end of a line, at which only blanks and a comment may stand. -/
def lineEnd (cs : List Char) : Option (List Char) :=
  match skipComment (skipBlanks cs) with
  | [] => some []
  | r => newline? r

/-- What has been read of a document: its tables, and the header whose body is being read. -/
structure Draft where
  root : Entries := []
  header : List String := []

/-- One line or, where a value spans several, the lines of one entry. -/
def line (d : Draft) (cs : List Char) : Option (Draft × List Char) :=
  match cs with
  | '#' :: _ => (lineEnd cs).map (d, ·)
  | '\n' :: _ => (newline? cs).map (d, ·)
  | '\r' :: _ => (newline? cs).map (d, ·)
  | '[' :: '[' :: r => do
    let ((path, k), r) ← key r
    match r with
    | ']' :: ']' :: r =>
      let root ← Entries.within (Entries.openRow k) path d.root
      let r ← lineEnd r
      return (⟨root, path ++ [k]⟩, r)
    | _ => none
  | '[' :: r => do
    let ((path, k), r) ← key r
    match r with
    | ']' :: r =>
      let root ← Entries.within (Entries.openTable k) path d.root
      let r ← lineEnd r
      return (⟨root, path ++ [k]⟩, r)
    | _ => none
  | _ => do
    let ((path, k), r) ← key cs
    match r with
    | '=' :: r =>
      let (v, r) ← value (depthLimit - 1) (skipBlanks r)
      let root ← Entries.within (Entries.insert path k v) d.header d.root
      let r ← lineEnd r
      return ({ d with root }, r)
    | _ => none

/-- All lines of a document. -/
def lines : Nat → Draft → List Char → Option Draft
  | 0, _, _ => none
  | n + 1, d, cs =>
    match skipBlanks cs with
    | [] => some d
    | cs =>
      match line d cs with
      | some (d, r) => lines n d r
      | none => none

/-- The table that a document stands for. A byte order mark in front of it does not count. -/
def table? (text : String) : Option SettingTable :=
  let cs := match text.toList with
    | '\ufeff' :: r => r
    | cs => cs
  (lines (cs.length + 1) {} cs).bind fun d => settings? d.root

end FleetCatalog.Toml
