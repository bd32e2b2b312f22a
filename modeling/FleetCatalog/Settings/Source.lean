import FleetCatalog.Connection
import FleetCatalog.Settings.Host
import FleetCatalog.Settings.Toml.Document
import FleetCatalog.Text.LowerCase
/-!
# Sources of settings

Settings come from property maps, the environment, files and lists of entries. Each source gives
entries, values for paths; the sources are merged in order, so that later ones override earlier
ones.
-/
namespace FleetCatalog

/-- Why there are no settings. -/
inductive SettingsError
  | fileMissing (path : String)
  | fileUnreadable (path reason : String)
  | fileMalformed (path reason : String)
  /-- The merged table is not a connection. -/
  | undecodable (cause : Connection.FieldError)
  /-- A given object is not a connection. -/
  | invalidObject (cause : DecodeError)
  /-- The options are complete but wrong. -/
  | connection (cause : ConnectionError)
  deriving DecidableEq, Inhabited

def ConnectionError.message : ConnectionError → String
  | missing field => field ++ " is required"
  | padded => "invalid value for 'baseUrl': surrounding whitespace"

namespace SettingsError

def message : SettingsError → String
  | fileMissing path => "required config file not found: " ++ path
  | fileUnreadable path reason => "failed to read config file '" ++ path ++ "': " ++ reason
  | fileMalformed path reason => "failed to parse config file '" ++ path ++ "': " ++ reason
  | undecodable cause =>
    "failed to deserialize config: " ++ cause.cause.message ++ "\n" ++
      (match cause.key with
       | some key => "in `" ++ key ++ "`\n"
       | none => "")
  | invalidObject cause => "invalid provider config object: " ++ cause.message
  | connection cause => cause.message

end SettingsError

/-- A value for a path of the merged table; at the empty path a table for the table itself. -/
structure SettingEntry where
  path : List String
  value : Setting

/-- A nonempty text that separates the parts of a variable's name. -/
structure Separator where
  first : Char
  rest : List Char
  deriving DecidableEq, Inhabited

namespace Separator

def ofString? (s : String) : Option Separator :=
  match s.toList with
  | [] => none
  | first :: rest => some ⟨first, rest⟩

/-- What is said of an empty separator. -/
def emptyMessage : String := "separator must not be empty"

def toList (s : Separator) : List Char := s.first :: s.rest

end Separator

/-- Where settings come from. -/
inductive SettingSource
  /-- Properties by name; names are taken as they are. -/
  | properties (values : SortedMap String)
  /-- Variables whose names start with `start` and a separator; the parts that follow are a path
  in lower case. -/
  | environment (start : String) (separator : Separator)
  /-- A file, or the table at a dotted section of it. -/
  | file (path : String) (part : Option String) (required : Bool)
  | entries (es : List SettingEntry)

namespace SettingSource

/-- The entry of a variable, if its name is one that the source reads. -/
def variableEntry (start : String) (separator : Separator) (e : String × String) :
    Option SettingEntry :=
  let front := start.toList ++ separator.toList
  let name := e.1.toList
  let rest := name.drop front.length
  if front.isPrefixOf name ∧ rest ≠ [] then
    let parts := Text.splitOn separator.first separator.rest rest
    some ⟨parts.map fun p => Text.lowerCase (String.ofList p), .text e.2⟩
  else none

/-- The table at the keys of a section. -/
def sectionOf (t : SettingTable) : List String → Option SettingTable
  | [] => some t
  | k :: rest =>
    match Fields.get? k t with
    | some (.table inner) => sectionOf inner rest
    | _ => none

/-- The table of a file; none if it is missing and need not be there. -/
def fileTable (h : Host) (path : String) (required : Bool) :
    Except SettingsError (Option SettingTable) :=
  match h.read path with
  | .missing => if required then .error (.fileMissing path) else .ok none
  | .unreadable reason => .error (.fileUnreadable path reason)
  | .contents bytes =>
    match String.fromUTF8? bytes with
    | none => .error (.fileUnreadable path "not valid text")
    | some text =>
      match Toml.table? text with
      | none => .error (.fileMalformed path "not a table of settings")
      | some t => .ok (some t)

/-- The entries of a source. A section that is not there gives none. -/
def read (h : Host) : SettingSource → Except SettingsError (List SettingEntry)
  | properties values => .ok (values.toList.map fun e => ⟨[e.1], .text e.2⟩)
  | environment start separator =>
    .ok (h.environment.filterMap (variableEntry start separator))
  | entries es => .ok es
  | file path part required => do
    match ← fileTable h path required with
    | none => return []
    | some t =>
      match part with
      | none => return [⟨[], .table t⟩]
      | some name =>
        match sectionOf t ((Text.splitAt '.' name.toList).map String.ofList) with
        | some t => return [⟨[], .table t⟩]
        | none => return []

end SettingSource

namespace Settings

/-- Entries laid over a table one after another. -/
def mergeEntries (t : SettingTable) (es : List SettingEntry) : SettingTable :=
  es.foldl (fun t e => Setting.mergeAt t e.path e.value) t

/-- The table of several sources, later ones over earlier ones. -/
def merged (h : Host) (sources : List SettingSource) : Except SettingsError SettingTable :=
  sources.foldlM (fun t s => (s.read h).map (mergeEntries t)) []

/-- The connection in the table of several sources, not yet checked. -/
def connection (h : Host) (sources : List SettingSource) : Except SettingsError Connection := do
  let t ← merged h sources
  (Connection.ofSettings t).mapError .undecodable

end Settings

namespace Connection

/-- Checks a connection that is to be used for settings. -/
def check (c : Connection) : Except SettingsError Connection := c.validate.mapError .connection

/-- A checked connection from an object. -/
def ofValue (v : Value) : Except SettingsError Connection := do
  let c ← (decode v).mapError .invalidObject
  c.check

end Connection
end FleetCatalog
