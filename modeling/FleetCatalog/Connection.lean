import FleetCatalog.Settings.Setting
import FleetCatalog.Text.Blank
/-!
# Connections

The options by which a provider reaches the store behind it: a base URL, a user and a password.
They are read from a record or from a merged table of settings by the same rules, and are checked
once they are complete. The base URL has three accepted spellings.
-/
namespace FleetCatalog

/-- How a provider reaches its store. -/
structure Connection where
  baseUrl : String := ""
  user : String := ""
  password : String := ""
  deriving DecidableEq, Inhabited

/-- Why the options do not describe a connection. -/
inductive ConnectionError
  | missing (field : String)
  /-- The base URL starts or ends with white space. -/
  | padded
  deriving DecidableEq, Inhabited

namespace Connection

/-- A field of a connection. -/
inductive Field
  | baseUrl
  | user
  | password
  deriving DecidableEq

/-- The name of a field as it is written. -/
def Field.name : Field → String
  | baseUrl => "baseUrl"
  | user => "user"
  | password => "password"

/-- The field that a key stands for. -/
def Field.ofKey? (key : String) : Option Field :=
  if key = "baseUrl" ∨ key = "base_url" ∨ key = "baseurl" then some .baseUrl
  else if key = "user" then some .user
  else if key = "password" then some .password
  else none

/-- The fields read so far. -/
structure Draft where
  baseUrl : Option String := none
  user : Option String := none
  password : Option String := none
  deriving DecidableEq

def Draft.get (d : Draft) : Field → Option String
  | .baseUrl => d.baseUrl
  | .user => d.user
  | .password => d.password

def Draft.set (d : Draft) (f : Field) (s : String) : Draft :=
  match f with
  | .baseUrl => { d with baseUrl := some s }
  | .user => { d with user := some s }
  | .password => { d with password := some s }

/-- The connection with the fields read, absent ones being empty. -/
def Draft.finish (d : Draft) : Connection :=
  ⟨d.baseUrl.getD "", d.user.getD "", d.password.getD ""⟩

/-- Why an entry cannot be read, with its key if its value is at fault. -/
structure FieldError where
  cause : DecodeError
  key : Option String := none
  deriving DecidableEq, Inhabited

/-- Reads one entry. A field that has been read is refused before its second value is looked at. -/
def readEntry {β : Type} (text : β → Except DecodeError String) (d : Draft) (e : String × β) :
    Except FieldError Draft :=
  match Field.ofKey? e.1 with
  | none => .ok d
  | some f =>
    if (d.get f).isSome then .error { cause := .duplicateField f.name }
    else
      match text e.2 with
      | .ok s => .ok (d.set f s)
      | .error cause => .error { cause, key := some e.1 }

/-- Reads entries in order. -/
def readEntries {β : Type} (text : β → Except DecodeError String) (es : List (String × β)) :
    Except FieldError Connection :=
  (es.foldlM (readEntry text) {}).map Draft.finish

def declared : List String := ["baseUrl", "user", "password"]

def decode : Value → Except DecodeError Connection
  | .mapping fs => (readEntries Decode.text fs).mapError (·.cause)
  | .sequence vs => do
    let c ← (readEntries Decode.text (declared.zip vs)).mapError (·.cause)
    if declared.length < vs.length then .error (.tooManyElements vs.length) else .ok c
  | v => .error (.wrongType v.found (.record "ProviderConfig"))

def encode (c : Connection) : Value :=
  .mapping <|
    [("baseUrl", .string c.baseUrl), ("user", .string c.user)] ++
    Encode.textUnlessEmpty "password" c.password

instance : Record Connection := ⟨decode, encode⟩

/-- A setting that has to be text; a point in time is. -/
def settingText : Setting → Except DecodeError String
  | .text s => .ok s
  | .moment m => .ok m.text
  | v => .error (.wrongType v.found .text)

/-- Reads a table of settings, in key order. -/
def ofSettings (t : SettingTable) : Except FieldError Connection := readEntries settingText t

/-- A connection needs a base URL without white space around it, and a user. -/
def validate (c : Connection) : Except ConnectionError Connection :=
  if c.baseUrl = "" then .error (.missing "baseUrl")
  else if c.user = "" then .error (.missing "user")
  else if Text.trim c.baseUrl.toList ≠ c.baseUrl.toList then .error .padded
  else .ok c

/-- Accepted is, as it is, what has a user and a base URL without white space at its ends. -/
theorem validate_eq_ok_iff {c c' : Connection} : validate c = .ok c' ↔
    c' = c ∧ c.user ≠ "" ∧ c.baseUrl ≠ "" ∧
      (∀ d, c.baseUrl.toList.head? = some d → Text.isBlank d = false) ∧
      ∀ d, c.baseUrl.toList.getLast? = some d → Text.isBlank d = false := by
  rw [← Text.trim_eq_self_iff]
  unfold validate
  by_cases hbase : c.baseUrl = ""
  · simp [hbase]
  by_cases huser : c.user = ""
  · simp [hbase, huser]
  by_cases htrim : Text.trim c.baseUrl.toList = c.baseUrl.toList
  · simp [hbase, huser, htrim, eq_comm]
  · simp [hbase, huser, htrim]

/-- A checked connection without a password. -/
def make (baseUrl user : String) : Except ConnectionError Connection :=
  validate { baseUrl, user }

/-- A checked connection from a map of properties, by the first spelling of each field. -/
def ofProperties (m : SortedMap String) : Except ConnectionError Connection :=
  validate
    { baseUrl := (m.get? "baseUrl").getD ""
      user := (m.get? "user").getD ""
      password := (m.get? "password").getD "" }

/-- How the owner of a connection shows itself, without the password. -/
def describe (owner : String) (c : Connection) : String :=
  owner ++ " \x7b base_url: " ++ Text.quoted c.baseUrl ++ ", user: " ++ Text.quoted c.user ++
    ", .. \x7d"

def withPassword (c : Connection) (password : String) : Connection := { c with password }

end Connection
end FleetCatalog
