import WorkloadIdentity.Settings.EnvFile
import WorkloadIdentity.Settings.FileTree
import WorkloadIdentity.Text.Utf8
import WorkloadIdentity.Value

/-! Sources of settings. A source has a name, by which a setting tells where it came
from, and either values or the reason why it has none. A value that is absent counts as
not given. -/

namespace WorkloadIdentity.Settings

inductive LoadProblem where
  | unreadable (path : String) (p : ReadProblem)
  | thrown (v : Value)

namespace LoadProblem

def value : LoadProblem → Value
  | .unreadable path p => .fault (.foreign { kind := p.kind, message := p.message path } .absent)
  | .thrown v => v

def code? : LoadProblem → Option String
  | .unreadable _ p => some p.code
  | .thrown _ => none

end LoadProblem

structure Source where
  name : String
  loaded : Except LoadProblem (Table Value)

namespace Source

def afterStem (stem name : String) : Option String :=
  if stem.toList.isPrefixOf name.toList then
    some (String.ofList (name.toList.drop stem.toList.length))
  else none

theorem afterStem_append (stem name : String) : afterStem stem (stem ++ name) = some name := by
  simp [afterStem]

/-- A text cannot be a parent, so nothing comes of one under the name of the parent. -/
def withoutParent {α : Type} (t : Table α) : Table α := t.erase Innate.parent.name

def environment (given : Table Value) (stem : String) : Source where
  name := if stem = "" then "env" else "env:" ++ stem
  loaded := .ok (Table.ofList (withoutParent (given.filterMap fun e =>
    (afterStem stem e.1).map fun name => (name, e.2))))

def defaultName : String := "overrides"

def fixed (values : Table Value) (name : String) : Source where
  name := "object:" ++ name
  loaded := .ok values

def failing (name : String) (v : Value) : Source where
  name := name
  loaded := .error (.thrown v)

def texts (t : Table String) : Table Value := t.map fun e => (e.1, .text e.2)

/-- A file that is not required may be missing, but it has to be readable when it is there. -/
def envFileWith (parse : String → Table String) (tree : FileTree) (directory : Path) (file : String)
    (required : Bool) : Source where
  name := "dotenv:" ++ file
  loaded :=
    let path := directory.resolve file
    match tree.read path with
    | .ok bytes => .ok (texts (parse (Text.Utf8.decode bytes)))
    | .error p =>
      if p = .missing ∧ required = false then .ok [] else .error (.unreadable path.text p)

def parseFile (content : String) : Table String := withoutParent (EnvFile.parse content)

def envFile (tree : FileTree) (directory : Path) (file : String) (required : Bool) : Source :=
  envFileWith parseFile tree directory file required

end Source

end WorkloadIdentity.Settings
