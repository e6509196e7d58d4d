import WorkloadIdentity.Settings.Source
import WorkloadIdentity.Settings.Schema
import WorkloadIdentity.Fault.Standard

/-! Settings from several sources. A later source wins over an earlier one, name by name,
and each name remembers the source that won. What comes out is checked as a whole. The
first source that cannot be loaded is the one that is told of. -/

namespace WorkloadIdentity.Settings

structure Loaded where
  data : Table Value
  provenance : Table String := []
  provided : List String := []

def fromSchema : String := "default"

/-- What is told of the origin of a setting. Under an innate name that no source gives there is
something else, which is no name. -/
inductive Origin where
  | named (source : String)
  | innate (i : Innate)
  deriving DecidableEq, Repr

def Origin.name? : Origin → Option String
  | .named source => some source
  | .innate _ => none

namespace Loaded

def keys (l : Loaded) : List String := l.data.keys

/-- The setting, absent if there is none; what an innate name stands for is no setting. -/
def get? (l : Loaded) (key : String) : Option Value :=
  match l.data.get? key, Innate.ofName? key with
  | some v, _ => some v
  | none, none => some .absent
  | none, some _ => none

def explain (l : Loaded) (key : String) : Origin :=
  match l.provenance.get? key, Innate.ofName? key with
  | some source, _ => .named source
  | none, none => .named fromSchema
  | none, some i => .innate i

theorem explain_of_given {l : Loaded} {key source : String}
    (h : l.provenance.get? key = some source) : l.explain key = .named source := by
  simp [explain, h]

theorem explain_of_not_given {l : Loaded} {key : String} (h : l.provenance.get? key = none)
    (hk : Innate.ofName? key = none) : l.explain key = .named fromSchema := by
  simp [explain, h, hk]

/-- In the order in which the settings name them. -/
def sourcesUsed (l : Loaded) : List Origin := (l.keys.map l.explain).eraseDups

def unknownKeys (l : Loaded) : List String :=
  l.provided.eraseDups.filter fun k => !l.keys.contains k

end Loaded

inductive Refusal where
  | source (name : String) (p : LoadProblem)
  | invalid (told sources : List String)

namespace Refusal

def fault (now : Int) : Refusal → Fault
  | .source name p => .configuration now
      ("Configuration source \"" ++ name ++ "\" failed to load") [("source", .text name)] p.value
  | .invalid told sources => .configuration now
      ("Configuration validation failed:\n" ++ "\n".intercalate told)
      [("sources", .list (sources.map .text))]

end Refusal

/-- What the sources so far have given, and which of them gave it. Settings can have a parent, from
which they inherit what they lack; the common parent, which they have at first, lacks everything,
and a parent can be cut off. -/
structure Merged where
  values : Table Value := []
  provenance : Table String := []
  parent : Option (Table Value) := some []

namespace Merged

/-- The name of the parent gives a new one, unless a setting has that name. -/
def acceptsParent (m : Merged) : Bool :=
  match m.parent with
  | none => false
  | some inherited =>
    !(m.values ++ inherited).any fun e => e.1 = Innate.parent.name

/-- A record is a parent, a value without members of use is as good as none, and anything else
leaves the parent as it is. -/
def withParent (m : Merged) : Value → Merged
  | .null => { m with parent := none }
  | .record fields => { m with parent := some fields }
  | .list _ => { m with parent := some [] }
  | .fault _ => { m with parent := some [] }
  | _ => m

def inherited (m : Merged) : Table Value := m.parent.getD []

def putFrom (source : String) (m : Merged) (e : String × Value) : Merged :=
  if e.2.isAbsent then m
  else if e.1 ≠ Innate.parent.name then
    { m with values := m.values.put e.1 e.2, provenance := m.provenance.put e.1 source }
  else if m.acceptsParent then m.withParent e.2
  else { m with values := m.values.put e.1 e.2 }

theorem putFrom_of_present {e : String × Value} (source : String) (m : Merged)
    (h : e.2.isAbsent = false) (hk : e.1 ≠ Innate.parent.name) :
    m.putFrom source e = { m with
      values := m.values.put e.1 e.2, provenance := m.provenance.put e.1 source } := by
  simp [putFrom, h, hk]

def add (m : Merged) (source : String) (values : Table Value) : Merged :=
  values.foldl (putFrom source) m

/-- The sources in order, up to the first that cannot be loaded. -/
def addAll (m : Merged) : List Source → Except Refusal Merged
  | [] => .ok m
  | s :: rest =>
    match s.loaded with
    | .error p => .error (.source s.name p)
    | .ok values => (m.add s.name values).addAll rest

end Merged

/-- Settings that are given, and those that are inherited, become what is accepted of them, or all
that is wrong is told. -/
abbrev Check := Table Value → Table Value → Except (List String) (Table Value)

def loadWith (check : Check) (sources : List Source) : Except Refusal Loaded :=
  match ({} : Merged).addAll sources with
  | .error r => .error r
  | .ok m =>
    match check m.values m.inherited with
    | .error told => .error (.invalid told (sources.map Source.name))
    | .ok data => .ok ⟨data, m.provenance, m.values.keys⟩

def load (schema : Schema) (sources : List Source) : Except Refusal Loaded :=
  loadWith (fun given inherited => schema.check given inherited) sources

end WorkloadIdentity.Settings
