import WorkloadIdentity.Settings.Loaded
import WorkloadIdentity.Watch.Session
import WorkloadIdentity.Log.Recorder

/-! The settings of a source and of its logger, from the environment and from the file for
the stage that the environment names. The environment wins over the file. -/

namespace WorkloadIdentity.Settings

open Watch

def initTimeoutVariable : String := "X509_SOURCE_INIT_TIMEOUT_MS"

def policyVariable : String := "X509_SOURCE_WATCH_ERROR_POLICY"

def levelVariable : String := "LOG_LEVEL"

def prettyVariable : String := "LOG_PRETTY"

def stageVariable : String := "NODE_ENV"

def policyName : FailurePolicy → String
  | .keepLast => "keep-last"
  | .close => "close"

def policyOf (name : String) : FailurePolicy :=
  if name = policyName .close then .close else .keepLast

/-- The empty text is as good as none. -/
def unlessEmpty (s : String) : Value := if s = "" then .absent else .text s

def workloadFields : List Field :=
  [⟨Endpoint.socketVariable, .textTo unlessEmpty, .optional⟩,
   ⟨initTimeoutVariable, .positive (some maxInitTimeout), .optional⟩,
   ⟨policyVariable, .choice [policyName .keepLast, policyName .close],
     .default (.text (policyName .keepLast))⟩,
   ⟨levelVariable, .choice (Log.Severity.all.map Log.Severity.name),
     .default (.text Log.Severity.threshold.name)⟩,
   ⟨prettyVariable, .switch, .default (.bool false)⟩]

def workloadSchema : Schema := .fields workloadFields

structure Workload where
  endpoint : Option String
  initTimeout : Option Float
  policy : FailurePolicy
  threshold : Log.Severity
  pretty : Bool

namespace Workload

def text? : Value → Option String
  | .text s => some s
  | _ => none

def number? : Value → Option Float
  | .number x => some x
  | _ => none

def isTrue : Value → Bool
  | .bool b => b
  | _ => false

def ofTable (t : Table Value) : Workload where
  endpoint := (t.get? Endpoint.socketVariable).bind text?
  initTimeout := (t.get? initTimeoutVariable).bind number?
  policy := policyOf (((t.get? policyVariable).bind text?).getD "")
  threshold := (((t.get? levelVariable).bind text?).bind Log.Severity.ofName?).getD
    Log.Severity.threshold
  pretty := ((t.get? prettyVariable).map isTrue).getD false

def options (w : Workload) : Options where
  endpoint := w.endpoint
  initTimeout := (w.initTimeout.map Value.number).getD .absent
  policy := w.policy

end Workload

/-- Settings under the names by which a source and a logger take them; a source takes what there
is. -/
def grouped (t : Table Value) : Value :=
  let setting (key name : String) : String × Value :=
    (name, (t.get? key).getD .absent)
  let given := [setting Endpoint.socketVariable "endpointAddress",
    setting initTimeoutVariable "initTimeoutMs"].filter fun e => !e.2.isAbsent
  .record
    [("source", .record (setting policyVariable "watchErrorPolicy" :: given)),
      ("logging", .record [setting levelVariable "level", setting prettyVariable "prettify"])]

inductive Hindrance where
  | settings (r : Refusal)
  | source (o : Obstacle)

def Hindrance.fault (now : Int) : Hindrance → Fault
  | .settings r => r.fault now
  | .source o => o.fault now

/-- What the settings are loaded with: the parser of environment files, the check of a table against
the fields of a schema, and the sink of a source that brings none of its own, by the threshold and
whether it is to be pretty. -/
structure Loader where
  parse : String → Table String
  check : List Field → Check
  sink : Log.Severity → Bool → Sink

namespace Loader

variable (loader : Loader)

def sources (tree : FileTree) (directory : Path) (environment : Table Value) : List Source :=
  let file := match environment.get? stageVariable with
    | some (.text stage) =>
      if stage = "" then []
      else [Source.envFileWith loader.parse tree directory (".env." ++ stage) false]
    | _ => []
  file ++ [Source.environment environment ""]

def load (tree : FileTree) (directory : Path) (environment : Table Value) :
    Except Refusal Workload :=
  (loadWith (loader.check workloadFields) (loader.sources tree directory environment)).map fun l =>
    Workload.ofTable l.data

/-- Makes a source from the environment; its settings are loaded first, and without a sink of its
own it logs as they say. -/
def startSource (s : Session) (deps : Deps) (tree : FileTree) (directory : Path)
    (environment : Table Value) : Session × Except Hindrance (Nat × Workload) :=
  match loader.load tree directory environment with
  | .error r => (s, .error (.settings r))
  | .ok w =>
    let address := (environment.get? Endpoint.socketVariable).bind Workload.text?
    let sink := deps.sink.getD (loader.sink w.threshold w.pretty)
    let (s, made) := s.create { deps with environment := address, sink := some sink } w.options
    (s, match made with
      | .error o => .error (.source o)
      | .ok i => .ok (i, w))

/-- The sink is a recorder, which throws alike whether it is pretty or not. -/
def standard : Loader where
  parse := Source.parseFile
  check fs given inherited := (Schema.fields fs).check given inherited
  sink threshold _ _ := ({ threshold := some threshold } : Log.Recorder).thrown?

end Loader

def Workload.load (tree : FileTree) (directory : Path) (environment : Table Value) :
    Except Refusal Workload :=
  Loader.standard.load tree directory environment

def startSource (s : Session) (deps : Deps) (tree : FileTree) (directory : Path)
    (environment : Table Value) : Session × Except Hindrance (Nat × Workload) :=
  Loader.standard.startSource s deps tree directory environment

end WorkloadIdentity.Settings
