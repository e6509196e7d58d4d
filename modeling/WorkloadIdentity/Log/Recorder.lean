import WorkloadIdentity.Log.Entry
import WorkloadIdentity.Log.Abridged
import WorkloadIdentity.Log.Exchange
import WorkloadIdentity.Log.FaultForm

/-! Recorded logs: one line of JSON an entry, for a collector. Severities and times are
numbers. Of several members with one name the last is what a reader sees, and the
message comes last. A context is written when it is given, once for all entries; it
cannot name the level, and its names stand in the line as they are given. -/

namespace WorkloadIdentity.Log

/-- What is written under an innate name, as it stands in the line; nothing under the names by
which computed members are found, for there are none. -/
def innateText? (v : Value) : Innate → Except Unrecordable (Option String)
  | .maker =>
    match v, v.display? with
    | .null, _ => .ok (some "[object Object]")
    | _, some s => .ok (some s)
    | _, none => .error .textless
  | .text => .ok (some "[object Undefined]")
  | .localText => .error .localText
  | .bareValue => .error .homeless
  | .holds => if v.display?.isSome then .error .homeless else .error .textless
  | .precedes => .ok (some "false")
  | .lists => if v.display?.isSome then .error .homeless else .error .textless
  | .parent => .error .parent
  | .addReader => .error .reader
  | .addWriter => .error .writer
  | .findReader => if v.display?.isSome then .ok none else .error .textless
  | .findWriter => if v.display?.isSome then .ok none else .error .textless

def valueText? (now : Int) (name : String) (v : Value) : Except Unrecordable (Option String) :=
  match Innate.ofName? name with
  | some i => innateText? v i
  | none =>
    if name = "err" then (faultForm? v).map fun form => (json? now form).map Json.render
    else .ok ((json? now v).map Json.render)

def memberText (name value : String) : String := "," ++ name ++ ":" ++ value

def dataTexts? (now : Int) : Table Value → Except Unrecordable (List String)
  | [] => .ok []
  | (name, v) :: rest =>
    if v.isAbsent then dataTexts? now rest
    else
      (valueText? now name v).bind fun text =>
        (dataTexts? now rest).map fun texts =>
          (text.map (memberText (Json.text name).render)).toList ++ texts

def reservedNames : List String := ["level", "serializers", "formatters", "customLevels"]

/-- The members of a context. Its names stand as they are, and each of them needs a value. -/
def contextTexts? (now : Int) : Table Value → Except Unrecordable (List String)
  | [] => .ok []
  | (name, v) :: rest =>
    if v.isAbsent || reservedNames.contains name then contextTexts? now rest
    else
      (valueText? now name v).bind fun text =>
        match text with
        | none => .error .homeless
        | some text =>
          (contextTexts? now rest).map (memberText ("\"" ++ name ++ "\"") text :: ·)

def bindings? : Value → Except Unrecordable (Table Value)
  | .absent => .ok []
  | context => if context.isBlank then .error .unbound else .ok context.members

structure Recorder where
  threshold : Option Severity := some Severity.threshold
  /-- The members of the contexts, as they stand in every line. -/
  bound : String := ""

namespace Recorder

def silent : String := "silent"

def make? (level : Option String) : Except Fault Recorder :=
  match Severity.thresholdOf level, level with
  | none, some name =>
    if name = silent then .ok { threshold := none }
    else
      let message := "default level:" ++ name ++ " must be included in custom levels"
      .error (.foreign { kind := "Error", message := message } .absent)
  | threshold, _ => .ok { threshold := threshold }

def dataOf : Value → Table Value
  | .fault f => [("err", .fault f)]
  | v => v.members

def child? (r : Recorder) (now : Int) (context : Table Value) : Except Unrecordable Recorder :=
  if (Table.get? Innate.holds.name context).isSome then .error .hidden
  else (contextTexts? now context).map fun texts => { r with bound := r.bound ++ String.join texts }

def line? (r : Recorder) (e : Entry) : Except Unrecordable String :=
  (dataTexts? e.loggedAt (Exchange.recorded (e.data.getD []))).map fun texts =>
    "\x7b\"level\":" ++ Number.naturalText e.severity.rank
      ++ ",\"time\":" ++ Number.integerText e.loggedAt
      ++ r.bound ++ String.join texts
      ++ memberText "\"msg\"" (Json.text e.message).render ++ "\x7d"

def record? (r : Recorder) (e : Entry) : Except Unrecordable (Option String) :=
  if e.severity.passes r.threshold then (r.line? e).map some else .ok none

def thrown? (r : Recorder) (e : Entry) : Option Value :=
  match r.record? e with
  | .ok _ => none
  | .error u => some (.fault u.fault)

end Recorder

end WorkloadIdentity.Log
