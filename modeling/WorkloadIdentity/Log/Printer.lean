import WorkloadIdentity.Log.Entry
import WorkloadIdentity.Fault.Members
import WorkloadIdentity.Fault.Written
import WorkloadIdentity.Text.Upper

/-! Printed logs: one text an entry, for a person or for a machine to read.
The payload of an entry is its own members, then the context of the printer, then
the data of the entry; a later member replaces an earlier one of its name, in its
place. The data of an entry cannot name a member of its own. What stands under `err` is
told as a report with stacks. -/

namespace WorkloadIdentity.Log

inductive Channel where
  | debug
  | info
  | warn
  | error
  deriving DecidableEq, Repr

def Channel.name : Channel → String
  | .debug => "debug"
  | .info => "info"
  | .warn => "warn"
  | .error => "error"

def Severity.channel : Severity → Channel
  | .trace => .debug
  | .debug => .debug
  | .info => .info
  | .warn => .warn
  | .error => .error
  | .fatal => .error

structure Printer where
  threshold : Option Severity := some Severity.threshold
  pretty : Bool := false
  context : Table Value := []

/-- The members that an entry has by itself. -/
def ownNames : List String := ["timestamp", "level", "message"]

namespace Entry

def own (e : Entry) : Table Value :=
  [("timestamp", .text (Clock.instantText e.loggedAt)), ("level", .text e.severity.name),
    ("message", .text e.message)]

def freeData (e : Entry) : Table Value :=
  (defined (e.data.getD [])).filter fun m => !ownNames.contains m.1

end Entry

def unprintable : Json := .object [("message", .text "Failed to stringify log payload")]

def jsonText (now : Int) (payload : Table Value) : String :=
  match (Value.record payload).json? now with
  | .ok (some j) => j.render
  | _ => unprintable.render

def stackOf : Option Value → String
  | some (.record fields) =>
    match Table.get? "stack" fields with
    | some (.text s) => s
    | _ => ""
  | _ => ""

def withoutStack : Value → Value
  | .record fields => .record (Table.erase "stack" fields)
  | v => v

def partText? (key : String) (payload : Table Value) : Option String :=
  ((Table.get? key payload).getD .absent).display?

/-- The members behind the message; a fault stands last, without its stack. -/
def remainder (payload : Table Value) : Table Value :=
  let rest := payload.filter fun m => !ownNames.contains m.1 && m.1 ≠ "err"
  match Table.get? "err" payload with
  | some v => Table.put "err" (withoutStack v) rest
  | none => rest

/-- The first line, if each of the members that an entry has by itself has a text. -/
def headline? (now : Int) (payload : Table Value) : Option String :=
  match partText? "timestamp" payload, partText? "level" payload, partText? "message" payload with
  | some time, some level, some message =>
    let rest := remainder payload
    some (time ++ " " ++ Text.upper level ++ " " ++ message
      ++ (if rest.isEmpty then "" else " " ++ jsonText now rest))
  | _, _, _ => none

def indented (stack : String) : String :=
  "\n".intercalate ((stack.splitOn "\n").map fun l => "  " ++ l)

def prettyText? (now : Int) (payload : Table Value) : Option String :=
  (headline? now payload).map fun headline =>
    let stack := stackOf (Table.get? "err" payload)
    if stack = "" then headline else headline ++ "\n" ++ indented stack

namespace Printer

def make (threshold : Option Severity) (pretty : Bool) (context : Table Value) : Printer :=
  { threshold := threshold, pretty := pretty, context := defined context }

def child (p : Printer) (context : Table Value) : Printer :=
  { p with context := Table.merge p.context (defined context) }

def make? (threshold : Option Severity) (pretty : Bool) : Value → Except Fault Printer
  | .absent => .ok (make threshold pretty [])
  | context => context.members?.map (make threshold pretty)

def child? (p : Printer) (context : Value) : Except Fault Printer := context.members?.map p.child

def members (p : Printer) (e : Entry) : Table Value :=
  Table.merge (Table.merge e.own p.context) e.freeData

/-- A fault is reported; every other member is printed as it stands. -/
def payload (p : Printer) (e : Entry) : Table Value :=
  let ms := p.members e
  match Table.get? "err" ms with
  | some v => Table.put "err" (Level.value true (v.report e.loggedAt defaultCauseLimit)) ms
  | none => ms

def text? (p : Printer) (e : Entry) : Option String :=
  if p.pretty then prettyText? e.loggedAt (p.payload e)
  else some (jsonText e.loggedAt (p.payload e))

theorem text?_of_not_pretty {p : Printer} (h : p.pretty = false) (e : Entry) :
    p.text? e = some (jsonText e.loggedAt (p.payload e)) := by
  simp [text?, h]

def print? (p : Printer) (e : Entry) : Except Fault (Option (Channel × String)) :=
  if e.severity.passes p.threshold then
    match p.text? e with
    | some s => .ok (some (e.severity.channel, s))
    | none => .error .textless
  else .ok none

end Printer

end WorkloadIdentity.Log
