import WorkloadIdentity.Fault.Members
import WorkloadIdentity.Fault.Written
import WorkloadIdentity.Fault.Standard
import WorkloadIdentity.Spiffe.Svid

/-! Values in JSON without loss. What JSON has no form for is an object with the member
`$`, whose text says what it is. A fault is such an object too: it is read from its type
and its parts, and written by name and message alone where it stands inside other
data. A fault that was thrown is written as its report. -/

namespace WorkloadIdentity.Tagged

def tag (name : String) (more : Table Json) : Json := .object (("$", .text name) :: more)

def ofNumber (x : Float) : Json :=
  if x.isNaN then tag "nan" []
  else if x.isInf then tag (if x < 0 then "-inf" else "inf") []
  else if x == 0 && (Number.parts x).negative then tag "-0" []
  else .number x

mutual

def ofValue : Value → Json
  | .absent => tag "undefined" []
  | .null => .null
  | .bool b => .bool b
  | .number x => ofNumber x
  | .integer n => tag "bigint" [("v", .text (Number.integerText n))]
  | .text s => .text s
  | .list vs => .array (ofItems vs)
  | .record fields => .object (ofFields fields)
  | .fault f => tag "error" [("name", .text f.heading.name), ("message", .text f.heading.message)]
  | .back _ => tag "circular" []

def ofItems : List Value → List Json
  | [] => []
  | v :: rest => ofValue v :: ofItems rest

def ofFields : List (String × Value) → Table Json
  | [] => []
  | (k, v) :: rest => (k, ofValue v) :: ofFields rest

end

def ofTable (t : Table Value) : Json := .object (ofFields t)

def ofReport (withStacks : Bool) (report : List (Level (Table Value))) : Json :=
  Level.nest .text .bool ofTable .object withStacks report

/-- The report of a thrown value; the reason for which an identifier was refused stands beside
it. -/
def ofThrown (now : Int) (v : Value) : Json :=
  match v, ofReport false (v.report now defaultCauseLimit) with
  | .fault (.application _ { reason := some r, .. } _ _), .object ms =>
    .object (ms ++ [("reason", .text r)])
  | _, j => j

def textAt (key : String) (t : Table Value) : String :=
  match Table.get? key t with
  | some (.text s) => s
  | _ => ""

def textOr (otherwise key : String) (t : Table Value) : String :=
  match Table.get? key t with
  | some (.text s) => s
  | _ => otherwise

def flagOr (otherwise : Bool) (key : String) (t : Table Value) : Bool :=
  match Table.get? key t with
  | some (.bool b) => b
  | _ => otherwise

def tableAt (key : String) (t : Table Value) : Table Value :=
  ((Table.get? key t).getD .absent).members

def readInteger (s : String) : Int :=
  match s.toList with
  | '-' :: digits => -((Number.ofDigits? 10 digits).getD 0 : Nat)
  | digits => ((Number.ofDigits? 10 digits).getD 0 : Nat)

def loop : Value := .record [("name", .text "loop"), ("self", .back 0)]

def unknownRejection (now : Int) (reason input : String) : Fault :=
  .application { kind := "SpiffeIdError", message := "" }
    { code := "invalid_spiffe_id", raisedAt := now, reason := some reason }
    [("reason", .text reason), ("input", .text input)] .absent

/-- A fault with the code, the context and the cause that its type has by itself. -/
def typedFault (now : Int) (kind : String) (t : Table Value) : Except Fault Fault :=
  let message := textAt "message" t
  let context := tableAt "context" t
  let cause := (Table.get? "cause" t).getD .absent
  let own : Fault := .application { kind := kind, message := message }
    { code := textAt "code" t, retryable := flagOr false "isRetryable" t
      operational := flagOr true "isOperational" t, raisedAt := now } context cause
  match kind with
  | "BaseError" => .ok own
  | "CustomError" => .ok own
  | "ConfigurationError" => .ok (.configuration now message context cause)
  | "ConnectionError" => .ok (.connection now message context cause)
  | "NotFoundError" => .ok (.notFound now message context cause)
  | "TimeoutError" => .ok (.timeout now message context cause)
  | "ClosedError" => .ok (.closed now (textOr Fault.closedMessage "message" t))
  | "SpiffeIdError" =>
    match Spiffe.Reason.ofWord? (textAt "reason" t) with
    | some r => .ok (Spiffe.Rejection.fault now ⟨r, textAt "input" t⟩)
    | none => .ok (unknownRejection now (textAt "reason" t) (textAt "input" t))
  | "X509SvidError" =>
    match Spiffe.Id.parse (textAt "id" t) with
    | .ok id => .ok (Spiffe.svidFault now message id)
    | .error r => .error (r.fault now)
  | _ => .ok (.foreign { kind := kind, name := textOr kind "name" t, message := message } cause)

def ownCause (t : Table Value) (cause : Value) : Value :=
  match Table.get? "cause" t with
  | some (.back k) => .back k
  | _ => cause

/-- The stack is never a fault's own, and any fault can be its own cause. -/
def complete (t : Table Value) : Fault → Fault
  | .foreign h cause => .foreign { h with stack := textAt "stack" t } (ownCause t cause)
  | .application h s context cause =>
    .application { h with stack := textAt "stack" t } s context (ownCause t cause)

def assemble (now : Int) (t : Table Value) : Except Fault Value :=
  match Table.get? "$" t with
  | some (.text "undefined") => .ok .absent
  | some (.text "nan") => .ok (.number Number.nan)
  | some (.text "inf") => .ok (.number Number.infinity)
  | some (.text "-inf") => .ok (.number (-Number.infinity))
  | some (.text "-0") => .ok (.number (-0.0))
  | some (.text "bigint") => .ok (.integer (readInteger (textAt "v" t)))
  | some (.text "circular") => .ok loop
  | some (.text "self") => .ok (.back 0)
  | some (.text "error") =>
    (typedFault now (textOr "Error" "type" t) t).map fun f => .fault (complete t f)
  | _ => .ok (.record t)

mutual

def value? (now : Int) : Json → Except Fault Value
  | .null => .ok .null
  | .bool b => .ok (.bool b)
  | .number x => .ok (.number x)
  | .text s => .ok (.text s)
  | .array js => (items? now js).map .list
  | .object ms => (table? now ms).bind (assemble now)

def items? (now : Int) : List Json → Except Fault (List Value)
  | [] => .ok []
  | j :: rest => (value? now j).bind fun v => (items? now rest).map (v :: ·)

def table? (now : Int) : List (String × Json) → Except Fault (Table Value)
  | [] => .ok []
  | (k, j) :: rest => (value? now j).bind fun v => (table? now rest).map ((k, v) :: ·)

end

end WorkloadIdentity.Tagged
