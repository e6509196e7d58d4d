import WorkloadIdentity.Fault.Report
import WorkloadIdentity.Clock.Calendar
import WorkloadIdentity.Json.Basic

/-! Values as JSON. A missing member is left out, a missing item is `null`, an
application fault is written as its report without stacks, any other fault as an
empty object. Integers without bound and circular values cannot be written. -/

namespace WorkloadIdentity

inductive Unwritable where
  | integer
  | circular
  deriving DecidableEq

/-- The circular value that can be named is a record that holds itself under `self`. -/
def Unwritable.message : Unwritable → String
  | .integer => "Do not know how to serialize a BigInt"
  | .circular => "Converting circular structure to JSON\n"
      ++ "    --> starting at object with constructor 'Object'\n"
      ++ "    --- property 'self' closes the circle"

def Unwritable.fault (u : Unwritable) : Fault :=
  .foreign { kind := "TypeError", message := u.message } .absent

namespace Level

variable {γ δ : Type}

def members (text : String → δ) (flag : Bool → δ) (context : γ → δ) (l : Level γ) : Table δ :=
  [("name", text l.name), ("code", text l.code), ("message", text l.message),
    ("context", context l.context), ("isRetryable", flag l.retryable),
    ("isOperational", flag l.operational), ("timestamp", text (Clock.instantText l.raisedAt))]

def nest (text : String → δ) (flag : Bool → δ) (context : γ → δ) (record : Table δ → δ)
    (withStacks : Bool) : List (Level γ) → δ
  | [] => record []
  | [l] => record (members text flag context l ++ trailer text withStacks l)
  | l :: rest =>
    record (members text flag context l ++ ("cause", nest text flag context record withStacks rest)
      :: trailer text withStacks l)
where
  trailer (text : String → δ) (withStacks : Bool) (l : Level γ) : Table δ :=
    if withStacks && l.stack ≠ "" then [("stack", text l.stack)] else []

def value (withStacks : Bool) (report : List (Level (Table Value))) : Value :=
  nest .text .bool .record .record withStacks report

def json (report : List (Level (Table Json))) : Json :=
  nest .text .bool .object .object false report

end Level

def allOk {ε α : Type} : List (Except ε α) → Except ε (List α)
  | [] => .ok []
  | .error e :: _ => .error e
  | .ok a :: rest => (allOk rest).map (a :: ·)

mutual

def Value.json? (now : Int) : Value → Except Unwritable (Option Json)
  | .absent => .ok none
  | .null => .ok (some .null)
  | .bool b => .ok (some (.bool b))
  | .number x => .ok (some (.number x))
  | .integer _ => .error .integer
  | .text s => .ok (some (.text s))
  | .list items => (Value.itemsJson now items).map fun js => some (.array js)
  | .record fields => (Value.fieldsJson now fields).map fun js => some (.object js)
  | .fault f => (f.json now).map some
  | .back _ => .error .circular

def Value.itemsJson (now : Int) : List Value → Except Unwritable (List Json)
  | [] => .ok []
  | v :: rest =>
    match v.json? now with
    | .error e => .error e
    | .ok j => (Value.itemsJson now rest).map (j.getD .null :: ·)

def Value.fieldsJson (now : Int) : List (String × Value) → Except Unwritable (Table Json)
  | [] => .ok []
  | (k, v) :: rest =>
    match v.json? now with
    | .error e => .error e
    | .ok none => Value.fieldsJson now rest
    | .ok (some j) => (Value.fieldsJson now rest).map ((k, j) :: ·)

def Fault.json (now : Int) : Fault → Except Unwritable Json
  | .foreign _ _ => .ok (.object [])
  | .application h s context cause =>
    let own := (Value.fieldsJson now context).map (Level.application h s)
    let chain : Chain _ := { levels := own :: cause.causesJson now, back := cause.causeBack }
    (allOk (chain.take (defaultCauseLimit + 1))).map Level.json

def Value.causesJson (now : Int) : Value → List (Except Unwritable (Level (Table Json)))
  | .absent => []
  | .back _ => []
  | .fault (.foreign h cause) => .ok (.foreign now h) :: cause.causesJson now
  | .fault (.application h s context cause) =>
    (Value.fieldsJson now context).map (Level.application h s) :: cause.causesJson now
  | .text s => [.ok (.thrown now s [])]
  | .null => [.ok (.thrown now "Unknown error" [("value", .null)])]
  | .bool b => [.ok (.thrown now "Unknown error" [("value", .bool b)])]
  | .number x => [.ok (.thrown now "Unknown error" [("value", .number x)])]
  | .integer _ => [.error .integer]
  | .list items =>
    [(Value.itemsJson now items).map fun js =>
      .thrown now "Unknown error" [("value", .array js)]]
  | .record fields =>
    [(Value.fieldsJson now fields).map fun js =>
      .thrown now "Unknown error" [("value", .object js)]]

end

end WorkloadIdentity
