import WorkloadIdentity.Value

/-! What settings have to look like. A schema lists its fields; the values it accepts are
in the order of the fields, and names it does not list are left out. Numbers may be
written as anything that reads as a number. All that is wrong is told, field by
field. -/

namespace WorkloadIdentity.Settings

inductive Complaint where
  | wrongType (expected received : String)
  | notAnOption (options : List String)
  | tooBig (what : String) (limit : Nat)
  | tooSmall (what bound : String)
  deriving DecidableEq, Repr

namespace Complaint

def optionList (options : List String) : String :=
  "|".intercalate (options.map fun o => "\"" ++ o ++ "\"")

def message : Complaint → String
  | .wrongType expected received =>
    "Invalid input: expected " ++ expected ++ ", received " ++ received
  | .notAnOption options => "Invalid option: expected one of " ++ optionList options
  | .tooBig what limit => "Too big: expected " ++ what ++ " to be <=" ++ Number.naturalText limit
  | .tooSmall what bound => "Too small: expected " ++ what ++ " to be " ++ bound

end Complaint

inductive Kind where
  | text
  /-- A text, and what is made of it. -/
  | textTo (f : String → Value)
  | positive (limit : Option Nat)
  | choice (options : List String)
  | switch

inductive Absence where
  | required
  | optional
  | default (v : Value)

structure Field where
  name : String
  kind : Kind
  absence : Absence

def typeName : Value → String
  | .absent => "undefined"
  | .null => "null"
  | .bool _ => "boolean"
  | .number x => if x.isNaN || x.isInf then Number.text x else "number"
  | .integer _ => "bigint"
  | .text _ => "string"
  | .list _ => "array"
  | .record _ => "object"
  | .fault f => f.heading.kind
  | .back _ => "object"

def yes : List String := ["true", "1", "yes", "on", "y", "enabled"]

def no : List String := ["false", "0", "no", "off", "n", "disabled"]

/-- The greatest number below which every integer has a number of its own. -/
def greatestExact : Nat := 9007199254740991

def exactBounds (x : Float) : List Complaint :=
  if x > greatestExact.toFloat then [.tooBig "int" greatestExact]
  else if x < -greatestExact.toFloat then
    [.tooSmall "int" (">=-" ++ Number.naturalText greatestExact)]
  else []

def rangeComplaints (limit : Option Nat) (x : Float) : List Complaint :=
  (if x > 0 then [] else [.tooSmall "number" ">0"])
    ++ (match limit with
      | some n => if x > n.toFloat then [.tooBig "number" n] else []
      | none => [])

namespace Kind

def positive? (limit : Option Nat) (x : Float) : Except (List Complaint) Value :=
  if x.isNaN || x.isInf then .error [.wrongType "number" (Number.text x)]
  else if !Number.isInteger x then .error [.wrongType "int" "number"]
  else
    match exactBounds x ++ rangeComplaints limit x with
    | [] => .ok (.number x)
    | complaints => .error complaints

/-- No character but the ASCII letters has a lower case among the letters of the words. -/
def switch? (word : String) : Except (List Complaint) Value :=
  let word := word.toLower
  if yes.contains word then .ok (.bool true)
  else if no.contains word then .ok (.bool false)
  else .error [.notAnOption (yes ++ no)]

def check : Kind → Value → Except (List Complaint) Value
  | .text, .text s => .ok (.text s)
  | .textTo f, .text s => .ok (f s)
  | .switch, .text s => switch? s
  | .positive limit, v =>
    match v.asNumber? with
    | some x => positive? limit x
    | none => .error [.wrongType "number" (typeName v)]
  | .choice options, .text s =>
    if options.contains s then .ok (.text s) else .error [.notAnOption options]
  | .choice options, _ => .error [.notAnOption options]
  | _, v => .error [.wrongType "string" (typeName v)]

end Kind

namespace Field

def check (f : Field) (given : Option Value) : Except (List Complaint) (Option Value) :=
  match given, f.absence with
  | some .absent, .optional => .ok (some .absent)
  | some .absent, .default v => .ok (some v)
  | some v, _ => (f.kind.check v).map some
  | none, .required => (f.kind.check .absent).map some
  | none, .optional => .ok none
  | none, .default v => .ok (some v)

end Field

inductive Schema where
  | anything
  | fields (fs : List Field)

namespace Schema

def tell (name : String) (c : Complaint) : String := "✖ " ++ c.message ++ "\n  → at " ++ name

/-- What is not given by itself may be inherited. -/
def checkFields (given inherited : Table Value) : List Field → Table Value × List String
  | [] => ([], [])
  | f :: rest =>
    let (values, told) := checkFields given inherited rest
    match f.check (Table.get? f.name (given ++ inherited)) with
    | .ok v => ((v.map fun v => (f.name, v)).toList ++ values, told)
    | .error complaints => (values, complaints.map (tell f.name) ++ told)

def check (given inherited : Table Value) : Schema → Except (List String) (Table Value)
  | .anything => .ok given
  | .fields fs =>
    match checkFields given inherited fs with
    | (values, []) => .ok (Table.ofList values)
    | (_, told) => .error told

end Schema

end WorkloadIdentity.Settings
