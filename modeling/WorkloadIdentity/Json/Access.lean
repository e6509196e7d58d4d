import WorkloadIdentity.Json.Basic
import WorkloadIdentity.Number.Written

/-! Looking into JSON: a part that is missing, or not of the kind that is asked for, is
nothing, or empty. -/

namespace WorkloadIdentity.Json

def fields : Json → Table Json
  | .object ms => ms
  | _ => []

def items : Json → List Json
  | .array js => js
  | _ => []

def asText? : Json → Option String
  | .text s => some s
  | _ => none

def asNumber? : Json → Option Float
  | .number x => some x
  | _ => none

def isTrue : Json → Bool
  | .bool b => b
  | _ => false

def field? (key : String) (j : Json) : Option Json := Table.get? key j.fields

def part (key : String) (j : Json) : Json := (field? key j).getD .null

def has (key : String) (j : Json) : Bool := (field? key j).isSome

def textField? (key : String) (j : Json) : Option String := (field? key j).bind asText?

def textField (key : String) (j : Json) : String := (textField? key j).getD ""

def itemsField (key : String) (j : Json) : List Json := (part key j).items

def textsField (key : String) (j : Json) : List String := (itemsField key j).filterMap asText?

def numberField? (key : String) (j : Json) : Option Float := (field? key j).bind asNumber?

def integerField? (key : String) (j : Json) : Option Int :=
  (numberField? key j).bind Number.truncate?

def naturalField (key : String) (otherwise : Nat) (j : Json) : Nat :=
  ((integerField? key j).map Int.toNat).getD otherwise

def flag (key : String) (j : Json) : Bool := (part key j).isTrue

mutual

def mapText (f : String → String) : Json → Json
  | .text s => .text (f s)
  | .array js => .array (mapTextItems f js)
  | .object ms => .object (mapTextFields f ms)
  | .null => .null
  | .bool b => .bool b
  | .number x => .number x

def mapTextItems (f : String → String) : List Json → List Json
  | [] => []
  | j :: rest => mapText f j :: mapTextItems f rest

def mapTextFields (f : String → String) : List (String × Json) → List (String × Json)
  | [] => []
  | (k, j) :: rest => (k, mapText f j) :: mapTextFields f rest

end

mutual

def without (key : String) : Json → Json
  | .array js => .array (withoutItems key js)
  | .object ms => .object (withoutFields key ms)
  | .null => .null
  | .bool b => .bool b
  | .number x => .number x
  | .text s => .text s

def withoutItems (key : String) : List Json → List Json
  | [] => []
  | j :: rest => without key j :: withoutItems key rest

def withoutFields (key : String) : List (String × Json) → List (String × Json)
  | [] => []
  | (k, j) :: rest =>
    if k = key then withoutFields key rest else (k, without key j) :: withoutFields key rest

end

end WorkloadIdentity.Json
