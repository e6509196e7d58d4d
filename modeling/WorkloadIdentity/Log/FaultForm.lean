import WorkloadIdentity.Log.Unrecordable
import WorkloadIdentity.Fault.Members

/-! How a recorder tells a fault. Anything with a text as its message looks like a fault, and is
written with its type, its stack and the faults behind it, and then with its members, as
far as they are not told yet. Each fault is marked while it is told, so that one that is its own
cause is told once; the context of a fault bears no mark. -/

namespace WorkloadIdentity.Log

def messageOf : Table Value → Option String
  | [] => none
  | (k, v) :: rest =>
    if k = "message" then
      match v with
      | .text s => some s
      | _ => none
    else messageOf rest

/-- The type of a record is its maker's name; a member in the place of the maker hides it. -/
def typeOf (fields : Table Value) : Value :=
  match Table.get? Innate.maker.name fields with
  | none => .text "Object"
  | some _ => (Table.get? "name" fields).getD .absent

/-- Whether nothing more can be told under a name: it is innate, or there is something already. -/
def isTold (key : String) (told : Table Value) : Bool :=
  key = "raw" || (Innate.ofName? key).isSome || !((Table.get? key told).getD .absent).isAbsent

def recordHead (fields : Table Value) (message : String) : Table Value :=
  [("type", typeOf fields), ("message", .text message),
    ("stack", (Table.get? "stack" fields).getD .absent)]

mutual

def faultForm? : Value → Except Unrecordable Value
  | .fault f => (faultMembers? f).map .record
  | .record fields =>
    match messageOf fields with
    | none => .ok (.record fields)
    | some message =>
      (groupForm? fields).bind fun group =>
        (memberForms? (recordHead fields message ++ group) fields).map .record
  | v => .ok v

def faultMembers? : Fault → Except Unrecordable (Table Value)
  | .foreign h cause =>
    (causeForm? cause).map fun behind =>
      [("type", .text h.kind), ("message", .text h.message), ("stack", .text h.stack)] ++ behind
  | .application h s context cause =>
    match messageOf context with
    | some _ => .error .sealed
    | none =>
      (causeForm? cause).map fun behind =>
        [("type", .text h.kind), ("message", .text h.message), ("stack", .text h.stack)] ++ behind
          ++ (Fault.application h s context cause).members

def causeForm? : Value → Except Unrecordable (Table Value)
  | .fault f => (faultMembers? f).map fun members => [("cause", .record members)]
  | .record fields =>
    match messageOf fields with
    | none => .ok []
    | some message =>
      (groupForm? fields).bind fun group =>
        (memberForms? (recordHead fields message ++ group) fields).map fun members =>
          [("cause", .record members)]
  | _ => .ok []

def groupForm? : List (String × Value) → Except Unrecordable (Table Value)
  | [] => .ok []
  | (k, .list vs) :: rest =>
    if k = "errors" then (itemForms? vs).map fun forms => [("aggregateErrors", .list forms)]
    else groupForm? rest
  | _ :: rest => groupForm? rest

def itemForms? : List Value → Except Unrecordable (List Value)
  | [] => .ok []
  | v :: rest => (faultForm? v).bind fun form => (itemForms? rest).map (form :: ·)

def memberForms? (told : Table Value) : List (String × Value) → Except Unrecordable (Table Value)
  | [] => .ok told
  | (k, v) :: rest =>
    if isTold k told then memberForms? told rest
    else (faultForm? v).bind fun form => memberForms? (Table.put k form told) rest

end

end WorkloadIdentity.Log
