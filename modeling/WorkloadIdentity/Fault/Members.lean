import WorkloadIdentity.Value
import WorkloadIdentity.Clock.Calendar

/-! What a value consists of when it is taken apart: a record of its members, a list of its
items under their indices, a text of its characters, and an application fault of what it
says of itself besides its message. What refers back to the whole stands for the whole
then, since the parts no longer stand in it. -/

namespace WorkloadIdentity

def Fault.members : Fault → Table Value
  | .foreign _ _ => []
  | .application h s context _ =>
    [("code", .text s.code), ("context", .record context), ("isRetryable", .bool s.retryable),
      ("isOperational", .bool s.operational),
      ("timestamp", .text (Clock.instantText s.raisedAt)), ("name", .text h.name)]
      ++ (match s.reason with
        | some r => [("reason", .text r)]
        | none => [])

namespace Value

def indexed (vs : List Value) : Table Value :=
  vs.zipIdx.map fun (v, i) => (Number.naturalText i, v)

mutual

/-- A part, so many containers below the whole, with the whole in place of what refers to it. -/
def detached (whole : Value) (depth : Nat) : Value → Value
  | .back n => if n = depth then whole else .back n
  | .list vs => .list (detachedItems whole (depth + 1) vs)
  | .record fields => .record (detachedFields whole (depth + 1) fields)
  | v => v

def detachedItems (whole : Value) (depth : Nat) : List Value → List Value
  | [] => []
  | v :: rest => detached whole depth v :: detachedItems whole depth rest

def detachedFields (whole : Value) (depth : Nat) : List (String × Value) → Table Value
  | [] => []
  | (k, v) :: rest => (k, detached whole depth v) :: detachedFields whole depth rest

end

def members : Value → Table Value
  | .record fields => detachedFields (.record fields) 0 fields
  | .list vs => indexed (detachedItems (.list vs) 0 vs)
  | .text s => indexed (s.toList.map fun c => .text (String.ofList [c]))
  | .fault f => f.members
  | _ => []

def members? : Value → Except Fault (Table Value)
  | .absent => .error .partless
  | .null => .error .partless
  | v => .ok v.members

end Value

end WorkloadIdentity
