import WorkloadIdentity.Fault.Written

/-! Values as JSON whatever they hold. A value that has a JSON form is written in it. Any
other is abridged: an integer without bound is a number, a reference back to an
enclosing value says that it is circular, containers below the fifth are only named, and
of a long container only the beginning is written. -/

namespace WorkloadIdentity.Log

def depthLimit : Nat := 5

def breadthLimit : Nat := 100

inductive Shape where
  | leaf (j : Option Json)
  | items (vs : List Value)
  | members (fields : Table Value)

def shape (now : Int) : Value → Shape
  | .absent => .leaf none
  | .null => .leaf (some .null)
  | .bool b => .leaf (some (.bool b))
  | .number x => .leaf (some (.number x))
  | .integer n => .leaf (some (.number (Float.ofInt n)))
  | .text s => .leaf (some (.text s))
  | .list vs => .items vs
  | .record fields => .members fields
  | .fault (.foreign _ _) => .members []
  | .fault (.application h s context cause) =>
    match Level.value false ((Fault.application h s context cause).chain now |>.take
        (defaultCauseLimit + 1)) with
    | .record fields => .members fields
    | _ => .members []
  | .back _ => .leaf (some (.text "[Circular]"))

def units16 (s : String) : List Nat :=
  s.toList.flatMap fun c =>
    let n := c.toNat
    if n < 0x10000 then [n] else [0xd800 + (n - 0x10000) / 0x400, 0xdc00 + (n - 0x10000) % 0x400]

def leftOut (n : Nat) : String :=
  if n = 1 then "1 item not stringified" else Number.naturalText n ++ " items not stringified"

def leftOutItems (n : Nat) : List Json :=
  if n > breadthLimit + 1 then [.text ("... " ++ leftOut (n - breadthLimit - 1))] else []

def leftOutMembers (n : Nat) : Table Json :=
  if n > breadthLimit then [("...", .text (leftOut (n - breadthLimit)))] else []

/-- The order of a dictionary: the first difference decides, and a beginning comes first. -/
def precedes : List Nat → List Nat → Bool
  | [], _ => true
  | _ :: _, [] => false
  | m :: ms, n :: ns => m < n || (m = n && precedes ms ns)

def sorted (fields : Table Value) : Table Value :=
  fields.mergeSort fun a b => precedes (units16 a.1) (units16 b.1)

def abridged (now : Int) : Nat → Value → Option Json
  | 0, v =>
    match shape now v with
    | .leaf j => j
    | .items vs => some (if vs.isEmpty then .array [] else .text "[Array]")
    | .members fields => some (if fields.isEmpty then .object [] else .text "[Object]")
  | n + 1, v =>
    match shape now v with
    | .leaf j => j
    | .items vs =>
      some (.array ((vs.take breadthLimit).map (fun i => (abridged now n i).getD .null)
        ++ leftOutItems vs.length))
    | .members fields =>
      some (.object (((sorted fields).take breadthLimit).filterMap (fun m =>
        (abridged now n m.2).map fun j => (m.1, j)) ++ leftOutMembers fields.length))

/-- The JSON form, or else the abridged one; nothing for an absent value. -/
def json? (now : Int) (v : Value) : Option Json :=
  match v.json? now with
  | .ok j => j
  | .error _ => abridged now depthLimit v

end WorkloadIdentity.Log
