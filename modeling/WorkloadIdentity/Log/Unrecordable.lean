import WorkloadIdentity.Value

/-! Why an entry, or a context, cannot be recorded. A recorder keeps a record of how the members
of each name are written. That record answers to the innate names too, with something
that was not made for writing; most of that fails in a way of its own. -/

namespace WorkloadIdentity.Log

inductive Unrecordable where
  /-- The context of a fault looks like a fault, and nothing can be noted on a context. -/
  | sealed
  | textless
  /-- A context is nothing, or as good as nothing. -/
  | unbound
  /-- A member stands in the place by which a context knows its members. -/
  | hidden
  /-- A parent writes nothing. -/
  | parent
  /-- What was called needs a record to be called of. -/
  | homeless
  | localText
  | reader
  | writer
  deriving DecidableEq, Repr

namespace Unrecordable

def message : Unrecordable → String
  | .sealed => "Cannot add property Symbol(circular-ref-tag), object is not extensible"
  | .textless => Fault.textless.message
  | .unbound => "missing bindings for child Pino"
  | .hidden => "bindings." ++ Innate.holds.name ++ " is not a function"
  | .parent => "serializers[key] is not a function"
  | .homeless => Fault.partless.message
  | .localText => "Object.prototype." ++ Innate.localText.name ++ " called on null or undefined"
  | .reader => "Object.prototype." ++ Innate.addReader.name ++ ": Expecting function"
  | .writer => "Object.prototype." ++ Innate.addWriter.name ++ ": Expecting function"

def kind : Unrecordable → String
  | .unbound => "Error"
  | _ => "TypeError"

def fault (u : Unrecordable) : Fault := .foreign { kind := u.kind, message := u.message } .absent

end Unrecordable

end WorkloadIdentity.Log
