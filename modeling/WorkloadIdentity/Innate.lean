/-! Names that every record answers to without a member of its own. A member by such a
name stands in the way of what the record has there. -/

namespace WorkloadIdentity

/-- What a record has by itself: how it is made, the texts it has, its bare value, what it knows of
its own members and of other records, its parent, and how computed members are added and found. -/
inductive Innate where
  | maker
  | text
  | localText
  | bareValue
  | holds
  | precedes
  | lists
  | parent
  | addReader
  | addWriter
  | findReader
  | findWriter
  deriving DecidableEq, Repr

namespace Innate

def all : List Innate :=
  [.maker, .text, .localText, .bareValue, .holds, .precedes, .lists, .parent, .addReader,
    .addWriter, .findReader, .findWriter]

def name : Innate → String
  | .maker => "constructor"
  | .text => "toString"
  | .localText => "toLocaleString"
  | .bareValue => "valueOf"
  | .holds => "hasOwnProperty"
  | .precedes => "isPrototypeOf"
  | .lists => "propertyIsEnumerable"
  | .parent => "__proto__"
  | .addReader => "__defineGetter__"
  | .addWriter => "__defineSetter__"
  | .findReader => "__lookupGetter__"
  | .findWriter => "__lookupSetter__"

def ofName? (name : String) : Option Innate := all.find? fun i => i.name = name

theorem ofName?_name (i : Innate) : ofName? i.name = some i := by
  cases i <;> decide

theorem name_of_ofName? {name : String} {i : Innate} (h : ofName? name = some i) :
    i.name = name := by
  simpa using List.find?_some h

end Innate

end WorkloadIdentity
