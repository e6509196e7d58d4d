import WorkloadIdentity.Innate
import WorkloadIdentity.Table
import WorkloadIdentity.Number.Written

/-! Values of no fixed shape: what a logger is handed, what an error carries as
context, what a collaborator throws and what a settings source yields.
A fault is either the application's own, with a code and a context, or foreign.
`back n` stands for the `n`-th enclosing record or list, and in the place of a cause
for the `n`-th fault on the way in, so that values may be circular. -/

namespace WorkloadIdentity

structure Heading where
  kind : String
  name : String := kind
  message : String
  stack : String := ""
  deriving DecidableEq

/-- What an application fault says of itself besides its text. `raisedAt` counts milliseconds. -/
structure Standing where
  code : String
  retryable : Bool := false
  operational : Bool := true
  raisedAt : Int
  reason : Option String := none
  deriving DecidableEq

mutual

inductive Value where
  | absent
  | null
  | bool (b : Bool)
  | number (x : Float)
  | integer (n : Int)
  | text (s : String)
  | list (items : List Value)
  | record (fields : List (String × Value))
  | fault (f : Fault)
  | back (n : Nat)

/-- A cause that is `absent` is no cause. -/
inductive Fault where
  | foreign (heading : Heading) (cause : Value)
  | application (heading : Heading) (standing : Standing) (context : List (String × Value))
      (cause : Value)

end

instance : Inhabited Value := ⟨.absent⟩

namespace Fault

def heading : Fault → Heading
  | .foreign h _ => h
  | .application h _ _ _ => h

def cause : Fault → Value
  | .foreign _ c => c
  | .application _ _ _ c => c

def standing? : Fault → Option Standing
  | .foreign _ _ => none
  | .application _ s _ _ => some s

def message (f : Fault) : String := f.heading.message

def textless : Fault :=
  .foreign { kind := "TypeError", message := "Cannot convert object to primitive value" } .absent

def partless : Fault :=
  .foreign { kind := "TypeError", message := "Cannot convert undefined or null to object" } .absent

end Fault

namespace Value

def isAbsent : Value → Bool
  | .absent => true
  | _ => false

/-- Nothing worth acting on: nothing at all, a false, a zero, no number or an empty text. -/
def isBlank : Value → Bool
  | .absent => true
  | .null => true
  | .bool b => !b
  | .number x => x == 0 || x.isNaN
  | .integer n => n = 0
  | .text s => s = ""
  | _ => false

def member (key : String) : Value → Value
  | .record fields => (Table.get? key fields).getD .absent
  | _ => .absent

mutual

/-- A value as part of a line of text. All records have one text, but for those with a member in
its place, which have none. -/
def display? : Value → Option String
  | .absent => some "undefined"
  | .null => some "null"
  | .bool b => some (if b then "true" else "false")
  | .number x => some (Number.text x)
  | .integer n => some (Number.integerText n)
  | .text s => some s
  | .list items => (displayItems? items).map (String.intercalate ",")
  | .record fields =>
    match Table.get? Innate.text.name fields with
    | some _ => none
    | none => some "[object Object]"
  | .fault f =>
    let h := f.heading
    some (if h.name = "" then h.message
      else if h.message = "" then h.name
      else h.name ++ ": " ++ h.message)
  | .back _ => some ""

def displayItems? : List Value → Option (List String)
  | [] => some []
  | .absent :: rest => (displayItems? rest).map ("" :: ·)
  | .null :: rest => (displayItems? rest).map ("" :: ·)
  | v :: rest => v.display?.bind fun s => (displayItems? rest).map (s :: ·)

end

/-- The number that a value stands for, `nan` for a text of another kind. What has no text stands
for no number either. -/
def asNumber? : Value → Option Float
  | .absent => some Number.nan
  | .null => some 0
  | .bool b => some (if b then 1 else 0)
  | .number x => some x
  | .integer n => some (Float.ofInt n)
  | v => v.display?.map Number.ofText

end Value

end WorkloadIdentity
