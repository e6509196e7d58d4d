import WorkloadIdentity.Value

/-! What is told of a thrown value: a chain of levels, one for the value and one for
each cause behind it. An application fault is told as it stands, any other fault as
unknown and not operational, and a value that is no fault as a level of its own,
which ends the chain. A cause may lead back to an earlier level, so the chain of a
value is finite or goes round for ever; a report follows it to a limit. -/

namespace WorkloadIdentity

structure Level (γ : Type) where
  name : String
  code : String
  message : String
  context : γ
  retryable : Bool := false
  operational : Bool := false
  raisedAt : Int
  stack : String := ""

namespace Level

variable {γ δ : Type}

def foreign (now : Int) (h : Heading) : Level (Table δ) where
  name := h.name
  code := "unknown"
  message := h.message
  context := []
  raisedAt := now
  stack := h.stack

def application (h : Heading) (s : Standing) (context : γ) : Level γ where
  name := h.name
  code := s.code
  message := h.message
  context := context
  retryable := s.retryable
  operational := s.operational
  raisedAt := s.raisedAt
  stack := h.stack

def thrown (now : Int) (message : String) (context : γ) : Level γ where
  name := "NonErrorThrown"
  code := "unknown"
  message := message
  context := context
  raisedAt := now

def ofValue (now : Int) : Value → Level (Table Value)
  | .text s => thrown now s []
  | v => thrown now "Unknown error" [("value", v)]

end Level

/-- The levels up to the first repetition, and how far back from the last of them the next one
is. -/
structure Chain (α : Type) where
  levels : List α
  back : Option Nat := none

namespace Chain

variable {α β : Type}

def level? (c : Chain α) (i : Nat) : Option α :=
  if i < c.levels.length then c.levels[i]?
  else match c.back with
    | none => none
    | some k =>
      if k < c.levels.length then
        let start := c.levels.length - (k + 1)
        c.levels[start + (i - start) % (k + 1)]?
      else none

def endless (c : Chain α) : Bool :=
  match c.back with
  | none => false
  | some k => k < c.levels.length

def walk (c : Chain α) : Nat → Nat → List α
  | 0, _ => []
  | n + 1, i =>
    match c.level? i with
    | some l => l :: c.walk n (i + 1)
    | none => []

def take (c : Chain α) (n : Nat) : List α := c.walk n 0

/-- Without a limit only a chain that ends has a report. -/
def report? (c : Chain α) : Option Nat → Option (List α)
  | some causes => some (c.take (causes + 1))
  | none => if c.endless then none else some c.levels

end Chain

mutual

def Fault.levels (now : Int) : Fault → List (Level (Table Value))
  | .foreign h cause => .foreign now h :: cause.causeLevels now
  | .application h s context cause => .application h s context :: cause.causeLevels now

def Value.causeLevels (now : Int) : Value → List (Level (Table Value))
  | .absent => []
  | .back _ => []
  | .fault f => f.levels now
  | v => [.ofValue now v]

end

mutual

def Fault.causeBack : Fault → Option Nat
  | .foreign _ cause => cause.causeBack
  | .application _ _ _ cause => cause.causeBack

def Value.causeBack : Value → Option Nat
  | .back k => some k
  | .fault f => f.causeBack
  | _ => none

end

def Fault.chain (now : Int) (f : Fault) : Chain (Level (Table Value)) :=
  { levels := f.levels now, back := f.causeBack }

def Value.chain (now : Int) : Value → Chain (Level (Table Value))
  | .fault f => f.chain now
  | v => { levels := [.ofValue now v] }

def defaultCauseLimit : Nat := 10

/-- The number of natural numbers below `limit`, unless all of them are. -/
def causeLimit? (limit : Float) : Option Nat :=
  if limit.isNaN then some 0
  else if limit.isInf then if limit < 0 then some 0 else none
  else some (Number.naturalsBelow limit)

def causeLimitOf? : Value → Except Fault (Option Nat)
  | .absent => .ok (some defaultCauseLimit)
  | .null => .ok (some defaultCauseLimit)
  | v =>
    match v.asNumber? with
    | some x => .ok (causeLimit? x)
    | none => .error .textless

def Value.report (now : Int) (causes : Nat) (v : Value) : List (Level (Table Value)) :=
  (v.chain now).take (causes + 1)

end WorkloadIdentity
