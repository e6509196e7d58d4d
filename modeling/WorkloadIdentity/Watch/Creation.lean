import WorkloadIdentity.Watch.Source
import WorkloadIdentity.Endpoint.Address

/-! What a source is made from. The limit on the wait for the first update is checked
first; then a client is chosen: a ready one if there is one, or else one built for
the address that was given or that the environment holds. Only a client that was
built for the source belongs to it. -/

namespace WorkloadIdentity.Watch

open Endpoint

abbrev Factory := Address → Except Value Unit

structure Deps where
  hasClient : Bool := false
  factory : Option Factory := none
  environment : Option String := none
  sink : Option Sink := none

structure Options where
  endpoint : Option String := none
  selector : Selector := Selector.first
  initTimeout : Value := .absent
  policy : FailurePolicy := .keepLast

inductive Obstacle where
  | badTimeout (v : Value)
  | badAddress (p : AddressProblem)
  | noClient (endpoint : String)
  | factoryThrew (used : Address) (v : Value)

inductive Plan where
  | refuse (o : Obstacle)
  | start (setup : Setup) (built : Option Address)

def maxInitTimeout : Nat := 2147483647

namespace Obstacle

def fault (now : Int) : Obstacle → Fault
  | .badTimeout v => .configuration now
      ("initTimeoutMs must be a positive number no greater than "
        ++ Number.naturalText maxInitTimeout) [("initTimeoutMs", v)]
  | .badAddress p => p.fault now
  | .noClient endpoint => .configuration now "No Workload API client or client factory configured"
      [("endpoint", .text endpoint)]
  | .factoryThrew used v => .connection now "Failed to create the Workload API client"
      [("endpoint", .text used.text)] v

end Obstacle

/-- No limit at all, or a positive number that a timer can be set for. -/
def initTimeout? : Value → Except Obstacle (Option Float)
  | .absent => .ok none
  | .number x =>
    if x.isNaN || x.isInf || x ≤ 0 || x > maxInitTimeout.toFloat then
      .error (.badTimeout (.number x))
    else .ok (some x)
  | v => .error (.badTimeout v)

theorem eq_number_of_initTimeout? {v : Value} {ms : Float}
    (limited : initTimeout? v = .ok (some ms)) : v = .number ms := by
  unfold initTimeout? at limited
  split at limited
  · cases limited
  · split at limited
    · cases limited
    · cases limited
      rfl
  · cases limited

namespace Plan

/-- The client that a source is to use: none is built when a ready one is given. -/
def chooseClient (deps : Deps) (options : Options) : Except Obstacle (Option Address) :=
  if deps.hasClient then .ok none
  else
    match Address.find options.endpoint deps.environment with
    | .error p => .error (.badAddress p)
    | .ok address =>
      match deps.factory with
      | none => .error (.noClient address.text)
      | some build =>
        match build address with
        | .error v => .error (.factoryThrew address v)
        | .ok _ => .ok (some address)

def make (deps : Deps) (options : Options) : Plan :=
  match initTimeout? options.initTimeout with
  | .error o => .refuse o
  | .ok limit =>
    match chooseClient deps options with
    | .error o => .refuse o
    | .ok built =>
      .start
        { selector := options.selector, policy := options.policy
          endpoint := built.map Address.text, ownsClient := built.isSome
          initTimeout := limit, sink := deps.sink.getD fun _ _ => none }
        built

theorem of_chooseClient_eq_some {deps : Deps} {options : Options} {address : Address}
    (chosen : chooseClient deps options = .ok (some address)) :
    deps.hasClient = false ∧ ∃ build, deps.factory = some build ∧ build address = .ok () := by
  unfold chooseClient at chosen
  split at chosen
  · cases chosen
  · rename_i missing
    refine ⟨by simpa using missing, ?_⟩
    split at chosen
    · cases chosen
    · split at chosen
      · cases chosen
      · rename_i build given
        split at chosen
        · cases chosen
        · rename_i made
          cases chosen
          exact ⟨build, given, made⟩

theorem of_make_eq_start {deps : Deps} {options : Options} {setup : Setup}
    {built : Option Address} (plan : make deps options = .start setup built) :
    chooseClient deps options = .ok built ∧
      initTimeout? options.initTimeout = .ok setup.initTimeout ∧
      setup.ownsClient = built.isSome := by
  unfold make at plan
  split at plan
  · cases plan
  · rename_i limit limited
    split at plan
    · cases plan
    · rename_i chosen choice
      cases plan
      exact ⟨choice, limited, rfl⟩

theorem selector_of_make {deps : Deps} {options : Options} {setup : Setup}
    {built : Option Address} (plan : make deps options = .start setup built) :
    setup.selector = options.selector := by
  unfold make at plan
  split at plan
  · cases plan
  · split at plan
    · cases plan
    · cases plan
      rfl

def addresses : Plan → List Address
  | .refuse (.factoryThrew used _) => [used]
  | .refuse _ => []
  | .start _ built => built.toList

theorem length_addresses_le (p : Plan) : p.addresses.length ≤ 1 := by
  unfold addresses
  split
  · simp
  · simp
  · rename_i built
    cases built <;> simp

end Plan

end WorkloadIdentity.Watch
