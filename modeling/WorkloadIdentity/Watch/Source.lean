import WorkloadIdentity.Watch.Selector
import WorkloadIdentity.Watch.Gate
import WorkloadIdentity.Fault.Adopt
import WorkloadIdentity.Fault.Standard
import WorkloadIdentity.Log.Entry

/-! A source of the current SVID and bundles of a workload, fed by a watch.
The source is a machine: each event that reaches it, an update, an error, the end of
something it waits for, or a call of `close`, gives its next state and what it asks
of its client and its clock. An event it does not wait for changes nothing. Every
update replaces the whole snapshot, so a reader sees the SVID and the bundles of one
update. A log sink may throw; what it throws ends the step that logged. -/

namespace WorkloadIdentity.Watch

open Spiffe

inductive FailurePolicy where
  | keepLast
  | close
  deriving DecidableEq, Repr

inductive Lifecycle where
  | init
  | ready
  | failed
  | closed
  deriving DecidableEq, Repr

def Lifecycle.name : Lifecycle → String
  | .init => "init"
  | .ready => "ready"
  | .failed => "failed"
  | .closed => "closed"

structure Snapshot where
  picked : Candidate
  bundles : BundleSet
  version : Nat
  updatedAt : Float

inductive Outcome where
  | ready
  | error (f : Fault)
  | timeout (ms : Float)

def Outcome.lifecycle : Outcome → Lifecycle
  | .ready => .ready
  | _ => .failed

inductive Opened where
  | ok
  | refused (f : Fault)
  | rejected (v : Value)

def timeoutFault (now : Int) (ms : Float) : Fault :=
  .timeout now ("No X.509 context received from the Workload API within " ++ Number.text ms ++ "ms")
    [("timeoutMs", .number ms)]

def Outcome.opened (now : Int) : Outcome → Opened
  | .ready => .ok
  | .error f => .refused f
  | .timeout ms => .refused (timeoutFault now ms)

/-- How far the creation of a source has come. -/
inductive Opening where
  | subscribing
  | waiting
  | stoppingTimer (o : Outcome)
  | tearingDown (o : Outcome)
  | done (r : Opened)

inductive Timer where
  | unset
  | running
  | spent
  deriving DecidableEq

/-- The end of a piece of work that others wait for: nothing, or what was thrown. -/
abbrev Ending := Except Value Unit

def ending : Option Value → Ending
  | none => .ok ()
  | some v => .error v

inductive Teardown where
  | idle
  | unsubscribing
  | closingClient
  | done (e : Ending)

/-- Where a call of `close` stands: still under way, or ended, well or with a fault. -/
inductive Closing where
  | pending
  | settled (e : Ending)

/-- Takes an entry in after the earlier ones, or throws. -/
abbrev Sink := List Log.Entry → Log.Entry → Option Value

structure Setup where
  selector : Selector := Selector.first
  policy : FailurePolicy := .keepLast
  endpoint : Option String := none
  ownsClient : Bool := false
  initTimeout : Option Float := none
  sink : Sink := fun _ _ => none

namespace Setup

def endpointContext (setup : Setup) : Table Value :=
  match setup.endpoint with
  | some e => [("endpoint", .text e)]
  | none => []

def logContext (setup : Setup) : Table Value :=
  ("module", .text "x509-source") :: setup.endpointContext

def startFault (setup : Setup) (now : Int) (v : Value) : Fault :=
  .connection now "Failed to start the Workload API watch" setup.endpointContext v

def watchFault (setup : Setup) (now : Int) (e : Value) : Fault :=
  .connection now "Workload API watch failed before the first update" setup.endpointContext e

end Setup

/-- The time of an event: for what it records in errors and logs, and on the clock of the source. -/
structure Moment where
  wall : Int
  reading : Float

inductive Event where
  | update (context : Context)
  | error (e : Value)
  | subscribed (subscription : Nat)
  | watchThrew (v : Value)
  | proceed
  | timerEnded
  | unsubscribed (e : Ending)
  | clientClosed (e : Ending)
  | close

inductive Command where
  | unsubscribe (subscription : Option Nat)
  | closeClient
  | startTimer (ms : Float)
  | stopTimer

structure Source where
  setup : Setup
  lifecycle : Lifecycle := .init
  current : Option Snapshot := none
  gate : Gate Unit Outcome := {}
  asked : List (List Candidate) := []
  subscription : Option Nat := none
  opening : Opening := .subscribing
  timer : Timer := .unset
  teardown : Teardown := .idle
  closing : Option Closing := none
  closedByFailure : Bool := false
  log : List Log.Entry := []

def Setup.source (setup : Setup) : Source := { setup := setup }

structure Reaction where
  source : Source
  commands : List Command := []
  thrown : Option Value := none

namespace Source

def note (s : Source) (entry : Log.Entry) : Source × Option Value :=
  ({ s with log := s.log ++ [entry] }, s.setup.sink s.log entry)

def record (s : Source) (m : Moment) (severity : Log.Severity) (message : String)
    (data : Option (Table Value) := none) : Source × Option Value :=
  s.note ⟨severity, message, data, m.wall⟩

/-- The last entry of a source that was closed without a fault. -/
def closedEntry (m : Moment) : Log.Entry := ⟨.info, "X.509 source closed", none, m.wall⟩

def settle (s : Source) (o : Outcome) : Source :=
  match s.gate.openWith o with
  | (gate, true) => { s with gate := gate, lifecycle := o.lifecycle }
  | (_, false) => s

theorem settle_eq (s : Source) (o : Outcome) :
    s.settle o =
      { s with
        gate := (s.gate.openWith o).1
        lifecycle := if s.gate.isOpen then s.lifecycle else o.lifecycle } := by
  unfold settle Gate.openWith Gate.isOpen
  cases h : s.gate.opened <;> simp

section
variable (s : Source) (o : Outcome)

@[simp] theorem setup_settle : (s.settle o).setup = s.setup := by simp [settle_eq]

@[simp] theorem subscription_settle : (s.settle o).subscription = s.subscription := by
  simp [settle_eq]

@[simp] theorem opening_settle : (s.settle o).opening = s.opening := by simp [settle_eq]

@[simp] theorem timer_settle : (s.settle o).timer = s.timer := by simp [settle_eq]

@[simp] theorem teardown_settle : (s.settle o).teardown = s.teardown := by simp [settle_eq]

@[simp] theorem closing_settle : (s.settle o).closing = s.closing := by simp [settle_eq]

@[simp] theorem log_settle : (s.settle o).log = s.log := by simp [settle_eq]

end

theorem settle_of_isOpen {s : Source} (h : s.gate.isOpen = true) (o : Outcome) :
    s.settle o = s := by
  unfold settle
  rw [Gate.openWith_of_isOpen h]

def selectorCode : String := "selector"

def strangerFault (now : Int) : Fault :=
  .general now selectorCode "Selector returned an SVID that is not among the candidates" [] .absent

/-- What becomes of the answer of a selector: one of the candidates, or a fault. -/
def accept (now : Int) (candidates : List Candidate) :
    Except Value (Option Candidate) → Except Fault Candidate
  | .error v => .error (v.adopt now selectorCode)
  | .ok none => .error (strangerFault now)
  | .ok (some picked) =>
    if isCandidate candidates picked then .ok picked else .error (strangerFault now)

def select (s : Source) (m : Moment) (context : Context) : Source × Except Fault Candidate :=
  ({ s with asked := context.candidates :: s.asked },
    accept m.wall context.candidates (s.setup.selector s.asked context.candidates))

def version (s : Source) : Nat := (s.current.map Snapshot.version).getD 0

def versionValue (s : Source) : Value :=
  match s.current with
  | some c => .number c.version.toFloat
  | none => .absent

/-- Unsubscribes first; a client of its own is closed after that. -/
def startTeardown (s : Source) : Reaction :=
  { source := { s with teardown := .unsubscribing }, commands := [.unsubscribe s.subscription] }

/-- The source is closed as soon as this is called; the teardown is started once. A step is done as
a whole: the closing is on record before the unsubscribing is asked for, and a call made from
inside the unsubscribing is no step of its own here. -/
def close (s : Source) : Reaction :=
  match s.closing with
  | some _ => { source := s }
  | none =>
    startTeardown { s with lifecycle := .closed, current := none, closing := some .pending }

theorem close_of_closing {s : Source} {c : Closing} (h : s.closing = some c) :
    s.close = { source := s } := by
  simp [close, h]

def bear (s : Source) (m : Moment) (e : Value) : Reaction :=
  let data := some [("err", e), ("version", s.versionValue)]
  match s.setup.policy with
  | .close =>
    match s.record m .error "Workload API watch failed; closing source" data with
    | (s, some v) => { source := s, thrown := some v }
    | (s, none) => { s with closedByFailure := true }.close
  | .keepLast =>
    let (s, thrown) := s.record m .warn
      "Workload API watch failed; serving last X.509 context" data
    { source := s, thrown := thrown }

def onError (s : Source) (m : Moment) (e : Value) : Reaction :=
  match s.lifecycle with
  | .closed | .failed => { source := s }
  | .init => { source := s.settle (.error (s.setup.watchFault m.wall e)) }
  | .ready => s.bear m e

theorem onError_of_over {s : Source} (h : s.lifecycle = .closed ∨ s.lifecycle = .failed)
    (m : Moment) (e : Value) : s.onError m e = { source := s } := by
  rcases h with h | h <;> simp [onError, h]

theorem onError_of_init {s : Source} (h : s.lifecycle = .init) (m : Moment) (e : Value) :
    s.onError m e = { source := s.settle (.error (s.setup.watchFault m.wall e)) } := by
  simp [onError, h]

theorem onError_of_ready {s : Source} (h : s.lifecycle = .ready) (m : Moment) (e : Value) :
    s.onError m e = s.bear m e := by
  simp [onError, h]

def apply (s : Source) (m : Moment) (context : Context) (picked : Candidate) : Reaction :=
  let snapshot : Snapshot :=
    { picked := picked, bundles := context.bundles, version := s.version + 1
      updatedAt := m.reading }
  let data := some [("version", .number snapshot.version.toFloat),
    ("spiffeId", .text picked.svid.id.text)]
  let applied := { s with current := some snapshot }
  let (s, thrown) := match s.lifecycle with
    | .init => (applied.settle .ready).record m .info "Received first X.509 context" data
    | _ => applied.record m .debug "Applied X.509 context update" data
  { source := s, thrown := thrown }

/-- An update from which nothing can be selected counts as an error. -/
def take (s : Source) (m : Moment) (context : Context) : Reaction :=
  match s.select m context with
  | (s, .error f) => s.onError m (.fault f)
  | (s, .ok picked) => s.apply m context picked

def onUpdate (s : Source) (m : Moment) (context : Context) : Reaction :=
  match s.lifecycle with
  | .closed | .failed => { source := s }
  | .init | .ready => s.take m context

theorem onUpdate_of_over {s : Source} (h : s.lifecycle = .closed ∨ s.lifecycle = .failed)
    (m : Moment) (context : Context) : s.onUpdate m context = { source := s } := by
  rcases h with h | h <;> simp [onUpdate, h]

theorem onUpdate_of_live {s : Source} (h : s.lifecycle = .init ∨ s.lifecycle = .ready)
    (m : Moment) (context : Context) : s.onUpdate m context = s.take m context := by
  rcases h with h | h <;> simp [onUpdate, h]

/-- The watch has begun or could not: the wait for the first outcome starts, and its timer. -/
def await (s : Source) : Reaction :=
  match s.setup.initTimeout with
  | none => { source := { s with opening := .waiting } }
  | some ms =>
    { source := { s with opening := .waiting, timer := .running }, commands := [.startTimer ms] }

def conclude (s : Source) (o : Outcome) : Reaction :=
  match o with
  | .ready => { source := { s with opening := .done .ok } }
  | o => startTeardown { s with opening := .tearingDown o }

/-- What the creation waits for may have come: the first outcome, and then the end of the timer. -/
def onProceed (s : Source) : Reaction :=
  match s.opening, s.gate.opened, s.timer with
  | .waiting, some o, .unset => s.conclude o
  | .waiting, some o, .running =>
    { source := { s with opening := .stoppingTimer o }, commands := [.stopTimer] }
  | .waiting, some o, .spent =>
    let r := s.conclude o
    { r with commands := .stopTimer :: r.commands }
  | .stoppingTimer o, _, .spent => s.conclude o
  | _, _, _ => { source := s }

/-- The sleep of the timer is over, because its time has come or because it was stopped. -/
def onTimerEnded (s : Source) : Reaction :=
  match s.timer, s.setup.initTimeout with
  | .running, some ms => { source := { s with timer := .spent }.settle (.timeout ms) }
  | _, _ => { source := s }

def reportFailure (s : Source) (m : Moment) (o : Outcome) : Source :=
  let (s, thrown) : Source × Option Value := match o with
    | .timeout ms =>
      s.record m .error "Timed out waiting for the first X.509 context"
        (some [("timeoutMs", .number ms)])
    | .error f =>
      s.record m .error "Workload API watch failed before the first X.509 context"
        (some [("err", .fault f)])
    | .ready => (s, none)
  { s with opening := .done ((thrown.map .rejected).getD (o.opened m.wall)) }

/-- Ends the call of `close`. When the watch failure closed the source, nobody else may be
waiting for it, so a failure is logged; what the sink throws then reaches nobody. -/
def settleClosing (s : Source) (m : Moment) (e : Ending) : Source :=
  let s := { s with closing := some (.settled e) }
  match e, s.closedByFailure with
  | .error v, true =>
    (s.record m .error "Failed to close source after a watch failure" (some [("err", v)])).1
  | _, _ => s

def finishTeardown (s : Source) (m : Moment) (e : Ending) : Source :=
  let s := { s with teardown := .done e }
  match s.opening, e with
  | .tearingDown _, .error v => { s with opening := .done (.rejected v) }
  | .tearingDown o, .ok _ => s.reportFailure m o
  | _, .error v => s.settleClosing m (.error v)
  | _, .ok _ =>
    let (s, thrown) := s.note (closedEntry m)
    s.settleClosing m (ending thrown)

/-- A failure of a collaborator costs one warning; what the sink throws ends the teardown. -/
def warnOf (s : Source) (m : Moment) (message : String) : Ending → Source × Option Value
  | .ok _ => (s, none)
  | .error v => s.record m .warn message (some [("err", v)])

def onUnsubscribed (s : Source) (m : Moment) (e : Ending) : Reaction :=
  match s.teardown with
  | .unsubscribing =>
    match s.warnOf m "Failed to stop the Workload API watch" e with
    | (s, some v) => { source := s.finishTeardown m (.error v) }
    | (s, none) =>
      if s.setup.ownsClient then
        { source := { s with teardown := .closingClient }, commands := [.closeClient] }
      else { source := s.finishTeardown m (.ok ()) }
  | _ => { source := s }

def onClientClosed (s : Source) (m : Moment) (e : Ending) : Reaction :=
  match s.teardown with
  | .closingClient =>
    match s.warnOf m "Failed to close the Workload API client" e with
    | (s, some v) => { source := s.finishTeardown m (.error v) }
    | (s, none) => { source := s.finishTeardown m (.ok ()) }
  | _ => { source := s }

def onSubscribed (s : Source) (subscription : Nat) : Reaction :=
  match s.opening with
  | .subscribing => { s with subscription := some subscription }.await
  | _ => { source := s }

def onWatchThrew (s : Source) (m : Moment) (v : Value) : Reaction :=
  match s.opening with
  | .subscribing =>
    (s.settle (.error (s.setup.startFault m.wall v))).await
  | _ => { source := s }

def isHandedOut (s : Source) : Bool :=
  match s.opening with
  | .done .ok => true
  | _ => false

theorem isHandedOut_iff {s : Source} : s.isHandedOut = true ↔ s.opening = .done .ok := by
  unfold isHandedOut
  split <;> simp_all

def step (s : Source) (m : Moment) : Event → Reaction
  | .update context => s.onUpdate m context
  | .error e => s.onError m e
  | .subscribed subscription => s.onSubscribed subscription
  | .watchThrew v => s.onWatchThrew m v
  | .proceed => s.onProceed
  | .timerEnded => s.onTimerEnded
  | .unsubscribed e => s.onUnsubscribed m e
  | .clientClosed e => s.onClientClosed m e
  | .close => if s.isHandedOut then s.close else { source := s }

def isClosed (s : Source) : Bool := s.lifecycle = .closed

def snapshot (s : Source) : Option Snapshot := if s.isClosed then none else s.current

inductive Lack where
  | closed
  | noBundle (d : TrustDomain)
  deriving DecidableEq

def Lack.fault (now : Int) : Lack → Fault
  | .closed => .closed now
  | .noBundle d => .notFound now ("No X.509 bundle for trust domain \"" ++ d.name ++ "\"")
      [("trustDomain", .text d.name)]

def snapshot? (s : Source) : Except Lack Snapshot :=
  match s.snapshot with
  | some c => .ok c
  | none => .error .closed

def svid? (s : Source) : Except Lack Svid := s.snapshot?.map fun c => c.picked.svid

def bundle? (s : Source) (d : TrustDomain) : Except Lack Bundle :=
  s.snapshot?.bind fun c =>
    match c.bundles.get? d with
    | some b => .ok b
    | none => .error (.noBundle d)

end Source

end WorkloadIdentity.Watch
