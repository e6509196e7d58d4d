import WorkloadIdentity.Watch.Creation
import WorkloadIdentity.Watch.Client
import WorkloadIdentity.Clock.Manual

/-! Sources together with the client they share, their timers and what waits for its turn.
A command of a source is carried out at once; what it leads to, the end of an
unsubscription for instance, waits until the current turn is over. `settle` runs
turns until nothing waits. Timers follow a clock that is moved by hand, or else the
time that passes. -/

namespace WorkloadIdentity.Watch

/-- A client that plays a part: what it throws and rejects with, and what it delivers while it is
being subscribed to. It never stops delivering. -/
structure ScriptedClient where
  watchThrows : Option Value := none
  onWatch : List (Notice Context) := []
  unsubscribeFails : Option Value := none
  closeFails : Option Value := none
  watcher : Option Nat := none
  watched : Nat := 0
  unsubscribed : Nat := 0
  closings : Nat := 0

inductive Transport where
  | memory (c : Client Nat Context)
  | scripted (c : ScriptedClient)

structure Session where
  wall : Int
  handDriven : Bool
  timers : Clock.Manual Nat Nat Float
  transport : Transport
  sources : List Source := []
  pending : List (Nat × Event) := []
  addresses : List Endpoint.Address := []

def Notice.event : Notice Context → Event
  | .update context => .update context
  | .error e => .error e

namespace Session

def reading (s : Session) : Float :=
  if s.handDriven then s.timers.time else Float.ofInt s.wall

def moment (s : Session) : Moment := ⟨s.wall, s.reading⟩

def await (s : Session) (i : Nat) (e : Event) : Session :=
  { s with pending := s.pending ++ [(i, e)] }

/-- Puts moved timers in place; the sleeps that ended with the move wait for their turn. -/
def withTimers (s : Session) (timers : Clock.Manual Nat Nat Float) : Session :=
  { s with
    timers := { timers with woken := [] }
    pending := s.pending ++ timers.woken.map (·, .timerEnded) }

def execute (i : Nat) (s : Session) : Command → Session
  | .unsubscribe none => s.await i (.unsubscribed (.ok ()))
  | .unsubscribe (some subscription) =>
    match s.transport with
    | .memory c =>
      { s with transport := .memory (c.unsubscribe subscription) }.await i (.unsubscribed (.ok ()))
    | .scripted c =>
      { s with transport := .scripted { c with unsubscribed := c.unsubscribed + 1 } }.await i
        (.unsubscribed (ending c.unsubscribeFails))
  | .closeClient =>
    match s.transport with
    | .memory c => { s with transport := .memory c.close }.await i (.clientClosed (.ok ()))
    | .scripted c =>
      { s with transport := .scripted { c with closings := c.closings + 1 } }.await i
        (.clientClosed (ending c.closeFails))
  | .startTimer ms => s.withTimers (s.timers.sleep i ms (some i))
  | .stopTimer => s.withTimers (s.timers.raise i)

def react (s : Session) (i : Nat) (e : Event) : Session × Option Value :=
  match s.sources[i]? with
  | none => (s, none)
  | some source =>
    let r := source.step s.moment e
    (r.commands.foldl (execute i) { s with sources := s.sources.set i r.source }, r.thrown)

/-- Lets the handlers that a call of the client waits for run, at most `n` of them. A handler that
throws ends the call. -/
def attend : Nat → Session → Session × Option Value
  | 0, s => (s, none)
  | n + 1, s =>
    match s.transport with
    | .scripted _ => (s, none)
    | .memory c =>
      match c.running? with
      | none => (s, none)
      | some (i, notice) =>
        let (s, thrown) := s.react i notice.event
        match s.transport, thrown with
        | .memory c, none => attend n { s with transport := .memory c.finish }
        | .memory c, some v => ({ s with transport := .memory c.raise }, some v)
        | .scripted _, _ => (s, thrown)

/-- Events for one watcher in a row; the first handler that throws ends it. -/
def tell (i : Nat) : List (Notice Context) → Session → Session × Option Value
  | [], s => (s, none)
  | notice :: rest, s =>
    match s.react i notice.event with
    | (s, some v) => (s, some v)
    | (s, none) => tell i rest s

def deliver (s : Session) (notice : Notice Context) : Session × Option Value :=
  match s.transport with
  | .memory c =>
    let action : Action Nat Context := match notice with
      | .update context => .push context
      | .error e => .fail e
    attend (c.watchers.length + 1) { s with transport := .memory (c.step action) }
  | .scripted c =>
    match c.watcher with
    | some i => tell i [notice] s
    | none => (s, none)

def subscribe (s : Session) (i : Nat) : Session :=
  let answer : Session × Option Value × Nat := match s.transport with
    | .memory c =>
      let (s, thrown) := attend 2 { s with transport := .memory (c.watch i) }
      (s, thrown, match s.transport with
        | .memory c => c.subscriptions.length - 1
        | .scripted _ => 0)
    | .scripted c =>
      let c := { c with watched := c.watched + 1 }
      match c.watchThrows with
      | some v => ({ s with transport := .scripted c }, some v, 0)
      | none =>
        let (s, thrown) :=
          tell i c.onWatch { s with transport := .scripted { c with watcher := some i } }
        (s, thrown, 0)
  let (s, thrown, subscription) := answer
  match thrown with
  | some v => (s.react i (.watchThrew v)).1
  | none => (s.react i (.subscribed subscription)).1

def create (s : Session) (deps : Deps) (options : Options) : Session × Except Obstacle Nat :=
  let plan := Plan.make deps options
  let s := { s with addresses := s.addresses ++ plan.addresses }
  match plan with
  | .refuse o => (s, .error o)
  | .start setup _ =>
    let started : Session := { s with sources := s.sources ++ [setup.source] }
    (started.subscribe s.sources.length, .ok s.sources.length)

/-- Everything that waits now, in order; then every creation goes on as far as it can. -/
def turn (s : Session) : Session :=
  let s := s.pending.foldl (fun s (i, e) => (s.react i e).1) { s with pending := [] }
  (List.range s.sources.length).foldl (fun s i => (s.react i .proceed).1) s

/-- The creation of a source takes at most six turns, and so does its end. -/
def turns : Nat := 8

def settle (s : Session) : Session := (List.range turns).foldl (fun s _ => s.turn) s

def close (s : Session) (i : Nat) : Session := (s.react i .close).1

def advance (s : Session) (ms : Float) : Session :=
  if s.handDriven then s.withTimers (s.timers.advance ms) else s

def setTime (s : Session) (ms : Float) : Session :=
  if s.handDriven then s.withTimers (s.timers.set ms) else s

/-- Time that passes by itself moves only timers that are not driven by hand. -/
def elapse (s : Session) (ms : Float) : Session :=
  if s.handDriven then s else s.withTimers (s.timers.advance ms)

def closeTransport (s : Session) : Session :=
  { s with transport := match s.transport with
    | .memory c => .memory c.close
    | .scripted c => .scripted { c with closings := c.closings + 1 } }

end Session

end WorkloadIdentity.Watch
