/-! Severities of log entries. A logger writes the entries that are at least as severe
as its threshold; the ranks leave room between neighbours. -/

namespace WorkloadIdentity.Log

inductive Severity where
  | trace
  | debug
  | info
  | warn
  | error
  | fatal
  deriving DecidableEq, Repr

namespace Severity

def all : List Severity := [.trace, .debug, .info, .warn, .error, .fatal]

def name : Severity → String
  | .trace => "trace"
  | .debug => "debug"
  | .info => "info"
  | .warn => "warn"
  | .error => "error"
  | .fatal => "fatal"

def ofName? (name : String) : Option Severity := all.find? fun s => s.name = name

def rank : Severity → Nat
  | .trace => 10
  | .debug => 20
  | .info => 30
  | .warn => 40
  | .error => 50
  | .fatal => 60

def threshold : Severity := .info

/-- The threshold that is asked for by name. There is no severity to pass one that has the name of
none. -/
def thresholdOf : Option String → Option Severity
  | none => some threshold
  | some name => ofName? name

def passes (s : Severity) : Option Severity → Bool
  | some threshold => threshold.rank ≤ s.rank
  | none => false

end Severity

end WorkloadIdentity.Log
