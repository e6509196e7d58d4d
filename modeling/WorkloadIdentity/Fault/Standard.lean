import WorkloadIdentity.Value

/-! The faults of the application that have a kind of their own, each with its code.
A fault is retryable when the same call may succeed later. -/

namespace WorkloadIdentity.Fault

def configuration (now : Int) (message : String) (context : Table Value := [])
    (cause : Value := .absent) : Fault :=
  .application { kind := "ConfigurationError", message := message }
    { code := "configuration", raisedAt := now } context cause

def connection (now : Int) (message : String) (context : Table Value := [])
    (cause : Value := .absent) : Fault :=
  .application { kind := "ConnectionError", message := message }
    { code := "connection", retryable := true, raisedAt := now } context cause

def closedMessage : String := "source is closed"

def closed (now : Int) (message : String := closedMessage) : Fault :=
  .application { kind := "ClosedError", message := message }
    { code := "closed", raisedAt := now } [] .absent

def notFound (now : Int) (message : String) (context : Table Value := [])
    (cause : Value := .absent) : Fault :=
  .application { kind := "NotFoundError", message := message }
    { code := "not_found", raisedAt := now } context cause

def timeout (now : Int) (message : String) (context : Table Value := [])
    (cause : Value := .absent) : Fault :=
  .application { kind := "TimeoutError", message := message }
    { code := "timeout", retryable := true, raisedAt := now } context cause

def code? (f : Fault) : Option String := f.standing?.map Standing.code

end WorkloadIdentity.Fault
