import WorkloadIdentity.Fault.Report

/-! Taking a thrown value in as an application fault. One that already is stays what
it is; any other fault becomes the cause of a new one that is not operational, and
a value that is no fault becomes its message or part of its context. -/

namespace WorkloadIdentity

def Fault.general (now : Int) (code message : String) (context : Table Value) (cause : Value) :
    Fault :=
  .application { kind := "BaseError", message := message }
    { code := code, operational := false, raisedAt := now } context cause

inductive Adoption where
  | kept (f : Fault)
  | wrapped (f : Fault)

def Adoption.fault : Adoption → Fault
  | .kept f => f
  | .wrapped f => f

def Value.adoption (now : Int) (code : String) : Value → Adoption
  | .fault (.application h s context cause) => .kept (.application h s context cause)
  | .fault (.foreign h cause) =>
    .wrapped (.general now code h.message [] (.fault (.foreign h cause)))
  | .text s => .wrapped (.general now code s [] .absent)
  | v => .wrapped (.general now code "Unknown error" [("value", v)] .absent)

def Value.adopt (now : Int) (code : String) (v : Value) : Fault := (v.adoption now code).fault

end WorkloadIdentity
