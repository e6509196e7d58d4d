import WorkloadIdentity.Spiffe.Bundle

/-! Selectors: which of the SVIDs of an update a source serves.
Two SVIDs may be equal and still be different ones, so a candidate carries a serial
number, and a choice counts only if it is a candidate, serial and all. What a selector
answers may depend on everything it was asked before; it may also throw. -/

namespace WorkloadIdentity.Watch

open Spiffe

structure Candidate where
  serial : Nat
  svid : Svid
  deriving DecidableEq

/-- What the Workload API sends at once: the SVIDs of a workload, the default one first, and the
bundles it should trust. -/
structure Context where
  candidates : List Candidate
  bundles : BundleSet

/-- The candidate lists of the earlier calls, the latest first, then those of this call. -/
abbrev Selector := List (List Candidate) → List Candidate → Except Value (Option Candidate)

namespace Selector

def first : Selector := fun _ candidates => .ok candidates.head?

def last : Selector := fun _ candidates => .ok candidates.getLast?

def preferring (fits : Svid → Bool) : Selector := fun _ candidates =>
  .ok ((candidates.find? fun c => fits c.svid) <|> candidates.head?)

def byId (id : Id) : Selector := preferring fun s => s.id = id

def byHint (hint : String) : Selector := preferring fun s => s.hint = some hint

end Selector

def isCandidate (candidates : List Candidate) (picked : Candidate) : Bool :=
  candidates.any fun c => c = picked

theorem isCandidate_iff_mem {candidates : List Candidate} {picked : Candidate} :
    isCandidate candidates picked = true ↔ picked ∈ candidates := by
  simp [isCandidate]

end WorkloadIdentity.Watch
