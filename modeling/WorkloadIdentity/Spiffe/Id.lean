import WorkloadIdentity.Spiffe.TrustDomain

/-! SPIFFE IDs: a trust domain and a path.
The path is empty or a run of segments, each behind a slash. Segments hold letters,
digits, dots, dashes and underscores, and none of them is a lone dot or two dots. -/

namespace WorkloadIdentity.Spiffe

def isSegmentChar (c : Char) : Bool := isNameChar c || ('A' ≤ c && c ≤ 'Z')

def segmentFault? (segment : List Char) : Option Reason :=
  if segment = [] then some .emptySegment
  else if segment = ['.'] ∨ segment = ['.', '.'] then some .dotSegment
  else if !segment.all isSegmentChar then some .badPathSegmentChar
  else none

def segments (path : List Char) : List (List Char) :=
  if path = [] then [] else (path.drop 1).splitOn '/'

/-- What is wrong with the leftmost bad segment. -/
def pathFault? (path : List Char) : Option Reason := (segments path).findSome? segmentFault?

structure Id where
  trustDomain : TrustDomain
  path : String
  valid : pathFault? path.toList = none
  deriving DecidableEq

namespace Id

def ofPath? (d : TrustDomain) (path : List Char) : Except Reason Id :=
  match h : pathFault? path with
  | some r => .error r
  | none => .ok ⟨d, String.ofList path, by simpa using h⟩

theorem ofPath?_eq_ok_iff {d : TrustDomain} {path : List Char} {i : Id} :
    ofPath? d path = .ok i ↔ i.trustDomain = d ∧ i.path.toList = path := by
  unfold ofPath?
  split
  · rename_i r fault
    constructor
    · intro made
      cases made
    · rintro ⟨rfl, rfl⟩
      rw [i.valid] at fault
      cases fault
  · rw [Except.ok.injEq]
    constructor
    · rintro rfl
      simp
    · rintro ⟨rfl, rfl⟩
      simp

theorem ofPath?_eq_error_iff {d : TrustDomain} {path : List Char} {r : Reason} :
    ofPath? d path = .error r ↔ pathFault? path = some r := by
  unfold ofPath?
  split
  · rename_i other fault
    simp [fault]
  · rename_i valid
    simp [valid]

def parse (input : String) : Except Rejection Id :=
  let s := input.toList
  let reject (r : Reason) : Rejection := ⟨r, input⟩
  if s = [] then .error (reject .empty)
  else match TrustDomain.afterScheme? s with
    | none => .error (reject .wrongScheme)
    | some rest =>
      match TrustDomain.ofName? (TrustDomain.nameOfRest rest) with
      | .error r => .error (reject r)
      | .ok d => (ofPath? d (rest.dropWhile (· ≠ '/'))).mapError reject

def pathOf (segments : List String) : List Char := segments.flatMap fun s => '/' :: s.toList

def fromSegments (d : TrustDomain) (segments : List String) : Except Rejection Id :=
  (ofPath? d (pathOf segments)).mapError fun r =>
    ⟨r, d.idString ++ String.ofList (pathOf segments)⟩

def text (i : Id) : String := i.trustDomain.idString ++ i.path

def memberOf (i : Id) (d : TrustDomain) : Bool := i.trustDomain = d

end Id

end WorkloadIdentity.Spiffe
