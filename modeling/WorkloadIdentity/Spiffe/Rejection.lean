import WorkloadIdentity.Value

/-! Why a text is no SPIFFE ID or trust domain. -/

namespace WorkloadIdentity.Spiffe

inductive Reason where
  | empty
  | wrongScheme
  | missingTrustDomain
  | badTrustDomainChar
  | trustDomainTooLong
  | emptySegment
  | dotSegment
  | badPathSegmentChar
  deriving DecidableEq, Repr

namespace Reason

def word : Reason → String
  | .empty => "empty"
  | .wrongScheme => "wrong_scheme"
  | .missingTrustDomain => "missing_trust_domain"
  | .badTrustDomainChar => "bad_trust_domain_char"
  | .trustDomainTooLong => "trust_domain_too_long"
  | .emptySegment => "empty_segment"
  | .dotSegment => "dot_segment"
  | .badPathSegmentChar => "bad_path_segment_char"

def all : List Reason :=
  [.empty, .wrongScheme, .missingTrustDomain, .badTrustDomainChar, .trustDomainTooLong,
    .emptySegment, .dotSegment, .badPathSegmentChar]

def ofWord? (word : String) : Option Reason := all.find? fun r => r.word = word

def message : Reason → String
  | .empty => "SPIFFE ID or trust domain is empty"
  | .wrongScheme => "scheme is missing or not \"spiffe\""
  | .missingTrustDomain => "trust domain is missing"
  | .badTrustDomainChar =>
    "trust domain characters are limited to lowercase letters, numbers, dots, dashes, and underscores"
  | .trustDomainTooLong => "trust domain is longer than 255 characters"
  | .emptySegment => "path cannot contain empty segments"
  | .dotSegment => "path cannot contain dot segments"
  | .badPathSegmentChar =>
    "path segment characters are limited to letters, numbers, dots, dashes, and underscores"

end Reason

/-- A refused text, whole, with the first thing wrong with it. -/
structure Rejection where
  reason : Reason
  input : String
  deriving DecidableEq

theorem mapError_eq_ok_iff {α : Type} {x : Except Reason α} {f : Reason → Rejection} {a : α} :
    x.mapError f = .ok a ↔ x = .ok a := by
  cases x with
  | error r =>
    constructor
    · rintro ⟨⟩
    · rintro ⟨⟩
  | ok b =>
    constructor
    · rintro ⟨⟩
      rfl
    · rintro ⟨⟩
      rfl

theorem mapError_eq_error_iff {α : Type} {x : Except Reason α} {f : Reason → Rejection}
    {e : Rejection} : x.mapError f = .error e ↔ ∃ r, x = .error r ∧ f r = e := by
  cases x with
  | error r =>
    constructor
    · rintro ⟨⟩
      exact ⟨r, rfl, rfl⟩
    · rintro ⟨_, ⟨⟩, rfl⟩
      rfl
  | ok a =>
    constructor
    · rintro ⟨⟩
    · rintro ⟨_, ⟨⟩, _⟩

def Rejection.fault (now : Int) (r : Rejection) : Fault :=
  .application { kind := "SpiffeIdError", message := r.reason.message }
    { code := "invalid_spiffe_id", raisedAt := now, reason := some r.reason.word }
    [("reason", .text r.reason.word), ("input", .text r.input)] .absent

end WorkloadIdentity.Spiffe
