import WorkloadIdentity.Spiffe.Rejection

/-! Trust domains: the administrative namespace of SPIFFE IDs and the key of bundles.
A name has 1 to 255 characters, each a lower-case letter, a digit, a dot, a dash or
an underscore; a `TrustDomain` carries the proof of it. A trust domain is read from
its bare name or from any text that starts as an ID of it does. -/

namespace WorkloadIdentity.Spiffe

def schemeText : String := "spiffe://"

def scheme : List Char := schemeText.toList

def maxNameLength : Nat := 255

def isNameChar (c : Char) : Bool :=
  ('a' ≤ c && c ≤ 'z') || c.isDigit || c = '.' || c = '_' || c = '-'

def nameFault? (name : List Char) : Option Reason :=
  if name = [] then some .missingTrustDomain
  else if !name.all isNameChar then some .badTrustDomainChar
  else if maxNameLength < name.length then some .trustDomainTooLong
  else none

theorem nameFault?_eq_none_iff {name : List Char} :
    nameFault? name = none ↔
      name ≠ [] ∧ (∀ c ∈ name, isNameChar c = true) ∧ name.length ≤ maxNameLength := by
  unfold nameFault?
  by_cases h : name = []
  · simp [h]
  by_cases hc : ∀ c ∈ name, isNameChar c = true
  · have ha : name.all isNameChar = true := List.all_eq_true.mpr hc
    by_cases hl : maxNameLength < name.length
    · have hl' : ¬ name.length ≤ maxNameLength := by omega
      simp [h, ha, hl, hl']
    · have hl' : name.length ≤ maxNameLength := by omega
      simpa [h, ha, hl, hl'] using hc
  · have ha : name.all isNameChar = false := by
      rw [Bool.eq_false_iff]
      exact fun e => hc (List.all_eq_true.mp e)
    simp [h, ha, hc]

structure TrustDomain where
  name : String
  valid : nameFault? name.toList = none
  deriving DecidableEq

namespace TrustDomain

theorem eq_iff_name {a b : TrustDomain} : a = b ↔ a.name = b.name := by
  cases a
  cases b
  simp

def ofName? (name : List Char) : Except Reason TrustDomain :=
  match h : nameFault? name with
  | some r => .error r
  | none => .ok ⟨String.ofList name, by simpa using h⟩

theorem ofName?_eq_ok_iff {name : List Char} {d : TrustDomain} :
    ofName? name = .ok d ↔ d.name.toList = name := by
  unfold ofName?
  split
  · rename_i r fault
    constructor
    · intro made
      cases made
    · rintro rfl
      rw [d.valid] at fault
      cases fault
  · rw [Except.ok.injEq]
    constructor
    · rintro rfl
      simp
    · rintro rfl
      simp

theorem ofName?_eq_error_iff {name : List Char} {r : Reason} :
    ofName? name = .error r ↔ nameFault? name = some r := by
  unfold ofName?
  split
  · rename_i other fault
    simp [fault]
  · rename_i valid
    simp [valid]

/-- A colon followed by a slash shows that a text is meant as an ID. -/
def hasSchemeMark : List Char → Bool
  | ':' :: '/' :: _ => true
  | _ :: rest => hasSchemeMark rest
  | [] => false

theorem hasSchemeMark_iff {s : List Char} : hasSchemeMark s = true ↔ [':', '/'] <:+: s := by
  fun_induction hasSchemeMark s with
  | case1 rest => simpa using (List.prefix_append [':', '/'] rest).isInfix
  | case2 c rest unmarked ih =>
    rw [ih, List.infix_cons_iff]
    refine ⟨.inr, fun marked => marked.resolve_left ?_⟩
    rintro ⟨tail, split⟩
    obtain ⟨rfl, rfl⟩ := List.cons.inj split
    exact unmarked tail rfl rfl
  | case3 => simp

def afterScheme? (s : List Char) : Option (List Char) :=
  if scheme.isPrefixOf s then some (s.drop scheme.length) else none

theorem afterScheme?_append (rest : List Char) : afterScheme? (scheme ++ rest) = some rest := by
  simp [afterScheme?]

theorem afterScheme?_eq_none_iff {s : List Char} : afterScheme? s = none ↔ ¬scheme <+: s := by
  simp [afterScheme?]

def nameOfRest (rest : List Char) : List Char := rest.takeWhile (· ≠ '/')

def parse (input : String) : Except Rejection TrustDomain :=
  let s := input.toList
  let read (name : List Char) : Except Rejection TrustDomain :=
    (ofName? name).mapError fun r => ⟨r, input⟩
  if s = [] then .error ⟨.missingTrustDomain, input⟩
  else if hasSchemeMark s then
    match afterScheme? s with
    | none => .error ⟨.wrongScheme, input⟩
    | some rest => read (nameOfRest rest)
  else read s

def idString (d : TrustDomain) : String := schemeText ++ d.name

end TrustDomain

end WorkloadIdentity.Spiffe
