import WorkloadIdentity.Spiffe.TrustDomain
import WorkloadIdentity.Spiffe.Svid

/-! Trust bundles, and sets of them with at most one bundle for each trust domain.
A bundle that is added for a trust domain already in the set takes the place of the
earlier one; otherwise it goes to the end. -/

namespace WorkloadIdentity.Spiffe

structure Bundle where
  trustDomain : TrustDomain
  authorities : List Der
  deriving DecidableEq

structure BundleSet where
  bundles : List Bundle
  deriving DecidableEq

namespace BundleSet

def empty : BundleSet := ⟨[]⟩

def insert (b : Bundle) : List Bundle → List Bundle
  | [] => [b]
  | c :: rest => if c.trustDomain = b.trustDomain then b :: rest else c :: insert b rest

def add (s : BundleSet) (b : Bundle) : BundleSet := ⟨insert b s.bundles⟩

def ofList (bundles : List Bundle) : BundleSet :=
  ⟨bundles.foldl (fun kept b => insert b kept) []⟩

def get? (s : BundleSet) (d : TrustDomain) : Option Bundle :=
  s.bundles.find? fun b => b.trustDomain = d

def has (s : BundleSet) (d : TrustDomain) : Bool := s.bundles.any fun b => b.trustDomain = d

def trustDomains (s : BundleSet) : List TrustDomain := s.bundles.map Bundle.trustDomain

def size (s : BundleSet) : Nat := s.bundles.length

theorem find?_insert_self (b : Bundle) (l : List Bundle) :
    (insert b l).find? (fun c => c.trustDomain = b.trustDomain) = some b := by
  induction l with
  | nil => simp [insert]
  | cons c rest ih =>
    by_cases h : c.trustDomain = b.trustDomain
    · simp [insert, h]
    · simp [insert, h, ih]

@[simp] theorem get?_add_self (s : BundleSet) (b : Bundle) :
    (s.add b).get? b.trustDomain = some b := find?_insert_self b s.bundles

theorem get?_add_of_ne (s : BundleSet) {b : Bundle} {d : TrustDomain} (h : d ≠ b.trustDomain) :
    (s.add b).get? d = s.get? d := by
  have h' : b.trustDomain ≠ d := fun e => h e.symm
  simp only [get?, add]
  induction s.bundles with
  | nil => simp [insert, h']
  | cons c rest ih =>
    by_cases hc : c.trustDomain = b.trustDomain
    · simp [insert, hc, h']
    · simp only [insert, hc, if_false, List.find?_cons]
      split
      · rfl
      · exact ih

theorem get?_eq_none_iff {s : BundleSet} {d : TrustDomain} :
    s.get? d = none ↔ ∀ b ∈ s.bundles, b.trustDomain.name ≠ d.name := by
  simp [get?, TrustDomain.eq_iff_name]

end BundleSet

end WorkloadIdentity.Spiffe
