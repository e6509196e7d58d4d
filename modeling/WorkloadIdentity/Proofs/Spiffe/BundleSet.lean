import Mathlib.Data.List.Induction
import WorkloadIdentity.Spiffe.Bundle

/-! Sets of bundles as maps in which the last bundle of a name wins and the first one gives the
place. A program holds each set in a map that can be written in place. It writes only into maps
that it has just made, so no set changes once it has been handed out. -/

namespace WorkloadIdentity.Spiffe

namespace BundleSet

def names (s : BundleSet) : List String := s.trustDomains.map TrustDomain.name

section
variable {s : BundleSet} {b : Bundle} {bundles : List Bundle}

theorem foldl_add (kept bundles : List Bundle) :
    bundles.foldl add ⟨kept⟩ = ⟨bundles.foldl (fun kept b => insert b kept) kept⟩ := by
  induction bundles generalizing kept with
  | nil => rfl
  | cons b rest ih => exact ih (insert b kept)

theorem ofList_eq_foldl (bundles : List Bundle) : ofList bundles = bundles.foldl add empty :=
  (foldl_add [] bundles).symm

theorem ofList_concat : ofList (bundles ++ [b]) = (ofList bundles).add b := by
  simp [ofList, add]

theorem get?_add (s : BundleSet) (b : Bundle) (d : TrustDomain) :
    (s.add b).get? d = if b.trustDomain.name = d.name then some b else s.get? d := by
  split
  · rename_i same
    rw [← TrustDomain.eq_iff_name.mpr same, get?_add_self]
  · rename_i other
    exact get?_add_of_ne s fun same => other (TrustDomain.eq_iff_name.mp same.symm)

theorem names_add (s : BundleSet) (b : Bundle) :
    (s.add b).names =
      if b.trustDomain.name ∈ s.names then s.names else s.names ++ [b.trustDomain.name] := by
  obtain ⟨kept⟩ := s
  simp only [names, trustDomains, add]
  induction kept with
  | nil => rfl
  | cons c rest ih =>
    by_cases same : c.trustDomain = b.trustDomain
    · simp [insert, same]
    · have other : b.trustDomain.name ≠ c.trustDomain.name := fun named =>
        same (TrustDomain.eq_iff_name.mpr named.symm)
      simp [insert, same, other, ih]
      split <;> simp

theorem nodup_names_add (distinct : s.names.Nodup) (b : Bundle) : (s.add b).names.Nodup := by
  rw [names_add]
  split
  · exact distinct
  · rename_i new
    rw [List.nodup_append]
    refine ⟨distinct, by simp, fun name there other last same => ?_⟩
    rw [same, List.mem_singleton.mp last] at there
    exact new there

theorem nodup_names_ofList (bundles : List Bundle) : (ofList bundles).names.Nodup := by
  induction bundles using List.reverseRecOn with
  | nil => exact List.nodup_nil
  | append_singleton bundles b ih =>
    rw [ofList_concat]
    exact nodup_names_add ih b

theorem names_ofList (bundles : List Bundle) :
    (ofList bundles).names = (bundles.map fun b => b.trustDomain.name).eraseDups := by
  induction bundles using List.reverseRecOn with
  | nil => rfl
  | append_singleton bundles b ih =>
    rw [ofList_concat, names_add, ih, List.map_append, List.map_singleton,
      List.eraseDups_append]
    generalize (bundles.map fun b => b.trustDomain.name) = earlier
    by_cases known : b.trustDomain.name ∈ earlier
    · simp [List.removeAll, known]
    · have single : [b.trustDomain.name].eraseDups = [b.trustDomain.name] := by
        simp [List.eraseDups_cons]
      simp [List.removeAll, known, single]

theorem get?_ofList (bundles : List Bundle) (d : TrustDomain) :
    (ofList bundles).get? d =
      (bundles.filter fun b => b.trustDomain.name = d.name).getLast? := by
  induction bundles using List.reverseRecOn with
  | nil => rfl
  | append_singleton bundles b ih =>
    rw [ofList_concat, get?_add, ih, List.filter_append]
    by_cases same : b.trustDomain.name = d.name <;> simp [same]

theorem has_eq_isSome (s : BundleSet) (d : TrustDomain) : s.has d = (s.get? d).isSome := by
  rw [has, get?, List.isSome_find?]

end

end BundleSet

/-- The maps that a program has made so far. Each of them can be written in place. -/
structure Shelf where
  maps : List (List Bundle) := []

namespace Shelf

def read (shelf : Shelf) (i : Nat) : BundleSet := ⟨shelf.maps[i]?.getD []⟩

def copy (shelf : Shelf) (bundles : List Bundle) : Shelf × Nat :=
  ({ maps := shelf.maps ++ [bundles] }, shelf.maps.length)

def write (shelf : Shelf) (i : Nat) (b : Bundle) : Shelf :=
  { maps := shelf.maps.set i (BundleSet.insert b (shelf.read i).bundles) }

inductive Making where
  | empty
  | of (bundles : List Bundle)
  | add (i : Nat) (b : Bundle)

def make (shelf : Shelf) : Making → Shelf × Nat
  | .empty => shelf.copy []
  | .of bundles =>
    let (shelf, i) := shelf.copy []
    (bundles.foldl (fun shelf b => shelf.write i b) shelf, i)
  | .add i b =>
    let (shelf, j) := shelf.copy (shelf.read i).bundles
    (shelf.write j b, j)

def run (shelf : Shelf) (makings : List Making) : Shelf :=
  makings.foldl (fun shelf making => (shelf.make making).1) shelf

def made (shelf : Shelf) : Making → BundleSet
  | .empty => .empty
  | .of bundles => .ofList bundles
  | .add i b => (shelf.read i).add b

section
variable (shelf : Shelf)

theorem read_copy (bundles : List Bundle) :
    (shelf.copy bundles).1.read (shelf.copy bundles).2 = ⟨bundles⟩ := by
  simp [copy, read]

theorem write_copy (bundles : List Bundle) (b : Bundle) :
    (shelf.copy bundles).1.write (shelf.copy bundles).2 b =
      (shelf.copy (BundleSet.insert b bundles)).1 := by
  rw [write, read_copy]
  simp [copy]

theorem foldl_write_copy (kept bundles : List Bundle) :
    bundles.foldl (fun later b => later.write shelf.maps.length b) (shelf.copy kept).1 =
      (shelf.copy (bundles.foldl (fun kept b => BundleSet.insert b kept) kept)).1 := by
  induction bundles generalizing kept with
  | nil => rfl
  | cons b rest ih =>
    have first := shelf.write_copy kept b
    rw [List.foldl_cons, List.foldl_cons, ← ih, ← first]
    rfl

theorem make_eq (making : Making) :
    shelf.make making = shelf.copy (shelf.made making).bundles := by
  cases making with
  | empty => rfl
  | of bundles => exact Prod.ext (shelf.foldl_write_copy [] bundles) rfl
  | add i b => exact Prod.ext (shelf.write_copy (shelf.read i).bundles b) rfl

theorem read_copy_of_lt (bundles : List Bundle) {k : Nat} (there : k < shelf.maps.length) :
    (shelf.copy bundles).1.read k = shelf.read k := by
  simp [copy, read, List.getElem?_append_left there]

theorem read_make (making : Making) :
    (shelf.make making).1.read (shelf.make making).2 = shelf.made making := by
  rw [make_eq, read_copy]

theorem read_run_of_lt (makings : List Making) {k : Nat} (there : k < shelf.maps.length) :
    (shelf.run makings).read k = shelf.read k := by
  induction makings generalizing shelf with
  | nil => rfl
  | cons making rest ih =>
    have longer : k < (shelf.make making).1.maps.length := by
      simp only [make_eq, copy, List.length_append]
      omega
    rw [run, List.foldl_cons, ← run, ih _ longer, make_eq, read_copy_of_lt _ _ there]

end

end Shelf

namespace BundleSet

/-- A set that is made of bundles is what it becomes when they are added one by one. It finds the
last bundle of each name, and lists each name once, where it came first. To make another set of
it, or any set at all, changes no set that there is. -/
theorem last_bundle_wins (bundles : List Bundle) :
    let s := ofList bundles
    s = bundles.foldl add empty ∧
    (∀ d, s.get? d = (bundles.filter fun b => b.trustDomain.name = d.name).getLast? ∧
      (s.get? d = none ↔ ∀ b ∈ bundles, b.trustDomain.name ≠ d.name) ∧
      s.has d = (s.get? d).isSome) ∧
    s.names = (bundles.map fun b => b.trustDomain.name).eraseDups ∧ s.names.Nodup ∧
    s.trustDomains.length = s.size ∧
    (∀ b d, (s.add b).get? d = if b.trustDomain.name = d.name then some b else s.get? d) ∧
    ∀ (shelf : Shelf) (making : Shelf.Making),
      (shelf.make making).1.read (shelf.make making).2 = shelf.made making ∧
      ∀ later, ∀ k < shelf.maps.length, (shelf.run (making :: later)).read k = shelf.read k := by
  intro s
  refine ⟨ofList_eq_foldl bundles, fun d => ?_, names_ofList bundles, nodup_names_ofList bundles,
    List.length_map _, get?_add s, fun shelf making => ?_⟩
  · have found := get?_ofList bundles d
    refine ⟨found, ?_, has_eq_isSome s d⟩
    rw [found]
    simp
  · exact ⟨shelf.read_make making, fun later k there => shelf.read_run_of_lt _ there⟩

end BundleSet

end WorkloadIdentity.Spiffe
