import WorkloadIdentity.Proofs.Spiffe.Grammar

/-! IDs that are built from arguments. The arguments are joined before they are checked, and the
path is split again at every slash, so it is the pieces of the arguments that become the
segments. An argument without a slash is its own only piece. One that holds a slash counts
as several segments, and then another list of arguments yields the same ID. -/

namespace WorkloadIdentity.Spiffe

/-- What the slashes inside of the arguments make of them, in order. -/
def pieces (arguments : List String) : List (List Char) :=
  arguments.flatMap fun a => a.toList.splitOn '/'

section
variable {d : TrustDomain} {arguments : List String} {i : Id}

theorem pathOf_eq_written (arguments : List String) :
    Id.pathOf arguments = written (arguments.map String.toList) := by
  rw [Id.pathOf, written, List.flatMap_map]

theorem segments_pathOf (arguments : List String) :
    segments (Id.pathOf arguments) = pieces arguments := by
  rw [pathOf_eq_written, segments_written, List.flatMap_map, pieces]

theorem pieces_of_whole (whole : ∀ a ∈ arguments, '/' ∉ a.toList) :
    pieces arguments = arguments.map String.toList := by
  rw [← segments_pathOf, pathOf_eq_written]
  refine segments_written_of_whole fun p member => ?_
  obtain ⟨a, given, rfl⟩ := List.mem_map.mp member
  exact whole a given

theorem slash_not_mem_of_mem_pieces {p : List Char} (member : p ∈ pieces arguments) : '/' ∉ p := by
  rw [← segments_pathOf] at member
  exact slash_not_mem_of_mem_segments member

theorem pieces_eq_iff_whole :
    pieces arguments = arguments.map String.toList ↔ ∀ a ∈ arguments, '/' ∉ a.toList := by
  refine ⟨fun same a given => ?_, pieces_of_whole⟩
  have piece : a.toList ∈ pieces arguments := same ▸ List.mem_map_of_mem given
  exact slash_not_mem_of_mem_pieces piece

theorem Id.fromSegments_eq_ok_iff : Id.fromSegments d arguments = .ok i ↔
    i.trustDomain = d ∧ i.path.toList = Id.pathOf arguments := by
  rw [← Id.ofPath?_eq_ok_iff, Id.fromSegments, mapError_eq_ok_iff]

theorem segments_of_fromSegments (built : Id.fromSegments d arguments = .ok i) :
    segments i.path.toList = pieces arguments := by
  rw [(Id.fromSegments_eq_ok_iff.mp built).2, segments_pathOf]

theorem exists_fromSegments_iff :
    (∃ i, Id.fromSegments d arguments = .ok i) ↔ ∀ p ∈ pieces arguments, IsSegment p := by
  rw [← segments_pathOf, ← pathFault?_eq_none_iff]
  constructor
  · rintro ⟨i, built⟩
    rw [← (Id.fromSegments_eq_ok_iff.mp built).2]
    exact i.valid
  · intro sound
    exact ⟨⟨d, String.ofList (Id.pathOf arguments), by simpa using sound⟩,
      Id.fromSegments_eq_ok_iff.mpr ⟨rfl, by simp⟩⟩

end

/-- An ID can be built exactly when every piece of the arguments is a segment, and those are its
segments. So an argument is one segment as long as none holds a slash: then an ID can be built
exactly when each argument is a segment, its path splits into the arguments, and no other such list
yields it. -/
theorem fromSegments_splits_at_slashes (d : TrustDomain) (arguments : List String) :
    ((∃ i, Id.fromSegments d arguments = .ok i) ↔ ∀ p ∈ pieces arguments, IsSegment p) ∧
    (∀ i, Id.fromSegments d arguments = .ok i →
      i.trustDomain = d ∧ segments i.path.toList = pieces arguments ∧
      (segments i.path.toList = arguments.map String.toList ↔
        ∀ a ∈ arguments, '/' ∉ a.toList)) ∧
    ((∀ a ∈ arguments, IsSegment a.toList) ↔
      (∃ i, Id.fromSegments d arguments = .ok i) ∧ ∀ a ∈ arguments, '/' ∉ a.toList) ∧
    ∀ e others i, Id.fromSegments d arguments = .ok i → Id.fromSegments e others = .ok i →
      d = e ∧ pieces arguments = pieces others ∧
      ((∀ a ∈ arguments ++ others, '/' ∉ a.toList) → arguments = others) := by
  refine ⟨exists_fromSegments_iff, ?_, ?_, ?_⟩
  · intro i built
    have split := segments_of_fromSegments built
    refine ⟨(Id.fromSegments_eq_ok_iff.mp built).1, split, ?_⟩
    rw [split, pieces_eq_iff_whole]
  · rw [exists_fromSegments_iff]
    constructor
    · intro valid
      have whole : ∀ a ∈ arguments, '/' ∉ a.toList :=
        fun a given => slash_not_mem_of_isSegment (valid a given)
      rw [pieces_of_whole whole]
      exact ⟨by simpa using valid, whole⟩
    · rintro ⟨valid, whole⟩
      rw [pieces_of_whole whole] at valid
      simpa using valid
  · intro e others i built rebuilt
    have same : pieces arguments = pieces others :=
      (segments_of_fromSegments built).symm.trans (segments_of_fromSegments rebuilt)
    refine ⟨(Id.fromSegments_eq_ok_iff.mp built).1.symm.trans
      (Id.fromSegments_eq_ok_iff.mp rebuilt).1, same, fun whole => ?_⟩
    rw [pieces_of_whole fun a given => whole a (List.mem_append_left others given),
      pieces_of_whole fun a given => whole a (List.mem_append_right arguments given)] at same
    exact (List.map_inj_right fun _ _ => String.toList_inj.mp).mp same

theorem fromSegments_splits_at_slashes_of_one_argument :
    let d : TrustDomain := ⟨"example.org", by decide⟩
    let i : Id := ⟨d, "/ns/prod", by decide⟩
    Id.fromSegments d ["ns/prod"] = .ok i ∧ Id.fromSegments d ["ns", "prod"] = .ok i ∧
      segments i.path.toList = ["ns".toList, "prod".toList] ∧
      pieces ["ns/prod"] = pieces ["ns", "prod"] := by
  intro d i
  have built : Id.fromSegments d ["ns/prod"] = .ok i :=
    Id.fromSegments_eq_ok_iff.mpr ⟨rfl, by decide⟩
  have rebuilt : Id.fromSegments d ["ns", "prod"] = .ok i :=
    Id.fromSegments_eq_ok_iff.mpr ⟨rfl, by decide⟩
  obtain ⟨-, splits, -, yields⟩ := fromSegments_splits_at_slashes d ["ns/prod"]
  exact ⟨built, rebuilt, (splits i built).2.1, (yields d _ i built rebuilt).2.1⟩

/-- A slash in an argument makes it more than one segment, though it is none by itself, and the ID
is also that of another list. -/
theorem argument_is_not_one_segment :
    ∃ (d : TrustDomain) (i : Id), Id.fromSegments d ["ns/prod"] = .ok i ∧
      ¬IsSegment "ns/prod".toList ∧ segments i.path.toList ≠ ["ns/prod".toList] ∧
      Id.fromSegments d ["ns", "prod"] = .ok i := by
  have slash : '/' ∈ "ns/prod".toList := by decide
  refine ⟨⟨"example.org", by decide⟩, ⟨⟨"example.org", by decide⟩, "/ns/prod", by decide⟩,
    Id.fromSegments_eq_ok_iff.mpr ⟨rfl, by decide⟩,
    fun valid => slash_not_mem_of_isSegment valid slash, by decide,
    Id.fromSegments_eq_ok_iff.mpr ⟨rfl, by decide⟩⟩

end WorkloadIdentity.Spiffe
