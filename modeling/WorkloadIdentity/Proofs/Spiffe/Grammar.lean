import WorkloadIdentity.Spiffe.Id
import WorkloadIdentity.Proofs.Text.Lines

/-! The written form of SPIFFE IDs, said apart from how they are read. An ID is the scheme,
a name and a path; a path is a run of segments, each behind a slash. A text that is not of
this form has a first fault, from left to right. The checks of names and of paths are the
grammar's: they pass what it allows, and otherwise they find the first fault. -/

namespace WorkloadIdentity.Spiffe

def nameAlphabet : List Char := "abcdefghijklmnopqrstuvwxyz0123456789._-".toList

def segmentAlphabet : List Char := nameAlphabet ++ "ABCDEFGHIJKLMNOPQRSTUVWXYZ".toList

theorem isNameChar_iff {c : Char} : isNameChar c = true ↔ c ∈ nameAlphabet := by
  constructor
  · intro named
    have small : c.toNat < 128 := by
      simp only [isNameChar, Char.isDigit, Bool.or_eq_true, Bool.and_eq_true, decide_eq_true_eq,
        Char.le_def, UInt32.le_iff_toNat_le, ge_iff_le] at named
      rcases named with (((⟨-, upper⟩ | ⟨-, upper⟩) | rfl) | rfl) | rfl
      · exact Nat.lt_of_le_of_lt upper (by decide)
      · exact Nat.lt_of_le_of_lt upper (by decide)
      · decide
      · decide
      · decide
    have listed : ∀ n : Fin 128, isNameChar (Char.ofNat n) = true →
        Char.ofNat n ∈ nameAlphabet := by decide +kernel
    simpa using listed ⟨c.toNat, small⟩ (by simpa using named)
  · intro member
    have listed : nameAlphabet.all isNameChar = true := by decide
    exact List.all_eq_true.mp listed c member

theorem isSegmentChar_iff {c : Char} : isSegmentChar c = true ↔ c ∈ segmentAlphabet := by
  have capital : ('A' ≤ c ∧ c ≤ 'Z') ↔ c ∈ "ABCDEFGHIJKLMNOPQRSTUVWXYZ".toList := by
    constructor
    · rintro ⟨lower, upper⟩
      have small : c.toNat < 128 := Nat.lt_of_le_of_lt upper (by decide)
      have listed : ∀ n : Fin 128, 'A' ≤ Char.ofNat n → Char.ofNat n ≤ 'Z' →
          Char.ofNat n ∈ "ABCDEFGHIJKLMNOPQRSTUVWXYZ".toList := by decide +kernel
      simpa using listed ⟨c.toNat, small⟩ (by simpa using lower) (by simpa using upper)
    · intro member
      have listed :
          "ABCDEFGHIJKLMNOPQRSTUVWXYZ".toList.all (fun c => 'A' ≤ c ∧ c ≤ 'Z') = true := by
        decide
      simpa using List.all_eq_true.mp listed c member
  rw [isSegmentChar, Bool.or_eq_true, isNameChar_iff, Bool.and_eq_true, decide_eq_true_eq,
    decide_eq_true_eq, capital, segmentAlphabet, List.mem_append]

theorem slash_not_mem_nameAlphabet : '/' ∉ nameAlphabet := by decide

theorem slash_not_mem_segmentAlphabet : '/' ∉ segmentAlphabet := by decide

structure IsName (name : List Char) : Prop where
  filled : name ≠ []
  spelled : ∀ c ∈ name, c ∈ nameAlphabet
  short : name.length ≤ 255

inductive NameFault : List Char → Reason → Prop
  | missing : NameFault [] .missingTrustDomain
  | stranger {name : List Char} (c : Char) (member : c ∈ name) (strange : c ∉ nameAlphabet) :
    NameFault name .badTrustDomainChar
  | long {name : List Char} (spelled : ∀ c ∈ name, c ∈ nameAlphabet) (long : 255 < name.length) :
    NameFault name .trustDomainTooLong

structure IsSegment (segment : List Char) : Prop where
  filled : segment ≠ []
  spelled : ∀ c ∈ segment, c ∈ segmentAlphabet
  undotted : segment ≠ ['.'] ∧ segment ≠ ['.', '.']

inductive SegmentFault : List Char → Reason → Prop
  | empty : SegmentFault [] .emptySegment
  | dot : SegmentFault ['.'] .dotSegment
  | dots : SegmentFault ['.', '.'] .dotSegment
  | stranger {segment : List Char} (c : Char) (member : c ∈ segment)
      (strange : c ∉ segmentAlphabet) : SegmentFault segment .badPathSegmentChar

/-- A run of segments, each behind a slash. -/
def written (parts : List (List Char)) : List Char := parts.flatMap ('/' :: ·)

def IsPath (path : List Char) : Prop := ∃ parts, (∀ p ∈ parts, IsSegment p) ∧ path = written parts

def Led (path : List Char) : Prop := path = [] ∨ ∃ rest, path = '/' :: rest

/-- What is wrong first with a text that should be an ID. A name ends at the first slash, and so
does each segment. -/
inductive FirstFault : List Char → Reason → Prop
  | empty : FirstFault [] .empty
  | scheme {text : List Char} (filled : text ≠ []) (other : ¬"spiffe://".toList <+: text) :
    FirstFault text .wrongScheme
  | name {name path : List Char} {r : Reason} (whole : '/' ∉ name) (led : Led path)
      (fault : NameFault name r) : FirstFault ("spiffe://".toList ++ name ++ path) r
  | segment {name : List Char} {parts : List (List Char)} {bad rest : List Char} {r : Reason}
      (named : IsName name) (valid : ∀ p ∈ parts, IsSegment p) (whole : '/' ∉ bad)
      (led : Led rest) (fault : SegmentFault bad r) :
    FirstFault ("spiffe://".toList ++ name ++ (written parts ++ '/' :: bad ++ rest)) r

section
variable {name segment path : List Char} {parts : List (List Char)} {r : Reason}

theorem all_isNameChar_iff : name.all isNameChar = true ↔ ∀ c ∈ name, c ∈ nameAlphabet := by
  simp only [List.all_eq_true, isNameChar_iff]

theorem all_isNameChar_eq_false_iff :
    name.all isNameChar = false ↔ ∃ c ∈ name, c ∉ nameAlphabet := by
  simp only [List.all_eq_false, isNameChar_iff]

theorem nameFault?_eq_none_iff_isName : nameFault? name = none ↔ IsName name := by
  simp only [nameFault?_eq_none_iff, isNameChar_iff]
  exact ⟨fun ⟨filled, spelled, short⟩ => ⟨filled, spelled, short⟩,
    fun h => ⟨h.filled, h.spelled, h.short⟩⟩

theorem nameFault?_eq_some_iff : nameFault? name = some r ↔ NameFault name r := by
  constructor
  · intro fault
    unfold nameFault? at fault
    split at fault
    · rename_i missing
      cases fault
      exact missing ▸ .missing
    · split at fault
      · rename_i bad
        cases fault
        obtain ⟨c, member, strange⟩ := all_isNameChar_eq_false_iff.mp (by simpa using bad)
        exact .stranger c member strange
      · rename_i good
        split at fault
        · rename_i long
          cases fault
          exact .long (all_isNameChar_iff.mp (by simpa using good)) long
        · cases fault
  · intro fault
    cases fault with
    | missing => rfl
    | stranger c member strange =>
      have filled : name ≠ [] := List.ne_nil_of_mem member
      have bad : name.all isNameChar = false :=
        all_isNameChar_eq_false_iff.mpr ⟨c, member, strange⟩
      simp [nameFault?, filled, bad]
    | long spelled long =>
      have filled : name ≠ [] := List.ne_nil_of_length_pos (by omega)
      simp [nameFault?, filled, all_isNameChar_iff.mpr spelled, maxNameLength, long]

theorem all_isSegmentChar_iff :
    segment.all isSegmentChar = true ↔ ∀ c ∈ segment, c ∈ segmentAlphabet := by
  simp only [List.all_eq_true, isSegmentChar_iff]

theorem all_isSegmentChar_eq_false_iff :
    segment.all isSegmentChar = false ↔ ∃ c ∈ segment, c ∉ segmentAlphabet := by
  simp only [List.all_eq_false, isSegmentChar_iff]

theorem segmentFault?_eq_none_iff : segmentFault? segment = none ↔ IsSegment segment := by
  unfold segmentFault?
  constructor
  · intro sound
    split at sound
    · cases sound
    · rename_i filled
      split at sound
      · cases sound
      · rename_i undotted
        split at sound
        · cases sound
        · rename_i good
          exact ⟨filled, all_isSegmentChar_iff.mp (by simpa using good), not_or.mp undotted⟩
  · rintro ⟨filled, spelled, undotted⟩
    simp [filled, undotted, all_isSegmentChar_iff.mpr spelled]

theorem segmentFault?_eq_some_iff : segmentFault? segment = some r ↔ SegmentFault segment r := by
  constructor
  · intro fault
    unfold segmentFault? at fault
    split at fault
    · rename_i empty
      cases fault
      exact empty ▸ .empty
    · split at fault
      · rename_i dotted
        cases fault
        rcases dotted with rfl | rfl
        · exact .dot
        · exact .dots
      · split at fault
        · rename_i bad
          cases fault
          obtain ⟨c, member, strange⟩ := all_isSegmentChar_eq_false_iff.mp (by simpa using bad)
          exact .stranger c member strange
        · cases fault
  · intro fault
    cases fault with
    | empty => rfl
    | dot => rfl
    | dots => rfl
    | stranger c member strange =>
      have filled : segment ≠ [] := List.ne_nil_of_mem member
      have bad : segment.all isSegmentChar = false :=
        all_isSegmentChar_eq_false_iff.mpr ⟨c, member, strange⟩
      -- a dot is in the alphabet, so a segment of dots has no stranger in it
      have undotted : ¬(segment = ['.'] ∨ segment = ['.', '.']) := by
        rintro (rfl | rfl)
        · exact absurd bad (by decide)
        · exact absurd bad (by decide)
      simp [segmentFault?, filled, undotted, bad]

theorem slash_not_mem_of_isName (h : IsName name) : '/' ∉ name :=
  fun member => slash_not_mem_nameAlphabet (h.spelled _ member)

theorem slash_not_mem_of_isSegment (h : IsSegment segment) : '/' ∉ segment :=
  fun member => slash_not_mem_segmentAlphabet (h.spelled _ member)

@[simp] theorem written_nil : written [] = [] := rfl

@[simp] theorem written_cons : written (segment :: parts) = '/' :: segment ++ written parts := rfl

@[simp] theorem written_append {more : List (List Char)} :
    written (parts ++ more) = written parts ++ written more := List.flatMap_append

theorem led_written (parts : List (List Char)) : Led (written parts) := by
  cases parts with
  | nil => exact .inl rfl
  | cons segment parts => exact .inr ⟨_, rfl⟩

theorem splitOn_append_written (segment : List Char) (parts : List (List Char)) :
    (segment ++ written parts).splitOn '/' = (segment :: parts).flatMap (List.splitOn '/') := by
  induction parts generalizing segment with
  | nil => simp
  | cons next parts ih =>
    rw [written_cons, List.cons_append, List.splitOn_append_cons_self, ih]
    rfl

theorem segments_written (parts : List (List Char)) :
    segments (written parts) = parts.flatMap (List.splitOn '/') := by
  cases parts with
  | nil => rfl
  | cons segment parts => simpa [segments] using splitOn_append_written segment parts

theorem segments_written_of_whole (whole : ∀ p ∈ parts, '/' ∉ p) :
    segments (written parts) = parts := by
  rw [segments_written]
  induction parts with
  | nil => rfl
  | cons segment parts ih =>
    rw [List.flatMap_cons, List.splitOn_eq_singleton (whole segment List.mem_cons_self),
      ih fun p member => whole p (List.mem_cons_of_mem _ member)]
    rfl

theorem written_splitOn (text : List Char) : written (text.splitOn '/') = '/' :: text := by
  induction text with
  | nil => rfl
  | cons c text ih =>
    rw [List.splitOn_cons_eq_if_modifyHead]
    by_cases slash : c = '/'
    · simp [slash, ih]
    · cases split : text.splitOn '/' with
      | nil => exact absurd split (List.splitOn_ne_nil '/' text)
      | cons first rest =>
        rw [split] at ih
        simpa [slash] using ih

theorem written_segments (led : Led path) : written (segments path) = path := by
  rcases led with rfl | ⟨rest, rfl⟩
  · rfl
  · simpa [segments] using written_splitOn rest

theorem slash_not_mem_of_mem_segments (member : segment ∈ segments path) : '/' ∉ segment := by
  unfold segments at member
  split at member
  · cases member
  · exact Text.not_mem_of_mem_splitOn member

theorem pathFault?_eq_none_iff : pathFault? path = none ↔ ∀ p ∈ segments path, IsSegment p := by
  simp only [pathFault?, List.findSome?_eq_none_iff, segmentFault?_eq_none_iff]

theorem pathFault?_eq_some_iff : pathFault? path = some r ↔
    ∃ before bad after, segments path = before ++ bad :: after ∧
      SegmentFault bad r ∧ ∀ p ∈ before, IsSegment p := by
  simp only [pathFault?, List.findSome?_eq_some_iff, segmentFault?_eq_none_iff,
    segmentFault?_eq_some_iff]

theorem isPath_iff : IsPath path ↔ Led path ∧ pathFault? path = none := by
  rw [pathFault?_eq_none_iff]
  constructor
  · rintro ⟨parts, valid, rfl⟩
    rw [segments_written_of_whole fun p member => slash_not_mem_of_isSegment (valid p member)]
    exact ⟨led_written parts, valid⟩
  · rintro ⟨led, valid⟩
    exact ⟨segments path, valid, (written_segments led).symm⟩

theorem led_cons (rest : List Char) : Led ('/' :: rest) := .inr ⟨rest, rfl⟩

theorem led_append {more : List Char} (led : Led path) (after : Led more) : Led (path ++ more) := by
  rcases led with rfl | ⟨rest, rfl⟩
  · exact after
  · exact led_cons (rest ++ more)

theorem pathFault?_of_segment {bad rest : List Char}
    (valid : ∀ p ∈ parts, IsSegment p) (whole : '/' ∉ bad) (led : Led rest)
    (fault : SegmentFault bad r) : pathFault? (written parts ++ '/' :: bad ++ rest) = some r := by
  have text : written parts ++ '/' :: bad ++ rest = written (parts ++ bad :: segments rest) := by
    simp [written_segments led]
  have unslashed : ∀ p ∈ parts ++ bad :: segments rest, '/' ∉ p := by
    intro p member
    rcases List.mem_append.mp member with before | after
    · exact slash_not_mem_of_isSegment (valid p before)
    · rcases List.mem_cons.mp after with rfl | later
      · exact whole
      · exact slash_not_mem_of_mem_segments later
  rw [text, pathFault?_eq_some_iff, segments_written_of_whole unslashed]
  exact ⟨parts, bad, segments rest, rfl, fault, valid⟩

theorem FirstFault.of_path (named : IsName name) (led : Led path)
    (fault : pathFault? path = some r) : FirstFault (Spiffe.scheme ++ name ++ path) r := by
  obtain ⟨before, bad, after, split, wrong, valid⟩ := pathFault?_eq_some_iff.mp fault
  have text : path = written before ++ '/' :: bad ++ written after := by
    rw [← written_segments led, split]
    simp
  have member : bad ∈ segments path := by simp [split]
  have whole : '/' ∉ bad := slash_not_mem_of_mem_segments member
  rw [text]
  exact .segment named valid whole (led_written after) wrong

end

end WorkloadIdentity.Spiffe
