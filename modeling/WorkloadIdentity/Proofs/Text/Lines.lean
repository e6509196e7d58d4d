import Mathlib.Data.String.Basic

/-! Texts that are split at a character: no part holds it, and a text without it is the only part.
A text is split into its lines by walking over its positions, which comes to splitting its
characters. -/

namespace WorkloadIdentity.Text

section
variable {α : Type} [BEq α] [LawfulBEq α] {sep : α} {xs part : List α}

theorem not_mem_of_mem_splitOn (member : part ∈ xs.splitOn sep) : sep ∉ part := by
  induction xs generalizing part with
  | nil => simp_all
  | cons x xs ih =>
    rw [List.splitOn_cons_eq_if_modifyHead] at member
    by_cases here : x = sep
    · simp only [here, beq_self_eq_true, if_true, List.mem_cons] at member
      rcases member with rfl | member
      · simp
      · exact ih member
    · cases split : xs.splitOn sep with
      | nil => exact absurd split (List.splitOn_ne_nil sep xs)
      | cons first rest =>
        rw [split] at ih member
        simp only [beq_iff_eq, here, if_false, List.modifyHead_cons, List.mem_cons] at member
        rcases member with rfl | member
        · simpa [Ne.symm here] using ih List.mem_cons_self
        · exact ih (List.mem_cons_of_mem _ member)

theorem splitOn_eq_singleton_iff : xs.splitOn sep = [part] ↔ sep ∉ xs ∧ xs = part := by
  constructor
  · intro single
    have whole : [sep].intercalate (xs.splitOn sep) = xs := List.intercalate_splitOn sep
    rw [single, List.intercalate_singleton] at whole
    subst whole
    exact ⟨not_mem_of_mem_splitOn (single ▸ List.mem_singleton_self part), rfl⟩
  · rintro ⟨absent, rfl⟩
    exact List.splitOn_eq_singleton absent

end

open String (ofList utf8Len)

/-- The walk stands behind `l`, where the line begins, and behind `m`, what it has of the line. -/
theorem splitOnAux_newline (l m r : List Char) (acc : List String) :
    String.splitOnAux (ofList (l ++ m ++ r)) "\n" ⟨utf8Len l⟩ ⟨utf8Len (l ++ m)⟩ 0 acc =
      acc.reverse ++ (List.splitOnPPrepend (· == '\n') r m.reverse).map ofList := by
  have here : String.Pos.Raw.get "\n" 0 = '\n' := by decide
  have width : String.Pos.Raw.next "\n" 0 = ⟨1⟩ := by decide
  have whole : String.Pos.Raw.atEnd "\n" ⟨1⟩ = true := by decide
  have taken (l m r : List Char) : String.Pos.Raw.extract (ofList (l ++ m ++ r)) ⟨utf8Len l⟩
      ⟨utf8Len (l ++ m)⟩ = ofList m := by
    rw [String.utf8Len_append, String.extract_of_valid]
  induction r generalizing l m acc with
  | nil =>
    rw [String.splitOnAux, if_pos ((String.atEnd_of_valid (l ++ m) []).mpr rfl), taken]
    simp
  | cons c r ih =>
    have goes : ¬String.Pos.Raw.atEnd (ofList (l ++ m ++ c :: r)) ⟨utf8Len (l ++ m)⟩ = true := by
      rw [String.atEnd_of_valid]
      simp
    have front : l ++ m ++ c :: r = l ++ (m ++ [c]) ++ r := by simp
    have after : utf8Len (l ++ m) + c.utf8Size = utf8Len (l ++ (m ++ [c])) := by
      simp [Nat.add_assoc]
    rw [String.splitOnAux, if_neg goes, String.get_of_valid, here, List.headD_cons]
    cases line : c == '\n' with
    | true =>
      obtain rfl : c = '\n' := by simpa using line
      have back : String.Pos.Raw.unoffsetBy ⟨utf8Len (l ++ m) + '\n'.utf8Size⟩ ⟨1⟩ =
        ⟨utf8Len (l ++ m)⟩ := rfl
      have next := ih (l ++ (m ++ ['\n'])) [] (ofList m :: acc)
      rw [List.append_nil] at next
      rw [if_pos rfl]
      dsimp only
      rw [String.next_of_valid, width, if_pos whole, back, taken, front, after, next,
        List.splitOnPPrepend_cons_eq_if, if_pos line]
      simp
    | false =>
      have start : String.Pos.Raw.unoffsetBy ⟨utf8Len (l ++ m)⟩ 0 = ⟨utf8Len (l ++ m)⟩ := rfl
      rw [if_neg Bool.false_ne_true, start, String.next_of_valid, front, after,
        ih l (m ++ [c]) acc, List.splitOnPPrepend_cons_eq_if, line, List.reverse_append,
        List.reverse_singleton, List.singleton_append, if_neg Bool.false_ne_true]

theorem splitOn_newline (s : String) : s.splitOn "\n" = (s.toList.splitOn '\n').map ofList := by
  have whole := splitOnAux_newline [] [] s.toList []
  simpa [String.splitOn, List.splitOn_eq_splitOnP] using whole

theorem splitOn_append_newline (s t : String) :
    (s ++ "\n" ++ t).splitOn "\n" = s.splitOn "\n" ++ t.splitOn "\n" := by
  have chars : (s ++ "\n" ++ t).toList = s.toList ++ '\n' :: t.toList := by simp
  rw [splitOn_newline, chars, List.splitOn_append_cons_self, List.map_append, ← splitOn_newline,
    ← splitOn_newline]

theorem splitOn_newline_eq_singleton_iff {s line : String} :
    s.splitOn "\n" = [line] ↔ '\n' ∉ s.toList ∧ s = line := by
  rw [splitOn_newline, List.map_eq_singleton_iff]
  simp only [splitOn_eq_singleton_iff]
  constructor
  · rintro ⟨_, ⟨single, rfl⟩, same⟩
    exact ⟨single, by simpa using same⟩
  · rintro ⟨single, rfl⟩
    exact ⟨_, ⟨single, rfl⟩, by simp⟩

theorem splitOn_newline_intercalate {lines : List String} (some : lines ≠ [])
    (single : ∀ l ∈ lines, '\n' ∉ l.toList) : ("\n".intercalate lines).splitOn "\n" = lines := by
  have chars : ("\n".intercalate lines).toList = ['\n'].intercalate (lines.map String.toList) := by
    simp
  have read : (['\n'].intercalate (lines.map String.toList)).splitOn '\n' =
      lines.map String.toList :=
    List.splitOn_intercalate '\n' (by simpa using single) (by simpa using some)
  rw [splitOn_newline, chars, read]
  simp

end WorkloadIdentity.Text
