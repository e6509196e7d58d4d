import Mathlib.Data.List.DropRight
import Mathlib.Data.List.TakeWhile
import WorkloadIdentity.Endpoint.Address
import WorkloadIdentity.Proofs.Spiffe.Grammar

/-! What each stage of reading a URI does to a text. Blanks at the end and line ends are dropped, a
query and a fragment are cut off, dots are resolved, encoded bytes are decoded. No stage makes
a text longer, and one that keeps its length leaves it as it is: that is the case exactly when
the text has nothing of what the stage looks for. -/

namespace WorkloadIdentity.Endpoint

open Spiffe (written written_append written_cons written_nil written_splitOn)

namespace Percent

section
variable {s t : List Char} {ps : List Piece} {p : Option Text.Utf8.Pending}

theorem length_pieces? (read : pieces? s = some ps) :
    ps.length ≤ s.length ∧ (ps.length = s.length → '%' ∉ s) := by
  fun_induction pieces? s generalizing ps with
  | case1 =>
    cases read
    simp
  | case2 a b rest hi lo _ _ ih =>
    obtain ⟨qs, later, rfl⟩ := Option.map_eq_some_iff.mp read
    have fewer := (ih later).1
    simp only [List.length_cons]
    omega
  | case3 a b rest _ => cases read
  | case4 rest _ => cases read
  | case5 c rest _ other ih =>
    obtain ⟨qs, later, rfl⟩ := Option.map_eq_some_iff.mp read
    obtain ⟨fewer, same⟩ := ih later
    simp only [List.length_cons, List.mem_cons, not_or]
    exact ⟨by omega, fun equal => ⟨fun encoded => other encoded.symm, same (by omega)⟩⟩

theorem eq_nil_of_pieces? (read : pieces? s = some []) : s = [] := by
  fun_induction pieces? s with
  | case1 => rfl
  | case2 => simp at read
  | case3 => cases read
  | case4 => cases read
  | case5 => simp at read

theorem length_join? (read : join? p ps = some t) :
    t.length ≤ ps.length ∧ (t = [] → p = none ∧ ps = []) := by
  fun_induction join? p ps generalizing t with
  | case1 =>
    cases read
    simp
  | case2 => cases read
  | case3 c rest ih =>
    obtain ⟨u, later, rfl⟩ := Option.map_eq_some_iff.mp read
    simpa using (ih later).1
  | case4 => cases read
  | case5 b rest c done ih =>
    obtain ⟨u, later, rfl⟩ := Option.map_eq_some_iff.mp read
    simpa using (ih later).1
  | case6 b rest q more ih =>
    obtain ⟨shorter, filled⟩ := ih read
    exact ⟨Nat.le_succ_of_le shorter, fun empty => nomatch (filled empty).1⟩
  | case7 => cases read
  | case8 q b rest c done ih =>
    obtain ⟨u, later, rfl⟩ := Option.map_eq_some_iff.mp read
    simpa using (ih later).1
  | case9 q b rest r more ih =>
    obtain ⟨shorter, filled⟩ := ih read
    exact ⟨Nat.le_succ_of_le shorter, fun empty => nomatch (filled empty).1⟩
  | case10 => cases read

theorem length_decode? (read : decode? s = some t) :
    t.length ≤ s.length ∧ (t.length = s.length → '%' ∉ s) := by
  obtain ⟨ps, pieces, joined⟩ := Option.bind_eq_some_iff.mp read
  obtain ⟨fewer, same⟩ := length_pieces? pieces
  have shorter := (length_join? joined).1
  exact ⟨by omega, fun equal => same (by omega)⟩

theorem eq_nil_of_decode? (read : decode? s = some []) : s = [] := by
  obtain ⟨ps, pieces, joined⟩ := Option.bind_eq_some_iff.mp read
  obtain ⟨-, rfl⟩ := (length_join? joined).2 rfl
  exact eq_nil_of_pieces? pieces

theorem decode?_cons {c : Char} (plain : c ≠ '%') :
    decode? (c :: s) = (decode? s).map (c :: ·) := by
  have first : pieces? (c :: s) = (pieces? s).map (.plain c :: ·) := by
    rw [pieces?.eq_3 _ _ (by rintro a b r rfl; exact absurd rfl plain), if_neg plain]
  rw [decode?, decode?, first]
  cases pieces? s <;> simp [join?]

end

end Percent

namespace Uri

section
variable {s y : List Char} {c : Char}

/-- What is left of a text when everything is dropped that does not count at its end and in it. -/
def tidy (s : List Char) : List Char :=
  (s.rdropWhile isOuter).filter fun c => !isIgnored c

theorem not_isIgnored (solid : isOuter c = false) : isIgnored c = false := by
  rw [Bool.eq_false_iff] at solid ⊢
  refine fun ignored => solid ?_
  simp only [isIgnored, Bool.or_eq_true, decide_eq_true_eq] at ignored
  rcases ignored with (rfl | rfl) | rfl
  · decide
  · decide
  · decide

theorem tidy_cons (solid : isOuter c = false) (s : List Char) : tidy (c :: s) = c :: tidy s := by
  have kept := not_isIgnored solid
  rw [tidy, tidy, List.rdropWhile, List.rdropWhile, List.reverse_cons, List.dropWhile_append]
  split
  · rename_i blank
    simp [List.isEmpty_iff.mp blank, solid, kept]
  · simp [kept]

theorem tidy_append (solid : ∀ c ∈ y, isOuter c = false) (s : List Char) :
    tidy (y ++ s) = y ++ tidy s := by
  induction y with
  | nil => rfl
  | cons c y ih =>
    simp only [List.mem_cons, forall_eq_or_imp] at solid
    rw [List.cons_append, tidy_cons solid.1, ih solid.2, List.cons_append]

theorem clean_append (filled : y ≠ []) (solid : ∀ c ∈ y, isOuter c = false) (s : List Char) :
    clean (y ++ s) = y ++ tidy s := by
  have begun : (y ++ s).dropWhile isOuter = y ++ s := by
    cases y with
    | nil => exact absurd rfl filled
    | cons c y => exact List.dropWhile_cons_of_neg (by simp [solid c List.mem_cons_self])
  rw [← tidy_append solid, clean, begun]
  rfl

theorem tidy_sublist (s : List Char) : (tidy s).Sublist s :=
  List.filter_sublist.trans (List.rdropWhile_prefix isOuter s).sublist

theorem tidy_eq_self_iff : tidy s = s ↔
    (∀ c, s.getLast? = some c → isOuter c = false) ∧ ∀ c ∈ s, isIgnored c = false := by
  have ended : s.rdropWhile isOuter = s ↔ ∀ c, s.getLast? = some c → isOuter c = false := by
    rw [List.rdropWhile_eq_self_iff]
    cases s using List.reverseRecOn <;> simp
  constructor
  · intro same
    have whole : s.rdropWhile isOuter = s := by
      refine (List.rdropWhile_prefix isOuter s).eq_of_length ?_
      have shorter := (List.rdropWhile_prefix isOuter s).length_le
      have filtered := List.length_filter_le (fun c => !isIgnored c) (s.rdropWhile isOuter)
      rw [← tidy, same] at filtered
      omega
    refine ⟨ended.mp whole, ?_⟩
    rw [tidy, whole, List.filter_eq_self] at same
    simpa using same
  · rintro ⟨last, unbroken⟩
    rw [tidy, ended.mpr last, List.filter_eq_self]
    simpa using unbroken

theorem tails_fst_prefix (s : List Char) : (tails s).1 <+: s :=
  (List.takeWhile_prefix _).trans (List.takeWhile_prefix _)

theorem tails_cons (query : c ≠ '?') (fragment : c ≠ '#') (s : List Char) :
    tails (c :: s) = (c :: (tails s).1, (tails s).2) := by
  simp [tails, query, fragment]

theorem tails_of_unmarked (query : '?' ∉ s) (fragment : '#' ∉ s) : tails s = (s, [], []) := by
  induction s with
  | nil => rfl
  | cons c s ih =>
    simp only [List.mem_cons, not_or] at query fragment
    rw [tails_cons (Ne.symm query.1) (Ne.symm fragment.1), ih query.2 fragment.2]

theorem unmarked_of_tails (same : (tails s).1 = s) : '?' ∉ s ∧ '#' ∉ s := by
  have front : s.takeWhile (· ≠ '#') = s := by
    refine (List.takeWhile_prefix _).eq_of_length ?_
    have shorter := (List.takeWhile_prefix (· ≠ '#') (l := s)).length_le
    have cut := (List.takeWhile_prefix (· ≠ '?') (l := s.takeWhile (· ≠ '#'))).length_le
    rw [show (s.takeWhile (· ≠ '#')).takeWhile (· ≠ '?') = s from same] at cut
    omega
  have whole : s.takeWhile (· ≠ '?') = s := by
    rw [tails] at same
    simpa only [front] using same
  rw [List.takeWhile_eq_self_iff] at front whole
  exact ⟨fun member => by simpa using whole _ member, fun member => by simpa using front _ member⟩

theorem toLower_eq_iff {d : Char} (other : d.toNat < 'A'.toNat) : c.toLower = d ↔ c = d := by
  by_cases capital : 'A' ≤ c ∧ c ≤ 'Z'
  · have least : 'A'.toNat ≤ c.toNat := capital.1
    have most : c.toNat ≤ 'Z'.toNat := capital.2
    have listed : ∀ n : Fin ('Z'.toNat + 1), 'A'.toNat ≤ n.val →
        'A'.toNat ≤ (Char.ofNat n).toLower.toNat := by decide +kernel
    have lowered : 'A'.toNat ≤ c.toLower.toNat := by
      simpa using listed ⟨c.toNat, Nat.lt_succ_of_le most⟩ least
    constructor
    · rintro rfl
      omega
    · rintro rfl
      omega
  · have kept : c.toLower = c := dif_neg capital
    rw [kept]

theorem map_toLower_eq_cons_iff {d : Char} {t : List Char} (other : d.toNat < 'A'.toNat) :
    s.map Char.toLower = d :: t ↔ ∃ u, s = d :: u ∧ u.map Char.toLower = t := by
  rw [List.map_eq_cons_iff]
  simp only [toLower_eq_iff other]
  constructor
  · rintro ⟨c, u, rfl, rfl, later⟩
    exact ⟨u, rfl, later⟩
  · rintro ⟨u, rfl, later⟩
    exact ⟨d, u, rfl, rfl, later⟩

theorem isDot_iff (plain : '%' ∉ s) : isDot s = true ↔ s = ['.'] := by
  have spelled : "%2e".toList = ['%', '2', 'e'] := rfl
  simp only [isDot, Bool.or_eq_true, decide_eq_true_eq, spelled]
  rw [map_toLower_eq_cons_iff (by decide), map_toLower_eq_cons_iff (by decide)]
  constructor
  · rintro (⟨u, rfl, later⟩ | ⟨u, rfl, -⟩)
    · simpa using later
    · simp at plain
  · rintro rfl
    exact .inl ⟨[], rfl, rfl⟩

theorem isDoubleDot_iff (plain : '%' ∉ s) : isDoubleDot s = true ↔ s = ['.', '.'] := by
  have two : "..".toList = ['.', '.'] := rfl
  have first : "%2e.".toList = '%' :: "2e.".toList := rfl
  have second : ".%2e".toList = '.' :: '%' :: "2e".toList := rfl
  have both : "%2e%2e".toList = '%' :: "2e%2e".toList := rfl
  simp only [isDoubleDot, Bool.or_eq_true, decide_eq_true_eq, two, first, second, both]
  simp only [map_toLower_eq_cons_iff (d := '.') (by decide),
    map_toLower_eq_cons_iff (d := '%') (by decide)]
  constructor
  · rintro (((⟨u, rfl, v, rfl, later⟩ | ⟨u, rfl, v, rfl, -⟩) | ⟨u, rfl, -⟩) | ⟨u, rfl, -⟩)
    · simpa using later
    · simp at plain
    · simp at plain
    · simp at plain
  · rintro rfl
    exact .inl (.inl (.inl ⟨_, rfl, _, rfl, rfl⟩))

theorem length_written_dropLast (parts : List (List Char)) :
    (written parts.dropLast).length ≤ (written parts).length := by
  cases parts using List.reverseRecOn with
  | nil => simp
  | append_singleton parts last => simp

theorem ne_nil_of_isDot (dot : isDot s = true) : s ≠ [] := by
  rintro rfl
  exact absurd dot (by decide)

theorem ne_nil_of_isDoubleDot (dots : isDoubleDot s = true) : s ≠ [] := by
  rintro rfl
  exact absurd dots (by decide)

def Undotted (parts : List (List Char)) : Prop :=
  ∀ s ∈ parts, isDot s = false ∧ isDoubleDot s = false

theorem undotted_nil : Undotted [] := nofun

theorem undotted_cons {parts : List (List Char)} : Undotted (s :: parts) ↔
    (isDot s = false ∧ isDoubleDot s = false) ∧ Undotted parts := List.forall_mem_cons

theorem resolve_of_undotted {parts : List (List Char)} (undotted : Undotted parts)
    (done : List (List Char)) : resolve done parts = done ++ parts := by
  fun_induction resolve done parts with
  | case1 => simp
  | case2 done last dots => simp [undotted_cons, dots] at undotted
  | case3 done last _ dot => simp [undotted_cons, dot] at undotted
  | case4 => rfl
  | case5 done s rest _ dots => simp [undotted_cons, dots] at undotted
  | case6 done s rest _ _ dot => simp [undotted_cons, dot] at undotted
  | case7 done s rest _ _ _ ih => simp [ih (undotted_cons.mp undotted).2]

theorem length_resolve (done parts : List (List Char)) :
    (written (resolve done parts)).length ≤ (written done).length + (written parts).length ∧
      ((written (resolve done parts)).length = (written done).length + (written parts).length →
        Undotted parts) := by
  have filled {s : List Char} (dotted : isDot s = true ∨ isDoubleDot s = true) : 0 < s.length :=
    List.length_pos_iff.mpr (dotted.elim ne_nil_of_isDot ne_nil_of_isDoubleDot)
  have shrinks {a b : Nat} {p : Prop} (less : a < b) : a ≤ b ∧ (a = b → p) :=
    ⟨Nat.le_of_lt less, fun same => absurd same (Nat.ne_of_lt less)⟩
  fun_induction resolve done parts with
  | case1 done => simp [undotted_nil]
  | case2 done last dots =>
    have dropped := length_written_dropLast done
    have spelled := filled (.inr dots)
    refine shrinks ?_
    simp only [written_append, written_cons, written_nil, List.length_append, List.length_cons,
      List.length_nil]
    omega
  | case3 done last _ dot =>
    have spelled := filled (.inl dot)
    refine shrinks ?_
    simp only [written_append, written_cons, written_nil, List.length_append, List.length_cons,
      List.length_nil]
    omega
  | case4 done last double single =>
    simp only [Bool.not_eq_true] at single double
    simp [undotted_cons, undotted_nil, single, double]
  | case5 done s rest _ dots ih =>
    have dropped := length_written_dropLast done
    have spelled := filled (.inr dots)
    refine shrinks ?_
    simp only [written_cons, List.length_append, List.length_cons]
    omega
  | case6 done s rest _ _ dot ih =>
    have spelled := filled (.inl dot)
    refine shrinks ?_
    simp only [written_cons, List.length_append, List.length_cons]
    omega
  | case7 done s rest _ double single ih =>
    obtain ⟨shorter, kept⟩ := ih
    simp only [Bool.not_eq_true] at single double
    simp only [written_append, written_cons, written_nil, List.length_append, List.length_cons,
      List.append_nil] at shorter kept ⊢
    refine ⟨by omega, fun same => undotted_cons.mpr ⟨⟨single, double⟩, kept (by omega)⟩⟩

theorem normalPath_eq (y : List Char) :
    normalPath ('/' :: y) = written (resolve [] (y.splitOn '/')) := rfl

theorem normalPath_of_undotted (undotted : Undotted (y.splitOn '/')) :
    normalPath ('/' :: y) = '/' :: y := by
  rw [normalPath_eq, resolve_of_undotted undotted, List.nil_append, written_splitOn]

theorem length_normalPath (y : List Char) :
    (normalPath ('/' :: y)).length ≤ y.length + 1 ∧
      ((normalPath ('/' :: y)).length = y.length + 1 → Undotted (y.splitOn '/')) := by
  have shrinks := length_resolve [] (y.splitOn '/')
  rw [written_splitOn] at shrinks
  simpa [normalPath_eq] using shrinks

theorem parse?_unix (y : List Char) :
    parse? ("unix://" ++ String.ofList ('/' :: y)) =
      some
        { scheme := "unix", path := normalPath (tails (tidy ('/' :: y))).1
          query := (tails (tidy ('/' :: y))).2.1
          fragment := (tails (tidy ('/' :: y))).2.2 } := by
  have solid : ∀ c ∈ "unix://".toList, isOuter c = false := by simp [isOuter]
  have cleaned : clean ("unix://" ++ String.ofList ('/' :: y)).toList =
      "unix".toList ++ ':' :: '/' :: '/' :: tidy ('/' :: y) := by
    rw [String.toList_append, clean_append (by decide) solid, String.toList_ofList,
      String.toList_ofList]
    rfl
  have schemed (rest : List Char) : scheme? ("unix".toList ++ ':' :: rest) = some ("unix", rest) :=
    rfl
  have vacant : authority? Host.verbatim? [] = some ⟨[], [], [], none⟩ := rfl
  have slash (s : List Char) : tails ('/' :: s) = ('/' :: (tails s).1, (tails s).2) :=
    tails_cons (by decide) (by decide) s
  have other : webSchemes.contains "unix" = false ∧ "unix" ≠ "file" := by decide
  simp only [parse?, cleaned, schemed, Option.bind_some, other, if_false, general?, slash,
    tidy_cons (c := '/') (by decide)]
  simp [vacant, ofParts]

end

end Uri

end WorkloadIdentity.Endpoint
