import Mathlib.Data.List.TakeWhile
import WorkloadIdentity.Endpoint.IpLiteral
import WorkloadIdentity.Proofs.Number.Digits

/-! IP addresses as text. What is read as an IPv6 address is eight groups of sixteen bits, and the
canonical text of such groups is read back as the same groups: the gap stands where the
longest run of zeros stood, and it is the only place with two colons in a row. -/

namespace WorkloadIdentity.Endpoint.Ipv6

/-- Groups that make up an address. -/
structure Whole (gs : List Nat) : Prop where
  eight : gs.length = 8
  short : ∀ g ∈ gs, g < 65536

section
variable {s t : List Char} {gs : List Nat} {g : Nat}

theorem lt_of_group? (read : group? s = some g) : g < 65536 := by
  simp only [group?, Option.ite_none_right_eq_some] at read
  calc g < 16 ^ s.length := Number.lt_of_ofDigits? read.2
    _ ≤ 16 ^ 4 := Nat.pow_le_pow_right (by decide) read.1

theorem le_of_parse? (read : Ipv4.parse? s = some gs) : ∀ g ∈ gs, g ≤ 255 := by
  unfold Ipv4.parse? at read
  split at read
  · split at read
    · rename_i ha hb hc hd
      cases read
      simp only [List.mem_cons, List.not_mem_nil, or_false]
      rintro g (rfl | rfl | rfl | rfl)
      · exact Ipv4.part?_le ha
      · exact Ipv4.part?_le hb
      · exact Ipv4.part?_le hc
      · exact Ipv4.part?_le hd
    · cases read
  · cases read

theorem lt_of_groups? {parts : List (List Char)} (read : groups? parts = some gs) :
    ∀ g ∈ gs, g < 65536 := by
  fun_induction groups? parts generalizing gs with
  | case1 =>
    cases read
    simp
  | case2 last g group =>
    cases read
    simpa using lt_of_group? group
  | case3 last noGroup a b c d address =>
    cases read
    have bytes := le_of_parse? address
    simp only [List.mem_cons, List.not_mem_nil, or_false, forall_eq_or_imp, forall_eq] at bytes ⊢
    omega
  | case4 last noGroup noAddress => cases read
  | case5 first rest more g group ih =>
    obtain ⟨hs, later, rfl⟩ := Option.map_eq_some_iff.mp read
    simpa using ⟨lt_of_group? group, ih later⟩
  | case6 first rest more noGroup => cases read

theorem lt_of_front? (read : front? s = some gs) : ∀ g ∈ gs, g < 65536 := by
  unfold front? at read
  split at read
  · cases read
    simp
  · generalize s.splitOn ':' = parts at read
    induction parts generalizing gs with
    | nil =>
      cases read
      simp
    | cons part parts ih =>
      simp only [List.mapM_cons, Option.bind_eq_bind, Option.bind_eq_some_iff] at read
      obtain ⟨g, group, hs, later, ⟨⟩⟩ := read
      simpa using ⟨lt_of_group? group, ih later⟩

theorem lt_of_side? (read : side? s = some gs) : ∀ g ∈ gs, g < 65536 := by
  unfold side? at read
  split at read
  · cases read
    simp
  · exact lt_of_groups? read

theorem whole_of_parse? (read : parse? s = some gs) : Whole gs := by
  unfold parse? at read
  split at read
  · obtain ⟨hs, groups, eight⟩ := Option.bind_eq_some_iff.mp read
    simp only [Option.ite_none_right_eq_some, Option.some.injEq] at eight
    exact eight.2 ▸ ⟨eight.1, lt_of_groups? groups⟩
  · split at read
    · rename_i f b front back
      simp only [Option.ite_none_right_eq_some, Option.some.injEq] at read
      obtain ⟨few, rfl⟩ := read
      refine ⟨by simp only [List.length_append, List.length_replicate]; omega, ?_⟩
      simp only [List.mem_append, List.mem_replicate]
      rintro g ((inFront | ⟨-, rfl⟩) | behind)
      · exact lt_of_front? front g inFront
      · decide
      · exact lt_of_side? back g behind
    · cases read

def alphabet : List Char := "0123456789abcdef".toList

theorem mem_alphabet_of_hexText {c : Char} (member : c ∈ hexText g) : c ∈ alphabet := by
  obtain ⟨d, below, rfl⟩ := Number.exists_digitChar_of_mem (by decide) member
  have listed : ∀ d : Fin 16, Nat.digitChar d ∈ alphabet := by decide
  exact listed ⟨d, below⟩

theorem colon_not_mem_hexText : ':' ∉ hexText g :=
  fun member => absurd (mem_alphabet_of_hexText member) (by decide)

theorem hexText_ne_nil : hexText g ≠ [] := Nat.toDigits_ne_nil

theorem group?_hexText (short : g < 65536) : group? (hexText g) = some g := by
  have few : (hexText g).length ≤ 4 :=
    (Nat.length_toDigits_le_iff (by decide) (by decide)).mpr short
  rw [group?, if_pos few]
  exact Number.ofDigits?_toDigits (by decide) (by decide) g

@[simp] theorem joined_nil : joined [] = [] := rfl

@[simp] theorem joined_singleton : joined [g] = hexText g := by simp [joined]

@[simp] theorem joined_cons_cons {h : Nat} :
    joined (g :: h :: gs) = hexText g ++ ':' :: joined (h :: gs) := by
  simp [joined, List.intercalate_cons_cons]

theorem joined_eq_nil_iff : joined gs = [] ↔ gs = [] := by
  rcases gs with _ | ⟨g, _ | ⟨h, gs⟩⟩
  · simp
  · simpa using hexText_ne_nil
  · simp

theorem mem_alphabet_of_joined {c : Char} (member : c ∈ joined gs) : c ∈ ':' :: alphabet := by
  induction gs with
  | nil => cases member
  | cons g gs ih =>
    cases gs with
    | nil =>
      rw [joined_singleton] at member
      exact List.mem_cons_of_mem _ (mem_alphabet_of_hexText member)
    | cons h gs =>
      rw [joined_cons_cons, List.mem_append, List.mem_cons] at member
      rcases member with first | rfl | later
      · exact List.mem_cons_of_mem _ (mem_alphabet_of_hexText first)
      · exact List.mem_cons_self
      · exact ih later

theorem splitOn_joined (filled : gs ≠ []) : (joined gs).splitOn ':' = gs.map hexText := by
  refine List.splitOn_intercalate ':' ?_ (by simpa using filled)
  intro part member
  obtain ⟨g, -, rfl⟩ := List.mem_map.mp member
  exact colon_not_mem_hexText

theorem groups?_map_hexText (short : ∀ g ∈ gs, g < 65536) :
    groups? (gs.map hexText) = some gs := by
  induction gs with
  | nil => rfl
  | cons g gs ih =>
    simp only [List.mem_cons, forall_eq_or_imp] at short
    cases gs with
    | nil => simp [groups?, group?_hexText short.1]
    | cons h gs =>
      have later := ih short.2
      rw [List.map_cons] at later
      simp [groups?, group?_hexText short.1, later]

theorem side?_joined (short : ∀ g ∈ gs, g < 65536) : side? (joined gs) = some gs := by
  by_cases filled : gs = []
  · simp [side?, filled]
  · simp [side?, joined_eq_nil_iff, filled, splitOn_joined filled, groups?_map_hexText short]

theorem front?_joined (short : ∀ g ∈ gs, g < 65536) : front? (joined gs) = some gs := by
  by_cases filled : gs = []
  · simp [front?, filled]
  · have read : (gs.map hexText).mapM group? = some gs := by
      clear filled
      induction gs with
      | nil => rfl
      | cons g gs ih =>
        simp only [List.mem_cons, forall_eq_or_imp] at short
        simp [group?_hexText short.1, ih short.2]
    simp [front?, joined_eq_nil_iff, filled, splitOn_joined filled, read]

theorem gap?_append (whole : ':' ∉ s) (t : List Char) :
    gap? (s ++ t) = (gap? t).map fun (front, back) => (s ++ front, back) := by
  induction s with
  | nil => simp
  | cons c s ih =>
    simp only [List.mem_cons, not_or] at whole
    rw [List.cons_append, gap?.eq_2 _ _ (by rintro rest rfl; exact absurd rfl whole.1), ih whole.2]
    simp [Function.comp_def]

theorem gap?_colon_cons (single : s.head? ≠ some ':') :
    gap? (':' :: s) = (gap? s).map fun (front, back) => (':' :: front, back) := by
  refine gap?.eq_2 _ _ ?_
  rintro rest - rfl
  simp at single

theorem head?_joined_append (t : List Char) : (joined (g :: gs) ++ t).head? ≠ some ':' := by
  have colon : (hexText g).head? ≠ some ':' :=
    fun first => colon_not_mem_hexText (List.mem_of_head? first)
  cases first : (hexText g).head? with
  | none => exact absurd (List.head?_eq_none_iff.mp first) hexText_ne_nil
  | some c =>
    rw [first] at colon
    cases gs with
    | nil => simpa [List.head?_append, first] using colon
    | cons h gs => simpa [List.head?_append, first] using colon

theorem gap?_joined : gap? (joined gs) = none := by
  induction gs with
  | nil => rfl
  | cons g gs ih =>
    cases gs with
    | nil => simpa [gap?] using gap?_append (colon_not_mem_hexText (g := g)) []
    | cons h gs =>
      have single : (joined (h :: gs)).head? ≠ some ':' := by simpa using head?_joined_append []
      rw [joined_cons_cons, gap?_append colon_not_mem_hexText, gap?_colon_cons single, ih]
      rfl

theorem gap?_joined_append (t : List Char) :
    gap? (joined gs ++ ':' :: ':' :: t) = some (joined gs, t) := by
  induction gs with
  | nil => rfl
  | cons g gs ih =>
    cases gs with
    | nil => simp [gap?_append colon_not_mem_hexText, gap?]
    | cons h gs =>
      rw [joined_cons_cons, List.append_assoc, gap?_append colon_not_mem_hexText,
        List.cons_append, gap?_colon_cons (head?_joined_append _), ih]
      rfl

theorem take_zeroRun (gs : List Nat) : gs.take (zeroRun gs) = List.replicate (zeroRun gs) 0 := by
  have front : gs.takeWhile (· = 0) = gs.take (zeroRun gs) :=
    List.prefix_iff_eq_take.mp (List.takeWhile_prefix _)
  rw [← front, zeroRun]
  refine List.eq_replicate_of_mem fun g member => ?_
  simpa using List.all_eq_true.mp List.all_takeWhile g member

theorem longestRun_spec (gs : List Nat) :
    (longestRun gs).1 + (longestRun gs).2 ≤ gs.length ∧
      (gs.drop (longestRun gs).1).take (longestRun gs).2 =
        List.replicate (longestRun gs).2 0 := by
  induction gs with
  | nil => simp [longestRun]
  | cons g gs ih =>
    simp only [longestRun]
    split
    · refine ⟨?_, take_zeroRun _⟩
      rw [Nat.zero_add]
      exact (List.takeWhile_prefix _).length_le
    · refine ⟨?_, ih.2⟩
      rw [List.length_cons]
      omega

theorem parse?_text (whole : Whole gs) : parse? (text gs) = some gs := by
  obtain ⟨within, zeros⟩ := longestRun_spec gs
  obtain ⟨eight, short⟩ := whole
  rw [text]
  generalize longestRun gs = run at *
  obtain ⟨start, length⟩ := run
  simp only at within zeros ⊢
  split
  · rename_i long
    have front : ∀ g ∈ gs.take start, g < 65536 :=
      fun g member => short g (List.mem_of_mem_take member)
    have back : ∀ g ∈ gs.drop (start + length), g < 65536 :=
      fun g member => short g (List.mem_of_mem_drop member)
    have few : (gs.take start).length + (gs.drop (start + length)).length = 8 - length := by
      simp only [List.length_take, List.length_drop]
      omega
    have missing : 8 - (8 - length) = length := by omega
    simp only [parse?, gap?_joined_append, front?_joined front, side?_joined back, few, missing]
    rw [if_pos (by omega), ← zeros, ← List.drop_drop, List.append_assoc, List.take_append_drop,
      List.take_append_drop]
  · have filled : gs ≠ [] := List.ne_nil_of_length_pos (by omega)
    simp [parse?, gap?_joined, splitOn_joined filled, groups?_map_hexText short, eight]

theorem mem_alphabet_of_text {c : Char} (member : c ∈ text gs) : c ∈ ':' :: alphabet := by
  rw [text] at member
  split at member
  split at member
  · simp only [List.mem_append, List.mem_cons] at member
    rcases member with front | rfl | rfl | back
    · exact mem_alphabet_of_joined front
    · exact List.mem_cons_self
    · exact List.mem_cons_self
    · exact mem_alphabet_of_joined back
  · exact mem_alphabet_of_joined member

theorem parse?_of_colonless (colonless : ':' ∉ s) : parse? s = none := by
  have unbroken : gap? s = none := by simpa [gap?] using gap?_append colonless []
  rw [parse?, unbroken, List.splitOn_eq_singleton colonless]
  simp only [groups?]
  split
  · simp
  · split <;> simp

end

end WorkloadIdentity.Endpoint.Ipv6

namespace WorkloadIdentity.Endpoint

theorem isIpv6_text {gs : List Nat} (whole : Ipv6.Whole gs) : isIpv6 (Ipv6.text gs) = true := by
  have zoneless : '%' ∉ Ipv6.text gs :=
    fun member => absurd (Ipv6.mem_alphabet_of_text member) (by decide)
  have all : (Ipv6.text gs).takeWhile (· ≠ '%') = Ipv6.text gs := by
    rw [List.takeWhile_eq_self_iff]
    intro c member
    simpa using ne_of_mem_of_not_mem member zoneless
  simp only [isIpv6, all, Ipv6.parse?_text whole, Option.isSome_some, Bool.true_and]
  simp [zoneless]

theorem isIpv6_of_colonless {s : List Char} (colonless : ':' ∉ s) : isIpv6 s = false := by
  have front : ':' ∉ s.takeWhile (· ≠ '%') :=
    fun member => colonless ((List.takeWhile_sublist _).mem member)
  simp only [isIpv6, Ipv6.parse?_of_colonless front, Option.isSome_none, Bool.false_and]

end WorkloadIdentity.Endpoint
