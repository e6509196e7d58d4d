import WorkloadIdentity.Json.Reader
import WorkloadIdentity.Proofs.Number.Notation

/-! The text of a JSON value, read back. Every text that is written is one line and is read as the
value again, but for numbers, which are read as their digits say, and for objects that name a member
twice, of which the last one is read. -/

namespace WorkloadIdentity.Json

open Number (IsNotation IsFraction IsExponent)

theorem ofDigits?_hexDigit : ∀ n : Fin 32,
    Number.ofDigits? 16 ['0', '0', hexDigit (n.val / 16), hexDigit (n.val % 16)] = some n.val := by
  decide

theorem escaped?_control {c : Char} (control : c < ' ') (r : List Char) :
    escaped? ('u' :: '0' :: '0' :: hexDigit (c.toNat / 16) :: hexDigit (c.toNat % 16) :: r) =
      some (c, r) := by
  have small : c.toNat < 32 := control
  have read := ofDigits?_hexDigit ⟨c.toNat, small⟩
  have unit : unitChar c.toNat = c := by
    rw [unitChar, if_neg (by omega), Char.ofNat_toNat]
  simp only [escaped?, hex4?, read, Option.map_some, Option.bind_some, unit]
  rw [if_neg (by omega)]

theorem string?_escape (fuel : Nat) (c : Char) (r : List Char) :
    string? (fuel + 1) (escape c ++ r) = (string? fuel r).map fun (cs, r) => (c :: cs, r) := by
  unfold escape
  -- the seven short escapes, then the long one, and then the character itself
  iterate 7
    split
    · subst_vars
      rfl
  split
  · rename_i control
    simp only [List.cons_append, List.nil_append, string?, escaped?_control control,
      Option.bind_some]
  · rename_i plain
    simp [string?, plain]

theorem string?_flatMap_escape {cs : List Char} {fuel : Nat} (enough : cs.length < fuel)
    (r : List Char) : string? fuel (cs.flatMap escape ++ '"' :: r) = some (cs, r) := by
  induction cs generalizing fuel with
  | nil =>
    obtain ⟨fuel, rfl⟩ := Nat.exists_eq_add_of_lt enough
    rfl
  | cons c cs ih =>
    cases fuel with
    | zero => cases enough
    | succ fuel =>
      rw [List.flatMap_cons, List.append_assoc, string?_escape, ih (Nat.lt_of_succ_lt_succ enough)]
      rfl

theorem isNumberChar_of_isDigit {c : Char} (digit : c.isDigit = true) : isNumberChar c = true := by
  simp [isNumberChar, digit]

theorem isNumberChar_of_isNotation {s : List Char} (written : IsNotation s) :
    ∀ c ∈ s, isNumberChar c = true := by
  cases written with
  | @parts whole fraction exponent number behind power =>
    intro c member
    rcases List.mem_append.mp member with there | there
    · exact isNumberChar_of_isDigit (number.digits c there)
    rcases List.mem_append.mp there with there | there
    · rcases behind with rfl | ⟨d, digits, rfl, all⟩
      · cases there
      · rcases List.mem_cons.mp there with rfl | there
        · rfl
        · exact isNumberChar_of_isDigit (all c there)
    · rcases power with rfl | ⟨e, rfl⟩
      · cases there
      · rcases List.mem_cons.mp there with rfl | there
        · rfl
        rcases List.mem_cons.mp there with rfl | there
        · split <;> rfl
        · exact isNumberChar_of_isDigit (Number.isDigit_of_mem_decimalDigits there)

theorem exists_digit_of_isNotation {s : List Char} (written : IsNotation s) :
    ∃ c r, s = c :: r ∧ c.isDigit = true := by
  cases written with
  | parts number behind power =>
    obtain ⟨c, r, rfl⟩ := List.exists_cons_of_ne_nil number.filled
    exact ⟨c, _, rfl, number.digits c (List.mem_cons_self ..)⟩

def startsWell (whole rest : List Char) : Bool :=
  match whole with
  | [] => false
  | '0' :: _ :: _ => false
  | _ => match rest with
    | '.' :: c :: _ => c.isDigit
    | '.' :: [] => false
    | _ => true

theorem startsWell_of_parts {whole fraction exponent : List Char} (number : Number.IsWhole whole)
    (behind : IsFraction fraction) (power : IsExponent exponent) :
    startsWell whole (fraction ++ exponent) = true := by
  unfold startsWell
  split
  · exact absurd rfl number.filled
  · cases number.led rfl
  · rcases behind with rfl | ⟨d, digits, rfl, all⟩
    · obtain rfl | ⟨r, rfl⟩ : exponent = [] ∨ ∃ r, exponent = 'e' :: r :=
        power.imp id fun ⟨e, marked⟩ => ⟨_, marked⟩
      · rfl
      · rfl
    · exact all d (List.mem_cons_self ..)

theorem number?_signed (s : List Char) : number? ('-' :: s) =
    if startsWell (s.takeWhile Char.isDigit) (s.dropWhile Char.isDigit) then
      (Number.unsigned? s).map (-·) else none := by
  rfl

theorem number?_unsigned {c : Char} (digit : c.isDigit = true) (s : List Char) :
    number? (c :: s) =
      if startsWell ((c :: s).takeWhile Char.isDigit) ((c :: s).dropWhile Char.isDigit) then
        Number.unsigned? (c :: s) else none := by
  have unsigned : c ≠ '-' := by
    rintro rfl
    cases digit
  unfold number?
  split
  rename_i negative t same
  split at same
  · rename_i r signed
    exact absurd (List.cons.inj signed).1 unsigned
  · cases same
    cases Number.unsigned? (c :: s) <;> rfl

theorem number?_of_isNotation {s : List Char} (written : IsNotation s) :
    ∃ x, number? s = some x ∧ number? ('-' :: s) = some (-x) := by
  have well : startsWell (s.takeWhile Char.isDigit) (s.dropWhile Char.isDigit) = true := by
    cases written with
    | parts number behind power =>
      obtain ⟨taken, left⟩ := Number.takeWhile_isDigit_append number.digits
        fun c => Number.not_isDigit_of_fraction behind power
      rw [taken, left]
      exact startsWell_of_parts number behind power
  obtain ⟨x, read⟩ := Number.unsigned?_of_isNotation written
  obtain ⟨c, r, rfl, digit⟩ := exists_digit_of_isNotation written
  refine ⟨x, ?_, ?_⟩
  · rw [number?_unsigned digit, if_pos well, read]
  · rw [number?_signed, if_pos well, read, Option.map_some]

mutual

/-- What is read of a value that was written. -/
def reread : Json → Json
  | .null => .null
  | .bool b => .bool b
  | .number x => ((number? (numberChars x)).map .number).getD .null
  | .text s => .text s
  | .array js => .array (rereadItems js)
  | .object ms => .object (Table.ofList (rereadMembers ms))

def rereadItems : List Json → List Json
  | [] => []
  | j :: rest => reread j :: rereadItems rest

def rereadMembers : List (String × Json) → Table Json
  | [] => []
  | (k, j) :: rest => (k, reread j) :: rereadMembers rest

end

/-- What follows a value does not go on with a number. -/
def Stops (r : List Char) : Prop := ∀ c, r.head? = some c → isNumberChar c = false

theorem numberChars_cases (x : Float) :
    numberChars x = "null".toList ∧ number? (numberChars x) = none ∨
      ∃ c s y, numberChars x = c :: s ∧ (c.isDigit = true ∨ c = '-') ∧
        (∀ d ∈ c :: s, isNumberChar d = true) ∧ number? (c :: s) = some y := by
  cases infinite : x.isNaN || x.isInf with
  | true => exact .inl (by rw [numberChars, if_pos infinite]; decide)
  | false =>
    obtain ⟨s, written, same⟩ := Number.isNotation_chars infinite
    have plain : numberChars x = Number.chars x := if_neg (Bool.eq_false_iff.mp infinite)
    rw [← plain] at same
    have characters := isNumberChar_of_isNotation written
    obtain ⟨y, unsigned, signed⟩ := number?_of_isNotation written
    obtain ⟨c, r, rfl, digit⟩ := exists_digit_of_isNotation written
    rcases same with same | same
    · exact .inr ⟨c, r, y, same, .inl digit, characters, unsigned⟩
    · refine .inr ⟨'-', c :: r, -y, same, .inr rfl, fun d member => ?_, signed⟩
      rcases List.mem_cons.mp member with rfl | there
      · rfl
      · exact characters d there

theorem ne_of_isNumberStart {c d : Char} (start : c.isDigit = true ∨ c = '-')
    (other : (d.isDigit || d = '-') = false) : c ≠ d := by
  rintro rfl
  simp only [Bool.or_eq_false_iff, decide_eq_false_iff_not] at other
  rcases start with digit | sign
  · simp [digit] at other
  · exact other.2 sign

theorem skip_of_not_isSpace {c : Char} (other : isSpace c = false) (s : List Char) :
    skip (c :: s) = c :: s := by
  simp [skip, other]

theorem value?_number {c : Char} {s r : List Char} {y : Float}
    (start : c.isDigit = true ∨ c = '-') (all : ∀ d ∈ c :: s, isNumberChar d = true)
    (read : number? (c :: s) = some y) (stops : Stops r) (fuel : Nat) :
    value? (fuel + 1) (c :: s ++ r) = some (.number y, r) := by
  have solid : isSpace c = false := by
    simp [isSpace, ne_of_isNumberStart start]
  have taken : (c :: s ++ r).takeWhile isNumberChar = c :: s := by
    rw [List.takeWhile_append_of_pos all]
    cases r with
    | nil => simp
    | cons d r => simp [stops d rfl]
  have left : (c :: s ++ r).dropWhile isNumberChar = r := by
    rw [List.dropWhile_append_of_pos all]
    cases r with
    | nil => rfl
    | cons d r => simp [stops d rfl]
  rw [List.cons_append] at taken left ⊢
  rw [value?, skip_of_not_isSpace solid]
  split
  case h_7 => rw [taken, left, read, Option.map_some]
  all_goals
    rename_i same
    exact absurd (List.cons.inj same).1 (ne_of_isNumberStart start (by decide))

theorem exists_head_chars (j : Json) :
    ∃ c s, j.chars = c :: s ∧ isSpace c = false ∧ c ≠ ']' := by
  cases j with
  | null => exact ⟨_, _, rfl, rfl, by decide⟩
  | bool b => cases b <;> exact ⟨_, _, rfl, rfl, by decide⟩
  | number x =>
    rw [chars]
    rcases numberChars_cases x with ⟨null, -⟩ | ⟨c, s, y, same, start, -, -⟩
    · exact ⟨_, _, null, rfl, by decide⟩
    · exact ⟨c, s, same, by simp [isSpace, ne_of_isNumberStart start],
        ne_of_isNumberStart start (by decide)⟩
  | text s => exact ⟨_, _, rfl, rfl, by decide⟩
  | array js => exact ⟨_, _, rfl, rfl, by decide⟩
  | object ms => exact ⟨_, _, rfl, rfl, by decide⟩

theorem stops_cons {c : Char} (other : isNumberChar c = false) (r : List Char) :
    Stops (c :: r) := by
  rintro d ⟨⟩
  exact other

theorem length_escape_pos (c : Char) : 0 < (escape c).length := by
  unfold escape
  repeat' split
  all_goals simp

theorem length_le_flatMap_escape (cs : List Char) : cs.length ≤ (cs.flatMap escape).length := by
  induction cs with
  | nil => exact Nat.le_refl 0
  | cons c cs ih =>
    have one := length_escape_pos c
    rw [List.flatMap_cons, List.length_append, List.length_cons]
    omega

theorem string?_quoted (cs r : List Char) : ∃ rest, quoted cs ++ r = '"' :: rest ∧
    string? (rest.length + 1) rest = some (cs, r) := by
  refine ⟨cs.flatMap escape ++ '"' :: r, by simp [quoted], string?_flatMap_escape ?_ r⟩
  have longer := length_le_flatMap_escape cs
  rw [List.length_append]
  omega

theorem itemChars_cons_cons (j k : Json) (js : List Json) :
    itemChars (j :: k :: js) = j.chars ++ ',' :: itemChars (k :: js) :=
  rfl

theorem memberChars_cons_cons (k : String) (j : Json) (m : String × Json)
    (ms : List (String × Json)) : memberChars ((k, j) :: m :: ms) =
      quoted k.toList ++ ':' :: j.chars ++ ',' :: memberChars (m :: ms) :=
  rfl

theorem exists_itemChars (j : Json) (js : List Json) (r : List Char) :
    ∃ u, itemChars (j :: js) ++ r = j.chars ++ u := by
  cases js with
  | nil => exact ⟨_, by rw [itemChars, List.append_assoc]⟩
  | cons k js => exact ⟨_, by rw [itemChars_cons_cons, List.append_assoc]⟩

theorem exists_memberChars (m : String × Json) (ms : List (String × Json)) (r : List Char) :
    ∃ u, memberChars (m :: ms) ++ r = '"' :: u := by
  obtain ⟨k, j⟩ := m
  cases ms with
  | nil => exact ⟨_, rfl⟩
  | cons m ms => exact ⟨_, rfl⟩

mutual

/-- Depth never runs out, since every list and every object takes a character. -/
theorem value?_chars (j : Json) (fuel : Nat) (r : List Char) (enough : j.chars.length ≤ fuel)
    (stops : Stops r) : value? fuel (j.chars ++ r) = some (j.reread, r) := by
  obtain ⟨c, s, head, -⟩ := j.exists_head_chars
  cases fuel with
  | zero => simp [head] at enough
  | succ fuel =>
    cases j with
    | null => rfl
    | bool b => cases b <;> rfl
    | number x =>
      rw [chars, reread]
      rcases numberChars_cases x with ⟨null, unread⟩ | ⟨c, s, y, same, start, all, read⟩
      · rw [unread, null]
        rfl
      · rw [same, value?_number start all read stops, read]
        rfl
    | text t =>
      obtain ⟨rest, same, read⟩ := string?_quoted t.toList r
      rw [chars, same, value?, skip_of_not_isSpace (by decide)]
      simp [read, reread]
    | array js =>
      cases js with
      | nil => rfl
      | cons j js =>
        obtain ⟨d, t, first, solid, other⟩ := j.exists_head_chars
        have inner := items?_chars j js fuel r (by simpa [chars] using enough)
        obtain ⟨u, begun⟩ := exists_itemChars j js r
        rw [first, List.cons_append] at begun
        rw [chars, List.cons_append, value?, skip_of_not_isSpace (rfl : isSpace '[' = false)]
        simp only
        rw [begun, skip_of_not_isSpace solid]
        split
        · rename_i same
          exact absurd (List.cons.inj same).1 other
        · rw [← begun, inner]
          rfl
    | object ms =>
      cases ms with
      | nil => rfl
      | cons m ms =>
        obtain ⟨k, j⟩ := m
        have inner := members?_chars k j ms fuel r [] (by simpa [chars] using enough)
        obtain ⟨u, begun⟩ := exists_memberChars (k, j) ms r
        rw [chars, List.cons_append, value?, skip_of_not_isSpace (rfl : isSpace '\x7b' = false)]
        simp only
        rw [begun] at inner ⊢
        rw [skip_of_not_isSpace (rfl : isSpace '"' = false)]
        split
        · rename_i same
          exact absurd (List.cons.inj same).1 (by decide)
        · rw [inner]
          rfl
termination_by fuel

theorem items?_chars (j : Json) (js : List Json) (fuel : Nat) (r : List Char)
    (enough : (itemChars (j :: js)).length ≤ fuel) :
    items? fuel (itemChars (j :: js) ++ r) = some (rereadItems (j :: js), r) := by
  cases fuel with
  | zero => cases js <;> simp [itemChars] at enough
  | succ fuel =>
    cases js with
    | nil =>
      rw [itemChars, List.length_append, List.length_singleton] at enough
      have first := value?_chars j fuel (']' :: r) (by omega) (stops_cons (by decide) r)
      rw [itemChars, List.append_assoc, List.singleton_append, items?, first]
      rfl
    | cons k js =>
      rw [itemChars_cons_cons, List.length_append, List.length_cons] at enough
      have first := value?_chars j fuel (',' :: (itemChars (k :: js) ++ r)) (by omega)
        (stops_cons (by decide) _)
      have rest := items?_chars k js fuel r (by omega)
      rw [itemChars_cons_cons, List.append_assoc, List.cons_append, items?, first]
      simp only [Option.bind_some, skip_of_not_isSpace (rfl : isSpace ',' = false), rest]
      rfl
termination_by fuel

theorem members?_chars (k : String) (j : Json) (ms : List (String × Json)) (fuel : Nat)
    (r : List Char) (done : Table Json) (enough : (memberChars ((k, j) :: ms)).length ≤ fuel) :
    members? fuel (memberChars ((k, j) :: ms) ++ r) done =
      some (Table.merge done (rereadMembers ((k, j) :: ms)), r) := by
  cases fuel with
  | zero => cases ms <;> simp [memberChars] at enough
  | succ fuel =>
    cases ms with
    | nil =>
      rw [memberChars] at enough ⊢
      obtain ⟨rest, same, name⟩ := string?_quoted k.toList (':' :: (j.chars ++ '\x7d' :: r))
      have first := value?_chars j fuel ('\x7d' :: r) (by simp at enough; omega)
        (stops_cons (by decide) r)
      simp only [List.append_assoc, List.cons_append, List.nil_append]
      rw [same, members?, skip_of_not_isSpace (rfl : isSpace '"' = false)]
      simp only [name, Option.bind_some, skip_of_not_isSpace (rfl : isSpace ':' = false), first,
        skip_of_not_isSpace (rfl : isSpace '\x7d' = false), String.ofList_toList]
      rfl
    | cons m ms =>
      obtain ⟨l, i⟩ := m
      rw [memberChars_cons_cons] at enough ⊢
      obtain ⟨rest, same, name⟩ := string?_quoted k.toList
        (':' :: (j.chars ++ ',' :: (memberChars ((l, i) :: ms) ++ r)))
      have first := value?_chars j fuel (',' :: (memberChars ((l, i) :: ms) ++ r))
        (by simp at enough; omega) (stops_cons (by decide) _)
      have later := members?_chars l i ms fuel r (Table.put k j.reread done)
        (by simp at enough; omega)
      simp only [List.append_assoc, List.cons_append]
      rw [same, members?, skip_of_not_isSpace (rfl : isSpace '"' = false)]
      simp only [name, Option.bind_some, skip_of_not_isSpace (rfl : isSpace ':' = false), first,
        skip_of_not_isSpace (rfl : isSpace ',' = false), String.ofList_toList, later]
      rfl
termination_by fuel

end

theorem read?_render (j : Json) : read? j.render = some j.reread := by
  have read := value?_chars j (2 * j.chars.length + 2) [] (by omega) (by rintro c ⟨⟩)
  rw [List.append_nil] at read
  simp only [read?, render, String.toList_ofList, read, Option.bind_some]
  rfl

def Printable (s : List Char) : Prop := ∀ c ∈ s, ¬c < ' '

instance (s : List Char) : Decidable (Printable s) := List.decidableBAll (fun c => ¬c < ' ') s

@[simp] theorem printable_cons {c : Char} {s : List Char} :
    Printable (c :: s) ↔ ¬c < ' ' ∧ Printable s :=
  List.forall_mem_cons

@[simp] theorem printable_append {s t : List Char} :
    Printable (s ++ t) ↔ Printable s ∧ Printable t :=
  List.forall_mem_append

theorem printable_escape_control :
    ∀ n : Fin 32, Printable (escape (Char.ofNat n.val)) := by decide

theorem printable_escape (c : Char) : Printable (escape c) := by
  by_cases control : c < ' '
  · have small : c.toNat < 32 := control
    have escaped := printable_escape_control ⟨c.toNat, small⟩
    rwa [Char.ofNat_toNat] at escaped
  · have itself : Printable [c] := printable_cons.mpr ⟨control, by decide⟩
    unfold escape
    rw [if_neg control]
    -- the seven short escapes, and then the character itself
    iterate 7
      split
      · decide
    exact itself

theorem printable_quoted (s : List Char) : Printable (quoted s) := by
  have inner : Printable (s.flatMap escape) := by
    intro d member
    obtain ⟨c, -, escaped⟩ := List.mem_flatMap.mp member
    exact printable_escape c d escaped
  rw [quoted, printable_append, printable_cons]
  exact ⟨⟨by decide, inner⟩, by decide⟩

theorem printable_of_isNumberChar {c : Char} (number : isNumberChar c = true) : ¬c < ' ' := by
  have kinds : c.isDigit = true ∨ c ∈ ['-', '+', '.', 'e', 'E'] := by
    simpa [isNumberChar, or_assoc] using number
  rcases kinds with digit | sign
  · have low : '0' ≤ c := by
      simp only [Char.isDigit, Bool.and_eq_true, decide_eq_true_eq] at digit
      exact digit.1
    exact Char.not_lt.mpr (Char.le_trans (by decide) low)
  · exact (by decide : Printable ['-', '+', '.', 'e', 'E']) c sign

mutual

theorem printable_chars (j : Json) : Printable j.chars := by
  cases j with
  | null => decide
  | bool b => cases b <;> decide
  | number x =>
    rw [chars]
    rcases numberChars_cases x with ⟨null, -⟩ | ⟨c, s, y, same, -, all, -⟩
    · rw [null]
      decide
    · rw [same]
      exact fun d member => printable_of_isNumberChar (all d member)
  | text s => exact printable_quoted s.toList
  | array js => exact printable_cons.mpr ⟨by decide, printable_itemChars js⟩
  | object ms => exact printable_cons.mpr ⟨by decide, printable_memberChars ms⟩

theorem printable_itemChars (js : List Json) : Printable (itemChars js) := by
  match js with
  | [] => decide
  | [j] => exact printable_append.mpr ⟨printable_chars j, by decide⟩
  | j :: k :: js =>
    rw [itemChars_cons_cons, printable_append, printable_cons]
    exact ⟨printable_chars j, by decide, printable_itemChars (k :: js)⟩

theorem printable_memberChars (ms : List (String × Json)) : Printable (memberChars ms) := by
  match ms with
  | [] => decide
  | [(k, j)] =>
    rw [memberChars]
    simp only [printable_append, printable_cons]
    exact ⟨⟨printable_quoted _, by decide, printable_chars j⟩, by decide⟩
  | (k, j) :: m :: ms =>
    rw [memberChars_cons_cons]
    simp only [printable_append, printable_cons]
    exact ⟨⟨printable_quoted _, by decide, printable_chars j⟩, by decide,
      printable_memberChars (m :: ms)⟩

end

end WorkloadIdentity.Json
