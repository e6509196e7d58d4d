import WorkloadIdentity.Proofs.Endpoint.Literal
import WorkloadIdentity.Proofs.Endpoint.Stages

/-! Addresses that are written and read again. The text of an IP address and a port is always read
back. The path of a socket is written as it is, without encoding anything, so its text is read
back exactly when the path has nothing in it that means something in a URI. -/

namespace WorkloadIdentity.Endpoint

/-- Hosts as they are kept: an IPv6 address in canonical text, or what no URI gives a meaning. -/
inductive Settled : List Char → Prop
  | plain {host : List Char} (allowed : ∀ c ∈ host, Host.isForbidden c = false) : Settled host
  | ipv6 {gs : List Nat} (whole : Ipv6.Whole gs) : Settled (Ipv6.text gs)

def marks : List Char := ['\t', '\n', '\r', '#', '/', '?', '@']

namespace Uri

section
variable {s t name host : List Char} {port : Nat} {inside : Bool} {u : Uri} {scheme : String}

theorem le_of_port? (read : port? s = some (some port)) : port ≤ 65535 := by
  unfold port? at read
  split at read
  · cases read
  · split at read
    · obtain ⟨n, -, few⟩ := Option.bind_eq_some_iff.mp read
      simp only [Option.ite_none_right_eq_some, Option.some.injEq] at few
      exact few.2 ▸ few.1
    · cases read

theorem of_authority? {readHost : List Char → Option (List Char)} {a : Authority}
    (read : authority? readHost s = some a) :
    (∃ name, readHost name = some a.host) ∧ ∀ port, a.port = some port → port ≤ 65535 := by
  unfold authority? at read
  simp only at read
  split at read
  · cases read
  · split at read
    · rename_i found limit hostRead portRead
      cases read
      refine ⟨⟨_, hostRead⟩, fun port same => ?_⟩
      have same : limit = some port := same
      exact le_of_port? (same ▸ portRead)
    · cases read

theorem of_general? (read : general? scheme s = some u) : u.scheme = scheme ∧
    (∃ name, Host.verbatim? name = some u.host) ∧ ∀ port, u.port = some port → port ≤ 65535 := by
  have vacant : Host.verbatim? [] = some [] := rfl
  unfold general? at read
  simp only at read
  split at read
  · obtain ⟨a, authority, rfl⟩ := Option.map_eq_some_iff.mp read
    exact ⟨rfl, of_authority? authority⟩
  · cases read
    exact ⟨rfl, ⟨[], vacant⟩, nofun⟩
  · cases read
    exact ⟨rfl, ⟨[], vacant⟩, nofun⟩

theorem scheme_of_web? (read : web? scheme s = some u) : u.scheme = scheme := by
  obtain ⟨a, -, rfl⟩ := Option.map_eq_some_iff.mp read
  rfl

theorem scheme_of_file? (read : file? s = some u) : u.scheme = "file" := by
  unfold file? at read
  simp only at read
  split at read
  · split at read
    · split at read
      · cases read
        rfl
      · obtain ⟨h, -, rfl⟩ := Option.map_eq_some_iff.mp read
        rfl
    · cases read
      rfl
  · cases read
    rfl

theorem of_parse? {text : String} (read : parse? text = some u)
    (other : webSchemes.contains u.scheme = false) (unfiled : u.scheme ≠ "file") :
    (∃ name, Host.verbatim? name = some u.host) ∧ ∀ port, u.port = some port → port ≤ 65535 := by
  obtain ⟨⟨scheme, rest⟩, -, read⟩ := Option.bind_eq_some_iff.mp read
  simp only at read
  split at read
  · rename_i web
    rw [scheme_of_web? read, web] at other
    cases other
  · split at read
    · exact absurd (scheme_of_file? read) unfiled
    · exact (of_general? read).2

theorem splitHost_append (enclosed : ∀ c ∈ t, c ≠ '[' ∧ c ≠ ']' ∧ (inside = false → c ≠ ':'))
    (s : List Char) :
    splitHost inside (t ++ s) = (t ++ (splitHost inside s).1, (splitHost inside s).2) := by
  induction t with
  | nil => rfl
  | cons c t ih =>
    simp only [List.mem_cons, forall_eq_or_imp] at enclosed
    obtain ⟨⟨opening, closing, colon⟩, later⟩ := enclosed
    have goesOn : ¬(c = ':' ∧ inside = false) := fun stop => colon stop.2 stop.1
    simp [splitHost, goesOn, opening, closing, ih later]

theorem userInfo_of_not_mem (single : '@' ∉ s) : userInfo s = (none, s) := by
  simp [userInfo, single]

theorem isDigit_of_mem {c : Char} (member : c ∈ Number.decimalDigits port) : c.isDigit = true :=
  Nat.isDigit_of_mem_toDigits (by decide) (by decide) member

theorem port?_digits (few : port ≤ 65535) :
    port? (Number.decimalDigits port) = some (some port) := by
  have filled : Number.decimalDigits port ≠ [] := Nat.toDigits_ne_nil
  have digits : (Number.decimalDigits port).all Char.isDigit = true :=
    List.all_eq_true.mpr fun c member => isDigit_of_mem member
  have read : Number.ofDigits? 10 (Number.decimalDigits port) = some port :=
    Number.ofDigits?_toDigits (by decide) (by decide) port
  simp [port?, filled, digits, read, few]

theorem not_mem_marks_of_isDigit {c : Char} (digit : c.isDigit = true) : c ∉ marks := by
  have undigit : marks.all (fun c => !c.isDigit) = true := by decide
  intro mark
  simpa [digit] using List.all_eq_true.mp undigit c mark

theorem not_isOuter_of_isDigit {c : Char} (digit : c.isDigit = true) : isOuter c = false := by
  have least : '0'.toNat ≤ c.toNat := (Char.isDigit_iff_toNat.mp digit).1
  have above : ' '.toNat < '0'.toNat := by decide
  refine decide_eq_false fun blank => ?_
  have blank : c.toNat ≤ ' '.toNat := blank
  omega

/-- A host that is read as it stands in front of a port: nothing in it ends it or is dropped. -/
structure Readable (name : List Char) : Prop where
  filled : name ≠ []
  quiet : ∀ c ∈ name, c ∉ marks
  kept : Host.verbatim? name = some name
  ends : ∀ s, splitHost false (name ++ ':' :: s) = (name, some s)

theorem readable_of_allowed (filled : name ≠ [])
    (allowed : ∀ c ∈ name, Host.isForbidden c = false) : Readable name := by
  have absent {c : Char} (bad : Host.isForbidden c = true) : c ∉ name := by
    intro member
    rw [allowed c member] at bad
    cases bad
  refine ⟨filled, fun c member mark => ?_, ?_, fun s => ?_⟩
  · have bad : marks.all Host.isForbidden = true := by decide
    simpa [allowed c member] using List.all_eq_true.mp bad c mark
  · have plain : name.head? ≠ some '[' := fun first => absent (by decide) (List.mem_of_head? first)
    simpa [Host.verbatim?, plain] using allowed
  · rw [splitHost_append fun c member => ⟨?_, ?_, fun _ => ?_⟩]
    · simp [splitHost]
    all_goals exact ne_of_mem_of_not_mem member (absent (by decide))

theorem readable_bracketed {gs : List Nat} (whole : Ipv6.Whole gs) :
    Readable ('[' :: Ipv6.text gs ++ [']']) := by
  have absent {c : Char} (other : c ∉ ':' :: Ipv6.alphabet) : c ∉ Ipv6.text gs :=
    fun member => other (Ipv6.mem_alphabet_of_text member)
  refine ⟨by simp, fun c member mark => ?_, ?_, fun s => ?_⟩
  · have other : marks.all (fun c => !('[' :: ']' :: ':' :: Ipv6.alphabet).contains c) = true := by
      decide
    have unnamed := List.all_eq_true.mp other c mark
    simp only [Bool.not_eq_true', List.contains_eq_mem, decide_eq_false_iff_not, List.mem_cons,
      not_or] at unnamed
    have outside : c ∉ Ipv6.text gs := absent (by simpa using unnamed.2.2)
    simp [unnamed.1, unnamed.2.1, outside] at member
  · simp [Host.verbatim?, Host.bracketed?, Ipv6.parse?_text whole]
  · have enclosed : ∀ c ∈ Ipv6.text gs, c ≠ '[' ∧ c ≠ ']' ∧ (true = false → c ≠ ':') :=
      fun c member => ⟨ne_of_mem_of_not_mem member (absent (by decide)),
        ne_of_mem_of_not_mem member (absent (by decide)), nofun⟩
    simp [splitHost, splitHost_append enclosed]

theorem parse?_tcp (readable : Readable name) (few : port ≤ 65535) :
    parse? ("tcp://" ++ String.ofList name ++ ":" ++ Number.naturalText port) =
      some { scheme := "tcp", host := name, port := some port } := by
  obtain ⟨filled, quiet, kept, split⟩ := readable
  generalize body_eq : name ++ ':' :: Number.decimalDigits port = body
  have unmarked : ∀ c ∈ body, c ∉ marks := by
    rw [← body_eq]
    simp only [List.mem_append, List.mem_cons]
    rintro c (inName | rfl | digit)
    · exact quiet c inName
    · decide
    · exact not_mem_marks_of_isDigit (isDigit_of_mem digit)
  have absent {c : Char} (mark : c ∈ marks) : c ∉ body := fun member => unmarked c member mark
  have unchanged : tidy body = body := by
    refine tidy_eq_self_iff.mpr ⟨fun c last => not_isOuter_of_isDigit ?_, fun c member => ?_⟩
    · cases digit : (Number.decimalDigits port).getLast? with
      | none => exact absurd (List.getLast?_eq_none_iff.mp digit) Nat.toDigits_ne_nil
      | some d =>
        have same : d = c := by simpa [← body_eq, List.getLast?_cons, digit] using last
        exact same ▸ isDigit_of_mem (List.mem_of_getLast? digit)
    · have quiet := unmarked c member
      simp only [marks, List.mem_cons, not_or] at quiet
      simp [isIgnored, quiet]
  have solid : ∀ c ∈ "tcp://".toList, isOuter c = false := by simp [isOuter]
  have cleaned : clean ("tcp://" ++ String.ofList name ++ ":" ++ Number.naturalText port).toList =
      "tcp".toList ++ ':' :: '/' :: '/' :: body := by
    have text : ("tcp://" ++ String.ofList name ++ ":" ++ Number.naturalText port).toList =
        "tcp://".toList ++ body := by
      simp [← body_eq, Number.naturalText]
    rw [text, clean_append (by decide) solid, unchanged]
    rfl
  have schemed (rest : List Char) : scheme? ("tcp".toList ++ ':' :: rest) = some ("tcp", rest) :=
    rfl
  have whole : tails ('/' :: '/' :: body) = ('/' :: '/' :: body, [], []) :=
    tails_of_unmarked (by simpa using absent (c := '?') (by decide))
      (by simpa using absent (c := '#') (by decide))
  have unslashed : ∀ c ∈ body, decide (c ≠ '/') = true := by
    intro c member
    simpa using ne_of_mem_of_not_mem member (absent (c := '/') (by decide))
  have authority : authority? Host.verbatim? body = some ⟨[], [], name, some port⟩ := by
    have single : '@' ∉ body := absent (by decide)
    have parts : splitHost false body = (name, some (Number.decimalDigits port)) :=
      body_eq ▸ split _
    simp [authority?, userInfo_of_not_mem single, parts, filled, kept, port?_digits few]
  have other : webSchemes.contains "tcp" = false ∧ "tcp" ≠ "file" := by decide
  simp only [parse?, cleaned, schemed, Option.bind_some, other, if_false, general?, whole,
    List.takeWhile_eq_self_iff.mpr unslashed, List.dropWhile_eq_nil_iff.mpr unslashed, authority]
  rfl

end

end Uri

namespace Address

/-- What a path may hold that is written into a URI as it is: nothing that is decoded, cut off or
dropped, and no dots that are resolved. -/
structure Plain (path : List Char) : Prop where
  unencoded : '%' ∉ path
  unmarked : '?' ∉ path ∧ '#' ∉ path
  unbroken : '\t' ∉ path ∧ '\n' ∉ path ∧ '\r' ∉ path
  ended : ∀ c, path.getLast? = some c → ' ' < c
  undotted : ['.'] ∉ path.splitOn '/' ∧ ['.', '.'] ∉ path.splitOn '/'

section
variable {s : String} {name host y : List Char} {path : String} {port : Nat} {u : Uri} {a : Address}

theorem of_parse (read : parse s = .ok a) :
    ∃ u, Uri.parse? s = some u ∧ ofUri? u = .ok a := by
  unfold parse at read
  split at read
  · cases read
  · rename_i u found
    exact ⟨u, found, read⟩

theorem of_ofUri? (read : ofUri? u = .ok a) :
    u.scheme = "unix" ∧ unix? u = .ok a ∨ u.scheme = "tcp" ∧ tcp? u = .ok a := by
  unfold ofUri? at read
  split at read
  · cases read
  · split at read
    · cases read
    · split at read
      · rename_i unix
        exact .inl ⟨unix, read⟩
      · split at read
        · rename_i tcp
          exact .inr ⟨tcp, read⟩
        · cases read

theorem of_unix? (read : unix? u = .ok a) : u.path.head? = some '/' ∧ u.path ≠ ['/'] ∧
    ∃ path, Percent.decode? u.path = some path ∧ a = .unix (String.ofList path) := by
  unfold unix? at read
  split at read
  · cases read
  · split at read
    · cases read
    · rename_i rooted
      split at read
      · cases read
      · rename_i filled
        split at read
        · cases read
        · rename_i path decoded
          cases read
          exact ⟨by simpa using rooted, filled, path, decoded, rfl⟩

theorem of_tcp? (read : tcp? u = .ok a) : ipVersion? (bareHost u.host) ≠ none ∧
    ∃ port, u.port = some port ∧ a = .tcp (String.ofList (bareHost u.host)) port := by
  unfold tcp? at read
  simp only at read
  split at read
  · cases read
  · rename_i address
    split at read
    · cases read
    · rename_i port given
      split at read
      · cases read
      · cases read
        exact ⟨address, port, given, rfl⟩

theorem bareHost_bracketed (t : List Char) : bareHost ('[' :: t ++ [']']) = t := by
  simp [bareHost]

theorem bareHost_of_plain (plain : host.head? ≠ some '[') : bareHost host = host := by
  unfold bareHost
  split
  · simp at plain
  · rfl

theorem settled_of_verbatim? (read : Host.verbatim? name = some host) :
    Settled (bareHost host) := by
  unfold Host.verbatim? at read
  split at read
  · unfold Host.bracketed? at read
    split at read
    · split at read
      · obtain ⟨gs, groups, rfl⟩ := Option.map_eq_some_iff.mp read
        rw [bareHost_bracketed]
        exact .ipv6 (Ipv6.whole_of_parse? groups)
      · cases read
    · cases read
  · rename_i plain
    split at read
    · cases read
    · rename_i allowed
      cases read
      rw [bareHost_of_plain plain]
      exact .plain (by simpa using allowed)

theorem of_parse_tcp {host : String} (read : parse s = .ok (.tcp host port)) :
    Settled host.toList ∧ ipVersion? host.toList ≠ none ∧ port ≤ 65535 := by
  obtain ⟨u, found, read⟩ := of_parse read
  obtain ⟨-, unix⟩ | ⟨scheme, tcp⟩ := of_ofUri? read
  · obtain ⟨-, -, path, -, same⟩ := of_unix? unix
    cases same
  · obtain ⟨address, _, given, same⟩ := of_tcp? tcp
    cases same
    have other : Uri.webSchemes.contains u.scheme = false ∧ u.scheme ≠ "file" := by
      rw [scheme]
      decide
    obtain ⟨⟨name, kept⟩, few⟩ := Uri.of_parse? found other.1 other.2
    rw [String.toList_ofList]
    exact ⟨settled_of_verbatim? kept, address, few _ given⟩

theorem parse_readable (readable : Uri.Readable name) (few : port ≤ 65535)
    (address : ipVersion? (bareHost name) ≠ none) :
    parse ("tcp://" ++ String.ofList name ++ ":" ++ Number.naturalText port) =
      .ok (.tcp (String.ofList (bareHost name)) port) := by
  simp [parse, Uri.parse?_tcp readable few, ofUri?, tcp?, address]

theorem parse_tcp (settled : Settled host) (address : ipVersion? host ≠ none)
    (few : port ≤ 65535) :
    parse (text (.tcp (String.ofList host) port)) = .ok (.tcp (String.ofList host) port) := by
  cases settled with
  | plain allowed =>
    have absent {c : Char} (bad : Host.isForbidden c = true) : c ∉ host := by
      intro member
      rw [allowed c member] at bad
      cases bad
    have filled : host ≠ [] := by
      rintro rfl
      exact address (by decide)
    have unbracketed : isIpv6 host = false := isIpv6_of_colonless (absent (by decide))
    have plain : host.head? ≠ some '[' := fun first => absent (by decide) (List.mem_of_head? first)
    have bare := bareHost_of_plain plain
    have parsed := parse_readable (Uri.readable_of_allowed filled allowed) few (bare.symm ▸ address)
    simpa [text, unbracketed, bare] using parsed
  | @ipv6 gs whole =>
    have bare := bareHost_bracketed (Ipv6.text gs)
    have parsed := parse_readable (Uri.readable_bracketed whole) few (bare.symm ▸ address)
    rw [bare] at parsed
    simpa [text, isIpv6_text whole, String.append_assoc] using parsed

theorem of_parse_unix (read : parse s = .ok (.unix path)) :
    ∃ y, path.toList = '/' :: y ∧ y ≠ [] := by
  obtain ⟨u, -, read⟩ := of_parse read
  obtain ⟨-, unix⟩ | ⟨-, tcp⟩ := of_ofUri? read
  · obtain ⟨rooted, filled, decoded, decode, same⟩ := of_unix? unix
    cases same
    obtain ⟨encoded, start⟩ := List.head?_eq_some_iff.mp rooted
    rw [start, Percent.decode?_cons (by decide)] at decode
    obtain ⟨y, later, rfl⟩ := Option.map_eq_some_iff.mp decode
    rw [String.toList_ofList]
    refine ⟨y, rfl, ?_⟩
    rintro rfl
    exact filled (by rw [start, Percent.eq_nil_of_decode? later])
  · obtain ⟨-, limit, -, same⟩ := of_tcp? tcp
    cases same

theorem undotted_iff (unencoded : '%' ∉ y) : Uri.Undotted (y.splitOn '/') ↔
    ['.'] ∉ ('/' :: y).splitOn '/' ∧ ['.', '.'] ∉ ('/' :: y).splitOn '/' := by
  have plain : ∀ s ∈ y.splitOn '/', '%' ∉ s := by
    intro s member encoded
    have inside : '%' ∈ Spiffe.written (y.splitOn '/') :=
      List.mem_flatMap.mpr ⟨s, member, List.mem_cons_of_mem _ encoded⟩
    rw [Spiffe.written_splitOn] at inside
    simp [unencoded] at inside
  have slash : ('/' :: y).splitOn '/' = [] :: y.splitOn '/' := by
    simp [List.splitOn_cons_eq_if_modifyHead]
  simp only [slash, List.mem_cons, reduceCtorEq, false_or, Uri.Undotted, Bool.eq_false_iff, ne_eq]
  constructor
  · intro undotted
    exact ⟨fun dot => (undotted _ dot).1 rfl, fun dots => (undotted _ dots).2 rfl⟩
  · rintro ⟨single, double⟩ s member
    rw [Uri.isDot_iff (plain s member), Uri.isDoubleDot_iff (plain s member)]
    exact ⟨fun dot => single (dot ▸ member), fun dots => double (dots ▸ member)⟩

theorem tidy_eq_self_of_plain (plain : Plain ('/' :: y)) : Uri.tidy ('/' :: y) = '/' :: y := by
  refine Uri.tidy_eq_self_iff.mpr ⟨fun c last => ?_, fun c member => ?_⟩
  · simpa [Uri.isOuter] using plain.ended c last
  · obtain ⟨tab, newline, returned⟩ := plain.unbroken
    simp [Uri.isIgnored, ne_of_mem_of_not_mem member tab, ne_of_mem_of_not_mem member newline,
      ne_of_mem_of_not_mem member returned]

theorem parse_unix_of_plain (filled : y ≠ []) (plain : Plain ('/' :: y)) :
    parse ("unix://" ++ String.ofList ('/' :: y)) = .ok (.unix (String.ofList ('/' :: y))) := by
  have unencoded : '%' ∉ y := fun encoded => plain.unencoded (List.mem_cons_of_mem _ encoded)
  have undotted := (undotted_iff unencoded).mpr plain.undotted
  have uncut := Uri.tails_of_unmarked plain.unmarked.1 plain.unmarked.2
  have found : Uri.parse? ("unix://" ++ String.ofList ('/' :: y)) =
      some { scheme := "unix", path := '/' :: y } := by
    rw [Uri.parse?_unix, tidy_eq_self_of_plain plain, uncut, Uri.normalPath_of_undotted undotted]
  have decoded : Percent.decode? ('/' :: y) = some ('/' :: y) :=
    Percent.decode?_of_not_mem plain.unencoded
  simp only [parse, found, ofUri?, unix?, decoded]
  simp [filled]

/-- Every stage would make the path shorter if it changed it, and in the end it is as long as at
the start. -/
theorem unchanged_of_decode?
    (decoded : Percent.decode? (Uri.normalPath ('/' :: (Uri.tails (Uri.tidy y)).1)) =
      some ('/' :: y)) :
    Uri.tidy y = y ∧ (Uri.tails y).1 = y ∧ Uri.Undotted (y.splitOn '/') ∧ '%' ∉ '/' :: y := by
  obtain ⟨decodedLength, unencoded⟩ := Percent.length_decode? decoded
  obtain ⟨resolvedLength, undotted⟩ := Uri.length_normalPath (Uri.tails (Uri.tidy y)).1
  have cutLength := (Uri.tails_fst_prefix (Uri.tidy y)).length_le
  have tidyLength := (Uri.tidy_sublist y).length_le
  rw [List.length_cons] at decodedLength unencoded
  have tidied : Uri.tidy y = y := (Uri.tidy_sublist y).eq_of_length (by omega)
  rw [tidied] at unencoded undotted resolvedLength decodedLength cutLength
  have cut : (Uri.tails y).1 = y := (Uri.tails_fst_prefix y).eq_of_length (by omega)
  rw [cut] at unencoded undotted resolvedLength decodedLength
  have resolved : Uri.Undotted (y.splitOn '/') := undotted (by omega)
  have plain := unencoded (by omega)
  rw [Uri.normalPath_of_undotted resolved] at plain
  exact ⟨tidied, cut, resolved, plain⟩

theorem plain_of_parse_unix
    (read : parse ("unix://" ++ String.ofList ('/' :: y)) =
      .ok (.unix (String.ofList ('/' :: y)))) : Plain ('/' :: y) := by
  obtain ⟨u, found, read⟩ := of_parse read
  rw [Uri.parse?_unix] at found
  obtain ⟨-, unix⟩ | ⟨-, tcp⟩ := of_ofUri? read
  · obtain ⟨-, -, path, decoded, same⟩ := of_unix? unix
    cases found
    simp only [Address.unix.injEq, String.ofList_inj] at same
    subst same
    simp only [Uri.tidy_cons (c := '/') (by decide),
      Uri.tails_cons (c := '/') (by decide) (by decide)] at decoded
    obtain ⟨tidied, cut, resolved, unencoded⟩ := unchanged_of_decode? decoded
    have kept : Uri.tidy ('/' :: y) = '/' :: y := by
      rw [Uri.tidy_cons (by decide), tidied]
    have whole : (Uri.tails ('/' :: y)).1 = '/' :: y := by
      rw [Uri.tails_cons (by decide) (by decide), cut]
    obtain ⟨last, unbroken⟩ := Uri.tidy_eq_self_iff.mp kept
    have absent {c : Char} (ignored : Uri.isIgnored c = true) : c ∉ '/' :: y := fun member => by
      simp [unbroken c member] at ignored
    exact {
      unencoded := unencoded
      unmarked := Uri.unmarked_of_tails whole
      unbroken := ⟨absent rfl, absent rfl, absent rfl⟩
      ended := fun c ends => by simpa [Uri.isOuter] using last c ends
      undotted := (undotted_iff fun encoded => unencoded (List.mem_cons_of_mem _ encoded)).mp
        resolved }
  · obtain ⟨-, _, -, same⟩ := of_tcp? tcp
    cases same

/-- The text of an IP address and a port is read back; that of a socket is read back when its path
is plain, and only then. -/
theorem text_reads_back_iff (accepted : parse s = .ok a) :
    parse a.text = .ok a ↔ ∀ path, a = .unix path → Plain path.toList := by
  cases a with
  | unix path =>
    obtain ⟨y, start, filled⟩ := of_parse_unix accepted
    obtain rfl : path = String.ofList ('/' :: y) := by rw [← start, String.ofList_toList]
    simp only [text, unix.injEq, forall_eq', String.toList_ofList]
    exact ⟨plain_of_parse_unix, parse_unix_of_plain filled⟩
  | tcp host port =>
    obtain ⟨settled, address, few⟩ := of_parse_tcp accepted
    have back := parse_tcp settled address few
    rw [String.ofList_toList] at back
    exact iff_of_true back nofun

theorem text_reads_back_iff_of_blank :
    parse "unix:/tmp/agent%20one.sock" = .ok (.unix "/tmp/agent one.sock") ∧
      (parse (text (.unix "/tmp/agent one.sock")) = .ok (.unix "/tmp/agent one.sock") ↔
        ∀ path, Address.unix "/tmp/agent one.sock" = .unix path → Plain path.toList) :=
  have accepted : parse "unix:/tmp/agent%20one.sock" = .ok (.unix "/tmp/agent one.sock") := by
    decide
  ⟨accepted, text_reads_back_iff accepted⟩

/-- A question mark that was encoded begins a query when it is written as it is. -/
theorem question_mark_is_not_read_back :
    parse "unix:///a%3Fb" = .ok (.unix "/a?b") ∧
      parse (text (.unix "/a?b")) = .error .queryOrFragment := by decide

end

end Address

end WorkloadIdentity.Endpoint
