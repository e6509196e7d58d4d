import WorkloadIdentity.Proofs.Spiffe.Grammar

/-! Reading IDs and trust domains. A text is taken apart at the scheme and at the first slash
behind it, in one way only, so the reader of IDs accepts the written forms and no others,
and what it reports is the first fault of the text. The reader of trust domains agrees with
it about names. -/

namespace WorkloadIdentity.Spiffe

section
variable {name path : List Char}

theorem nameOfRest_append (whole : '/' ∉ name) (led : Led path) :
    TrustDomain.nameOfRest (name ++ path) = name := by
  have unslashed : ∀ c ∈ name, decide (c ≠ '/') = true := by
    intro c member
    rw [decide_eq_true_eq]
    rintro rfl
    exact whole member
  rw [TrustDomain.nameOfRest, List.takeWhile_append_of_pos unslashed]
  rcases led with rfl | ⟨rest, rfl⟩ <;> simp

theorem dropWhile_append_led (whole : '/' ∉ name) (led : Led path) :
    (name ++ path).dropWhile (· ≠ '/') = path := by
  have split := List.takeWhile_append_dropWhile (p := (· ≠ '/')) (l := name ++ path)
  have taken : (name ++ path).takeWhile (· ≠ '/') = name := nameOfRest_append whole led
  rw [taken] at split
  exact List.append_cancel_left split

theorem exists_name_path (rest : List Char) :
    ∃ name path, rest = name ++ path ∧ '/' ∉ name ∧ Led path := by
  refine ⟨rest.takeWhile (· ≠ '/'), rest.dropWhile (· ≠ '/'),
    List.takeWhile_append_dropWhile.symm, ?_, ?_⟩
  · intro member
    simpa using List.all_eq_true.mp List.all_takeWhile '/' member
  · cases left : rest.dropWhile (· ≠ '/') with
    | nil => exact .inl rfl
    | cons c tail =>
      have slash := List.head?_dropWhile_not (· ≠ '/') rest
      rw [left] at slash
      exact .inr ⟨tail, by simpa using slash⟩

theorem text_cases (text : List Char) :
    text = [] ∨ (text ≠ [] ∧ ¬scheme <+: text) ∨
      ∃ name path, text = scheme ++ name ++ path ∧ '/' ∉ name ∧ Led path := by
  by_cases filled : text = []
  · exact .inl filled
  by_cases schemed : scheme <+: text
  · obtain ⟨rest, rfl⟩ := schemed
    obtain ⟨name, path, rfl, whole, led⟩ := exists_name_path rest
    exact .inr (.inr ⟨name, path, by simp, whole, led⟩)
  · exact .inr (.inl ⟨filled, schemed⟩)

end

section
variable {s : String} {name path : List Char}

theorem Id.parse_of_empty (empty : s.toList = []) : Id.parse s = .error ⟨.empty, s⟩ := by
  simp [Id.parse, empty]

theorem Id.parse_of_unschemed (filled : s.toList ≠ []) (other : ¬scheme <+: s.toList) :
    Id.parse s = .error ⟨.wrongScheme, s⟩ := by
  simp [Id.parse, filled, TrustDomain.afterScheme?_eq_none_iff.mpr other]

theorem Id.parse_of_text (text : s.toList = scheme ++ name ++ path) (whole : '/' ∉ name)
    (led : Led path) : Id.parse s =
      ((TrustDomain.ofName? name).bind fun d => Id.ofPath? d path).mapError (⟨·, s⟩) := by
  have filled : s.toList ≠ [] := by
    rw [text]
    exact List.append_ne_nil_of_left_ne_nil (List.append_ne_nil_of_left_ne_nil (by decide) _) _
  have behind : TrustDomain.afterScheme? s.toList = some (name ++ path) := by
    rw [text, List.append_assoc, TrustDomain.afterScheme?_append]
  simp only [Id.parse, filled, behind, nameOfRest_append whole led,
    dropWhile_append_led whole led, if_false]
  cases TrustDomain.ofName? name <;> rfl

theorem Id.parse_eq_ok_iff {i : Id} : Id.parse s = .ok i ↔
    s.toList = scheme ++ i.trustDomain.name.toList ++ i.path.toList ∧ Led i.path.toList := by
  constructor
  · intro read
    rcases text_cases s.toList with empty | ⟨filled, other⟩ | ⟨name, path, text, whole, led⟩
    · rw [Id.parse_of_empty empty] at read
      cases read
    · rw [Id.parse_of_unschemed filled other] at read
      cases read
    · rw [Id.parse_of_text text whole led, mapError_eq_ok_iff] at read
      cases named : TrustDomain.ofName? name with
      | error r =>
        rw [named] at read
        cases read
      | ok d =>
        rw [named] at read
        obtain ⟨domain, rfl⟩ := Id.ofPath?_eq_ok_iff.mp read
        rw [domain, TrustDomain.ofName?_eq_ok_iff.mp named]
        exact ⟨text, led⟩
  · rintro ⟨text, led⟩
    have named : IsName i.trustDomain.name.toList :=
      nameFault?_eq_none_iff_isName.mp i.trustDomain.valid
    rw [Id.parse_of_text text (slash_not_mem_of_isName named) led, mapError_eq_ok_iff,
      TrustDomain.ofName?_eq_ok_iff.mpr rfl]
    exact Id.ofPath?_eq_ok_iff.mpr ⟨rfl, rfl⟩

theorem Id.parse_of_name_fault {r : Reason} (text : s.toList = scheme ++ name ++ path)
    (whole : '/' ∉ name) (led : Led path) (fault : NameFault name r) :
    Id.parse s = .error ⟨r, s⟩ := by
  rw [Id.parse_of_text text whole led,
    TrustDomain.ofName?_eq_error_iff.mpr (nameFault?_eq_some_iff.mpr fault)]
  rfl

theorem Id.parse_of_path_fault {r : Reason} (text : s.toList = scheme ++ name ++ path)
    (named : IsName name) (led : Led path) (fault : pathFault? path = some r) :
    Id.parse s = .error ⟨r, s⟩ := by
  rw [Id.parse_of_text text (slash_not_mem_of_isName named) led]
  cases read : TrustDomain.ofName? name with
  | error other =>
    have sound := nameFault?_eq_none_iff_isName.mpr named
    rw [TrustDomain.ofName?_eq_error_iff.mp read] at sound
    cases sound
  | ok d => exact mapError_eq_error_iff.mpr ⟨r, Id.ofPath?_eq_error_iff.mpr fault, rfl⟩

theorem Id.parse_eq_error_iff {e : Rejection} :
    Id.parse s = .error e ↔ e.input = s ∧ FirstFault s.toList e.reason := by
  constructor
  · intro refused
    rcases text_cases s.toList with empty | ⟨filled, other⟩ | ⟨name, path, text, whole, led⟩
    · rw [Id.parse_of_empty empty] at refused
      cases refused
      exact ⟨rfl, empty ▸ .empty⟩
    · rw [Id.parse_of_unschemed filled other] at refused
      cases refused
      exact ⟨rfl, .scheme filled other⟩
    · cases named : nameFault? name with
      | some r =>
        have fault := nameFault?_eq_some_iff.mp named
        rw [Id.parse_of_name_fault text whole led fault] at refused
        cases refused
        exact ⟨rfl, text ▸ .name whole led fault⟩
      | none =>
        have isName := nameFault?_eq_none_iff_isName.mp named
        cases fault : pathFault? path with
        | some r =>
          rw [Id.parse_of_path_fault text isName led fault] at refused
          cases refused
          exact ⟨rfl, text ▸ .of_path isName led fault⟩
        | none =>
          -- the text is sound, and so is read
          have read : Id.parse s = .ok ⟨⟨String.ofList name, by simpa using named⟩,
              String.ofList path, by simpa using fault⟩ :=
            Id.parse_eq_ok_iff.mpr ⟨by simpa using text, by simpa using led⟩
          rw [read] at refused
          cases refused
  · obtain ⟨reason, input⟩ := e
    rintro ⟨rfl, fault⟩
    generalize text : input.toList = chars at fault
    cases fault with
    | empty => exact Id.parse_of_empty text
    | scheme filled other =>
      subst text
      exact Id.parse_of_unschemed filled other
    | name whole led fault => exact Id.parse_of_name_fault text whole led fault
    | segment named valid whole led fault =>
      refine Id.parse_of_path_fault text named ?_ (pathFault?_of_segment valid whole led fault)
      exact led_append (led_append (led_written _) (led_cons _)) led

theorem TrustDomain.parse_of_bare (bare : ¬[':', '/'] <:+: s.toList) :
    TrustDomain.parse s = (TrustDomain.ofName? s.toList).mapError (⟨·, s⟩) := by
  have unmarked : TrustDomain.hasSchemeMark s.toList = false := by
    rw [Bool.eq_false_iff, ne_eq, TrustDomain.hasSchemeMark_iff]
    exact bare
  by_cases empty : s.toList = []
  · simp only [TrustDomain.parse, empty, if_true]
    rfl
  · simp [TrustDomain.parse, empty, unmarked]

theorem TrustDomain.parse_of_text (text : s.toList = scheme ++ name ++ path) (whole : '/' ∉ name)
    (led : Led path) :
    TrustDomain.parse s = (TrustDomain.ofName? name).mapError (⟨·, s⟩) := by
  have filled : s.toList ≠ [] := by
    rw [text]
    exact List.append_ne_nil_of_left_ne_nil (List.append_ne_nil_of_left_ne_nil (by decide) _) _
  have marked : TrustDomain.hasSchemeMark s.toList = true := by
    have schemed : [':', '/'] <:+: scheme := TrustDomain.hasSchemeMark_iff.mp (by decide)
    rw [TrustDomain.hasSchemeMark_iff, text, List.append_assoc]
    exact schemed.trans (List.prefix_append _ _).isInfix
  have behind : TrustDomain.afterScheme? s.toList = some (name ++ path) := by
    rw [text, List.append_assoc, TrustDomain.afterScheme?_append]
  simp [TrustDomain.parse, filled, marked, behind, nameOfRest_append whole led]

theorem TrustDomain.mapError_ofName?_eq_ok_iff {d : TrustDomain} :
    (TrustDomain.ofName? name).mapError (Rejection.mk · s) = .ok d ↔ d.name.toList = name := by
  rw [mapError_eq_ok_iff, TrustDomain.ofName?_eq_ok_iff]

theorem TrustDomain.mapError_ofName?_eq_error_iff {e : Rejection} :
    (TrustDomain.ofName? name).mapError (Rejection.mk · s) = .error e ↔
      e.input = s ∧ NameFault name e.reason := by
  rw [mapError_eq_error_iff]
  constructor
  · rintro ⟨r, fault, rfl⟩
    exact ⟨rfl, nameFault?_eq_some_iff.mp (TrustDomain.ofName?_eq_error_iff.mp fault)⟩
  · rintro ⟨rfl, fault⟩
    exact ⟨e.reason, TrustDomain.ofName?_eq_error_iff.mpr (nameFault?_eq_some_iff.mpr fault), rfl⟩

end

/-- The reader of IDs accepts exactly the texts of the grammar and returns their two parts; of any
other text it reports the first fault, with the text. The reader of trust domains accepts a text
without the mark of an ID exactly when it is a name, and reports the fault of the name if not. -/
theorem parse_follows_grammar (s : String) :
    (∀ name path, (∃ i, Id.parse s = .ok i ∧ i.trustDomain.name = name ∧ i.path = path) ↔
      IsName name.toList ∧ IsPath path.toList ∧ s = "spiffe://" ++ name ++ path) ∧
    (∀ e, Id.parse s = .error e ↔ e.input = s ∧ FirstFault s.toList e.reason) ∧
    (∀ e, Id.parse s = .error e → ∀ now, ∃ heading standing, e.fault now =
      .application heading standing
        [("reason", .text e.reason.word), ("input", .text s)] .absent) ∧
    (¬[':', '/'] <:+: s.toList →
      (∀ name, (∃ d, TrustDomain.parse s = .ok d ∧ d.name = name) ↔
        IsName name.toList ∧ s = name) ∧
      ∀ e, TrustDomain.parse s = .error e ↔ e.input = s ∧ NameFault s.toList e.reason) := by
  refine ⟨fun name path => ?_, fun e => Id.parse_eq_error_iff, ?_, fun bare => ?_⟩
  · have spelled : s = "spiffe://" ++ name ++ path ↔
        s.toList = scheme ++ name.toList ++ path.toList := by
      rw [← String.toList_inj, String.toList_append, String.toList_append]
      rfl
    rw [spelled, isPath_iff, ← nameFault?_eq_none_iff_isName]
    constructor
    · rintro ⟨i, read, rfl, rfl⟩
      obtain ⟨text, led⟩ := Id.parse_eq_ok_iff.mp read
      exact ⟨i.trustDomain.valid, ⟨led, i.valid⟩, text⟩
    · rintro ⟨named, ⟨led, sound⟩, text⟩
      exact ⟨⟨⟨name, named⟩, path, sound⟩, Id.parse_eq_ok_iff.mpr ⟨text, led⟩, rfl, rfl⟩
  · intro e refused now
    exact ⟨_, _, by rw [Rejection.fault, (Id.parse_eq_error_iff.mp refused).1]⟩
  · rw [TrustDomain.parse_of_bare bare]
    refine ⟨fun name => ?_, fun e => TrustDomain.mapError_ofName?_eq_error_iff⟩
    simp only [TrustDomain.mapError_ofName?_eq_ok_iff, String.toList_inj]
    constructor
    · rintro ⟨d, rfl, rfl⟩
      exact ⟨nameFault?_eq_none_iff_isName.mp d.valid, rfl⟩
    · rintro ⟨named, rfl⟩
      exact ⟨⟨s, nameFault?_eq_none_iff_isName.mpr named⟩, rfl, rfl⟩

theorem parse_follows_grammar_of_port :
    let s := "example.org:443//"
    ¬[':', '/'] <:+: s.toList ∧
      TrustDomain.parse s = .error ⟨.badTrustDomainChar, s⟩ ∧
      Id.parse ("spiffe://" ++ s) = .error ⟨.badTrustDomainChar, "spiffe://" ++ s⟩ ∧
      ∃ heading standing, (Rejection.mk .badTrustDomainChar ("spiffe://" ++ s)).fault 0 =
        .application heading standing [("reason", .text "bad_trust_domain_char"),
          ("input", .text "spiffe://example.org:443//")] .absent := by
  intro s
  have bare : ¬[':', '/'] <:+: s.toList := by
    rw [← TrustDomain.hasSchemeMark_iff]
    decide
  have strange : ':' ∈ "example.org:443".toList ∧ ':' ∉ nameAlphabet := by decide
  have text : ("spiffe://" ++ s).toList =
      "spiffe://".toList ++ "example.org:443".toList ++ ['/', '/'] := by decide
  have fault : FirstFault ("spiffe://" ++ s).toList .badTrustDomainChar := by
    rw [text]
    exact .name (by decide) (led_cons _) (.stranger ':' strange.1 strange.2)
  obtain ⟨-, -, -, trustDomain⟩ := parse_follows_grammar s
  obtain ⟨-, refuses, reports, -⟩ := parse_follows_grammar ("spiffe://" ++ s)
  have refused : Id.parse ("spiffe://" ++ s) = .error ⟨.badTrustDomainChar, "spiffe://" ++ s⟩ :=
    (refuses _).mpr ⟨rfl, fault⟩
  exact ⟨bare, ((trustDomain bare).2 _).mpr ⟨rfl, .stranger ':' (by decide) strange.2⟩, refused,
    reports _ refused 0⟩

end WorkloadIdentity.Spiffe
