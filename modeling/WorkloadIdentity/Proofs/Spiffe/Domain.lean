import WorkloadIdentity.Proofs.Spiffe.Text

/-! The trust domain of a text that is meant as an ID. Its reader ends at the first slash behind the
name and leaves the path alone, so it accepts every ID, reports what the reader of IDs reports
about the scheme and the name, and also accepts texts that are no ID for their path. Nowhere
else do the two readers differ. -/

namespace WorkloadIdentity.Spiffe

section
variable {s : String} {name path : List Char} {r : Reason}

theorem NameFault.not_segmentFault (fault : NameFault name r) (segment : List Char) :
    ¬SegmentFault segment r := by
  cases fault with
  | missing => nofun
  | stranger c member strange => nofun
  | long spelled long => nofun

theorem TrustDomain.parse_of_unschemed (marked : [':', '/'] <:+: s.toList)
    (other : ¬scheme <+: s.toList) : TrustDomain.parse s = .error ⟨.wrongScheme, s⟩ := by
  have filled : s.toList ≠ [] := by
    intro empty
    rw [empty] at marked
    simp at marked
  simp [TrustDomain.parse, filled, TrustDomain.hasSchemeMark_iff.mpr marked,
    TrustDomain.afterScheme?_eq_none_iff.mpr other]

theorem Id.segmentFault_of_parse {e : Rejection} (text : s.toList = scheme ++ name ++ path)
    (named : IsName name) (led : Led path) (refused : Id.parse s = .error e) :
    ∃ segment, SegmentFault segment e.reason := by
  cases fault : pathFault? path with
  | some r =>
    rw [Id.parse_of_path_fault text named led fault] at refused
    cases refused
    obtain ⟨-, bad, -, -, wrong, -⟩ := pathFault?_eq_some_iff.mp fault
    exact ⟨bad, wrong⟩
  | none =>
    have read : Id.parse s = .ok ⟨⟨String.ofList name, by
        simpa using nameFault?_eq_none_iff_isName.mpr named⟩,
        String.ofList path, by simpa using fault⟩ :=
      Id.parse_eq_ok_iff.mpr ⟨by simpa using text, by simpa using led⟩
    rw [read] at refused
    cases refused

theorem TrustDomain.parse_marked_eq_ok_iff (marked : [':', '/'] <:+: s.toList) {d : TrustDomain} :
    TrustDomain.parse s = .ok d ↔
      ∃ path, Led path ∧ s.toList = scheme ++ d.name.toList ++ path := by
  constructor
  · intro read
    rcases text_cases s.toList with empty | ⟨-, other⟩ | ⟨name, path, text, whole, led⟩
    · rw [empty] at marked
      simp at marked
    · rw [TrustDomain.parse_of_unschemed marked other] at read
      cases read
    · rw [TrustDomain.parse_of_text text whole led, mapError_ofName?_eq_ok_iff] at read
      exact ⟨path, led, read ▸ text⟩
  · rintro ⟨path, led, text⟩
    exact d.parse_of_name led text

theorem TrustDomain.parse_marked_eq_error_iff (marked : [':', '/'] <:+: s.toList)
    {e : Rejection} : TrustDomain.parse s = .error e ↔
      Id.parse s = .error e ∧ ∀ segment, ¬SegmentFault segment e.reason := by
  rcases text_cases s.toList with empty | ⟨filled, other⟩ | ⟨name, path, text, whole, led⟩
  · rw [empty] at marked
    simp at marked
  · rw [TrustDomain.parse_of_unschemed marked other, Id.parse_of_unschemed filled other]
    constructor
    · rintro ⟨⟩
      exact ⟨rfl, nofun⟩
    · rintro ⟨⟨⟩, -⟩
      rfl
  · rw [TrustDomain.parse_of_text text whole led, mapError_ofName?_eq_error_iff]
    constructor
    · rintro ⟨rfl, fault⟩
      exact ⟨Id.parse_of_name_fault text whole led fault, fault.not_segmentFault⟩
    · rintro ⟨refused, sound⟩
      cases named : nameFault? name with
      | some r =>
        have fault := nameFault?_eq_some_iff.mp named
        rw [Id.parse_of_name_fault text whole led fault] at refused
        cases refused
        exact ⟨rfl, fault⟩
      | none =>
        obtain ⟨segment, wrong⟩ :=
          Id.segmentFault_of_parse text (nameFault?_eq_none_iff_isName.mp named) led refused
        exact absurd wrong (sound segment)

end

/-- A text with the mark of an ID yields the trust domain that it begins with, whatever its path;
it is refused exactly when the reader of IDs refuses it, with the same error, for another reason
than its path. So whatever is an ID has one trust domain for both readers, and they agree on
whether to accept a text as long as no path behind a sound name is wrong, and no longer. -/
theorem domain_ignores_path (s : String) (marked : [':', '/'] <:+: s.toList) :
    (∀ d, TrustDomain.parse s = .ok d ↔
      ∃ path : String, Led path.toList ∧ s = "spiffe://" ++ d.name ++ path) ∧
    (∀ e, TrustDomain.parse s = .error e ↔
      Id.parse s = .error e ∧ ∀ segment, ¬SegmentFault segment e.reason) ∧
    (∀ i, Id.parse s = .ok i → TrustDomain.parse s = .ok i.trustDomain) ∧
    (((∃ d, TrustDomain.parse s = .ok d) ↔ ∃ i, Id.parse s = .ok i) ↔
      ∀ (d : TrustDomain) (path : String), Led path.toList → s = "spiffe://" ++ d.name ++ path →
        IsPath path.toList) := by
  have spelled (name path : String) : s = "spiffe://" ++ name ++ path ↔
      s.toList = scheme ++ name.toList ++ path.toList := by
    rw [← String.toList_inj, String.toList_append, String.toList_append]
    rfl
  have reads (d : TrustDomain) : TrustDomain.parse s = .ok d ↔
      ∃ path : String, Led path.toList ∧ s = "spiffe://" ++ d.name ++ path := by
    simp only [spelled]
    rw [TrustDomain.parse_marked_eq_ok_iff marked]
    constructor
    · rintro ⟨path, led, text⟩
      exact ⟨String.ofList path, by simpa using led, by simpa using text⟩
    · rintro ⟨path, led, text⟩
      exact ⟨path.toList, led, text⟩
  have shared (i : Id) (read : Id.parse s = .ok i) :
      TrustDomain.parse s = .ok i.trustDomain := by
    obtain ⟨text, led⟩ := Id.parse_eq_ok_iff.mp read
    exact (reads _).mpr ⟨i.path, led, (spelled _ _).mpr text⟩
  refine ⟨reads, fun e => TrustDomain.parse_marked_eq_error_iff marked, shared, ?_⟩
  constructor
  · intro agree d path led text
    obtain ⟨i, read⟩ := agree.mp ⟨d, (reads d).mpr ⟨path, led, text⟩⟩
    obtain ⟨written, after⟩ := Id.parse_eq_ok_iff.mp read
    -- the name ends at the first slash, so what is left for the path is the same
    have domain : i.trustDomain = d := by
      have same := shared i read
      rw [(reads d).mpr ⟨path, led, text⟩] at same
      exact (Except.ok.inj same).symm
    rw [domain, (spelled _ _).mp text] at written
    rw [List.append_cancel_left written]
    exact isPath_iff.mpr ⟨after, i.valid⟩
  · intro sound
    refine ⟨fun ⟨d, read⟩ => ?_, fun ⟨i, read⟩ => ⟨_, shared i read⟩⟩
    obtain ⟨path, led, text⟩ := (reads d).mp read
    exact ⟨⟨d, path, (isPath_iff.mp (sound d path led text)).2⟩,
      Id.parse_eq_ok_iff.mpr ⟨(spelled _ _).mp text, led⟩⟩

theorem domain_ignores_path_of_dots :
    let s := "spiffe://example.org/a/.."
    let d : TrustDomain := ⟨"example.org", by decide⟩
    [':', '/'] <:+: s.toList ∧ TrustDomain.parse s = .ok d ∧
      ∀ e, Id.parse s = .error e → ∃ segment, SegmentFault segment e.reason := by
  intro s d
  have marked : [':', '/'] <:+: s.toList := TrustDomain.hasSchemeMark_iff.mp (by decide)
  obtain ⟨reads, refuses, -, -⟩ := domain_ignores_path s marked
  have read : TrustDomain.parse s = .ok d := (reads d).mpr ⟨"/a/..", .inr ⟨_, rfl⟩, by decide⟩
  refine ⟨marked, read, fun e refused => Classical.byContradiction fun sound => ?_⟩
  have other := (refuses e).mpr ⟨refused, fun segment wrong => sound ⟨segment, wrong⟩⟩
  rw [read] at other
  cases other

/-- A text that is no ID is accepted by the reader of trust domains. -/
theorem dotted_text_has_domain :
    ∃ d, TrustDomain.parse "spiffe://example.org/.." = .ok d ∧
      [':', '/'] <:+: "spiffe://example.org/..".toList ∧
      ¬∃ i, Id.parse "spiffe://example.org/.." = .ok i := by
  have marked : [':', '/'] <:+: "spiffe://example.org/..".toList :=
    TrustDomain.hasSchemeMark_iff.mp (by decide)
  have text : "spiffe://example.org/..".toList =
      scheme ++ "example.org".toList ++ "/..".toList := by decide
  have refused : Id.parse "spiffe://example.org/.." =
      .error ⟨.dotSegment, "spiffe://example.org/.."⟩ :=
    Id.parse_of_path_fault text (nameFault?_eq_none_iff_isName.mp (by decide)) (.inr ⟨_, rfl⟩)
      (by decide)
  refine ⟨⟨"example.org", by decide⟩, ?_, marked, ?_⟩
  · exact (TrustDomain.parse_marked_eq_ok_iff marked).mpr ⟨_, .inr ⟨_, rfl⟩, text⟩
  · rintro ⟨i, read⟩
    rw [refused] at read
    cases read

end WorkloadIdentity.Spiffe
