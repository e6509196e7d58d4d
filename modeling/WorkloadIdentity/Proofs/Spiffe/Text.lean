import WorkloadIdentity.Proofs.Spiffe.Parse
import WorkloadIdentity.Proofs.Spiffe.Segments

/-! The text of an ID. However an ID was made, its path is empty or begins with a slash; so its
text falls apart in one way only, and reading it gives back the ID. A text that can be read
is the text of what was read. -/

namespace WorkloadIdentity.Spiffe

namespace Id

inductive Made : Id → Prop
  | parsed {s : String} {i : Id} (read : Id.parse s = .ok i) : Made i
  | built {d : TrustDomain} {arguments : List String} {i : Id}
      (built : Id.fromSegments d arguments = .ok i) : Made i

theorem Made.led {i : Id} (made : Made i) : Led i.path.toList := by
  cases made with
  | parsed read => exact (Id.parse_eq_ok_iff.mp read).2
  | built built =>
    rw [(Id.fromSegments_eq_ok_iff.mp built).2, pathOf_eq_written]
    exact led_written _

theorem toList_text (i : Id) :
    i.text.toList = scheme ++ i.trustDomain.name.toList ++ i.path.toList := by
  rw [text, TrustDomain.idString, String.toList_append, String.toList_append]
  rfl

theorem parse_text {i : Id} (made : Made i) : Id.parse i.text = .ok i :=
  Id.parse_eq_ok_iff.mpr ⟨i.toList_text, made.led⟩

theorem text_of_parse {s : String} {i : Id} (read : Id.parse s = .ok i) : i.text = s := by
  rw [← String.toList_inj, toList_text, (Id.parse_eq_ok_iff.mp read).1]

theorem text_inj {a b : Id} (left : Made a) (right : Made b) : a = b ↔ a.text = b.text := by
  refine ⟨congrArg text, fun same => ?_⟩
  have read := parse_text left
  rw [same, parse_text right] at read
  exact (Except.ok.inj read).symm

theorem eq_iff_name_path {a b : Id} :
    a = b ↔ a.trustDomain.name = b.trustDomain.name ∧ a.path = b.path := by
  obtain ⟨⟨_, _⟩, _, _⟩ := a
  obtain ⟨⟨_, _⟩, _, _⟩ := b
  simp

end Id

namespace TrustDomain

theorem slash_not_mem_name (d : TrustDomain) : '/' ∉ d.name.toList :=
  slash_not_mem_of_isName (nameFault?_eq_none_iff_isName.mp d.valid)

theorem unmarked_name (d : TrustDomain) : ¬[':', '/'] <:+: d.name.toList :=
  fun marked => d.slash_not_mem_name (marked.subset (by simp))

theorem parse_name (d : TrustDomain) : parse d.name = .ok d := by
  rw [parse_of_bare d.unmarked_name, mapError_ofName?_eq_ok_iff]

theorem parse_of_name {s : String} {path : List Char} (d : TrustDomain) (led : Led path)
    (text : s.toList = scheme ++ d.name.toList ++ path) : parse s = .ok d := by
  rw [parse_of_text text d.slash_not_mem_name led, mapError_ofName?_eq_ok_iff]

theorem parse_idString (d : TrustDomain) : parse d.idString = .ok d :=
  parse_of_name d (.inl rfl) (by rw [idString, String.toList_append, List.append_nil]; rfl)

end TrustDomain

/-- Whatever way an ID was made, its text is read as that ID and belongs to no other; a text that
is read as an ID is its text; and the trust domain of an ID is read from its text, from its name
and from its own text. -/
theorem text_parses_back :
    (∀ i, Id.Made i → Id.parse i.text = .ok i ∧
      TrustDomain.parse i.text = .ok i.trustDomain ∧
      TrustDomain.parse i.trustDomain.name = .ok i.trustDomain ∧
      TrustDomain.parse i.trustDomain.idString = .ok i.trustDomain) ∧
    (∀ s i, Id.parse s = .ok i → i.text = s) ∧
    ∀ a b, Id.Made a → Id.Made b →
      (a = b ↔ a.trustDomain.name = b.trustDomain.name ∧ a.path = b.path) ∧
      (a = b ↔ a.text = b.text) := by
  refine ⟨fun i made => ?_, fun s i read => Id.text_of_parse read,
    fun a b left right => ⟨Id.eq_iff_name_path, Id.text_inj left right⟩⟩
  exact ⟨Id.parse_text made, i.trustDomain.parse_of_name made.led i.toList_text,
    i.trustDomain.parse_name, i.trustDomain.parse_idString⟩

theorem text_parses_back_of_two :
    let d : TrustDomain := ⟨"example.org", by decide⟩
    let a : Id := ⟨d, "/ns/prod", by decide⟩
    let b : Id := ⟨d, "", by decide⟩
    Id.fromSegments d ["ns", "prod"] = .ok a ∧ Id.parse "spiffe://example.org" = .ok b ∧
      Id.parse a.text = .ok a ∧ TrustDomain.parse a.text = .ok d ∧
      b.text = "spiffe://example.org" ∧ a.text ≠ b.text := by
  intro d a b
  have built : Id.fromSegments d ["ns", "prod"] = .ok a :=
    Id.fromSegments_eq_ok_iff.mpr ⟨rfl, by decide⟩
  have read : Id.parse "spiffe://example.org" = .ok b :=
    Id.parse_eq_ok_iff.mpr ⟨by decide, .inl (by decide)⟩
  obtain ⟨parses, prints, separates⟩ := text_parses_back
  obtain ⟨back, domain, -⟩ := parses a (.built built)
  refine ⟨built, read, back, domain, prints _ b read, fun same => ?_⟩
  exact absurd ((separates a b (.built built) (.parsed read)).2.mpr same) (by decide)

end WorkloadIdentity.Spiffe
