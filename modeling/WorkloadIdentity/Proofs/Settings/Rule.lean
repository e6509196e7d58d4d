import Mathlib.Data.List.Basic
import WorkloadIdentity.Proofs.Number.Order
import WorkloadIdentity.Settings.Workload

/-! Rules for the fields of a schema, and checks that go by them. What a rule makes of a field is
left open here, but for what the kinds of fields promise; a check goes by its rule field by
field, and complains of whatever is refused. -/

namespace WorkloadIdentity.Settings

open Watch

/-- What is kept of a field, by what is given under its name, or else all that is wrong with it. -/
abbrev Rule := Field → Option Value → Except (List String) (Option Value)

namespace Rule

def told (rule : Rule) (given : Table Value) (f : Field) : List String :=
  match rule f (Table.get? f.name given) with
  | .ok _ => []
  | .error told => told

/-- What the kinds of fields promise. A member that is absent is as good as none. -/
structure Lawful (rule : Rule) : Prop where
  /-- What may be lacking may lack. -/
  optional : ∀ f given, f.absence = .optional → given.getD .absent = .absent →
    ∃ kept, rule f given = .ok kept ∧ kept.getD .absent = .absent
  /-- A text is kept as what is to be made of it. -/
  text : ∀ f {g} s, f.kind = .textTo g →
    ∃ kept, rule f (some (.text s)) = .ok kept ∧ kept.getD .absent = g s
  /-- Nothing else is made into it. -/
  onlyText : ∀ {f g v kept}, f.kind = .textTo g → v.isAbsent = false →
    rule f (some v) = .ok kept → ∃ s, v = .text s
  /-- Whatever is made into a number, the number is whole, positive and within the limit. -/
  positive : ∀ {f limit v kept}, f.kind = .positive limit → v.isAbsent = false →
    rule f (some v) = .ok kept → ∃ x, kept = some (.number x) ∧ Number.isInteger x = true ∧
      x > 0 ∧ ∀ n ∈ limit, ¬x > n.toFloat

/-- Where all fields are accepted, each has what is kept of it; else all that is wrong is told, in
the order of the fields. -/
structure Governs (rule : Rule) (check : List Field → Check) : Prop where
  accepted : ∀ {fs given inherited data}, (fs.map Field.name).Nodup →
    check fs given inherited = .ok data →
    ∀ f ∈ fs, rule f (Table.get? f.name (given ++ inherited)) = .ok (Table.get? f.name data)
  refused : ∀ {fs given inherited told}, check fs given inherited = .error told →
    told ≠ [] ∧ told = fs.flatMap (rule.told (given ++ inherited))

section
variable {rule : Rule} {name : String} {given kept : Option Value}

theorem told_of_ok {f : Field} {given : Table Value}
    (accepted : rule f (Table.get? f.name given) = .ok kept) : rule.told given f = [] := by
  rw [told, accepted]

theorem told_congr {f : Field} {given other : Table Value}
    (same : Table.get? f.name given = Table.get? f.name other) :
    rule.told given f = rule.told other f := by
  rw [told, same, told]

theorem Governs.decides {check : List Field → Check} (governs : rule.Governs check)
    {fs : List Field} (once : (fs.map Field.name).Nodup) (given inherited : Table Value) :
    let told := fs.flatMap (rule.told (given ++ inherited))
    told ≠ [] ∧ check fs given inherited = .error told ∨
      told = [] ∧ ∃ data, check fs given inherited = .ok data ∧
        ∀ f ∈ fs, rule f (Table.get? f.name (given ++ inherited)) =
          .ok (Table.get? f.name data) := by
  intro told
  cases checked : check fs given inherited with
  | error complaints =>
    obtain ⟨filled, rfl⟩ := governs.refused checked
    exact .inl ⟨filled, rfl⟩
  | ok data =>
    have kept := governs.accepted once checked
    have silent : told = [] :=
      List.flatMap_eq_nil_iff.mpr fun f member => told_of_ok (kept f member)
    exact .inr ⟨silent, data, rfl, kept⟩

/-- What is given under one name shows only there, as long as nothing is told of it: the other
fields are refused alike, or each has the same. -/
theorem Governs.check_congr {check : List Field → Check} (governs : rule.Governs check)
    {fs : List Field} (once : (fs.map Field.name).Nodup) (given other inherited : Table Value)
    (same : ∀ f ∈ fs, f.name ≠ name →
      Table.get? f.name (given ++ inherited) = Table.get? f.name (other ++ inherited))
    (silent : ∀ f ∈ fs, f.name = name →
      rule.told (given ++ inherited) f = [] ∧ rule.told (other ++ inherited) f = []) :
    (∃ told, check fs given inherited = .error told ∧ check fs other inherited = .error told) ∨
      ∃ data data', check fs given inherited = .ok data ∧ check fs other inherited = .ok data' ∧
        ∀ f ∈ fs, f.name ≠ name → Table.get? f.name data = Table.get? f.name data' := by
  have alike : fs.flatMap (rule.told (given ++ inherited)) =
      fs.flatMap (rule.told (other ++ inherited)) := by
    refine List.flatMap_congr fun f member => ?_
    by_cases named : f.name = name
    · obtain ⟨first, second⟩ := silent f member named
      rw [first, second]
    · exact told_congr (same f member named)
  rcases governs.decides once given inherited with ⟨filled, refused⟩ | ⟨clean, data, accepted, kept⟩
  · rcases governs.decides once other inherited with ⟨-, refused'⟩ | ⟨clean, -⟩
    · exact .inl ⟨_, refused, alike ▸ refused'⟩
    · exact absurd (alike.trans clean) filled
  · rcases governs.decides once other inherited with ⟨filled, -⟩ | ⟨-, data', accepted', kept'⟩
    · exact absurd (alike.symm.trans clean) filled
    · refine .inr ⟨data, data', accepted, accepted', fun f member apart => ?_⟩
      have both := (kept f member).symm.trans (same f member apart ▸ kept' f member)
      exact Except.ok.inj both

theorem Lawful.accepts_text (lawful : rule.Lawful) {g : String → Value}
    (textual : ∀ v ∈ given, ∃ s, v = .text s) :
    ∃ kept, rule ⟨name, .textTo g, .optional⟩ given = .ok kept := by
  cases given with
  | none =>
    obtain ⟨kept, accepted, -⟩ := lawful.optional ⟨name, .textTo g, .optional⟩ none rfl rfl
    exact ⟨kept, accepted⟩
  | some v =>
    obtain ⟨s, rfl⟩ := textual v rfl
    obtain ⟨kept, accepted, -⟩ := lawful.text ⟨name, .textTo g, .optional⟩ s rfl
    exact ⟨kept, accepted⟩

theorem lacking_or_present (given : Option Value) :
    given.getD .absent = .absent ∨ ∃ v, given = some v ∧ v.isAbsent = false := by
  cases given with
  | none => exact .inl rfl
  | some v =>
    cases v with
    | absent => exact .inl rfl
    | _ => exact .inr ⟨_, rfl, rfl⟩

theorem bind_text? (kept : Option Value) :
    kept.bind Workload.text? = Workload.text? (kept.getD .absent) := by
  cases kept <;> rfl

theorem text?_unlessEmpty (s : String) :
    Workload.text? (unlessEmpty s) = (some s).filter (· ≠ "") := by
  by_cases empty : s = "" <;> simp [unlessEmpty, Workload.text?, Option.filter, empty]

theorem Lawful.text_of_accepted (lawful : rule.Lawful)
    (accepted : rule ⟨name, .textTo unlessEmpty, .optional⟩ given = .ok kept) :
    kept.bind Workload.text? = (given.bind Workload.text?).filter (· ≠ "") := by
  rcases lacking_or_present given with lacking | ⟨v, rfl, present⟩
  · obtain ⟨_, lacks, absent⟩ :=
      lawful.optional ⟨name, .textTo unlessEmpty, .optional⟩ given rfl lacking
    cases accepted.symm.trans lacks
    rw [bind_text?, absent, bind_text?, lacking]
    rfl
  · obtain ⟨s, rfl⟩ := lawful.onlyText rfl present accepted
    obtain ⟨_, keeps, made⟩ := lawful.text ⟨name, .textTo unlessEmpty, .optional⟩ s rfl
    cases accepted.symm.trans keeps
    rw [bind_text?, made, text?_unlessEmpty]
    rfl

theorem initTimeout?_of_positive {x : Float} (whole : Number.isInteger x = true) (positive : x > 0)
    (limited : ¬x > maxInitTimeout.toFloat) : initTimeout? (.number x) = .ok (some x) := by
  have finite : x.isNaN = false ∧ x.isInf = false := by
    simp only [Number.isInteger, Bool.if_false_left, Bool.and_eq_true, Bool.not_eq_true',
      decide_eq_false_iff_not, Bool.or_eq_true, not_or, Bool.not_eq_true] at whole
    exact whole.1
  have above : ¬x ≤ 0 := (Number.lt_iff_not_le rfl finite.1).mp positive
  rw [initTimeout?, if_neg]
  simp only [Bool.or_eq_true, decide_eq_true_eq, not_or, Bool.not_eq_true]
  exact ⟨⟨finite, above⟩, limited⟩

theorem Lawful.limit_of_accepted (lawful : rule.Lawful)
    (accepted : rule ⟨name, .positive (some maxInitTimeout), .optional⟩ given = .ok kept) :
    ∃ limit, initTimeout? (((kept.bind Workload.number?).map Value.number).getD .absent) =
      .ok limit := by
  rcases lacking_or_present given with lacking | ⟨v, rfl, present⟩
  · obtain ⟨_, lacks, absent⟩ :=
      lawful.optional ⟨name, .positive (some maxInitTimeout), .optional⟩ given rfl lacking
    cases accepted.symm.trans lacks
    cases kept with
    | none => exact ⟨none, rfl⟩
    | some v =>
      cases absent
      exact ⟨none, rfl⟩
  · obtain ⟨x, rfl, whole, positive, limited⟩ := lawful.positive rfl present accepted
    exact ⟨some x, initTimeout?_of_positive whole positive (limited _ rfl)⟩

end

end Rule

end WorkloadIdentity.Settings
