import WorkloadIdentity.Proofs.Settings.Rule

/-! What a schema of fields accepts. Every field is checked by itself, against what is given under
its name; whatever is refused is complained of, so without a complaint each field has what
its check left of it. Names that are not declared are left out. So the check goes by a rule, and the
rule keeps what the kinds of fields promise. -/

namespace WorkloadIdentity.Settings

/-- What a schema of fields promises of what it accepts: it keeps the names it declares, leaves out
all others, and may add what it declares and nobody gave. -/
structure KeepsDeclared (declared : List String) (check : Check) : Prop where
  once : ∀ {given inherited data}, check given inherited = .ok data → (Table.keys data).Nodup
  within : ∀ {given inherited data}, check given inherited = .ok data →
    ∀ k ∈ Table.keys data, k ∈ declared
  kept : ∀ {given inherited data}, check given inherited = .ok data →
    ∀ k ∈ Table.keys given, k ∈ declared → k ∈ Table.keys data

section
variable {kind : Kind} {v kept : Value} {told : List Complaint}

theorem Kind.ne_nil_of_switch? {word : String} (refused : switch? word = .error told) :
    told ≠ [] := by
  simp only [switch?] at refused
  split at refused
  · cases refused
  · split at refused <;> cases refused
    simp

theorem Kind.ne_nil_of_positive? {limit : Option Nat} {x : Float}
    (refused : positive? limit x = .error told) : told ≠ [] := by
  unfold positive? at refused
  split at refused
  · cases refused
    simp
  · split at refused
    · cases refused
      simp
    · split at refused
      · cases refused
      · rename_i filled
        cases refused
        exact filled

theorem Kind.of_positive? {limit : Option Nat} {x : Float} (accepted : positive? limit x = .ok v) :
    v = .number x ∧ Number.isInteger x = true ∧ x > 0 ∧ ∀ n ∈ limit, ¬x > n.toFloat := by
  unfold positive? at accepted
  split at accepted
  · cases accepted
  · split at accepted
    · cases accepted
    · rename_i whole
      split at accepted
      · rename_i silent
        cases accepted
        obtain ⟨above, below⟩ := List.append_eq_nil_iff.mp (List.append_eq_nil_iff.mp silent).2
        refine ⟨rfl, by simpa using whole, ?_, fun n limited large => ?_⟩
        · refine Classical.byContradiction fun other => ?_
          simp [other] at above
        · cases limited
          simp [large] at below
      · cases accepted

theorem Kind.ne_nil_of_check (refused : kind.check v = .error told) : told ≠ [] := by
  unfold Kind.check at refused
  split at refused
  · cases refused
  · cases refused
  · exact ne_nil_of_switch? refused
  · split at refused
    · exact ne_nil_of_positive? refused
    · cases refused
      simp
  · split at refused <;> cases refused
    simp
  · cases refused
    simp
  · cases refused
    simp

end

theorem map_some_eq_error_iff {r : Except (List Complaint) Value} {told : List Complaint} :
    r.map some = .error told ↔ r = .error told := by
  cases r <;> simp [Except.map]

theorem map_some_eq_ok_iff {r : Except (List Complaint) Value} {kept : Option Value} :
    r.map some = .ok kept ↔ ∃ w, r = .ok w ∧ kept = some w := by
  cases r <;> simp [Except.map, eq_comm]

theorem Field.ne_nil_of_check {f : Field} {given : Option Value} {told : List Complaint}
    (refused : f.check given = .error told) : told ≠ [] := by
  unfold Field.check at refused
  split at refused
  · cases refused
  · cases refused
  · exact Kind.ne_nil_of_check (map_some_eq_error_iff.mp refused)
  · exact Kind.ne_nil_of_check (map_some_eq_error_iff.mp refused)
  · cases refused
  · cases refused

/-- What is lacking stays so, or the default stands in for it; else the kind of the field
decides. -/
theorem Field.of_check {f : Field} {given kept : Option Value}
    (accepted : f.check given = .ok kept) :
    (kept = given ∧ (given = none ∨ given = some .absent)) ∨
      (∃ v, f.absence = .default v ∧ kept = some v) ∨
      ∃ w, f.kind.check (given.getD .absent) = .ok w ∧ kept = some w := by
  unfold Field.check at accepted
  split at accepted
  · cases accepted
    exact .inl ⟨rfl, .inr rfl⟩
  · rename_i v absence
    cases accepted
    exact .inr (.inl ⟨v, absence, rfl⟩)
  · exact .inr (.inr (map_some_eq_ok_iff.mp accepted))
  · exact .inr (.inr (map_some_eq_ok_iff.mp accepted))
  · cases accepted
    exact .inl ⟨rfl, .inl rfl⟩
  · rename_i v absence
    cases accepted
    exact .inr (.inl ⟨v, absence, rfl⟩)

theorem Field.filled_of_check {f : Field} {v : Value} {kept : Option Value}
    (accepted : f.check (some v) = .ok kept) : ∃ w, kept = some w := by
  obtain ⟨rfl, -⟩ | ⟨w, -, rfl⟩ | ⟨w, -, rfl⟩ := Field.of_check accepted
  · exact ⟨v, rfl⟩
  · exact ⟨w, rfl⟩
  · exact ⟨w, rfl⟩

namespace Schema

section
variable {given inherited values data : Table Value} {fs : List Field}

theorem checkFields_cons {f : Field}
    (accepted : checkFields given inherited (f :: fs) = (values, [])) :
    ∃ kept later, f.check (Table.get? f.name (given ++ inherited)) = .ok kept ∧
      checkFields given inherited fs = (later, []) ∧
      values = (kept.map fun v => (f.name, v)).toList ++ later := by
  rcases rest : checkFields given inherited fs with ⟨later, told⟩
  simp only [checkFields, rest] at accepted
  split at accepted
  · rename_i kept checked
    obtain ⟨rfl, rfl⟩ := Prod.mk.inj accepted
    exact ⟨kept, later, checked, rfl, rfl⟩
  · rename_i complaints refused
    have silent : complaints.map (tell f.name) = [] ∧ told = [] :=
      List.append_eq_nil_iff.mp (Prod.mk.inj accepted).2
    exact absurd (List.map_eq_nil_iff.mp silent.1) (Field.ne_nil_of_check refused)

theorem keys_sublist_of_checkFields (accepted : checkFields given inherited fs = (values, [])) :
    values.keys.Sublist (fs.map Field.name) := by
  induction fs generalizing values with
  | nil =>
    cases accepted
    exact List.Sublist.refl _
  | cons f rest ih =>
    obtain ⟨kept, later, -, acceptedLater, rfl⟩ := checkFields_cons accepted
    cases kept with
    | none => exact (ih acceptedLater).cons _
    | some v => exact (ih acceptedLater).cons_cons _

theorem mem_keys_of_checkFields (accepted : checkFields given inherited fs = (values, [])) :
    ∀ k ∈ given.keys, k ∈ fs.map Field.name → k ∈ values.keys := by
  induction fs generalizing values with
  | nil => simp
  | cons f rest ih =>
    obtain ⟨kept, later, checked, acceptedLater, rfl⟩ := checkFields_cons accepted
    intro k supplied declared
    rw [Table.keys, List.map_append, List.mem_append]
    rcases List.mem_cons.mp declared with rfl | declared
    · obtain ⟨v, found⟩ := Table.mem_keys_iff.mp supplied
      rw [Table.get?_append, found, Option.some_or] at checked
      obtain ⟨w, rfl⟩ := Field.filled_of_check checked
      exact .inl (by simp)
    · exact .inr (ih acceptedLater k supplied declared)

theorem get?_of_checkFields (once : (fs.map Field.name).Nodup)
    (accepted : checkFields given inherited fs = (values, [])) {f : Field} (member : f ∈ fs) :
    f.check (Table.get? f.name (given ++ inherited)) = .ok (Table.get? f.name values) := by
  induction fs generalizing values with
  | nil => cases member
  | cons g rest ih =>
    obtain ⟨kept, later, checked, acceptedLater, rfl⟩ := checkFields_cons accepted
    rw [List.map_cons, List.nodup_cons] at once
    rw [Table.get?_append f.name (kept.map fun v => (g.name, v)).toList]
    rcases List.mem_cons.mp member with rfl | member
    · have silent : Table.get? f.name later = none := Table.get?_eq_none_iff.mpr fun inLater =>
        once.1 ((keys_sublist_of_checkFields acceptedLater).mem inLater)
      rw [checked, silent]
      cases kept <;> simp [Table.get?]
    · have other : g.name ≠ f.name :=
        fun same => once.1 (same ▸ List.mem_map_of_mem member)
      rw [ih once.2 acceptedLater member]
      cases kept <;> simp [Table.get?, other]

theorem of_check (accepted : (fields fs).check given inherited = .ok data) :
    ∃ values, checkFields given inherited fs = (values, []) ∧ data = Table.ofList values := by
  simp only [check] at accepted
  split at accepted
  · rename_i values checked
    exact ⟨values, checked, (Except.ok.inj accepted).symm⟩
  · cases accepted

theorem keepsDeclared_fields (fs : List Field) :
    KeepsDeclared (fs.map Field.name) fun given inherited => (fields fs).check given inherited := by
  have names {k : String} {values : Table Value} :
      k ∈ Table.keys (Table.ofList values) ↔ k ∈ values.keys := by
    rw [Table.ofList, Table.mem_keys_merge]
    simp [Table.keys]
  constructor
  · intro given inherited data accepted
    obtain ⟨values, -, rfl⟩ := of_check accepted
    exact (Table.ordered_ofList values).nodup_keys
  · intro given inherited data accepted k member
    obtain ⟨values, checked, rfl⟩ := of_check accepted
    exact (keys_sublist_of_checkFields checked).mem (names.mp member)
  · intro given inherited data accepted k supplied declared
    obtain ⟨values, checked, rfl⟩ := of_check accepted
    exact names.mpr (mem_keys_of_checkFields checked k supplied declared)

theorem check_field (once : (fs.map Field.name).Nodup)
    (accepted : (fields fs).check given inherited = .ok data) {f : Field} (member : f ∈ fs) :
    f.check (Table.get? f.name (given ++ inherited)) = .ok (Table.get? f.name data) := by
  obtain ⟨values, checked, rfl⟩ := of_check accepted
  have single := (keys_sublist_of_checkFields checked).nodup once
  rw [Table.get?_ofList single]
  exact get?_of_checkFields once checked member

end

end Schema

def Field.rule : Rule := fun f given =>
  (f.check given).mapError fun told => told.map (Schema.tell f.name)

namespace Field

section
variable {f : Field} {given kept : Option Value} {v : Value}

theorem rule_eq_ok_iff : f.rule given = .ok kept ↔ f.check given = .ok kept := by
  rw [rule]
  cases f.check given <;> simp [Except.mapError]

theorem check_of_present (present : v.isAbsent = false) :
    f.check (some v) = (f.kind.check v).map some := by
  obtain ⟨name, kind, absence⟩ := f
  cases v with
  | absent => cases present
  | _ => cases absence <;> rfl

theorem kind_of_present (present : v.isAbsent = false) (accepted : f.rule (some v) = .ok kept) :
    ∃ w, f.kind.check v = .ok w ∧ kept = some w := by
  rw [rule_eq_ok_iff, check_of_present present] at accepted
  exact map_some_eq_ok_iff.mp accepted

end

theorem lawful_rule : Rule.Lawful Field.rule where
  optional := by
    rintro ⟨name, kind, absence⟩ given rfl lacking
    rcases given with _ | v
    · exact ⟨none, rfl, rfl⟩
    · cases lacking
      exact ⟨some .absent, rfl, rfl⟩
  text := by
    rintro ⟨name, kind, absence⟩ g s rfl
    refine ⟨some (g s), rule_eq_ok_iff.mpr ?_, rfl⟩
    rw [check_of_present rfl]
    rfl
  onlyText := by
    rintro ⟨name, kind, absence⟩ g v kept rfl present accepted
    obtain ⟨w, checked, -⟩ := kind_of_present present accepted
    cases v with
    | text s => exact ⟨s, rfl⟩
    | _ => cases checked
  positive := by
    rintro ⟨name, kind, absence⟩ limit v kept rfl present accepted
    obtain ⟨w, checked, rfl⟩ := kind_of_present present accepted
    simp only [Kind.check] at checked
    split at checked
    · rename_i x _
      obtain ⟨rfl, bounds⟩ := Kind.of_positive? checked
      exact ⟨x, rfl, bounds⟩
    · cases checked

end Field

namespace Schema

theorem told_checkFields (given inherited : Table Value) (fs : List Field) :
    (checkFields given inherited fs).2 = fs.flatMap (Field.rule.told (given ++ inherited)) := by
  induction fs with
  | nil => rfl
  | cons f rest ih =>
    rw [List.flatMap_cons, ← ih, Rule.told, Field.rule, checkFields]
    cases f.check (Table.get? f.name (given ++ inherited)) <;> rfl

theorem governs_check :
    Field.rule.Governs fun fs given inherited => (fields fs).check given inherited where
  accepted once accepted f member := Field.rule_eq_ok_iff.mpr (check_field once accepted member)
  refused := by
    intro fs given inherited told refused
    rw [← told_checkFields]
    simp only [check] at refused
    split at refused
    · cases refused
    · rename_i filled checked
      cases refused
      rw [checked]
      exact ⟨filled, rfl⟩

end Schema

end WorkloadIdentity.Settings
