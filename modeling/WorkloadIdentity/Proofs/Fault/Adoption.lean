import WorkloadIdentity.Fault.Adopt
import WorkloadIdentity.Proofs.Fault.Causes

/-! Adoption against the report. A value that is taken in as an application fault is told as the
value is told, but for its name, its time and the code that it is taken in under, and taking it in
once more changes nothing. A fault of another kind stands behind the one that takes it in, so that
one cause further down everything is told of it that was told before. -/

namespace WorkloadIdentity

namespace Chain

variable {α : Type}

/-- A chain that goes round comes back to a level of its own. -/
def Closed (c : Chain α) : Prop := ∀ k, c.back = some k → k < c.levels.length

def under (l : α) (c : Chain α) : Chain α := { levels := l :: c.levels, back := c.back }

theorem level?_under_zero (c : Chain α) (l : α) : (c.under l).level? 0 = some l := by
  simp [level?, under]

theorem level?_under_succ {c : Chain α} (closed : c.Closed) (l : α) (i : Nat) :
    (c.under l).level? (i + 1) = c.level? i := by
  rcases Nat.lt_or_ge i c.levels.length with below | beyond
  · simp [level?, under, below]
  · cases back : c.back with
    | none => simp [level?, under, back, Nat.not_lt.mpr beyond]
    | some k =>
      have inside : k < c.levels.length := closed k back
      have start : c.levels.length + 1 - (k + 1) = c.levels.length - (k + 1) + 1 := by omega
      have place : i + 1 - (c.levels.length - (k + 1) + 1) = i - (c.levels.length - (k + 1)) := by
        omega
      have next : ∀ a b : Nat, a + 1 + b = a + b + 1 := by omega
      simp only [level?, under, back, List.length_cons, start, place, next,
        List.getElem?_cons_succ]
      rw [if_neg (by omega), if_pos (by omega), if_neg (by omega), if_pos inside]

theorem walk_under_succ {c : Chain α} (closed : c.Closed) (l : α) (n i : Nat) :
    (c.under l).walk n (i + 1) = c.walk n i := by
  induction n generalizing i with
  | zero => rfl
  | succ n ih => rw [walk, walk, level?_under_succ closed, ih (i + 1)]

theorem take_under_succ {c : Chain α} (closed : c.Closed) (l : α) (n : Nat) :
    (c.under l).take (n + 1) = l :: c.take n := by
  rw [take, walk, level?_under_zero]
  exact congrArg (l :: ·) (walk_under_succ closed l n 0)

end Chain

/-- The causes of a fault lead back, if they do, to a fault that they have passed. A reference
further out stands for nothing that could be thrown. -/
def Fault.Rooted (f : Fault) : Prop := ∀ k, f.ground = .back k → k < f.descent.length

theorem Fault.Rooted.closed_chain {f : Fault} (rooted : f.Rooted) (now : Int) :
    (f.chain now).Closed := by
  intro k back
  rw [f.back_chain] at back
  have inside : k < f.descent.length := by
    cases grounded : f.ground with
    | back j =>
      rw [grounded] at back
      cases back
      exact rooted k grounded
    | fault g => exact absurd grounded (f.ground_ne_fault g)
    | _ => simp [grounded, Value.causeBack] at back
  rw [f.levels_chain, List.length_append, List.length_map]
  exact Nat.lt_add_right _ inside

namespace Value

def classifying : List String := ["code", "message", "context", "isRetryable", "isOperational"]

def classification : Value → Table Value
  | .record fields => fields.filter fun e => e.1 ∈ classifying
  | _ => []

section
variable {now : Int} {withStacks : Bool}

/-- What is told of a value where a limit is asked for. A limit can fail to be a number, and without
one nothing can be told of causes that go round. -/
def reported? (now : Int) (withStacks : Bool) (v limit : Value) : Except Fault (Option Value) :=
  (causeLimitOf? limit).map fun causes =>
    ((v.chain now).report? causes).map (Level.value withStacks)

theorem reported?_of_asksFor (v : Value) {limit : Value} {causes : Nat}
    (asked : limit.AsksFor causes) : v.reported? now withStacks limit =
      .ok (some (Level.value withStacks (v.report now causes))) := by
  rw [reported?, causeLimitOf?_of_asksFor asked]
  rfl

theorem classification_report (v : Value) (causes : Nat) :
    (Level.value withStacks (v.report now causes)).classification =
      (Value.record (v.facts now)).classification := by
  rw [value_report, Site.told_eq]
  have behind : ∀ cause : Option Value,
      (cause.toList.map fun c => ("cause", c)).filter (fun e => e.1 ∈ classifying) = [] := by
    intro cause
    cases cause <;> rfl
  have stack : (v.stackFact withStacks).filter (fun e => e.1 ∈ classifying) = [] := by
    cases v with
    | fault f =>
      simp only [stackFact]
      split <;> rfl
    | _ => rfl
  simp only [classification, toldWith, List.filter_append, behind, stack, List.append_nil]

theorem classification_members (name code message context retryable operational time : Value) :
    (Value.record [("name", name), ("code", code), ("message", message), ("context", context),
      ("isRetryable", retryable), ("isOperational", operational),
      ("timestamp", time)]).classification =
      [("code", code), ("message", message), ("context", context), ("isRetryable", retryable),
        ("isOperational", operational)] :=
  rfl

theorem keys_classification_facts (v : Value) :
    (Value.record (v.facts now)).classification.keys = classifying := by
  cases v with
  | fault f => cases f <;> rfl
  | _ => rfl

theorem classification_facts_adopt (taken : Int) (code : String) (v : Value) :
    (Value.record ((Value.fault (v.adopt taken code)).facts now)).classification =
        (Value.record (v.facts now)).classification ∨
      ∃ others, (Value.record (v.facts now)).classification = ("code", .text "unknown") :: others ∧
        (Value.record ((Value.fault (v.adopt taken code)).facts now)).classification =
          ("code", .text code) :: others := by
  cases v with
  | fault f =>
    cases f with
    | application h s context cause => exact .inl rfl
    | foreign h cause => exact .inr ⟨_, classification_members .., classification_members ..⟩
  | _ => exact .inr ⟨_, classification_members .., classification_members ..⟩

theorem adoption_adopt (taken later : Int) (code other : String) (v : Value) :
    (Value.fault (v.adopt taken code)).adoption later other = .kept (v.adopt taken code) := by
  cases v with
  | fault f => cases f <;> rfl
  | _ => rfl

theorem member_cause_report_adopt (taken : Int) (code : String) {h : Heading} {cause : Value}
    (rooted : (Fault.foreign h cause).Rooted) (causes : Nat) :
    let v : Value := .fault (.foreign h cause)
    (Level.value withStacks ((Value.fault (v.adopt taken code)).report now (causes + 1))).member
      "cause" = Level.value withStacks (v.report now causes) := by
  intro v
  let adopted : Value := .fault (v.adopt taken code)
  have chain : adopted.chain now = (v.chain now).under (adopted.level now) := rfl
  have report : adopted.report now (causes + 1) = adopted.level now :: v.report now causes := by
    rw [Value.report, chain]
    exact Chain.take_under_succ (rooted.closed_chain now) _ (causes + 1)
  have filled : v.report now causes ≠ [] := nofun
  rw [report, Level.value_cons adopted filled, member, get?_cause_toldWith]
  rfl

end

/-- A value that was taken in as an application fault is told with the code, the message, the
context and the flags of the value itself, and under another code than the usual one with all of
them but the code. What is an application fault by now is taken in as it is. A fault of another kind
is the cause of the one that takes it in, and with one more cause allowed for, what is told of the
cause is all that would have been told of the fault. -/
theorem adoption_keeps_report (now taken : Int) (withStacks : Bool) (v : Value) {limit : Value}
    {causes : Nat} (asked : limit.AsksFor causes) :
    ∃ out, v.reported? now withStacks limit = .ok (some out) ∧
      out.classification.keys = classifying ∧
      (∀ code, ∃ kept,
        (Value.fault (v.adopt taken code)).reported? now withStacks limit = .ok (some kept) ∧
          (code = "unknown" → kept.classification = out.classification) ∧
          Table.erase "code" kept.classification = Table.erase "code" out.classification) ∧
      (∀ code other later,
        (Value.fault (v.adopt taken code)).adoption later other = .kept (v.adopt taken code)) ∧
      ∀ h cause, v = .fault (.foreign h cause) → (Fault.foreign h cause).Rooted →
        ∀ code deeper, deeper.AsksFor (causes + 1) →
          (v.adopt taken code).cause = v ∧ ∃ kept,
            (Value.fault (v.adopt taken code)).reported? now withStacks deeper = .ok (some kept) ∧
              kept.member "cause" = out := by
  refine ⟨_, v.reported?_of_asksFor asked, ?_, fun code => ?_, fun code other later => ?_, ?_⟩
  · rw [classification_report, keys_classification_facts]
  · refine ⟨_, reported?_of_asksFor _ asked, ?_⟩
    rw [classification_report, classification_report]
    rcases v.classification_facts_adopt taken code with same | ⟨others, before, after⟩
    · exact ⟨fun _ => same, congrArg _ same⟩
    · rw [before, after]
      exact ⟨by rintro rfl; rfl, rfl⟩
  · exact v.adoption_adopt taken later code other
  · rintro h cause rfl rooted code deeper further
    exact ⟨rfl, _, reported?_of_asksFor _ further,
      member_cause_report_adopt taken code rooted causes⟩

theorem adoption_keeps_report_of_circle :
    let v : Value := .fault (.foreign { kind := "TypeError", message := "reset" } (.back 0))
    let adopted : Value := .fault (v.adopt 5 "connection")
    (Value.number 2).AsksFor 2 ∧ (Value.number 3).AsksFor 3 ∧
      (Fault.foreign { kind := "TypeError", message := "reset" } (.back 0)).Rooted ∧
      ∃ out kept, v.reported? 7 true (.number 2) = .ok (some out) ∧
        adopted.reported? 7 true (.number 3) = .ok (some kept) ∧ kept.member "cause" = out := by
  intro v adopted
  have asked : (Value.number 2).AsksFor 2 :=
    .inr ⟨2, rfl, by decide +kernel, by decide +kernel⟩
  have further : (Value.number 3).AsksFor 3 :=
    .inr ⟨3, rfl, by decide +kernel, by decide +kernel⟩
  have rooted : (Fault.foreign { kind := "TypeError", message := "reset" } (.back 0)).Rooted := by
    intro k grounded
    cases grounded
    exact Nat.one_pos
  obtain ⟨out, told, -, -, -, deep⟩ := adoption_keeps_report 7 5 true v asked
  obtain ⟨-, kept, toldDeeper, same⟩ := deep _ _ rfl rooted "connection" (.number 3) further
  exact ⟨asked, further, rooted, out, kept, told, toldDeeper, same⟩

end Value

end WorkloadIdentity
