import WorkloadIdentity.Proofs.Source.Teardown

/-! The lifecycle of a source as a machine of four states with three ways from one to
another. The fields that the handlers write in different orders agree with it after every
event: the gate is open once the wait is over, a snapshot is there while the source is
ready, and a call of `close` is recorded once it is closed. A sink may throw whatever it
likes; nothing here depends on it. -/

namespace WorkloadIdentity.Watch

/-- What a lifecycle can go on to. Nothing comes after a failure or after the close. -/
inductive Lifecycle.Next : Lifecycle → Lifecycle → Prop
  | readies : Next .init .ready
  | fails : Next .init .failed
  | closes : Next .ready .closed

theorem Outcome.lifecycle_eq_failed_iff {o : Outcome} : o.lifecycle = .failed ↔ o ≠ .ready := by
  cases o <;> simp [Outcome.lifecycle]

namespace Source

section
variable {s t : Source} {m : Moment} {e : Event} {commands : List Command}

theorem isOpen_iff_started (h : Consistent s) : s.gate.isOpen = true ↔ s.lifecycle ≠ .init := by
  rw [h.lifecycle, phase, Gate.isOpen]
  cases s.gate.opened with
  | none => simp
  | some o => cases o <;> cases s.closing <;> simp

theorem next_settle (h : Consistent s) {o : Outcome} (failed : o.lifecycle = .failed) :
    (s.settle o).lifecycle = s.lifecycle ∨ s.lifecycle.Next (s.settle o).lifecycle := by
  by_cases ended : s.gate.isOpen = true
  · exact .inl (by rw [settle_of_isOpen ended])
  · have starts : s.lifecycle = .init :=
      Decidable.of_not_not fun started => ended ((isOpen_iff_started h).mpr started)
    rw [settle_eq, starts]
    simp only [ended, failed]
    exact .inr .fails

theorem next_change (h : Consistent s) (change : Change s m e commands t) :
    t.lifecycle = s.lifecycle ∨ s.lifecycle.Next t.lifecycle := by
  cases change with
  | applies context picked log lives =>
    rcases lives with starts | serves
    · exact .inr (starts ▸ .readies)
    · exact .inl serves.symm
  | fails _ v asked starts => exact .inr (starts ▸ .fails)
  | closes _ asked byFailure log serves => exact .inr (serves ▸ .closes)
  | misses v => exact next_settle h rfl
  | expires ms => exact next_settle h rfl
  | _ => exact .inl rfl

theorem over_change {l : Lifecycle} (terminal : ∀ k, ¬l.Next k) (h : Consistent s)
    (reached : s.lifecycle = l) (change : Change s m e commands t) : t.lifecycle = l := by
  rcases next_change h change with same | next
  · exact same.trans reached
  · exact absurd (reached ▸ next) (terminal _)

end

theorem over_run {s : Source} (h : Consistent s) (terminal : ∀ k, ¬s.lifecycle.Next k)
    (history : History) : (s.run history).lifecycle = s.lifecycle :=
  run_keeps_of_change (P := fun t => t.lifecycle = s.lifecycle) (over_change terminal) h rfl history

theorem next_iff_step {a b : Lifecycle} :
    a.Next b ↔ a ≠ b ∧ ∃ (setup : Setup) (h : History) (o : Moment × Event),
      (setup.source.run h).lifecycle = a ∧ (setup.source.run (h ++ [o])).lifecycle = b := by
  constructor
  · intro next
    cases next with
    | readies => exact ⟨nofun, {}, [], (⟨0, 0⟩, .update .single), rfl, rfl⟩
    | fails => exact ⟨nofun, {}, [], (⟨0, 0⟩, .error .absent), rfl, rfl⟩
    | closes =>
      exact ⟨nofun, { policy := .close }, [(⟨0, 0⟩, .update .single)], (⟨1, 1⟩, .error .absent),
        rfl, rfl⟩
  · rintro ⟨moved, setup, h, o, rfl, rfl⟩
    rcases next_change (consistent_run setup h) (change_run setup h o) with same | next
    · exact absurd same.symm moved
    · exact next

/-- The ways from one lifecycle to another are the three, and after every run the parts of a source
agree with its lifecycle. So a source that has failed or is closed stays so, and one whose wait
ended otherwise than with an update never becomes ready. -/
theorem lifecycle_is_invariant :
    (∀ a b : Lifecycle, a.Next b ↔ a ≠ b ∧
      ∃ (setup : Setup) (h : History) (o : Moment × Event),
        (setup.source.run h).lifecycle = a ∧ (setup.source.run (h ++ [o])).lifecycle = b) ∧
    ∀ (setup : Setup) (h : History),
      let s := setup.source.run h
      (s.gate.isOpen = true ↔ s.lifecycle ≠ .init) ∧
      (s.current.isSome = true ↔ s.lifecycle = .ready) ∧
      (s.closing.isSome = true ↔ s.lifecycle = .closed) ∧
      (s.lifecycle = .failed ∨ s.lifecycle = .closed → ∀ later,
        (setup.source.run (h ++ later)).lifecycle = s.lifecycle) ∧
      (∀ o, s.gate.opened = some o → o ≠ .ready → ∀ later,
        (setup.source.run (h ++ later)).lifecycle = .failed) := by
  refine ⟨fun a b => next_iff_step, fun setup h => ?_⟩
  intro s
  have steady : Consistent s := consistent_run setup h
  have stays (ended : s.lifecycle = .failed ∨ s.lifecycle = .closed) (later : History) :
      (setup.source.run (h ++ later)).lifecycle = s.lifecycle := by
    rw [run_append]
    refine over_run steady (fun k next => ?_) later
    rcases ended with ended | ended <;> rw [ended] at next <;> cases next
  refine ⟨isOpen_iff_started steady, steady.current, closing_isSome_iff steady, stays, ?_⟩
  intro o opened unready later
  have failed : s.lifecycle = .failed :=
    failed_of_opened steady opened (Outcome.lifecycle_eq_failed_iff.mpr unready)
  rw [stays (.inl failed) later, failed]

end Source

end WorkloadIdentity.Watch
