import WorkloadIdentity.Proofs.Source.Verdict
import WorkloadIdentity.Proofs.Source.Aftermath

/-! The timer of a creation, as far as its source knows of it. The creation does not go on past the
wait without stopping its timer, and not past that before the timer has ended; and it does not stop
the timer before the wait is over. -/

namespace WorkloadIdentity.Watch

namespace Source

/-- How a source stands to its timer, which has been stopped or has not. -/
structure Timely (s : Source) (stopped : Prop) : Prop where
  consistent : Consistent s
  finite : ∀ ms, s.setup.initTimeout = some ms → ms.isFinite = true
  opened : stopped → s.gate.isOpen = true
  stopped : s.setup.initTimeout.isSome = true → 2 ≤ s.opening.rank → stopped
  spent : s.setup.initTimeout.isSome = true → 3 ≤ s.opening.rank → s.timer = .spent

section
variable {s t : Source} {m : Moment} {e : Event} {commands : List Command}

theorem opening_change_of_ne (other : e ≠ .proceed) (change : Change s m e commands t) :
    t.opening = s.opening ∨ t.opening = .waiting ∨ ∃ o, s.opening = .tearingDown o := by
  cases change with
  | subscribes => exact .inr (.inl rfl)
  | misses => exact .inr (.inl rfl)
  | expires => exact .inl (by simp)
  | stopsTimer => exact absurd rfl other
  | handsOut => exact absurd rfl other
  | givesUp => exact absurd rfl other
  | reports _ d o r log ends tears => exact .inr (.inr ⟨o, tears⟩)
  | _ => exact .inl rfl

theorem isOpen_of_stops (stops : .stopTimer ∈ commands) (change : Change s m e commands t) :
    s.gate.isOpen = true := by
  cases change with
  | stopsTimer o waits opened => simp [Gate.isOpen, opened]
  | handsOut commands waits opened => simp [Gate.isOpen, opened]
  | givesUp commands o waits opened => simp [Gate.isOpen, opened]
  | subscribes | misses =>
    obtain ⟨ms, -, starts⟩ := List.mem_map.mp stops
    cases starts
  | closes | closesClient => cases List.mem_singleton.mp stops
  | _ => cases stops

theorem limit_of_starts {ms : Float} (starts : .startTimer ms ∈ commands)
    (change : Change s m e commands t) : s.setup.initTimeout = some ms := by
  cases change with
  | subscribes | misses =>
    obtain ⟨limit, given, same⟩ := List.mem_map.mp starts
    cases same
    exact Option.mem_toList.mp given
  | handsOut commands waits opened harmless => cases harmless _ starts
  | givesUp commands o waits opened failed harmless =>
    rcases List.mem_append.mp starts with stops | last
    · cases harmless _ stops
    · cases List.mem_singleton.mp last
  | stopsTimer | closes | closesClient => cases List.mem_singleton.mp starts
  | _ => cases starts

theorem spent_change (begun : 1 ≤ s.opening.rank) (spent : s.timer = .spent)
    (change : Change s m e commands t) : t.timer = .spent := by
  cases change with
  | subscribes n calls => simp [calls, Opening.rank] at begun
  | misses v calls => simp [calls, Opening.rank] at begun
  | expires => rfl
  | _ => exact spent

/-- The creation goes on past the wait only by stopping the timer, and past that only once the timer
has ended. -/
theorem step_proceed_of_limited (h : Consistent s) (limited : s.setup.initTimeout.isSome = true)
    (m : Moment) :
    (2 ≤ (s.step m .proceed).source.opening.rank →
      2 ≤ s.opening.rank ∨ .stopTimer ∈ (s.step m .proceed).commands) ∧
    (3 ≤ (s.step m .proceed).source.opening.rank →
      3 ≤ s.opening.rank ∨ (s.step m .proceed).source.timer = .spent) := by
  have concluded (o : Outcome) : (s.conclude o).source.timer = s.timer := by cases o <;> rfl
  have fits := h.opening
  rw [step, onProceed]
  split
  · rename_i o waits opened unset
    simp only [OpeningFits, waits, unset, true_iff] at fits
    simp [fits] at limited
  · exact ⟨fun _ => .inr List.mem_cons_self, fun far => absurd far (by simp [Opening.rank])⟩
  · rename_i o waits opened spent
    exact ⟨fun _ => .inr List.mem_cons_self, fun _ => .inr ((concluded o).trans spent)⟩
  · rename_i o stops spent
    exact ⟨fun _ => .inl (by simp [stops, Opening.rank]),
      fun _ => .inr ((concluded o).trans spent)⟩
  · exact ⟨.inl, .inl⟩

theorem Timely.step {stopped : Prop} (timely : Timely s stopped) (m : Moment) (e : Event) :
    Timely (s.step m e).source (stopped ∨ .stopTimer ∈ (s.step m e).commands) := by
  have change := change_step timely.consistent m e
  have setup := setup_change change
  have begun : Consistent (s.step m e).source := consistent_change timely.consistent change
  refine ⟨begun, setup ▸ timely.finite, fun stops => ?_, fun limited far => ?_,
    fun limited far => ?_⟩
  · have opened := stops.elim timely.opened (isOpen_of_stops · change)
    obtain ⟨o, outcome⟩ := Option.isSome_iff_exists.mp opened
    exact Option.isSome_iff_exists.mpr ⟨o, opened_change_of_some outcome change⟩
  · rw [setup] at limited
    by_cases goes : e = .proceed
    · subst goes
      exact ((step_proceed_of_limited timely.consistent limited m).1 far).imp_left
        (timely.stopped limited)
    · refine .inl (timely.stopped limited ?_)
      rcases opening_change_of_ne goes change with same | waits | ⟨o, tears⟩
      · rwa [← same]
      · simp [waits, Opening.rank] at far
      · simp [tears, Opening.rank]
  · rw [setup] at limited
    have kept (before : 3 ≤ s.opening.rank) : (s.step m e).source.timer = .spent :=
      spent_change (by omega) (timely.spent limited before) change
    by_cases goes : e = .proceed
    · subst goes
      exact ((step_proceed_of_limited timely.consistent limited m).2 far).elim kept id
    · refine kept ?_
      rcases opening_change_of_ne goes change with same | waits | ⟨o, tears⟩
      · rwa [← same]
      · simp [waits, Opening.rank] at far
      · simp [tears, Opening.rank]

theorem timely_source {setup : Setup}
    (finite : ∀ ms, setup.initTimeout = some ms → ms.isFinite = true) :
    Timely setup.source False :=
  ⟨consistent_source setup, finite, nofun, nofun, nofun⟩

end

end Source

end WorkloadIdentity.Watch
