import WorkloadIdentity.Proofs.Source.Change

/-! A source stays consistent, whatever reaches it: each change keeps how its parts fit
together, and so does every run. The settings of a source never change. -/

namespace WorkloadIdentity.Watch

namespace Source

section
variable {s : Source} {m : Moment}

theorem opened_openWith_of_some {o : Outcome} (opened : s.gate.opened = some o) (a : Outcome) :
    (s.gate.openWith a).1.opened = some o := by
  rw [Gate.opened_openWith, opened]
  rfl

/-- The creation of a source sees the gate only once it is open, and a failure only as the last
state. -/
theorem OpeningFits.mono {t : Source} (fits : s.OpeningFits) (setup : t.setup = s.setup)
    (opening : t.opening = s.opening) (timer : t.timer = s.timer)
    (subscription : t.subscription = s.subscription)
    (opened : ∀ o, s.gate.opened = some o → t.gate.opened = some o)
    (failed : s.lifecycle = .failed → t.lifecycle = .failed) : t.OpeningFits := by
  unfold OpeningFits at fits ⊢
  rw [opening, timer, subscription, setup]
  cases ho : s.opening with
  | subscribing => simpa [ho] using fits
  | waiting => simpa [ho] using fits
  | stoppingTimer o =>
    rw [ho] at fits
    exact ⟨opened o fits.1, fits.2⟩
  | tearingDown o =>
    rw [ho] at fits
    exact ⟨opened o fits.1, fits.2⟩
  | done r =>
    rw [ho] at fits
    cases r with
    | ok => exact opened _ fits
    | refused f => exact failed fits
    | rejected v => exact failed fits

theorem OpeningFits.spent (fits : s.OpeningFits) (runs : s.timer = .running)
    (limited : s.setup.initTimeout ≠ none) :
    ({ s with timer := .spent } : Source).OpeningFits := by
  unfold OpeningFits at fits ⊢
  cases ho : s.opening with
  | waiting => simp [limited]
  | _ => simp_all

theorem unset_setup_timer (setup : Setup) : setup.timer = .unset ↔ setup.initTimeout = none := by
  unfold Setup.timer
  cases setup.initTimeout <;> simp

theorem limited_of_setup_timer {setup : Setup} (runs : setup.timer = .running) :
    setup.initTimeout.isSome = true := by
  unfold Setup.timer at runs
  split at runs
  · assumption
  · cases runs

theorem consistent_settle (h : Consistent s) {o : Outcome} (failed : o.lifecycle = .failed) :
    Consistent (s.settle o) := by
  by_cases ended : s.gate.isOpen = true
  · rwa [settle_of_isOpen ended]
  · have unopened : s.gate.opened = none := by simpa [Gate.isOpen] using ended
    have starts : s.lifecycle = .init := by rw [h.lifecycle, phase, unopened]
    rw [settle_eq]
    simp only [ended]
    refine ⟨?_, ?_, ?_, h.teardown, ?_, h.timer, ?_⟩
    · cases o <;> simp [phase, Gate.opened_openWith, unopened, Outcome.lifecycle] at failed ⊢
    · simpa [starts, failed] using h.current
    · simp [closing_of_init h starts]
    · exact h.opening.mono rfl rfl rfl rfl (fun o opened => opened_openWith_of_some opened _)
        (fun _ => failed)
    · simp [failed]

theorem consistent_change {e : Event} {commands : List Command} {t : Source} (h : Consistent s)
    (change : Change s m e commands t) : Consistent t := by
  have ⟨lifecycle, current, closing, teardown, opening, timer, asked⟩ := h
  cases change with
  | ignores => exact h
  | tolerates _ v asked' log serves failure kept =>
    exact ⟨lifecycle, current, closing, teardown, opening, timer, by simp [serves]⟩
  | applies context picked log lives accepted =>
    have opened : (s.gate.openWith .ready).1.opened = some .ready := by
      rcases lives with starts | serves
      · simp [Gate.opened_openWith, opened_of_init lifecycle starts]
      · exact opened_openWith_of_some (opened_of_ready lifecycle serves) _
    have unclosed : s.closing = none := by
      rcases lives with starts | serves
      · exact closing_of_init h starts
      · exact closing_of_ready lifecycle serves
    refine ⟨?_, ?_, ?_, teardown, ?_, timer, by simp⟩
    · simp [phase, opened, unclosed]
    · simp
    · simp [unclosed]
    · refine opening.mono rfl rfl rfl rfl (fun o opened => opened_openWith_of_some opened _) ?_
      rcases lives with hl | hl <;> simp [hl]
  | fails _ v asked' starts failure =>
    have unopened : s.gate.opened = none := opened_of_init lifecycle starts
    refine ⟨?_, ?_, ?_, teardown, ?_, timer, by simp⟩
    · simp [phase, Gate.opened_openWith, unopened]
    · simpa [starts] using current
    · simp [closing_of_init h starts]
    · exact opening.mono rfl rfl rfl rfl (fun o opened => opened_openWith_of_some opened _)
        (fun _ => rfl)
  | closes _ asked' byFailure log serves cause =>
    have opened := opened_of_ready lifecycle serves
    refine ⟨?_, ?_, ?_, ?_, ?_, timer, by simp⟩
    · simp [phase, opened]
    · simp
    · simp [opened]
    · simp [Teardown.stage, stage]
    · exact opening.mono rfl rfl rfl rfl (fun o opened => opened) (by simp [serves])
  | subscribes n calls =>
    refine ⟨lifecycle, current, closing, ?_, ?_, limited_of_setup_timer, asked⟩
    · simpa [stage, calls, Opening.stage] using teardown
    · exact unset_setup_timer s.setup
  | misses v calls =>
    have settled : Consistent (s.settle (.error (s.setup.startFault m.wall v))) :=
      consistent_settle h rfl
    refine ⟨settled.lifecycle, settled.current, settled.closing, ?_, ?_, ?_, settled.asked⟩
    · simpa [stage, calls, Opening.stage] using settled.teardown
    · simpa [OpeningFits] using unset_setup_timer s.setup
    · simpa using fun runs => limited_of_setup_timer runs
  | expires ms runs limit =>
    have settled : Consistent (s.settle (.timeout ms)) := consistent_settle h rfl
    refine ⟨settled.lifecycle, settled.current, settled.closing, settled.teardown, ?_, by simp,
      settled.asked⟩
    exact settled.opening.spent (by simpa using runs) (by simp [limit])
  | stopsTimer o waits opened runs =>
    refine ⟨lifecycle, current, closing, ?_, ?_, timer, asked⟩
    · simpa [stage, waits, Opening.stage] using teardown
    · exact ⟨opened, by simp [runs]⟩
  | handsOut stops waits opened harmless =>
    refine ⟨lifecycle, current, closing, ?_, opened, timer, asked⟩
    rw [teardown]
    unfold stage
    rw [Opening.stage_of_awaits waits]
    rfl
  | givesUp stops o waits opened failed harmless =>
    refine ⟨lifecycle, current, closing, ?_, ⟨opened, failed⟩, timer, asked⟩
    simp [stage, closing_of_failed h opened failed, Teardown.stage, Opening.stage]
  | closesClient e log waits owns =>
    refine ⟨lifecycle, current, closing, ?_, opening, timer, asked⟩
    change Stage.running = s.stage
    rw [← teardown, waits]
    rfl
  | reports _ d o r log ends tears result =>
    obtain ⟨opened, failed⟩ := opened_of_tearing h tears
    have unclosed : s.closing = none := closing_of_failed h opened failed
    have ended : s.lifecycle = .failed := failed_of_opened h opened failed
    have refuses : r ≠ .ok := by
      rcases result with ⟨-, rfl⟩ | ⟨v, -, rfl⟩
      · cases o <;> simp [Outcome.opened, Outcome.lifecycle] at failed ⊢
      · simp
    refine ⟨lifecycle, current, closing, ?_, ?_, timer, asked⟩
    · cases r <;> simp_all [stage, Teardown.stage, Opening.stage]
    · cases r <;> simp_all [OpeningFits]
  | settles _ d r earlier later ends pending result =>
    refine ⟨?_, current, ?_, ?_, opening, timer, asked⟩
    · rw [lifecycle]
      unfold phase
      rw [pending]
      rcases s.gate.opened with _ | _ | _ | _ <;> rfl
    · simpa [pending] using closing
    · simp [stage, Teardown.stage]

theorem setup_change {e : Event} {commands : List Command} {t : Source}
    (change : Change s m e commands t) : t.setup = s.setup := by
  cases change <;> simp

theorem done_change {e : Event} {commands : List Command} {t : Source} {r : Opened}
    (done : s.opening = .done r) (change : Change s m e commands t) : t.opening = .done r := by
  cases change with
  | subscribes n calls => simp [done] at calls
  | misses v calls => simp [done] at calls
  | stopsTimer o waits => simp [done] at waits
  | handsOut stops waits => simp [done, Opening.awaits] at waits
  | givesUp stops o waits => simp [done, Opening.awaits] at waits
  | reports _ d o last log ends tears => simp [done] at tears
  | expires => simpa using done
  | _ => exact done

theorem consistent_after (h : Consistent s) (o : Moment × Event) : Consistent (s.after o) :=
  consistent_change h (change_step h o.1 o.2)

end

theorem consistent_run (setup : Setup) (h : History) : Consistent (setup.source.run h) :=
  run_keeps (P := Consistent) (fun _ o consistent => consistent_after consistent o)
    (consistent_source setup) h

theorem change_run (setup : Setup) (h : History) (o : Moment × Event) :
    Change (setup.source.run h) o.1 o.2 ((setup.source.run h).step o.1 o.2).commands
      (setup.source.run (h ++ [o])) := by
  rw [run_snoc]
  exact change_step (consistent_run setup h) o.1 o.2

theorem run_keeps_of_change {P : Source → Prop}
    (step : ∀ {s m e commands t}, Consistent s → P s → Change s m e commands t → P t)
    {s : Source} (consistent : Consistent s) (start : P s) (h : History) : P (s.run h) := by
  have both : Consistent (s.run h) ∧ P (s.run h) :=
    run_keeps (P := fun s => Consistent s ∧ P s)
      (fun s o both => ⟨consistent_after both.1 o,
        step both.1 both.2 (change_step both.1 o.1 o.2)⟩) ⟨consistent, start⟩ h
  exact both.2

theorem setup_run (setup : Setup) (h : History) : (setup.source.run h).setup = setup :=
  run_keeps_of_change (P := fun s => s.setup = setup)
    (fun _ same change => (setup_change change).trans same) (consistent_source setup) rfl h

theorem done_run {s : Source} {r : Opened} (h : Consistent s) (done : s.opening = .done r)
    (history : History) : (s.run history).opening = .done r :=
  run_keeps_of_change (P := fun s => s.opening = .done r) (fun _ => done_change) h done history

end Source

end WorkloadIdentity.Watch
