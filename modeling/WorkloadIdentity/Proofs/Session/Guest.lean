import WorkloadIdentity.Proofs.Source.Choice
import WorkloadIdentity.Proofs.Source.Release
import WorkloadIdentity.Proofs.Source.Serving

/-! One of the sources that share a client. It picks with a selector that the library brings,
and its sink never throws. As long as it is live, no update goes by without effect: it
serves the last one, and its version counts them. It asks its client for one thing only, the
end of its subscription, and that when its teardown begins. -/

namespace WorkloadIdentity.Watch

structure Setup.Sharing (setup : Setup) : Prop where
  builtIn : setup.selector.BuiltIn
  quiet : setup.Quiet
  guest : setup.ownsClient = false

/-- What a source with this selector serves from this context. -/
structure Snapshot.Reflects (c : Snapshot) (selector : Selector) (context : Context) : Prop where
  picks : selector.Picks context.candidates c.picked
  listed : c.picked ∈ context.candidates
  bundles : c.bundles = context.bundles

def Command.isOfTimer : Command → Bool
  | .startTimer _ | .stopTimer => true
  | _ => false

namespace Source

def isLive (s : Source) : Bool := s.lifecycle = .init || s.lifecycle = .ready

/-- A source that was told of `n` updates while it was live, the last of all being `latest`. -/
structure Follows (s : Source) (latest : Option Context) (n : Nat) : Prop where
  version : s.isLive = true → s.version = n
  serves : s.lifecycle = .ready →
    ∃ context ∈ latest, ∃ c, s.current = some c ∧ c.Reflects s.setup.selector context

section
variable {s t : Source} {m : Moment} {e : Event} {commands : List Command}
  {latest : Option Context} {n : Nat}

theorem isLive_iff : s.isLive = true ↔ s.lifecycle = .init ∨ s.lifecycle = .ready := by
  simp [isLive]

theorem Follows.of_not_live (late : s.isLive = false) : Follows s latest n := by
  simp only [isLive, Bool.or_eq_false_iff, decide_eq_false_iff_not] at late
  exact ⟨by simp [isLive, late], by simp [late]⟩

theorem Follows.of_over (ended : s.lifecycle = .closed ∨ s.lifecycle = .failed) :
    Follows s latest n := by
  apply Follows.of_not_live
  rcases ended with closed | failed
  · simp [isLive, closed]
  · simp [isLive, failed]

theorem Follows.of_same (follows : Follows s latest n) (setup : t.setup = s.setup)
    (lifecycle : t.lifecycle = s.lifecycle) (current : t.current = s.current) :
    Follows t latest n := by
  refine ⟨fun live => ?_, fun ready => ?_⟩
  · rw [Source.version, current]
    exact follows.version (by simpa [isLive, lifecycle] using live)
  · rw [setup, current]
    exact follows.serves (lifecycle ▸ ready)

theorem follows_source (setup : Setup) (latest : Option Context) :
    Follows setup.source latest 0 := by
  refine ⟨fun _ => rfl, fun ready => ?_⟩
  cases ready

theorem follows_settle {o : Outcome} (failed : o.lifecycle = .failed)
    (follows : Follows s latest n) : Follows (s.settle o) latest n := by
  by_cases ended : s.gate.isOpen = true
  · rwa [settle_of_isOpen ended]
  · exact .of_over (.inr (by simp [settle_eq, ended, failed]))

theorem context?_of_failure {v : Value} {asked : List (List Candidate)}
    (sharing : s.setup.Sharing) (filled : e.Filled) (failure : Failure s m e v asked) :
    e.context? = none := by
  have brings := failure_iff_brought.mp ⟨asked, failure⟩
  rw [eq_error_of_brought sharing.builtIn filled brings]
  rfl

theorem context?_of_ends {d : Ending} (ends : Ends s e d) : e.context? = none := by
  cases ends <;> rfl

/-- A live source applies an update and keeps what it serves through all else; a source that is
no longer live has nothing to keep. -/
theorem follows_change (sharing : s.setup.Sharing) (filled : e.Filled)
    (follows : Follows s latest n) (change : Change s m e commands t) :
    Follows t (e.context? <|> latest)
      (n + if s.isLive && e.context?.isSome then 1 else 0) := by
  have untold (unbrought : e.context? = none) (kept : Follows t latest n) :
      Follows t (e.context? <|> latest)
        (n + if s.isLive && e.context?.isSome then 1 else 0) := by
    simpa [unbrought] using kept
  cases change with
  | ignores _ nothing =>
    cases e with
    | update context =>
      rcases nothing with unexpected | late
      · cases unexpected
      · exact .of_over late
    | _ => exact untold rfl follows
  | tolerates _ v asked log serves failure =>
    exact untold (context?_of_failure sharing filled failure) (follows.of_same rfl rfl rfl)
  | applies context picked log lives accepted =>
    obtain ⟨answered, listed⟩ := accept_eq_ok_iff.mp accepted
    obtain ⟨other, -, picks⟩ := sharing.builtIn.exists_picks (filled context rfl)
    have same : other = picked := by
      simpa [answered, eq_comm] using picks s.asked
    have live : s.isLive = true := isLive_iff.mpr lives
    refine ⟨fun _ => ?_, fun _ => ⟨context, rfl, _, rfl, ⟨same ▸ picks, listed, rfl⟩⟩⟩
    simp [version, live, Event.context?, ← follows.version live]
  | fails => exact .of_over (.inr rfl)
  | closes => exact .of_over (.inl rfl)
  | misses v => exact untold rfl ((follows_settle rfl follows).of_same rfl rfl rfl)
  | expires ms => exact untold rfl ((follows_settle rfl follows).of_same rfl rfl rfl)
  | reports _ d o r log ends => exact untold (context?_of_ends ends) (follows.of_same rfl rfl rfl)
  | settles _ d r earlier later ends =>
    exact untold (context?_of_ends ends) (follows.of_same rfl rfl rfl)
  | _ => exact untold rfl (follows.of_same rfl rfl rfl)

theorem applied_first {context : Context} (sharing : s.setup.Sharing)
    (filled : context.candidates ≠ []) (starts : s.lifecycle = .init)
    (change : Change s m (.update context) commands t) :
    commands = [] ∧ t.opening = s.opening ∧ t.teardown = s.teardown := by
  have fills := Event.filled_update filled
  cases change with
  | ignores _ nothing =>
    rcases nothing with unexpected | late
    · cases unexpected
    · rcases late with ended | ended <;> simp [starts] at ended
  | tolerates _ v asked log serves => simp [starts] at serves
  | applies => exact ⟨rfl, rfl, rfl⟩
  | fails _ v asked _ failure => cases context?_of_failure sharing fills failure
  | closes _ asked byFailure log serves => simp [starts] at serves
  | reports _ d o r log ends => cases ends
  | settles _ d r earlier later ends => cases ends

theorem step_of_replay {setup : Setup} {context : Context} (sharing : setup.Sharing)
    (filled : context.candidates ≠ []) (m : Moment) :
    ∃ x, setup.source.step m (.update context) = { source := x } ∧ Consistent x ∧
      x.setup = setup ∧ x.opening = .subscribing ∧ x.teardown = .idle ∧
      Follows x (some context) 1 := by
  have change := change_step (consistent_source setup) m (.update context)
  have silent :=
    (logs_step sharing.quiet (consistent_source setup) m (.update context)).silent
  generalize setup.source.step m (.update context) = r at change silent
  obtain ⟨x, commands, thrown⟩ := r
  obtain ⟨rfl, opening, teardown⟩ := applied_first sharing filled rfl change
  have follows := follows_change sharing (Event.filled_update filled)
    (follows_source setup none) change
  exact ⟨x, congrArg (Reaction.mk x []) silent, consistent_change (consistent_source setup) change,
    setup_change change, opening, teardown, follows⟩

theorem idle_of_live (h : Consistent s) (live : s.isLive = true) : s.teardown = .idle := by
  rcases isLive_iff.mp live with starts | serves
  · have opened := opened_of_init h.lifecycle starts
    have fits := h.opening
    apply idle_of_stage h
    rw [stage, closing_of_init h starts]
    unfold OpeningFits at fits
    cases ho : s.opening with
    | tearingDown o => simp [ho, opened] at fits
    | done r => cases r <;> simp [ho, opened, starts] at fits
    | _ => rfl
  · exact idle_of_ready h serves

/-- What a source asks for once it is subscribed, beside what it asks of its timer: to be
unsubscribed, as soon as its teardown begins. -/
theorem commands_of_change (h : Consistent s) (sharing : s.setup.Sharing)
    (called : s.opening ≠ .subscribing) (change : Change s m e commands t) :
    t.opening ≠ .subscribing ∧ ∃ stops, (∀ c ∈ stops, c.isOfTimer = true) ∧
      (commands = stops ∧ (t.teardown = .idle ↔ s.teardown = .idle)
        ∨ commands = stops ++ [.unsubscribe s.subscription] ∧ s.teardown = .idle
          ∧ t.teardown ≠ .idle) := by
  have timers {stops : List Command} (harmless : ∀ c ∈ stops, c = .stopTimer) :
      ∀ c ∈ stops, c.isOfTimer = true := by
    intro c member
    rw [harmless c member]
    rfl
  cases change with
  | subscribes n calls => exact absurd calls called
  | misses v calls => exact absurd calls called
  | closesClient x log waits owns => simp [sharing.guest] at owns
  | closes _ asked byFailure log serves =>
    exact ⟨called, [], by simp, .inr ⟨rfl, idle_of_ready h serves, by simp⟩⟩
  | expires ms => exact ⟨by simpa using called, [], by simp, .inl ⟨rfl, by simp⟩⟩
  | stopsTimer o waits =>
    exact ⟨by simp, [.stopTimer], timers (by simp), .inl ⟨rfl, .rfl⟩⟩
  | handsOut stops waits opened harmless =>
    exact ⟨by simp, commands, timers harmless, .inl ⟨rfl, .rfl⟩⟩
  | givesUp stops o waits opened failed harmless =>
    have idle := idle_of_awaits h waits opened failed
    exact ⟨by simp, stops, timers harmless, .inr ⟨rfl, idle, by simp⟩⟩
  | reports _ d o r log ends =>
    exact ⟨by simp, [], by simp, .inl ⟨rfl, by simp [ends.begun]⟩⟩
  | settles _ d r earlier later ends =>
    exact ⟨called, [], by simp, .inl ⟨rfl, by simp [ends.begun]⟩⟩
  | _ => exact ⟨called, [], by simp, .inl ⟨rfl, .rfl⟩⟩

end

end Source

end WorkloadIdentity.Watch
