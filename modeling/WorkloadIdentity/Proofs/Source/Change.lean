import WorkloadIdentity.Proofs.Source.Consistency

/-! What one event can do to a source, and what the source then asks for. There are few
such changes, whichever event brings them about: an update is applied, the wait fails,
the source closes, and so on. What the sink throws can only keep a source from
closing, or end a teardown early. -/

namespace WorkloadIdentity.Watch

namespace Setup

def timer (setup : Setup) : Timer := if setup.initTimeout.isSome then .running else .unset

def timerCommands (setup : Setup) : List Command := setup.initTimeout.toList.map .startTimer

def Throws (setup : Setup) (v : Value) : Prop :=
  ∃ earlier entry, setup.sink earlier entry = some v

def Quiet (setup : Setup) : Prop := ∀ earlier entry, setup.sink earlier entry = none

theorem Quiet.not_throws {setup : Setup} (quiet : setup.Quiet) (v : Value) : ¬setup.Throws v := by
  rintro ⟨earlier, entry, threw⟩
  rw [quiet earlier entry] at threw
  cases threw

end Setup

namespace Source

/-- What makes the watch of a source fail: an error, or an update from which no candidate could
be selected. The selector has then been asked what it has been `asked`. -/
inductive Failure (s : Source) (m : Moment) : Event → Value → List (List Candidate) → Prop
  | error (v : Value) : Failure s m (.error v) v s.asked
  | selection (context : Context) (f : Fault)
      (refused : accept m.wall context.candidates
        (s.setup.selector s.asked context.candidates) = .error f) :
    Failure s m (.update context) (.fault f) (context.candidates :: s.asked)

inductive Ends (s : Source) : Event → Ending → Prop
  | unsubscribed (e d : Ending) (waits : s.teardown = .unsubscribing)
      (cause : d = .ok () ∧ s.setup.ownsClient = false ∨ ∃ v, s.setup.Throws v ∧ d = .error v) :
    Ends s (.unsubscribed e) d
  | clientClosed (e d : Ending) (waits : s.teardown = .closingClient)
      (cause : d = .ok () ∨ ∃ v, s.setup.Throws v ∧ d = .error v) :
    Ends s (.clientClosed e) d

/-- What is expected, but comes too late or too early to change anything. -/
def Ignores (s : Source) : Event → Prop
  | .update _ | .error _ => s.lifecycle = .closed ∨ s.lifecycle = .failed
  | .close => s.lifecycle = .closed
  | .proceed => s.opening.awaits = false ∨ s.gate.opened = none
      ∨ s.timer = .running ∧ ∃ o, s.opening = .stoppingTimer o
  | _ => False

/-- What an event can do to a source and what it asks for; `log` is what is logged by then. -/
inductive Change (s : Source) (m : Moment) : Event → List Command → Source → Prop
  | ignores (e : Event) (nothing : s.expects e = false ∨ s.Ignores e) : Change s m e [] s
  | tolerates (e : Event) (v : Value) (asked : List (List Candidate)) (log : List Log.Entry)
      (serves : s.lifecycle = .ready) (failure : Failure s m e v asked)
      (kept : s.setup.policy = .keepLast ∨
        ∃ x, s.setup.Throws x) :
    Change s m e [] { s with asked := asked, log := log }
  | applies (context : Context) (picked : Candidate) (log : List Log.Entry)
      (lives : s.lifecycle = .init ∨ s.lifecycle = .ready)
      (accepted : accept m.wall context.candidates
        (s.setup.selector s.asked context.candidates) = .ok picked) :
    Change s m (.update context) []
      { s with
        lifecycle := .ready
        current := some ⟨picked, context.bundles, s.version + 1, m.reading⟩
        gate := (s.gate.openWith .ready).1
        asked := context.candidates :: s.asked
        log := log }
  | fails (e : Event) (v : Value) (asked : List (List Candidate)) (starts : s.lifecycle = .init)
      (failure : Failure s m e v asked) :
    Change s m e []
      { s with
        lifecycle := .failed
        gate := (s.gate.openWith (.error (s.setup.watchFault m.wall v))).1
        asked := asked }
  | closes (e : Event) (asked : List (List Candidate)) (byFailure : Bool) (log : List Log.Entry)
      (serves : s.lifecycle = .ready)
      (cause : e = .close ∧ asked = s.asked ∧ s.isHandedOut = true
        ∨ s.setup.policy = .close ∧ ∃ v, Failure s m e v asked) :
    Change s m e [.unsubscribe s.subscription]
      { s with
        lifecycle := .closed, current := none, closing := some .pending
        teardown := .unsubscribing, asked := asked, closedByFailure := byFailure, log := log }
  | subscribes (n : Nat) (calls : s.opening = .subscribing) :
    Change s m (.subscribed n) s.setup.timerCommands
      { s with subscription := some n, opening := .waiting, timer := s.setup.timer }
  | misses (v : Value) (calls : s.opening = .subscribing) :
    Change s m (.watchThrew v) s.setup.timerCommands
      { s.settle (.error (s.setup.startFault m.wall v)) with
        opening := .waiting, timer := s.setup.timer }
  | expires (ms : Float) (runs : s.timer = .running) (limit : s.setup.initTimeout = some ms) :
    Change s m .timerEnded [] { s.settle (.timeout ms) with timer := .spent }
  | stopsTimer (o : Outcome) (waits : s.opening = .waiting) (opened : s.gate.opened = some o)
      (runs : s.timer = .running) :
    Change s m .proceed [.stopTimer] { s with opening := .stoppingTimer o }
  | handsOut (stops : List Command) (waits : s.opening.awaits = true)
      (opened : s.gate.opened = some .ready) (harmless : ∀ c ∈ stops, c = .stopTimer) :
    Change s m .proceed stops { s with opening := .done .ok }
  | givesUp (stops : List Command) (o : Outcome) (waits : s.opening.awaits = true)
      (opened : s.gate.opened = some o) (failed : o.lifecycle = .failed)
      (harmless : ∀ c ∈ stops, c = .stopTimer) :
    Change s m .proceed (stops ++ [.unsubscribe s.subscription])
      { s with opening := .tearingDown o, teardown := .unsubscribing }
  | closesClient (e : Ending) (log : List Log.Entry) (waits : s.teardown = .unsubscribing)
      (owns : s.setup.ownsClient = true) :
    Change s m (.unsubscribed e) [.closeClient] { s with teardown := .closingClient, log := log }
  | reports (e : Event) (d : Ending) (o : Outcome) (r : Opened) (log : List Log.Entry)
      (ends : Ends s e d) (tears : s.opening = .tearingDown o)
      (result : d = .ok () ∧ r = o.opened m.wall ∨ ∃ v, s.setup.Throws v ∧ r = .rejected v) :
    Change s m e [] { s with teardown := .done d, opening := .done r, log := log }
  | settles (e : Event) (d r : Ending) (earlier later : List Log.Entry)
      (ends : Ends s e d) (pending : s.closing = some .pending)
      (result : (∃ v, d = .error v ∧ r = .error v) ∨ d = .ok () ∧ ∃ rest,
        later = closedEntry m :: rest ∧ r = ending (s.setup.sink earlier (closedEntry m))) :
    Change s m e []
      { s with teardown := .done d, closing := some (.settled r), log := earlier ++ later }

section
variable {s : Source} {m : Moment}

theorem bear_cases (s : Source) (m : Moment) (v : Value) :
    (∃ log thrown, s.bear m v = { source := { s with log := log }, thrown := thrown }
      ∧ (s.setup.policy = .keepLast ∨ ∃ x, s.setup.Throws x))
    ∨ s.setup.policy = .close
      ∧ ∃ log, s.bear m v = ({ s with log := log, closedByFailure := true } : Source).close := by
  unfold bear
  cases policy : s.setup.policy with
  | keepLast => exact .inl ⟨_, _, rfl, .inl rfl⟩
  | close =>
    simp only [record, note]
    split
    · rename_i t thrown told
      obtain ⟨rfl, threw⟩ := Prod.mk.inj told
      exact .inl ⟨_, _, rfl, .inr ⟨thrown, _, _, threw⟩⟩
    · rename_i t told
      obtain ⟨rfl, -⟩ := Prod.mk.inj told
      exact .inr ⟨trivial, _, rfl⟩

theorem change_failure {e : Event} {v : Value} {asked : List (List Candidate)}
    (h : Consistent s) (failure : Failure s m e v asked)
    (lives : s.lifecycle = .init ∨ s.lifecycle = .ready) :
    Change s m e (({ s with asked := asked } : Source).onError m v).commands
      (({ s with asked := asked } : Source).onError m v).source := by
  rcases lives with starts | serves
  · have opened := opened_of_init h.lifecycle starts
    rw [onError_of_init (s := { s with asked := asked }) starts, settle_eq]
    simp only [Gate.isOpen, opened]
    exact .fails e v asked starts failure
  · rw [onError_of_ready (s := { s with asked := asked }) serves]
    rcases bear_cases { s with asked := asked } m v with
      ⟨log, thrown, told, kept⟩ | ⟨policy, log, told⟩
    · rw [told]
      exact .tolerates e v asked log serves failure kept
    · rw [told]
      simp only [close, closing_of_ready h.lifecycle serves, startTeardown]
      exact .closes e asked true log serves (.inr ⟨policy, v, failure⟩)

theorem change_onError (h : Consistent s) (v : Value) :
    Change s m (.error v) (s.onError m v).commands (s.onError m v).source := by
  cases hl : s.lifecycle with
  | init => exact change_failure h (.error v) (.inl hl)
  | ready => exact change_failure h (.error v) (.inr hl)
  | failed =>
    rw [onError_of_over (.inr hl)]
    exact .ignores _ (.inr (by simp [Ignores, hl]))
  | closed =>
    rw [onError_of_over (.inl hl)]
    exact .ignores _ (.inr (by simp [Ignores, hl]))

theorem apply_eq (fits : s.lifecycle = s.phase)
    (lives : s.lifecycle = .init ∨ s.lifecycle = .ready) (context : Context) (picked : Candidate) :
    ∃ log thrown, s.apply m context picked =
      { source :=
          { s with
            lifecycle := .ready
            current := some ⟨picked, context.bundles, s.version + 1, m.reading⟩
            gate := (s.gate.openWith .ready).1
            log := log }
        thrown := thrown } := by
  unfold apply record note
  rcases lives with starts | serves
  · simp only [starts, settle_eq, Gate.isOpen, opened_of_init fits starts]
    exact ⟨_, _, rfl⟩
  · have opened : s.gate.isOpen = true := by simp [Gate.isOpen, opened_of_ready fits serves]
    simp only [serves, Gate.openWith_of_isOpen opened]
    exact ⟨_, _, rfl⟩

theorem change_take (h : Consistent s) (lives : s.lifecycle = .init ∨ s.lifecycle = .ready)
    (context : Context) :
    Change s m (.update context) (s.take m context).commands (s.take m context).source := by
  unfold take select
  cases hs : accept m.wall context.candidates (s.setup.selector s.asked context.candidates) with
  | error f => exact change_failure h (.selection context f hs) lives
  | ok picked =>
    obtain ⟨log, thrown, told⟩ := apply_eq
      (s := { s with asked := context.candidates :: s.asked }) (m := m) h.lifecycle lives
      context picked
    dsimp only
    rw [told]
    exact .applies context picked log lives hs

theorem change_onUpdate (h : Consistent s) (context : Context) :
    Change s m (.update context) (s.onUpdate m context).commands
      (s.onUpdate m context).source := by
  cases hl : s.lifecycle with
  | init =>
    rw [onUpdate_of_live (.inl hl)]
    exact change_take h (.inl hl) context
  | ready =>
    rw [onUpdate_of_live (.inr hl)]
    exact change_take h (.inr hl) context
  | failed =>
    rw [onUpdate_of_over (.inr hl)]
    exact .ignores _ (.inr (by simp [Ignores, hl]))
  | closed =>
    rw [onUpdate_of_over (.inl hl)]
    exact .ignores _ (.inr (by simp [Ignores, hl]))

theorem await_eq (unset : s.timer = .unset) :
    s.await =
      { source := { s with opening := .waiting, timer := s.setup.timer }
        commands := s.setup.timerCommands } := by
  unfold await Setup.timer Setup.timerCommands
  cases s.setup.initTimeout with
  | none => simp [unset]
  | some ms => simp

theorem change_onSubscribed (h : Consistent s) (n : Nat) :
    Change s m (.subscribed n) (s.onSubscribed n).commands (s.onSubscribed n).source := by
  unfold onSubscribed
  split
  · rename_i calls
    have unset := (unset_of_subscribing h calls).1
    rw [await_eq (s := { s with subscription := some n }) unset]
    exact .subscribes n calls
  · rename_i other
    refine .ignores _ (.inl ?_)
    cases ho : s.opening <;> simp_all [expects]

theorem change_onWatchThrew (h : Consistent s) (v : Value) :
    Change s m (.watchThrew v) (s.onWatchThrew m v).commands (s.onWatchThrew m v).source := by
  unfold onWatchThrew
  split
  · rename_i calls
    have unset := (unset_of_subscribing h calls).1
    rw [await_eq (by simpa using unset)]
    simpa using Change.misses (s := s) (m := m) v calls
  · rename_i other
    refine .ignores _ (.inl ?_)
    cases ho : s.opening <;> simp_all [expects]

theorem change_onTimerEnded (h : Consistent s) :
    Change s m .timerEnded s.onTimerEnded.commands s.onTimerEnded.source := by
  unfold onTimerEnded
  split
  · rename_i ms runs limit
    simpa [settle_eq] using Change.expires (s := s) (m := m) ms runs limit
  · rename_i other
    refine .ignores _ (.inl ?_)
    have limited := h.timer
    cases ht : s.timer <;> cases hi : s.setup.initTimeout <;> simp_all [expects]

theorem change_conclude (o : Outcome) (stops : List Command) (waits : s.opening.awaits = true)
    (opened : s.gate.opened = some o) (harmless : ∀ c ∈ stops, c = .stopTimer) :
    Change s m .proceed (stops ++ (s.conclude o).commands) (s.conclude o).source := by
  cases o with
  | ready => simpa [conclude] using Change.handsOut (m := m) stops waits opened harmless
  | error f => exact .givesUp stops (.error f) waits opened rfl harmless
  | timeout ms => exact .givesUp stops (.timeout ms) waits opened rfl harmless

theorem change_onProceed (h : Consistent s) :
    Change s m .proceed s.onProceed.commands s.onProceed.source := by
  have fits := h.opening
  -- the outcome, then the timer: unset, running, or spent before the outcome came
  unfold onProceed
  split
  · rename_i o waits opened _
    exact change_conclude o [] (by simp [waits, Opening.awaits]) opened (by simp)
  · rename_i o waits opened runs
    exact .stopsTimer o waits opened runs
  · rename_i o waits opened _
    exact change_conclude o [.stopTimer] (by simp [waits, Opening.awaits]) opened (by simp)
  · rename_i o waits _
    simp only [OpeningFits, waits] at fits
    exact change_conclude o [] (by simp [waits, Opening.awaits]) fits.1 (by simp)
  · rename_i unset running spent stopped
    refine .ignores _ (.inr ?_)
    cases ho : s.opening with
    | waiting =>
      refine .inr (.inl ?_)
      cases hg : s.gate.opened with
      | none => rfl
      | some o => cases ht : s.timer <;> simp_all
    | stoppingTimer o =>
      have started := fits
      simp only [OpeningFits, ho] at started
      refine .inr (.inr ⟨?_, o, ho⟩)
      cases ht : s.timer <;> simp_all
    | _ => exact .inl (by simp [ho, Opening.awaits])

theorem change_close (h : Consistent s) (held : s.isHandedOut = true) :
    Change s m .close s.close.commands s.close.source := by
  cases hc : s.closing with
  | some c =>
    rw [close_of_closing hc]
    exact .ignores _ (.inr (closed_of_closing h hc))
  | none =>
    have serves : s.lifecycle = .ready := by
      rw [h.lifecycle, phase, ready_of_handedOut h held, hc]
    simp only [close, hc, startTeardown]
    exact .closes .close s.asked s.closedByFailure s.log serves (.inl ⟨rfl, rfl, held⟩)

theorem warnOf_cases (s : Source) (m : Moment) (message : String) (e : Ending) :
    (∃ log, s.warnOf m message e = ({ s with log := log }, none))
    ∨ ∃ log v, s.warnOf m message e = ({ s with log := log }, some v) ∧ s.setup.Throws v := by
  cases e with
  | ok _ => exact .inl ⟨s.log, rfl⟩
  | error v =>
    simp only [warnOf, record, note]
    cases told : s.setup.sink s.log ⟨.warn, message, some [("err", v)], m.wall⟩ with
    | none => exact .inl ⟨_, rfl⟩
    | some x => exact .inr ⟨_, x, rfl, _, _, told⟩

theorem rejected_or_opened {entry : Log.Entry} {thrown : Option Value}
    (told : s.setup.sink s.log entry = thrown) (r : Opened) :
    (thrown.map Opened.rejected).getD r = r
      ∨ ∃ v, s.setup.Throws v ∧ (thrown.map Opened.rejected).getD r = .rejected v := by
  cases thrown with
  | none => exact .inl rfl
  | some v => exact .inr ⟨v, ⟨s.log, entry, told⟩, rfl⟩

theorem reportFailure_eq (s : Source) (m : Moment) (o : Outcome) :
    ∃ log r, s.reportFailure m o = { s with opening := .done r, log := log }
      ∧ (r = o.opened m.wall ∨ ∃ v, s.setup.Throws v ∧ r = .rejected v) := by
  cases o with
  | ready => exact ⟨s.log, .ok, rfl, .inl rfl⟩
  | error f => exact ⟨_, _, rfl, rejected_or_opened rfl _⟩
  | timeout ms => exact ⟨_, _, rfl, rejected_or_opened rfl _⟩

theorem settleClosing_eq (s : Source) (m : Moment) (r : Ending) :
    ∃ later, s.settleClosing m r
      = { s with closing := some (.settled r), log := s.log ++ later } := by
  unfold settleClosing
  dsimp only
  split
  · exact ⟨_, rfl⟩
  · exact ⟨[], by simp⟩

theorem Ends.runs {e : Event} {d : Ending} (h : Ends s e d) :
    s.teardown = .unsubscribing ∨ s.teardown = .closingClient := by
  cases h with
  | unsubscribed _ _ waits _ => exact .inl waits
  | clientClosed _ _ waits _ => exact .inr waits

theorem Ends.begun {e : Event} {d : Ending} (h : Ends s e d) : s.teardown ≠ .idle := by
  rcases h.runs with waits | waits <;> simp [waits]

theorem Ends.throws {e : Event} {v : Value} (h : Ends s e (.error v)) : s.setup.Throws v := by
  cases h with
  | unsubscribed _ _ _ cause => simpa using cause
  | clientClosed _ _ _ cause => simpa using cause

theorem change_finishTeardown {e : Event} {d : Ending} (h : Consistent s) (ends : Ends s e d)
    (log : List Log.Entry) :
    Change s m e [] (({ s with log := log } : Source).finishTeardown m d) := by
  unfold finishTeardown
  dsimp only
  split
  · rename_i o v tears
    exact .reports e (.error v) o (.rejected v) log ends tears (.inr ⟨v, ends.throws, rfl⟩)
  · rename_i o u tears
    obtain ⟨log, r, told, result⟩ := reportFailure_eq
      { s with log := log, teardown := .done (.ok u) } m o
    rw [told]
    exact .reports e (.ok u) o r log ends tears (result.imp_left fun opened => ⟨rfl, opened⟩)
  · rename_i o v other
    obtain ⟨later, told⟩ := settleClosing_eq { s with log := log, teardown := .done (.error v) } m
      (.error v)
    rw [told]
    have pending : s.closing = some .pending := by
      rcases pending_or_tearing h ends.runs with pending | ⟨o, tears⟩
      · exact pending
      · exact absurd tears (other o)
    exact .settles e (.error v) (.error v) log later ends pending (.inl ⟨v, rfl, rfl⟩)
  · rename_i o u other
    simp only [note]
    obtain ⟨later, told⟩ := settleClosing_eq
      { s with log := log ++ [closedEntry m], teardown := .done (.ok u) } m
      (ending (s.setup.sink log (closedEntry m)))
    rw [told]
    have pending : s.closing = some .pending := by
      rcases pending_or_tearing h ends.runs with pending | ⟨o, tears⟩
      · exact pending
      · exact absurd tears (other o)
    simp only [List.append_assoc]
    exact .settles e (.ok u) _ log _ ends pending (.inr ⟨rfl, later, rfl, rfl⟩)

theorem change_onUnsubscribed (h : Consistent s) (e : Ending) :
    Change s m (.unsubscribed e) (s.onUnsubscribed m e).commands
      (s.onUnsubscribed m e).source := by
  unfold onUnsubscribed
  split
  · rename_i waits
    rcases warnOf_cases s m "Failed to stop the Workload API watch" e with
      ⟨log, told⟩ | ⟨log, v, told, thrown⟩
    · rw [told]
      by_cases owns : s.setup.ownsClient = true
      · simp only [owns]
        exact .closesClient e log waits owns
      · simp only [owns]
        exact change_finishTeardown h
          (.unsubscribed e _ waits (.inl ⟨rfl, by simpa using owns⟩)) log
    · rw [told]
      exact change_finishTeardown h (.unsubscribed e _ waits (.inr ⟨v, thrown, rfl⟩)) log
  · rename_i other
    refine .ignores _ (.inl ?_)
    cases ht : s.teardown <;> simp_all [expects]

theorem change_onClientClosed (h : Consistent s) (e : Ending) :
    Change s m (.clientClosed e) (s.onClientClosed m e).commands
      (s.onClientClosed m e).source := by
  unfold onClientClosed
  split
  · rename_i waits
    rcases warnOf_cases s m "Failed to close the Workload API client" e with
      ⟨log, told⟩ | ⟨log, v, told, thrown⟩
    · rw [told]
      exact change_finishTeardown h (.clientClosed e _ waits (.inl rfl)) log
    · rw [told]
      exact change_finishTeardown h (.clientClosed e _ waits (.inr ⟨v, thrown, rfl⟩)) log
  · rename_i other
    refine .ignores _ (.inl ?_)
    cases ht : s.teardown <;> simp_all [expects]

theorem change_step (h : Consistent s) (m : Moment) (e : Event) :
    Change s m e (s.step m e).commands (s.step m e).source := by
  cases e with
  | update context => exact change_onUpdate h context
  | error v => exact change_onError h v
  | subscribed n => exact change_onSubscribed h n
  | watchThrew v => exact change_onWatchThrew h v
  | proceed => exact change_onProceed h
  | timerEnded => exact change_onTimerEnded h
  | unsubscribed e => exact change_onUnsubscribed h e
  | clientClosed e => exact change_onClientClosed h e
  | close =>
    by_cases held : s.isHandedOut = true
    · simpa [step, held] using change_close (m := m) h held
    · rw [step_of_not_expects (by simpa [expects] using held)]
      exact .ignores _ (.inl (by simpa [expects] using held))

end

end Source

end WorkloadIdentity.Watch
