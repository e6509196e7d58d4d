import WorkloadIdentity.Proofs.Source.Release

/-! What a sink that throws can change. To mute a source is to forget its log, and with
what its teardown, its close and its creation ended: all that such a sink has a say in.
A step of a muted source is the muted step, but for two steps that a throw cuts short: a
source stays open after its watch has failed, and a client of its own stays open after
the unsubscription has failed. What a handler throws is taken to reach nobody. -/

namespace WorkloadIdentity.Watch

def Setup.muted (setup : Setup) : Setup := { setup with sink := fun _ _ => none }

theorem Setup.quiet_muted (setup : Setup) : setup.muted.Quiet := fun _ _ => rfl

@[simp] theorem Setup.muted_muted (setup : Setup) : setup.muted.muted = setup.muted := rfl

def Opening.muted : Opening → Opening
  | .done .ok => .done .ok
  | .done _ => .done (.rejected .absent)
  | o => o

@[simp] theorem Opening.muted_muted (o : Opening) : o.muted.muted = o.muted := by
  rcases o with _ | _ | _ | _ | r
  case done => cases r <;> rfl
  all_goals rfl

def Teardown.muted : Teardown → Teardown
  | .done _ => .done (.ok ())
  | d => d

@[simp] theorem Teardown.muted_muted (d : Teardown) : d.muted.muted = d.muted := by
  cases d <;> rfl

def Closing.muted : Closing → Closing
  | .settled _ => .settled (.ok ())
  | .pending => .pending

@[simp] theorem Closing.muted_muted (c : Closing) : c.muted.muted = c.muted := by
  cases c <;> rfl

@[simp] theorem Closing.muted_comp_muted : Closing.muted ∘ Closing.muted = Closing.muted :=
  funext muted_muted

namespace Source

def muted (s : Source) : Source :=
  { s with
    setup := s.setup.muted
    opening := s.opening.muted
    teardown := s.teardown.muted
    closing := s.closing.map Closing.muted
    closedByFailure := false
    log := [] }

@[simp] theorem muted_muted (s : Source) : s.muted.muted = s.muted := by
  simp [muted]

end Source

/-- What is left of a reaction when the source is muted and nobody hears what was thrown. -/
def Reaction.muted (r : Reaction) : Source × List Command := (r.source.muted, r.commands)

namespace Source

def closingEntry (s : Source) (m : Moment) (v : Value) : Log.Entry :=
  ⟨.error, "Workload API watch failed; closing source",
    some [("err", v), ("version", s.versionValue)], m.wall⟩

def stopWarning (m : Moment) (v : Value) : Log.Entry :=
  ⟨.warn, "Failed to stop the Workload API watch", some [("err", v)], m.wall⟩

/-- The sink throws while there is something left to do: a source to be closed, or its client. -/
inductive Cut (s : Source) (m : Moment) : Event → Prop
  | source (e : Event) (v x : Value) (asked : List (List Candidate))
      (policy : s.setup.policy = .close) (serves : s.lifecycle = .ready)
      (failure : Failure s m e v asked)
      (threw : s.setup.sink s.log (s.closingEntry m v) = some x) : Cut s m e
  | client (v x : Value) (owns : s.setup.ownsClient = true) (waits : s.teardown = .unsubscribing)
      (threw : s.setup.sink s.log (stopWarning m v) = some x) :
    Cut s m (.unsubscribed (.error v))

theorem not_cut_of_quiet {s : Source} {m : Moment} {e : Event} (quiet : s.setup.Quiet) :
    ¬Cut s m e := by
  intro cut
  cases cut with
  | source _ v x asked policy serves failure threw => simp [quiet _ _] at threw
  | client v x owns waits threw => simp [quiet _ _] at threw

section
variable {s t : Source} {m : Moment}

theorem muted_settle (s : Source) (o : Outcome) : (s.settle o).muted = s.muted.settle o := by
  simp [settle_eq, muted]

theorem muted_close (s : Source) : s.close.muted = s.muted.close.muted := by
  unfold close
  cases hc : s.closing with
  | some c => simp [muted, hc, Reaction.muted]
  | none => simp [muted, hc, Reaction.muted, startTeardown]

theorem muted_close_congr (same : s.muted = t.muted) : s.close.muted = t.close.muted := by
  rw [muted_close s, muted_close t, same]

theorem muted_bear (m : Moment) (v : Value)
    (uncut : s.setup.policy = .close → s.setup.sink s.log (s.closingEntry m v) = none) :
    (s.bear m v).muted = (s.muted.bear m v).muted := by
  unfold bear
  cases policy : s.setup.policy with
  | keepLast => simp [muted, Setup.muted, policy, record, note, Reaction.muted]
  | close =>
    have told := uncut policy
    unfold closingEntry at told
    simp only [muted, Setup.muted, policy, record, note, told]
    apply muted_close_congr
    simp [muted, Setup.muted, policy]

theorem muted_onError (m : Moment) (v : Value)
    (uncut : s.setup.policy = .close → s.lifecycle = .ready →
      s.setup.sink s.log (s.closingEntry m v) = none) :
    (s.onError m v).muted = (s.muted.onError m v).muted := by
  cases hl : s.lifecycle with
  | init =>
    rw [onError_of_init hl, onError_of_init (s := s.muted) hl]
    simp only [Reaction.muted, muted_settle, muted_muted]
    rfl
  | ready =>
    rw [onError_of_ready hl, onError_of_ready (s := s.muted) hl]
    exact muted_bear m v fun policy => uncut policy hl
  | failed =>
    rw [onError_of_over (.inr hl), onError_of_over (s := s.muted) (.inr hl)]
    simp [Reaction.muted]
  | closed =>
    rw [onError_of_over (.inl hl), onError_of_over (s := s.muted) (.inl hl)]
    simp [Reaction.muted]

theorem muted_apply (m : Moment) (context : Context) (picked : Candidate) :
    (s.apply m context picked).muted = (s.muted.apply m context picked).muted := by
  unfold apply record note
  cases hl : s.lifecycle <;> simp [Reaction.muted, settle_eq, muted, version, hl]

theorem muted_take (m : Moment) (context : Context)
    (uncut : ∀ f, s.setup.policy = .close → s.lifecycle = .ready →
      accept m.wall context.candidates (s.setup.selector s.asked context.candidates) = .error f →
      s.setup.sink s.log (s.closingEntry m (.fault f)) = none) :
    (s.take m context).muted = (s.muted.take m context).muted := by
  have same : accept m.wall context.candidates
      (s.muted.setup.selector s.muted.asked context.candidates)
      = accept m.wall context.candidates (s.setup.selector s.asked context.candidates) := rfl
  unfold take select
  rw [same]
  cases answered : accept m.wall context.candidates
    (s.setup.selector s.asked context.candidates) with
  | error f =>
    exact muted_onError (s := { s with asked := context.candidates :: s.asked }) m (.fault f)
      fun policy serves => uncut f policy serves answered
  | ok picked =>
    exact muted_apply (s := { s with asked := context.candidates :: s.asked }) m context picked

theorem muted_onUpdate (m : Moment) (context : Context)
    (uncut : ∀ f, s.setup.policy = .close → s.lifecycle = .ready →
      accept m.wall context.candidates (s.setup.selector s.asked context.candidates) = .error f →
      s.setup.sink s.log (s.closingEntry m (.fault f)) = none) :
    (s.onUpdate m context).muted = (s.muted.onUpdate m context).muted := by
  cases hl : s.lifecycle with
  | init =>
    rw [onUpdate_of_live (.inl hl), onUpdate_of_live (s := s.muted) (.inl hl)]
    exact muted_take m context uncut
  | ready =>
    rw [onUpdate_of_live (.inr hl), onUpdate_of_live (s := s.muted) (.inr hl)]
    exact muted_take m context uncut
  | failed =>
    rw [onUpdate_of_over (.inr hl), onUpdate_of_over (s := s.muted) (.inr hl)]
    simp [Reaction.muted]
  | closed =>
    rw [onUpdate_of_over (.inl hl), onUpdate_of_over (s := s.muted) (.inl hl)]
    simp [Reaction.muted]

theorem muted_await (s : Source) : s.await.muted = s.muted.await.muted := by
  unfold await
  cases limit : s.setup.initTimeout <;>
    simp [Reaction.muted, muted, Setup.muted, limit, Opening.muted]

theorem muted_onSubscribed (calls : s.opening = .subscribing) (n : Nat) :
    (s.onSubscribed n).muted = (s.muted.onSubscribed n).muted := by
  have same : s.muted.opening = .subscribing := by simp [muted, calls, Opening.muted]
  unfold onSubscribed
  rw [calls, same]
  exact muted_await { s with subscription := some n }

theorem muted_onWatchThrew (calls : s.opening = .subscribing) (m : Moment) (v : Value) :
    (s.onWatchThrew m v).muted = (s.muted.onWatchThrew m v).muted := by
  have same : s.muted.opening = .subscribing := by simp [muted, calls, Opening.muted]
  unfold onWatchThrew
  rw [calls, same]
  have awaits := muted_await (s.settle (.error (s.setup.startFault m.wall v)))
  rw [muted_settle] at awaits
  exact awaits

theorem muted_onTimerEnded (s : Source) : s.onTimerEnded.muted = s.muted.onTimerEnded.muted := by
  unfold onTimerEnded
  cases ht : s.timer <;> cases hi : s.setup.initTimeout <;>
    simp [Reaction.muted, settle_eq, muted, Setup.muted, ht, hi]

theorem muted_conclude (s : Source) (o : Outcome) :
    (s.conclude o).muted = (s.muted.conclude o).muted := by
  cases o <;> simp [conclude, startTeardown, Reaction.muted, muted, Opening.muted]

theorem muted_onProceed (s : Source) : s.onProceed.muted = s.muted.onProceed.muted := by
  have gate : s.muted.gate = s.gate := rfl
  have timer : s.muted.timer = s.timer := rfl
  unfold onProceed
  rw [gate, timer]
  cases ho : s.opening with
  | waiting =>
    have same : s.muted.opening = .waiting := by simp [muted, ho, Opening.muted]
    rw [same]
    cases hg : s.gate.opened with
    | none => simp [Reaction.muted]
    | some o =>
      have concludes := muted_conclude s o
      cases ht : s.timer with
      | unset => exact concludes
      | running => simp [Reaction.muted, muted, Opening.muted]
      | spent =>
        obtain ⟨source, commands⟩ := Prod.mk.inj concludes
        simp [Reaction.muted, source, commands]
  | stoppingTimer o =>
    have same : s.muted.opening = .stoppingTimer o := by simp [muted, ho, Opening.muted]
    rw [same]
    cases s.timer with
    | spent => exact muted_conclude s o
    | _ => simp [Reaction.muted]
  | subscribing =>
    have same : s.muted.opening = .subscribing := by simp [muted, ho, Opening.muted]
    simp [same, Reaction.muted]
  | tearingDown o =>
    have same : s.muted.opening = .tearingDown o := by simp [muted, ho, Opening.muted]
    simp [same, Reaction.muted]
  | done r =>
    cases r <;> simp [muted, ho, Opening.muted, Reaction.muted]

theorem expects_muted (s : Source) (e : Event) : s.muted.expects e = s.expects e := by
  have opening : s.muted.opening = s.opening.muted := rfl
  have teardown : s.muted.teardown = s.teardown.muted := rfl
  cases e with
  | subscribed n =>
    rw [expects, expects, opening]
    rcases s.opening with _ | _ | _ | _ | _ | _ | _ <;> rfl
  | watchThrew v =>
    rw [expects, expects, opening]
    rcases s.opening with _ | _ | _ | _ | _ | _ | _ <;> rfl
  | unsubscribed d =>
    rw [expects, expects, teardown]
    cases s.teardown <;> rfl
  | clientClosed d =>
    rw [expects, expects, teardown]
    cases s.teardown <;> rfl
  | close =>
    rw [expects, expects, isHandedOut, isHandedOut, opening]
    rcases s.opening with _ | _ | _ | _ | _ | _ | _ <;> rfl
  | _ => rfl

def tornDown (s : Source) : Source :=
  match s.opening with
  | .tearingDown _ =>
    { s with teardown := .done (.ok ()), opening := .done (.rejected .absent) }
  | _ => { s with teardown := .done (.ok ()), closing := some (.settled (.ok ())) }

theorem muted_eq_tearing_iff {o : Outcome} :
    s.muted.opening = .tearingDown o ↔ s.opening = .tearingDown o := by
  change s.opening.muted = .tearingDown o ↔ s.opening = .tearingDown o
  rcases s.opening with _ | _ | _ | _ | r
  case done => cases r <;> simp [Opening.muted]
  all_goals simp [Opening.muted]

theorem tornDown_of_not_tearing (other : ∀ o, s.opening ≠ .tearingDown o) :
    s.muted.tornDown
      = { s.muted with teardown := .done (.ok ()), closing := some (.settled (.ok ())) } := by
  unfold tornDown
  split
  · rename_i o tears
    exact absurd (muted_eq_tearing_iff.mp tears) (other o)
  · rfl

theorem muted_settleClosing (s : Source) (m : Moment) (r : Ending) :
    (s.settleClosing m r).muted = { s.muted with closing := some (.settled (.ok ())) } := by
  obtain ⟨later, told⟩ := settleClosing_eq s m r
  rw [told]
  rfl

theorem muted_finishTeardown (failing : ∀ o, s.opening = .tearingDown o → o.lifecycle = .failed)
    (m : Moment) (d : Ending) : (s.finishTeardown m d).muted = s.muted.tornDown := by
  unfold finishTeardown
  dsimp only
  split
  · rename_i o v tears
    simp [muted, tornDown, tears, Opening.muted, Teardown.muted]
  · rename_i o u tears
    obtain ⟨log, r, told, result⟩ := reportFailure_eq { s with teardown := .done (.ok u) } m o
    rw [told]
    have refuses : r ≠ .ok := by
      have failed := failing o tears
      rcases result with rfl | ⟨v, -, rfl⟩
      · cases o <;> simp [Outcome.opened, Outcome.lifecycle] at failed ⊢
      · simp
    cases r <;> simp_all [muted, tornDown, Opening.muted, Teardown.muted]
  · rename_i o v other
    rw [muted_settleClosing, tornDown_of_not_tearing other]
    rfl
  · rename_i o u other
    rw [tornDown_of_not_tearing other]
    exact muted_settleClosing _ m _

theorem muted_finishTeardown_congr (same : s.muted = t.muted)
    (failing : ∀ o, s.opening = .tearingDown o → o.lifecycle = .failed) (m : Moment)
    (d r : Ending) : (s.finishTeardown m d).muted = (t.finishTeardown m r).muted := by
  rw [muted_finishTeardown failing, muted_finishTeardown (s := t), same]
  intro o tears
  rw [← muted_eq_tearing_iff, ← same, muted_eq_tearing_iff] at tears
  exact failing o tears

theorem muted_finishTeardown_logged
    (failing : ∀ o, s.opening = .tearingDown o → o.lifecycle = .failed) (m : Moment)
    (silence log : List Log.Entry) (r : Ending) :
    (({ s with log := log } : Source).finishTeardown m r).muted
      = (({ s.muted with log := silence } : Source).finishTeardown m (.ok ())).muted :=
  muted_finishTeardown_congr (s := { s with log := log }) (by rw [← muted_muted]; rfl) failing m
    r (.ok ())

def warned (m : Moment) (message : String) : Ending → List Log.Entry
  | .ok _ => []
  | .error v => [⟨.warn, message, some [("err", v)], m.wall⟩]

theorem warnOf_eq (quiet : s.setup.Quiet) (m : Moment) (message : String) (d : Ending) :
    s.warnOf m message d = ({ s with log := s.log ++ warned m message d }, none) := by
  cases d with
  | ok u => simp [warnOf, warned]
  | error v => simp [warnOf, warned, record, note, quiet _ _]

theorem muted_onUnsubscribed (waits : s.teardown = .unsubscribing)
    (failing : ∀ o, s.opening = .tearingDown o → o.lifecycle = .failed) (m : Moment) (d : Ending)
    (uncut : s.setup.ownsClient = true → ∀ v x, d = .error v →
      s.setup.sink s.log (stopWarning m v) ≠ some x) :
    (s.onUnsubscribed m d).muted = (s.muted.onUnsubscribed m d).muted := by
  have same : s.muted.teardown = .unsubscribing := by simp [muted, waits, Teardown.muted]
  have owner : s.muted.setup.ownsClient = s.setup.ownsClient := rfl
  obtain ⟨silence, silent⟩ : ∃ log, s.muted.warnOf m "Failed to stop the Workload API watch" d
      = ({ s.muted with log := log }, none) := ⟨_, warnOf_eq s.setup.quiet_muted m _ d⟩
  have finishes := muted_finishTeardown_logged failing m silence
  unfold onUnsubscribed
  rw [waits, same, silent]
  simp only [owner]
  cases owns : s.setup.ownsClient with
  | true =>
    obtain ⟨log, told⟩ : ∃ log, s.warnOf m "Failed to stop the Workload API watch" d
        = ({ s with log := log }, none) := by
      rcases warnOf_cases s m "Failed to stop the Workload API watch" d with
        told | ⟨log, x, told, -⟩
      · exact told
      · have threw := (Prod.mk.inj told).2
        cases d with
        | ok u => cases threw
        | error v => exact absurd threw (uncut owns v x rfl)
    rw [told]
    simp [Reaction.muted, muted, owns, Teardown.muted]
  | false =>
    rcases warnOf_cases s m "Failed to stop the Workload API watch" d with
      ⟨log, told⟩ | ⟨log, x, told, -⟩
    · rw [told]
      simp [Reaction.muted, owns, finishes]
    · rw [told]
      simp [Reaction.muted, finishes]

theorem muted_onClientClosed (waits : s.teardown = .closingClient)
    (failing : ∀ o, s.opening = .tearingDown o → o.lifecycle = .failed) (m : Moment)
    (d : Ending) : (s.onClientClosed m d).muted = (s.muted.onClientClosed m d).muted := by
  have same : s.muted.teardown = .closingClient := by simp [muted, waits, Teardown.muted]
  obtain ⟨silence, silent⟩ : ∃ log, s.muted.warnOf m "Failed to close the Workload API client" d
      = ({ s.muted with log := log }, none) := ⟨_, warnOf_eq s.setup.quiet_muted m _ d⟩
  have finishes := muted_finishTeardown_logged failing m silence
  unfold onClientClosed
  rw [waits, same, silent]
  rcases warnOf_cases s m "Failed to close the Workload API client" d with
    ⟨log, told⟩ | ⟨log, x, told, -⟩
  · rw [told]
    simp [Reaction.muted, finishes]
  · rw [told]
    simp [Reaction.muted, finishes]

theorem muted_step (h : Consistent s) {e : Event} (uncut : ¬Cut s m e) :
    (s.step m e).muted = (s.muted.step m e).muted := by
  by_cases expected : s.expects e = true
  case neg =>
    have unexpected : s.expects e = false := by simpa using expected
    rw [step_of_not_expects unexpected, step_of_not_expects ((expects_muted s e).trans unexpected)]
    simp [Reaction.muted]
  have failing (o : Outcome) (tears : s.opening = .tearingDown o) : o.lifecycle = .failed :=
    (opened_of_tearing h tears).2
  cases e with
  | update context =>
    refine muted_onUpdate m context fun f policy serves refused => ?_
    rw [Option.eq_none_iff_forall_ne_some]
    exact fun x threw => uncut (.source _ _ x _ policy serves (.selection context f refused) threw)
  | error v =>
    refine muted_onError m v fun policy serves => ?_
    rw [Option.eq_none_iff_forall_ne_some]
    exact fun x threw => uncut (.source _ v x _ policy serves (.error v) threw)
  | subscribed n => exact muted_onSubscribed (expects_subscribed_iff.mp expected) n
  | watchThrew v => exact muted_onWatchThrew (expects_watchThrew_iff.mp expected) m v
  | proceed => exact muted_onProceed s
  | timerEnded => exact muted_onTimerEnded s
  | unsubscribed d =>
    have waits := expects_unsubscribed_iff.mp expected
    refine muted_onUnsubscribed waits failing m d ?_
    rintro owns v x rfl threw
    exact uncut (.client v x owns waits threw)
  | clientClosed d =>
    exact muted_onClientClosed (expects_clientClosed_iff.mp expected) failing m d
  | close =>
    have held : s.isHandedOut = true := expected
    have still : s.muted.isHandedOut = true := (expects_muted s .close).trans expected
    simp only [step, held, still]
    exact muted_close s

end

/-- What is seen of a source from outside after a history, and what it has given back. -/
def outside (s : Source) (h : History) : Lifecycle × Option Snapshot × List Command :=
  ((s.run h).lifecycle, (s.run h).snapshot, s.releases h)

section
variable {s q : Source} {m : Moment} {e : Event}

theorem muted_after (h : Consistent s) (k : Consistent q) (quiet : q.setup.Quiet)
    (same : s.muted = q.muted) {o : Moment × Event} (uncut : ¬Cut s o.1 o.2) :
    (s.after o).muted = (q.after o).muted ∧
      (s.step o.1 o.2).commands = (q.step o.1 o.2).commands := by
  have both : (s.step o.1 o.2).muted = (q.step o.1 o.2).muted := by
    rw [muted_step h uncut, muted_step k (not_cut_of_quiet quiet), same]
  exact Prod.mk.inj both

theorem failure_muted {v : Value} {asked : List (List Candidate)} :
    Failure s.muted m e v asked ↔ Failure s m e v asked := by
  constructor <;> intro failure <;> cases failure with
  | error => exact .error v
  | selection context f refused => exact .selection context f refused

theorem step_of_failure_of_live {v : Value} {asked : List (List Candidate)}
    (lives : s.lifecycle = .init ∨ s.lifecycle = .ready) (failure : Failure s m e v asked) :
    s.step m e = ({ s with asked := asked } : Source).onError m v := by
  cases failure with
  | error => rfl
  | selection context f refused => simp only [step, onUpdate_of_live lives, take, select, refused]

theorem step_of_failure {v : Value} {asked : List (List Candidate)} (serves : s.lifecycle = .ready)
    (failure : Failure s m e v asked) :
    s.step m e = ({ s with asked := asked } : Source).bear m v :=
  (step_of_failure_of_live (.inr serves) failure).trans
    (onError_of_ready (s := { s with asked := asked }) serves m v)

theorem lifecycle_of_cut {v x : Value} {asked : List (List Candidate)}
    (policy : s.setup.policy = .close) (serves : s.lifecycle = .ready)
    (failure : Failure s m e v asked)
    (threw : s.setup.sink s.log (s.closingEntry m v) = some x) :
    (s.step m e).source.lifecycle = .ready := by
  have told : s.setup.sink s.log
      (({ s with asked := asked } : Source).closingEntry m v) = some x := threw
  unfold closingEntry at told
  rw [step_of_failure serves failure, bear]
  simp only [policy, record, note, told]
  exact serves

theorem lifecycle_of_uncut {v : Value} {asked : List (List Candidate)} (h : Consistent s)
    (policy : s.setup.policy = .close) (serves : s.lifecycle = .ready)
    (failure : Failure s m e v asked) (uncut : ¬Cut s m e) :
    (s.step m e).source.lifecycle = .closed := by
  have told : s.setup.sink s.log
      (({ s with asked := asked } : Source).closingEntry m v) = none := by
    rw [Option.eq_none_iff_forall_ne_some]
    exact fun x threw => uncut (.source e v x asked policy serves failure threw)
  unfold closingEntry at told
  rw [step_of_failure serves failure, bear]
  simp only [policy, record, note, told]
  simp only [close, closing_of_ready h.lifecycle serves, startTeardown]

theorem commands_of_cut {v x : Value} (waits : s.teardown = .unsubscribing)
    (threw : s.setup.sink s.log (stopWarning m v) = some x) :
    (s.step m (.unsubscribed (.error v))).commands = [] := by
  unfold stopWarning at threw
  simp only [step, onUnsubscribed, waits, warnOf, record, note, threw]

theorem commands_of_quiet {d : Ending} (quiet : s.setup.Quiet)
    (waits : s.teardown = .unsubscribing) (owns : s.setup.ownsClient = true) :
    (s.step m (.unsubscribed d)).commands = [.closeClient] := by
  simp only [step, onUnsubscribed, waits, warnOf_eq quiet, owns, if_true]

theorem unsubscribing_of_muted (waits : s.muted.teardown = .unsubscribing) :
    s.teardown = .unsubscribing := by
  cases ht : s.teardown <;> simp_all [muted, Teardown.muted]

theorem outside_ne_of_cut (k : Consistent q) (quiet : q.setup.Quiet) (same : s.muted = q.muted)
    {o : Moment × Event} (cut : Cut s o.1 o.2) : s.outside [o] ≠ q.outside [o] := by
  obtain ⟨m, e⟩ := o
  intro alike
  obtain ⟨lifecycle, rest⟩ := Prod.mk.inj alike
  have released := (Prod.mk.inj rest).2
  cases cut with
  | source _ v x asked policy serves failure threw =>
    have fails : Failure q m e v asked := failure_muted.mp (same ▸ failure_muted.mpr failure)
    have closed : (q.after (m, e)).lifecycle = .closed := by
      refine closed_of_failure quiet ?_ ?_ fails (change_step k m e)
      · exact (congrArg (fun t => t.setup.policy) same).symm.trans policy
      · exact (congrArg Source.lifecycle same).symm.trans serves
    have stays : (s.after (m, e)).lifecycle = .ready :=
      lifecycle_of_cut policy serves failure threw
    rw [run_cons, run_cons, run_nil, run_nil, closed, stays] at lifecycle
    cases lifecycle
  | client v x owns waits threw =>
    have begun : q.teardown = .unsubscribing := by
      apply unsubscribing_of_muted
      rw [← same]
      simp [muted, waits, Teardown.muted]
    have owner : q.setup.ownsClient = true :=
      (congrArg (fun t => t.setup.ownsClient) same).symm.trans owns
    rw [releases_cons, releases_cons, commands_of_cut waits threw,
      commands_of_quiet quiet begun owner] at released
    cases released

theorem outside_cons_iff {o : Moment × Event} {h : History}
    (commands : (s.step o.1 o.2).commands = (q.step o.1 o.2).commands) :
    s.outside (o :: h) = q.outside (o :: h) ↔ (s.after o).outside h = (q.after o).outside h := by
  simp [outside, releases_cons, commands]

theorem outside_nil_of_muted (same : s.muted = q.muted) : s.outside [] = q.outside [] := by
  have lifecycle : s.muted.lifecycle = q.muted.lifecycle := by rw [same]
  have snapshot : s.muted.snapshot = q.muted.snapshot := by rw [same]
  exact Prod.ext lifecycle (Prod.ext snapshot rfl)

/-- A source does the same as one with a quiet sink for as long as its own cuts nothing short, and
not any longer. -/
theorem outside_agrees_iff (h : Consistent s) (k : Consistent q) (quiet : q.setup.Quiet)
    (same : s.muted = q.muted) (history : History) :
    (∀ before later, history = before ++ later → s.outside before = q.outside before) ↔
      ∀ before o later, history = before ++ o :: later → ¬Cut (s.run before) o.1 o.2 := by
  induction history generalizing s q with
  | nil =>
    constructor
    · intro _ before o later split
      simp at split
    · intro _ before later split
      obtain ⟨rfl, rfl⟩ := List.append_eq_nil_iff.mp split.symm
      exact outside_nil_of_muted same
  | cons first rest ih =>
    -- a first step that is not cut short leaves two sources that are alike when muted
    have later_iff (uncut : ¬Cut s first.1 first.2) :=
      ih (consistent_after h first) (consistent_after k first)
        ((setup_change (change_step k first.1 first.2)).symm ▸ quiet)
        (muted_after h k quiet same uncut).1
    constructor
    · intro agrees
      -- one that is cut short shows at once
      have uncut : ¬Cut s first.1 first.2 := fun cut =>
        outside_ne_of_cut k quiet same cut (agrees [first] rest rfl)
      have commands := (muted_after h k quiet same uncut).2
      rintro (_ | ⟨_, before⟩) o later split
      · obtain ⟨rfl, rfl⟩ := List.cons.inj split
        exact uncut
      · obtain ⟨rfl, rfl⟩ := List.cons.inj split
        refine (later_iff uncut).mp (fun a b parts => ?_) before o later rfl
        exact (outside_cons_iff commands).mp (agrees (first :: a) b (by rw [parts]; rfl))
    · intro uncuts
      have uncut : ¬Cut s first.1 first.2 := uncuts [] first rest rfl
      have commands := (muted_after h k quiet same uncut).2
      rintro (_ | ⟨_, before⟩) later split
      · exact outside_nil_of_muted same
      · obtain ⟨rfl, rfl⟩ := List.cons.inj split
        refine (outside_cons_iff commands).mpr
          ((later_iff uncut).mpr (fun a o b parts => ?_) before later rfl)
        exact uncuts (first :: a) o b (by rw [parts]; rfl)

end

/-- A source with any sink is seen to do the same as one with a quiet sink exactly until its own
throws at one of two points: when the watch has failed and the source is to be closed, or when the
unsubscription has failed and its client is to be closed. A subscription it always keeps. -/
theorem sink_matters_iff_cut (setup : Setup) (h : History) :
    ((∀ before later, h = before ++ later →
        setup.source.outside before = setup.muted.source.outside before) ↔
      ∀ before o later, h = before ++ o :: later → ¬Cut (setup.source.run before) o.1 o.2) ∧
    ∀ m n, (setup.source.run h).opening = .subscribing →
      (setup.source.run (h ++ [(m, .subscribed n)])).subscription = some n := by
  refine ⟨outside_agrees_iff (consistent_source setup) (consistent_source setup.muted)
    setup.quiet_muted rfl h, fun m n calls => ?_⟩
  rw [run_snoc, (after_subscribed (consistent_run setup h) calls m n).1]

/-- A sink that throws when it is told that the watch has failed keeps the source from closing. -/
theorem sink_keeps_source_open :
    ¬∀ (setup : Setup) (h : History), setup.source.outside h = setup.muted.source.outside h := by
  intro harmless
  have alike := harmless
    { policy := .close
      sink := fun _ e =>
        if e.message = "Workload API watch failed; closing source" then some .absent else none }
    [(⟨0, 0⟩, .subscribed 4), (⟨1, 1⟩, .update .single), (⟨2, 2⟩, .proceed),
      (⟨3, 3⟩, .error .absent)]
  cases (Prod.mk.inj alike).1

end Source

end WorkloadIdentity.Watch
