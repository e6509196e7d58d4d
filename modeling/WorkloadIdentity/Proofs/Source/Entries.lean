import WorkloadIdentity.Proofs.Source.Aftermath
import WorkloadIdentity.Proofs.Source.Sink

/-! What one event makes a source log: an update with the version and the ID that are served
from then on, a failure of the watch with the version that is served meanwhile, and what
the teardown has come to. The sink is taken to be one that never throws, so that a step tells
all that it has to tell. -/

namespace WorkloadIdentity.Watch

namespace Source

def keptMessage : String := "Workload API watch failed; serving last X.509 context"

/-- Logged for the candidate that is put in place as this version, by the first update or by a
later one. -/
def updateEntry (first : Bool) (m : Moment) (n : Nat) (picked : Candidate) : Log.Entry :=
  let data := some [("version", .number n.toFloat), ("spiffeId", .text picked.svid.id.text)]
  if first then ⟨.info, "Received first X.509 context", data, m.wall⟩
  else ⟨.debug, "Applied X.509 context update", data, m.wall⟩

def failureEntry (policy : FailurePolicy) (m : Moment) (v : Value) (n : Nat) : Log.Entry :=
  let data := some [("err", v), ("version", .number n.toFloat)]
  match policy with
  | .keepLast => ⟨.warn, keptMessage, data, m.wall⟩
  | .close => ⟨.error, "Workload API watch failed; closing source", data, m.wall⟩

/-- What the client brings: a candidate to be served, or a failure of the watch. -/
def brought (s : Source) : Moment × Event → Option (Except Value Candidate)
  | (m, .update context) =>
    match (s.select m context).2 with
    | .ok picked => some (.ok picked)
    | .error f => some (.error (.fault f))
  | (_, .error v) => some (.error v)
  | _ => none

def applied? (s : Source) (o : Moment × Event) : Option Candidate :=
  match s.lifecycle, s.brought o with
  | .init, some (.ok picked) | .ready, some (.ok picked) => some picked
  | _, _ => none

def borne? (s : Source) (o : Moment × Event) : Option Value :=
  match s.lifecycle, s.brought o with
  | .ready, some (.error v) => some v
  | _, _ => none

/-- Logged when a teardown has ended: why the creation failed, or that the source is closed. -/
def farewell (s : Source) (m : Moment) : List Log.Entry :=
  match s.opening with
  | .tearingDown (.error f) =>
    [⟨.error, "Workload API watch failed before the first X.509 context",
      some [("err", .fault f)], m.wall⟩]
  | .tearingDown (.timeout ms) =>
    [⟨.error, "Timed out waiting for the first X.509 context", some [("timeoutMs", .number ms)],
      m.wall⟩]
  | .tearingDown .ready => []
  | _ => [closedEntry m]

def unwound (s : Source) (m : Moment) : Event → List Log.Entry
  | .unsubscribed d =>
    warned m "Failed to stop the Workload API watch" d ++
      if s.setup.ownsClient then [] else s.farewell m
  | .clientClosed d => warned m "Failed to close the Workload API client" d ++ s.farewell m
  | _ => []

def updates (s : Source) (o : Moment × Event) : List Log.Entry :=
  (s.applied? o).toList.map (updateEntry (s.lifecycle = .init) o.1 (s.version + 1))

def setbacks (s : Source) (o : Moment × Event) : List Log.Entry :=
  (s.borne? o).toList.map (failureEntry s.setup.policy o.1 · s.version)

/-- All that an event makes a source log. -/
def entries (s : Source) (o : Moment × Event) : List Log.Entry :=
  s.updates o ++ s.setbacks o ++ if s.expects o.2 then s.unwound o.1 o.2 else []

structure Logs (log : List Log.Entry) (r : Reaction) (more : List Log.Entry) : Prop where
  silent : r.thrown = none
  entries : r.source.log = log ++ more

theorem Logs.nothing {log : List Log.Entry} {r : Reaction} (silent : r.thrown = none)
    (same : r.source.log = log) : Logs log r [] :=
  ⟨silent, by simp [same]⟩

section
variable {s : Source} {m : Moment} {o : Moment × Event}

theorem applied?_eq_some_iff {picked : Candidate} :
    s.applied? o = some picked ↔
      (s.lifecycle = .init ∨ s.lifecycle = .ready) ∧ s.brought o = some (.ok picked) := by
  unfold applied?
  rcases s.brought o with _ | _ | _ <;> cases s.lifecycle <;> simp

theorem borne?_eq_some_iff {v : Value} :
    s.borne? o = some v ↔ s.lifecycle = .ready ∧ s.brought o = some (.error v) := by
  unfold borne?
  rcases s.brought o with _ | _ | _ <;> cases s.lifecycle <;> simp

theorem isSome_brought (s : Source) (m : Moment) (e : Event) :
    (s.brought (m, e)).isSome = e.isDelivery := by
  cases e with
  | update context =>
    rw [brought]
    split <;> rfl
  | _ => rfl

theorem filter_updates {p : Log.Entry → Bool} {b : Bool}
    (alike : ∀ first m n picked, p (updateEntry first m n picked) = b) :
    (s.updates o).filter p = if b then s.updates o else [] := by
  unfold updates
  cases s.applied? o <;> cases b <;> simp [alike]

theorem filter_setbacks {p : Log.Entry → Bool} {b : Bool}
    (alike : ∀ policy m v n, p (failureEntry policy m v n) = b) :
    (s.setbacks o).filter p = if b then s.setbacks o else [] := by
  unfold setbacks
  cases s.borne? o <;> cases b <;> simp [alike]

theorem nothing_of_over (finished : s.Over) : s.updates o ++ s.setbacks o = [] := by
  have unapplied : s.applied? o = none := by
    rw [Option.eq_none_iff_forall_ne_some]
    intro picked applied
    rcases finished with ended | ended <;> simp [applied?_eq_some_iff, ended] at applied
  have unborne : s.borne? o = none := by
    rw [Option.eq_none_iff_forall_ne_some]
    intro v borne
    rcases finished with ended | ended <;> simp [borne?_eq_some_iff, ended] at borne
  simp [updates, setbacks, unapplied, unborne]

theorem nothing_of_unbrought (unbrought : s.brought o = none) :
    s.updates o ++ s.setbacks o = [] := by
  simp [updates, setbacks, applied?, borne?, unbrought]

theorem step_of_brought {e : Event} {picked : Candidate}
    (lives : s.lifecycle = .init ∨ s.lifecycle = .ready)
    (brings : s.brought (m, e) = some (.ok picked)) :
    ∃ context, e = .update context ∧ s.step m e =
      ({ s with asked := context.candidates :: s.asked } : Source).apply m context picked := by
  cases e with
  | update context =>
    refine ⟨context, rfl, ?_⟩
    simp only [brought, select] at brings
    simp only [step, onUpdate_of_live lives, take, select]
    cases accepted : accept m.wall context.candidates
      (s.setup.selector s.asked context.candidates) with
    | error f => simp [accepted] at brings
    | ok other =>
      simp only [accepted, Option.some.injEq, Except.ok.injEq] at brings
      rw [brings]
  | error v => simp [brought] at brings
  | _ => cases brings

theorem failure_iff_brought {e : Event} {v : Value} :
    (∃ asked, Failure s m e v asked) ↔ s.brought (m, e) = some (.error v) := by
  constructor
  · rintro ⟨asked, failure⟩
    cases failure with
    | error => rfl
    | selection context f refused => simp [brought, select, refused]
  · intro brings
    cases e with
    | update context =>
      simp only [brought, select] at brings
      cases refused : accept m.wall context.candidates
        (s.setup.selector s.asked context.candidates) with
      | error f =>
        simp only [refused, Option.some.injEq, Except.error.injEq] at brings
        subst brings
        exact ⟨_, .selection context f refused⟩
      | ok picked => simp [refused] at brings
    | error x =>
      cases brings
      exact ⟨_, .error v⟩
    | _ => cases brings

theorem thrown_close (s : Source) : s.close.thrown = none := by
  unfold close
  cases s.closing <;> rfl

theorem log_close (s : Source) : s.close.source.log = s.log := by
  unfold close
  cases s.closing <;> rfl

theorem logs_bear {c : Snapshot} (quiet : s.setup.Quiet) (served : s.current = some c)
    (m : Moment) (v : Value) :
    Logs s.log (s.bear m v) [failureEntry s.setup.policy m v s.version] := by
  have shown : s.versionValue = .number s.version.toFloat := by
    simp [versionValue, version, served]
  unfold bear
  rw [shown]
  cases policy : s.setup.policy with
  | keepLast => exact ⟨quiet _ _, rfl⟩
  | close =>
    simp only [record, note, quiet _ _]
    exact ⟨thrown_close _, log_close _⟩

theorem logs_apply (quiet : s.setup.Quiet) (m : Moment) (context : Context)
    (picked : Candidate) :
    Logs s.log (s.apply m context picked)
      [updateEntry (s.lifecycle = .init) m (s.version + 1) picked] := by
  unfold apply record note
  cases s.lifecycle with
  | init => exact ⟨by simpa using quiet _ _, by simp [updateEntry]⟩
  | _ => exact ⟨quiet _ _, rfl⟩

theorem logs_delivery {e : Event} (quiet : s.setup.Quiet) (h : Consistent s)
    (client : e.isDelivery = true) :
    Logs s.log (s.step m e) (s.updates (m, e) ++ s.setbacks (m, e)) := by
  by_cases finished : s.Over
  · rw [nothing_of_over finished, step_of_delivery finished m client]
    exact .nothing rfl rfl
  obtain ⟨r, brings⟩ := Option.isSome_iff_exists.mp ((isSome_brought s m e).trans client)
  have lives : s.lifecycle = .init ∨ s.lifecycle = .ready := by
    unfold Over at finished
    cases hl : s.lifecycle <;> simp_all
  cases r with
  | ok picked =>
    obtain ⟨context, rfl, applies⟩ := step_of_brought lives brings
    have applied : s.applied? (m, .update context) = some picked :=
      applied?_eq_some_iff.mpr ⟨lives, brings⟩
    have told : s.updates (m, .update context) ++ s.setbacks (m, .update context) =
        [updateEntry (s.lifecycle = .init) m (s.version + 1) picked] := by
      simp [updates, setbacks, applied, borne?, brings]
    rw [applies, told]
    exact logs_apply (s := { s with asked := context.candidates :: s.asked }) quiet m context picked
  | error v =>
    obtain ⟨asked, failure⟩ := failure_iff_brought.mpr brings
    have unapplied : s.applied? (m, e) = none := by simp [applied?, brings]
    rcases lives with starts | serves
    · have told : s.updates (m, e) ++ s.setbacks (m, e) = [] := by
        simp [updates, setbacks, unapplied, borne?, starts]
      rw [step_of_failure_of_live (.inl starts) failure, told,
        onError_of_init (s := { s with asked := asked }) starts]
      exact .nothing rfl (by simp)
    · have borne : s.borne? (m, e) = some v := borne?_eq_some_iff.mpr ⟨serves, brings⟩
      have told : s.updates (m, e) ++ s.setbacks (m, e) =
          [failureEntry s.setup.policy m v s.version] := by
        simp [updates, setbacks, unapplied, borne]
      obtain ⟨c, served⟩ := Option.isSome_iff_exists.mp (h.current.mpr serves)
      rw [step_of_failure serves failure, told]
      exact logs_bear (s := { s with asked := asked }) quiet served m v

theorem logs_await (s : Source) : Logs s.log s.await [] := by
  unfold await
  cases s.setup.initTimeout <;> exact .nothing rfl rfl

theorem logs_onSubscribed (s : Source) (n : Nat) : Logs s.log (s.onSubscribed n) [] := by
  unfold onSubscribed
  split
  · exact logs_await { s with subscription := some n }
  · exact .nothing rfl rfl

theorem logs_onWatchThrew (s : Source) (m : Moment) (v : Value) :
    Logs s.log (s.onWatchThrew m v) [] := by
  unfold onWatchThrew
  split
  · simpa using logs_await (s.settle (.error (s.setup.startFault m.wall v)))
  · exact .nothing rfl rfl

theorem logs_onTimerEnded (s : Source) : Logs s.log s.onTimerEnded [] := by
  unfold onTimerEnded
  split
  · exact .nothing rfl (by simp)
  · exact .nothing rfl rfl

theorem logs_onProceed (s : Source) : Logs s.log s.onProceed [] := by
  have concludes (o : Outcome) : Logs s.log (s.conclude o) [] := by
    cases o <;> exact .nothing rfl rfl
  unfold onProceed
  split
  · exact concludes _
  · exact .nothing rfl rfl
  · -- the timer is stopped first, which nobody is told
    exact ⟨(concludes _).silent, (concludes _).entries⟩
  · exact concludes _
  · exact .nothing rfl rfl

theorem log_finishTeardown (quiet : s.setup.Quiet) (m : Moment) :
    (s.finishTeardown m (.ok ())).log = s.log ++ s.farewell m := by
  unfold finishTeardown farewell
  cases s.opening with
  | tearingDown o => cases o <;> simp [reportFailure, record, note]
  | _ =>
    simp only [note, quiet _ _]
    rfl

theorem logs_finishTeardown (quiet : s.setup.Quiet) (m : Moment) (warnings : List Log.Entry) :
    Logs s.log
      { source := ({ s with log := s.log ++ warnings } : Source).finishTeardown m (.ok ()) }
      (warnings ++ s.farewell m) := by
  have log := log_finishTeardown (s := { s with log := s.log ++ warnings }) quiet m
  exact ⟨rfl, log.trans (List.append_assoc ..)⟩

theorem logs_onUnsubscribed (quiet : s.setup.Quiet) (waits : s.teardown = .unsubscribing)
    (m : Moment) (d : Ending) :
    Logs s.log (s.onUnsubscribed m d) (s.unwound m (.unsubscribed d)) := by
  unfold onUnsubscribed unwound
  rw [waits, warnOf_eq quiet]
  cases owns : s.setup.ownsClient with
  | true =>
    simp only [owns, if_true, List.append_nil]
    exact ⟨rfl, rfl⟩
  | false =>
    simp only [owns]
    exact logs_finishTeardown quiet m _

theorem logs_onClientClosed (quiet : s.setup.Quiet) (waits : s.teardown = .closingClient)
    (m : Moment) (d : Ending) :
    Logs s.log (s.onClientClosed m d) (s.unwound m (.clientClosed d)) := by
  unfold onClientClosed unwound
  rw [waits, warnOf_eq quiet]
  exact logs_finishTeardown quiet m _

/-- A step throws nothing, and what it logs can be read off the source that it finds. -/
theorem logs_step (quiet : s.setup.Quiet) (h : Consistent s) (m : Moment) (e : Event) :
    Logs s.log (s.step m e) (s.entries (m, e)) := by
  unfold entries
  by_cases client : e.isDelivery = true
  · have apart : s.unwound m e = [] := by
      cases e with
      | update | error => rfl
      | _ => cases client
    simpa [apart] using logs_delivery quiet h client
  · have unbrought : s.brought (m, e) = none := by
      rw [← Option.not_isSome_iff_eq_none, isSome_brought]
      exact client
    rw [nothing_of_unbrought unbrought, List.nil_append]
    by_cases expected : s.expects e = true
    case neg =>
      rw [step_of_not_expects (by simpa using expected)]
      simpa [expected] using Logs.nothing (r := { source := s }) rfl rfl
    rw [if_pos expected]
    cases e with
    | update | error => exact absurd rfl client
    | subscribed n => exact logs_onSubscribed s n
    | watchThrew v => exact logs_onWatchThrew s m v
    | proceed => exact logs_onProceed s
    | timerEnded => exact logs_onTimerEnded s
    | unsubscribed d => exact logs_onUnsubscribed quiet (expects_unsubscribed_iff.mp expected) m d
    | clientClosed d => exact logs_onClientClosed quiet (expects_clientClosed_iff.mp expected) m d
    | close =>
      have held : s.isHandedOut = true := expected
      simp only [step, held, if_true]
      exact .nothing (thrown_close s) (log_close s)

end

end Source

end WorkloadIdentity.Watch
