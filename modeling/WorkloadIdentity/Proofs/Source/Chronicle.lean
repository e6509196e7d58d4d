import Mathlib.Data.List.Induction
import WorkloadIdentity.Proofs.Source.Containment
import WorkloadIdentity.Proofs.Source.Serving

/-! The log of a source as the trace of its run. The entries of the updates carry the versions 1,
2, 3 and so on, each with the ID that is served from then on; a failure of the watch is logged
with the version that is served meanwhile; and a source that is closed says so last, when its
teardown is over. The sink is taken to be one that never throws. -/

namespace WorkloadIdentity.Watch

namespace Source

/-- What the events of a run amount to, one after another. -/
def collect {α : Type} (f : Source → Moment × Event → List α) (s : Source) : History → List α
  | [] => []
  | o :: rest => f s o ++ (s.after o).collect f rest

/-- When an update is applied, and what it puts in place. -/
def arrivals (s : Source) (o : Moment × Event) : List (Moment × Candidate) :=
  (s.applied? o).toList.map (o.1, ·)

/-- When the watch fails while an update is served, with what, and the version that is served. -/
def failures (s : Source) (o : Moment × Event) : List (Moment × Value × Nat) :=
  (s.borne? o).toList.map (o.1, ·, s.version)

def updateMessages : List String :=
  ["Received first X.509 context", "Applied X.509 context update"]

def failureMessages : List String :=
  [keptMessage, "Workload API watch failed; closing source"]

def teardownMessages : List String :=
  ["Failed to stop the Workload API watch", "Failed to close the Workload API client",
    "Workload API watch failed before the first X.509 context",
    "Timed out waiting for the first X.509 context", "X.509 source closed"]

def saysOneOf (messages : List String) (entry : Log.Entry) : Bool := entry.message ∈ messages

def isClosedEntry : Log.Entry → Bool := saysOneOf ["X.509 source closed"]

structure Counts (s : Source) (n : Nat) : Prop where
  init : s.lifecycle = .init → n = 0
  ready : s.lifecycle = .ready → s.version = n ∧ n ≠ 0

/-- A source says once that it is closed, as the last it says and with its teardown done, or it has
not said so yet. -/
inductive Announced (s : Source) : Prop
  | notYet (silent : s.log.filter isClosedEntry = [])
  | said (m : Moment) (earlier : List Log.Entry) (d : Ending)
      (last : s.log = earlier ++ [closedEntry m]) (once : earlier.filter isClosedEntry = [])
      (called : s.closing.isSome = true) (done : s.teardown = .done d)

section
variable {α : Type} {f : Source → Moment × Event → List α} {s : Source} {h : History}
  {o : Moment × Event}

theorem collect_snoc : s.collect f (h ++ [o]) = s.collect f h ++ f (s.run h) o := by
  induction h generalizing s with
  | nil => simp [collect]
  | cons first rest ih => simp [collect, ih]

theorem exists_of_mem_collect {a : α} {h : History} (member : a ∈ s.collect f h) :
    ∃ before, ∃ o ∈ h, a ∈ f (s.run before) o := by
  induction h generalizing s with
  | nil => cases member
  | cons o rest ih =>
    rcases List.mem_append.mp member with now | later
    · exact ⟨[], o, List.mem_cons_self, now⟩
    · obtain ⟨before, p, there, comes⟩ := ih later
      exact ⟨o :: before, p, List.mem_cons_of_mem o there, comes⟩

theorem says_of_farewell {m : Moment} {entry : Log.Entry} (there : entry ∈ s.farewell m) :
    entry.message ∈ teardownMessages := by
  unfold farewell at there
  unfold teardownMessages
  split at there
  all_goals simp_all [closedEntry]

theorem message_of_warned {m : Moment} {message : String} {d : Ending} {entry : Log.Entry}
    (there : entry ∈ warned m message d) : entry.message = message := by
  cases d <;> simp_all [warned]

theorem says_of_unwound {m : Moment} {e : Event} {entry : Log.Entry}
    (there : entry ∈ s.unwound m e) : entry.message ∈ teardownMessages := by
  cases e with
  | unsubscribed d =>
    rcases List.mem_append.mp there with warns | ends
    · simp [message_of_warned warns, teardownMessages]
    · cases owns : s.setup.ownsClient with
      | true => simp [owns] at ends
      | false => exact says_of_farewell (by simpa [owns] using ends)
  | clientClosed d =>
    rcases List.mem_append.mp there with warns | ends
    · simp [message_of_warned warns, teardownMessages]
    · exact says_of_farewell ends
  | _ => cases there

theorem filter_unwound_of_apart {messages : List String} {m : Moment} {e : Event}
    (apart : ∀ x ∈ teardownMessages, x ∉ messages) :
    (s.unwound m e).filter (saysOneOf messages) = [] := by
  refine List.filter_eq_nil_iff.mpr fun entry there => ?_
  simpa [saysOneOf] using apart _ (says_of_unwound there)

theorem says_of_updateEntry (first : Bool) (m : Moment) (n : Nat) (picked : Candidate) :
    (updateEntry first m n picked).message ∈ updateMessages := by
  cases first <;> simp [updateMessages, updateEntry]

theorem says_of_failureEntry (policy : FailurePolicy) (m : Moment) (v : Value) (n : Nat) :
    (failureEntry policy m v n).message ∈ failureMessages := by
  cases policy <;> simp [failureMessages, failureEntry]

theorem filter_delivered {messages : List String} {a b : Bool}
    (updates : ∀ x ∈ updateMessages, decide (x ∈ messages) = a)
    (failures : ∀ x ∈ failureMessages, decide (x ∈ messages) = b) :
    (s.updates o ++ s.setbacks o).filter (saysOneOf messages) =
      (if a then s.updates o else []) ++ if b then s.setbacks o else [] := by
  rw [List.filter_append,
    filter_updates fun first m n picked => updates _ (says_of_updateEntry first m n picked),
    filter_setbacks fun policy m v n => failures _ (says_of_failureEntry policy m v n)]

theorem filter_entries_of_apart {messages : List String}
    (apart : ∀ x ∈ teardownMessages, x ∉ messages) :
    (s.entries o).filter (saysOneOf messages) =
      (s.updates o ++ s.setbacks o).filter (saysOneOf messages) := by
  rw [entries, List.filter_append]
  cases s.expects o.2 <;> simp [filter_unwound_of_apart apart]

theorem after_of_applied (h : Consistent s) {m : Moment} {e : Event} {picked : Candidate}
    (applied : s.applied? (m, e) = some picked) :
    (s.after (m, e)).lifecycle = .ready ∧ ∃ context, e = .update context ∧
      (s.after (m, e)).current =
        some ⟨picked, context.bundles, s.version + 1, m.reading⟩ := by
  obtain ⟨lives, brings⟩ := applied?_eq_some_iff.mp applied
  obtain ⟨context, rfl, step⟩ := step_of_brought lives brings
  obtain ⟨log, thrown, applies⟩ := apply_eq (m := m)
    (s := { s with asked := context.candidates :: s.asked }) h.lifecycle lives context picked
  rw [after, step, applies]
  exact ⟨rfl, context, rfl, rfl⟩

theorem lifecycle_settle_ne (s : Source) {o : Outcome} (failed : o.lifecycle = .failed)
    {l : Lifecycle} (other : l ≠ .failed) (reached : (s.settle o).lifecycle = l) :
    s.lifecycle = l := by
  rw [settle_eq] at reached
  cases passed : s.gate.isOpen with
  | true => simpa [passed] using reached
  | false =>
    simp only [passed, failed] at reached
    exact absurd reached.symm other

theorem kept_of_unapplied {m : Moment} {e : Event} {commands : List Command} {t : Source}
    (unapplied : s.applied? (m, e) = none) (change : Change s m e commands t) :
    (t.lifecycle = .init → s.lifecycle = .init) ∧
      (t.lifecycle = .ready → s.lifecycle = .ready ∧ t.current = s.current) := by
  cases change with
  | applies context picked log lives accepted =>
    have applied : s.applied? (m, .update context) = some picked :=
      applied?_eq_some_iff.mpr ⟨lives, by simp [brought, select, accepted]⟩
    rw [applied] at unapplied
    cases unapplied
  | fails => simp
  | closes => simp
  | misses v calls =>
    have kept {l : Lifecycle} := lifecycle_settle_ne (l := l) s
      (o := .error (s.setup.startFault m.wall v)) rfl
    exact ⟨kept (by decide), fun serves => ⟨kept (by decide) serves, by simp [settle_eq]⟩⟩
  | expires ms runs limit =>
    have kept {l : Lifecycle} := lifecycle_settle_ne (l := l) s (o := .timeout ms) rfl
    exact ⟨kept (by decide), fun serves => ⟨kept (by decide) serves, by simp [settle_eq]⟩⟩
  | _ => exact ⟨id, fun serves => ⟨serves, rfl⟩⟩

theorem Counts.version {n : Nat} (counts : Counts s n) (h : Consistent s)
    (lives : s.lifecycle = .init ∨ s.lifecycle = .ready) : s.version = n := by
  rcases lives with starts | serves
  · have unserved : s.current = none := by
      rw [← Option.not_isSome_iff_eq_none, h.current, starts]
      nofun
    simp [Source.version, unserved, counts.init starts]
  · exact (counts.ready serves).1

theorem Counts.starts_iff {n : Nat} (counts : Counts s n)
    (lives : s.lifecycle = .init ∨ s.lifecycle = .ready) : s.lifecycle = .init ↔ n = 0 := by
  refine ⟨counts.init, fun none => lives.resolve_right fun serves => ?_⟩
  exact (counts.ready serves).2 none

theorem Counts.after {n : Nat} (counts : Counts s n) (h : Consistent s) (o : Moment × Event) :
    Counts (s.after o) (n + (s.arrivals o).length) := by
  obtain ⟨m, e⟩ := o
  cases applied : s.applied? (m, e) with
  | none =>
    obtain ⟨init, ready⟩ := kept_of_unapplied applied (change_step h m e)
    have none_arrives : s.arrivals (m, e) = [] := by simp [arrivals, applied]
    rw [none_arrives]
    constructor
    · exact fun starts => counts.init (init starts)
    · intro serves
      obtain ⟨served, same⟩ := ready serves
      obtain ⟨version, positive⟩ := counts.ready served
      have unmoved : (s.after (m, e)).version = s.version := by
        simp only [Source.version, Source.after, same]
      exact ⟨unmoved.trans version, positive⟩
  | some picked =>
    obtain ⟨ready, context, rfl, current⟩ := after_of_applied h applied
    have one_arrives : s.arrivals (m, .update context) = [(m, picked)] := by
      simp [arrivals, applied]
    have before : s.version = n := counts.version h (applied?_eq_some_iff.mp applied).1
    have next : (s.after (m, .update context)).version = s.version + 1 := by
      simp [Source.version, current]
    rw [one_arrives]
    constructor
    · intro starts
      rw [ready] at starts
      cases starts
    · exact fun _ => ⟨next.trans (congrArg (· + 1) before), Nat.succ_ne_zero n⟩

end

section
variable {setup : Setup} (quiet : setup.Quiet) (h : History)

theorem counts_run (setup : Setup) (h : History) :
    Counts (setup.source.run h) (setup.source.collect arrivals h).length := by
  induction h using List.reverseRecOn with
  | nil => exact ⟨fun _ => rfl, nofun⟩
  | append_singleton h o ih =>
    rw [run_snoc, collect_snoc, List.length_append]
    exact ih.after (consistent_run setup h) o

include quiet

theorem log_snoc (o : Moment × Event) :
    (setup.source.run (h ++ [o])).log =
      (setup.source.run h).log ++ (setup.source.run h).entries o := by
  have same : (setup.source.run h).setup.Quiet := by rwa [setup_run]
  rw [run_snoc]
  exact (logs_step same (consistent_run setup h) o.1 o.2).entries

theorem log_run : (setup.source.run h).log = setup.source.collect entries h := by
  induction h using List.reverseRecOn with
  | nil => rfl
  | append_singleton h o ih => rw [log_snoc quiet, ih, collect_snoc]

theorem updates_run :
    (setup.source.run h).log.filter (saysOneOf updateMessages) =
      (setup.source.collect arrivals h).mapIdx fun i a =>
        updateEntry (i = 0) a.1 (i + 1) a.2 := by
  induction h using List.reverseRecOn with
  | nil => rfl
  | append_singleton h o ih =>
    have told : ((setup.source.run h).entries o).filter (saysOneOf updateMessages) =
        (setup.source.run h).updates o := by
      rw [filter_entries_of_apart (by decide), filter_delivered (a := true) (b := false)
        (by decide) (by decide)]
      exact List.append_nil _
    rw [log_snoc quiet, List.filter_append, ih, told, collect_snoc]
    cases applied : (setup.source.run h).applied? o with
    | none => simp [updates, arrivals, applied]
    | some picked =>
      have counts := counts_run setup h
      have lives := (applied?_eq_some_iff.mp applied).1
      have version := counts.version (consistent_run setup h) lives
      have first : decide ((setup.source.run h).lifecycle = .init) =
          decide ((setup.source.collect arrivals h).length = 0) :=
        decide_eq_decide.mpr (counts.starts_iff lives)
      simp [updates, arrivals, applied, version, first]

theorem failures_run :
    (setup.source.run h).log.filter (saysOneOf failureMessages) =
      (setup.source.collect failures h).map fun b =>
        failureEntry setup.policy b.1 b.2.1 b.2.2 := by
  induction h using List.reverseRecOn with
  | nil => rfl
  | append_singleton h o ih =>
    have told : ((setup.source.run h).entries o).filter (saysOneOf failureMessages) =
        (setup.source.run h).setbacks o := by
      rw [filter_entries_of_apart (by decide), filter_delivered (a := false) (b := true)
        (by decide) (by decide)]
      exact List.nil_append _
    rw [log_snoc quiet, List.filter_append, ih, told, collect_snoc, List.map_append]
    cases borne : (setup.source.run h).borne? o <;>
      simp [setbacks, failures, borne, setup_run]

end

section
variable {s : Source} {m : Moment} {e : Event}

theorem after_of_borne (quiet : s.setup.Quiet) (h : Consistent s) {v : Value}
    (borne : s.borne? (m, e) = some v) :
    ∃ c, s.snapshot = some c ∧
      (s.after (m, e)).log = s.log ++ [failureEntry s.setup.policy m v c.version] ∧
      match s.setup.policy with
      | .keepLast => (s.after (m, e)).lifecycle = .ready ∧ (s.after (m, e)).snapshot = some c
      | .close => (s.after (m, e)).lifecycle = .closed ∧
        (s.step m e).commands = [.unsubscribe s.subscription] := by
  obtain ⟨serves, brings⟩ := borne?_eq_some_iff.mp borne
  obtain ⟨asked, failure⟩ := failure_iff_brought.mpr brings
  obtain ⟨c, served⟩ := Option.isSome_iff_exists.mp (h.current.mpr serves)
  have shown : s.snapshot = some c := (snapshot_eq_current h).trans served
  have version : s.version = c.version := by simp [version, served]
  have logs := logs_bear (s := { s with asked := asked }) quiet served m v
  rw [after, step_of_failure serves failure]
  refine ⟨c, shown, version ▸ logs.entries, ?_⟩
  unfold bear
  cases policy : s.setup.policy with
  | keepLast => exact ⟨serves, shown⟩
  | close =>
    have unclosed := closing_of_ready h.lifecycle serves
    simp [record, note, quiet _ _, close, unclosed, startTeardown]

theorem filter_closed_warned {message : String} (other : message ≠ "X.509 source closed")
    (m : Moment) (d : Ending) : (warned m message d).filter isClosedEntry = [] := by
  cases d <;> simp [warned, isClosedEntry, saysOneOf, other]

theorem expects_of_ends {d : Ending} (ends : Ends s e d) : s.expects e = true := by
  cases ends with
  | unsubscribed x d waits => exact expects_unsubscribed_iff.mpr waits
  | clientClosed x d waits => exact expects_clientClosed_iff.mpr waits

theorem filter_closed_farewell (s : Source) (m : Moment) :
    (s.farewell m).filter isClosedEntry = [] ∨
      s.farewell m = [closedEntry m] ∧ ∀ o, s.opening ≠ .tearingDown o := by
  cases opening : s.opening with
  | tearingDown o => cases o <;> simp [farewell, opening, isClosedEntry, saysOneOf]
  | _ => exact .inr ⟨by simp [farewell, opening], nofun⟩

theorem unwound_of_apart (apart : e.endsStep = false) : s.unwound m e = [] := by
  cases e with
  | unsubscribed | clientClosed => cases apart
  | _ => rfl

theorem entries_of_over (finished : s.Over) (apart : s.expects e = true → e.endsStep = false) :
    s.entries (m, e) = [] := by
  rw [entries, nothing_of_over finished, List.nil_append]
  split
  · rename_i expected
    exact unwound_of_apart (apart expected)
  · rfl

theorem entries_of_ends (quiet : s.setup.Quiet) (h : Consistent s) {d : Ending}
    (ends : Ends s e d) (m : Moment) : ∃ warnings,
      s.entries (m, e) = warnings ++ s.farewell m ∧ warnings.filter isClosedEntry = [] := by
  have told : s.entries (m, e) = s.unwound m e := by
    rw [entries, nothing_of_over (over_of_teardown h ends.runs), if_pos (expects_of_ends ends)]
    rfl
  rw [told]
  cases ends with
  | unsubscribed x d waits cause =>
    have unowned : s.setup.ownsClient = false := by
      rcases cause with ⟨-, unowned⟩ | ⟨v, throws, -⟩
      · exact unowned
      · exact absurd throws (quiet.not_throws v)
    rw [unwound, unowned]
    exact ⟨_, rfl, filter_closed_warned (by decide) m x⟩
  | clientClosed x d waits cause => exact ⟨_, rfl, filter_closed_warned (by decide) m x⟩

theorem apart_of_done {d : Ending} (done : s.teardown = .done d) (expected : s.expects e = true) :
    e.endsStep = false := by
  cases e with
  | unsubscribed x => simp [expects, done] at expected
  | clientClosed x => simp [expects, done] at expected
  | _ => rfl

theorem filter_closed_entries (m : Moment) (e : Event) :
    (s.entries (m, e)).filter isClosedEntry =
      if s.expects e then (s.unwound m e).filter isClosedEntry else [] := by
  have apart : (s.updates (m, e) ++ s.setbacks (m, e)).filter isClosedEntry = [] :=
    filter_delivered (a := false) (b := false) (by decide) (by decide)
  rw [entries, List.filter_append, apart]
  cases s.expects e <;> rfl

theorem Announced.after (announced : Announced s) (quiet : s.setup.Quiet) (h : Consistent s)
    (m : Moment) (e : Event) : Announced (s.after (m, e)) := by
  have change := change_step h m e
  have advances := advances_change h change
  have log : (s.after (m, e)).log = s.log ++ s.entries (m, e) := (logs_step quiet h m e).entries
  cases announced with
  | said n earlier d last once called done =>
    have finished : s.Over := .inl ((closing_isSome_iff h).mp called)
    have kept := (done_of_advances done advances).1
    have nothing : s.entries (m, e) = [] := entries_of_over finished (apart_of_done done)
    exact .said n earlier d (by rw [log, nothing, List.append_nil, last]) once
      (closing_keeps called change) kept
  | notYet silent =>
    have nothing (apart : (s.entries (m, e)).filter isClosedEntry = []) :
        Announced (s.after (m, e)) :=
      .notYet (by rw [log, List.filter_append, silent, apart]; rfl)
    have told := filter_closed_entries (s := s) m e
    generalize (s.step m e).commands.filter Command.isRelease = more at advances
    cases advances with
    | keeps same apart =>
      refine nothing (told.trans ?_)
      split
      · rename_i expected
        rw [unwound_of_apart (apart expected), List.filter_nil]
      · rfl
    | starts idle begun apart =>
      refine nothing (told.trans ?_)
      rw [unwound_of_apart apart, List.filter_nil, ite_self]
    | closesClient x settled waits owns begun =>
      subst settled
      refine nothing (told.trans ?_)
      simp [unwound, owns, filter_closed_warned]
    | ends d ends done =>
      obtain ⟨warnings, told, unsaid⟩ := entries_of_ends quiet h ends m
      rcases filter_closed_farewell s m with untold | ⟨farewell, other⟩
      · refine nothing ?_
        rw [told, List.filter_append, unsaid, untold, List.nil_append]
      · have called : s.closing.isSome = true := by
          rcases pending_or_tearing h ends.runs with pending | ⟨o, tears⟩
          · simp [pending]
          · exact absurd tears (other o)
        refine .said m (s.log ++ warnings) d ?_ ?_ (closing_keeps called change) done
        · rw [log, told, farewell, List.append_assoc]
        · rw [List.filter_append, silent, unsaid, List.nil_append]

end

theorem announced_run {setup : Setup} (quiet : setup.Quiet) (h : History) :
    Announced (setup.source.run h) := by
  induction h using List.reverseRecOn with
  | nil => exact .notYet rfl
  | append_singleton h o ih =>
    rw [run_snoc]
    exact ih.after (by rwa [setup_run]) (consistent_run setup h) o.1 o.2

/-- What a run says of the close of its source: nothing until the call of `close` has ended, and
then that it is closed, once and last, with everything given back. -/
inductive Concludes (setup : Setup) (h : History) : Prop
  | notYet (unsaid : (setup.source.run h).log.filter isClosedEntry = [])
      (unsettled : ∀ r, (setup.source.run h).closing ≠ some (.settled r))
  | said (m : Moment) (earlier : List Log.Entry) (sub : Option Nat)
      (last : (setup.source.run h).log = earlier ++ [closedEntry m])
      (once : earlier.filter isClosedEntry = [])
      (closed : (setup.source.run h).lifecycle = .closed)
      (settled : (setup.source.run h).closing = some (.settled (.ok ())))
      (done : (setup.source.run h).teardown = .done (.ok ()))
      (released : setup.source.releases h =
        .unsubscribe sub :: if setup.ownsClient then [.closeClient] else [])

theorem concludes_run {setup : Setup} (quiet : setup.Quiet) (h : History) :
    Concludes setup h := by
  have steady : Consistent (setup.source.run h) := consistent_run setup h
  cases announced_run quiet h with
  | notYet silent =>
    refine .notYet silent fun r settled => ?_
    obtain ⟨-, -, m, there⟩ := of_settled quiet settled
    have untold := List.filter_eq_nil_iff.mp silent _ there
    exact untold (by simp [isClosedEntry, saysOneOf, closedEntry])
  | said m earlier d last once called done =>
    obtain ⟨r, settled⟩ := settled_of_done steady called done
    obtain ⟨rfl, finished, -⟩ := of_settled quiet settled
    obtain ⟨sub, ledger⟩ := ledger_source setup h
    have released := released_of_done ledger finished (by simp)
    rw [setup_run] at released
    exact .said m earlier sub last once ((closing_isSome_iff steady).mp called) settled finished
      released

/-- How the log of a source tells of its run. -/
structure Traced (setup : Setup) (h : History) : Prop where
  whole : (setup.source.run h).log = setup.source.collect entries h
  updates : (setup.source.run h).log.filter (saysOneOf updateMessages) =
    (setup.source.collect arrivals h).mapIdx fun i a => updateEntry (i = 0) a.1 (i + 1) a.2
  serves : ∀ m e picked, (setup.source.run h).applied? (m, e) = some picked →
    ∃ c, ((setup.source.run h).after (m, e)).snapshot = some c ∧ c.picked = picked ∧
      c.version = (setup.source.collect arrivals h).length + 1
  failures : (setup.source.run h).log.filter (saysOneOf failureMessages) =
    (setup.source.collect failures h).map fun b => failureEntry setup.policy b.1 b.2.1 b.2.2
  bears : ∀ m e v, (setup.source.run h).lifecycle = .ready →
    (setup.source.run h).brought (m, e) = some (.error v) →
    ∃ c, (setup.source.run h).snapshot = some c ∧
      ((setup.source.run h).after (m, e)).log =
        (setup.source.run h).log ++ [failureEntry setup.policy m v c.version] ∧
      match setup.policy with
      | .keepLast => ((setup.source.run h).after (m, e)).lifecycle = .ready ∧
        ((setup.source.run h).after (m, e)).snapshot = some c
      | .close => ((setup.source.run h).after (m, e)).lifecycle = .closed ∧
        ((setup.source.run h).step m e).commands =
          [.unsubscribe (setup.source.run h).subscription]
  concludes : Concludes setup h
  ended : (setup.source.run h).Over → ∀ m e, e.endsStep = false →
    ((setup.source.run h).after (m, e)).log = (setup.source.run h).log

/-- The log of a source whose sink never throws tells of its run, event by event. -/
theorem log_traces_run (setup : Setup) (quiet : setup.Quiet) (h : History) : Traced setup h := by
  have steady : Consistent (setup.source.run h) := consistent_run setup h
  have same : (setup.source.run h).setup = setup := setup_run setup h
  constructor
  case whole => exact log_run quiet h
  case updates => exact updates_run quiet h
  case serves =>
    intro m e picked applied
    obtain ⟨-, context, -, current⟩ := after_of_applied steady applied
    have lives := (applied?_eq_some_iff.mp applied).1
    have shown := snapshot_eq_current (consistent_after steady (m, e))
    have version := (counts_run setup h).version steady lives
    exact ⟨_, shown.trans current, rfl, congrArg (· + 1) version⟩
  case failures => exact failures_run quiet h
  case bears =>
    intro m e v serves brings
    have told := after_of_borne (by rwa [same]) steady (borne?_eq_some_iff.mpr ⟨serves, brings⟩)
    rwa [same] at told
  case concludes => exact concludes_run quiet h
  case ended =>
    intro finished m e apart
    rw [← run_snoc, log_snoc quiet, entries_of_over finished fun _ => apart, List.append_nil]

theorem log_traces_run_of_two_updates :
    let setup : Setup := { policy := .close }
    let h : History := [(⟨0, 0⟩, .subscribed 4), (⟨1, 1⟩, .update .single),
      (⟨2, 2⟩, .update .single), (⟨3, 3⟩, .error .absent), (⟨4, 4⟩, .unsubscribed (.ok ()))]
    setup.Quiet ∧ Traced setup h ∧ ∃ picked, Context.single.candidates = [picked] ∧
      (setup.source.run h).log =
        [updateEntry true ⟨1, 1⟩ 1 picked, updateEntry false ⟨2, 2⟩ 2 picked,
          failureEntry .close ⟨3, 3⟩ .absent 2, closedEntry ⟨4, 4⟩] := by
  intro setup h
  have quiet : setup.Quiet := fun _ _ => rfl
  have traced := log_traces_run setup quiet h
  exact ⟨quiet, traced, _, rfl, traced.whole⟩

end Source

end WorkloadIdentity.Watch
