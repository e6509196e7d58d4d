import WorkloadIdentity.Proofs.Source.Teardown

/-! What a source took and what it gives back. A client that was built for the source is
closed once, and a subscription that was there when the teardown began is ended once. A
client may deliver while it is still being subscribed to; a watch that fails then, after
a first update, closes a source that has no subscription yet, and the subscription that
comes afterwards is kept for ever. -/

namespace WorkloadIdentity.Watch

namespace Command

def ends (n : Nat) : Command → Bool
  | .unsubscribe (some k) => k = n
  | _ => false

def closesClient : Command → Bool
  | .closeClient => true
  | _ => false

end Command

namespace Source

section
variable {s t : Source} {m : Moment} {e : Event} {commands released : List Command}

theorem countP_commands {p : Command → Bool} (given : ∀ c, p c = true → c.isRelease = true)
    (h : History) : (s.commands h).countP p = (s.releases h).countP p := by
  rw [Source.releases, List.countP_filter]
  apply List.countP_congr
  intro c _
  constructor
  · intro counted
    simp [counted, given c counted]
  · intro both
    simpa using (Bool.and_eq_true_iff.mp both).1

theorem countP_ends_commands (n : Nat) (h : History) :
    (s.commands h).countP (Command.ends n) = (s.releases h).countP (Command.ends n) := by
  apply countP_commands
  intro c ends
  cases c <;> simp_all [Command.ends, Command.isRelease]

theorem countP_closesClient_commands (h : History) :
    (s.commands h).countP Command.closesClient
      = (s.releases h).countP Command.closesClient := by
  apply countP_commands
  intro c closes
  cases c <;> simp_all [Command.closesClient, Command.isRelease]

theorem subscription_change {n : Nat} (h : Consistent s) (held : s.subscription = some n)
    (change : Change s m e commands t) : t.subscription = some n := by
  cases change with
  | subscribes k calls =>
    have unsubscribed := (unset_of_subscribing h calls).2
    simp [held] at unsubscribed
  | misses => simpa using held
  | expires => simpa using held
  | _ => exact held

theorem subscription_run {n : Nat} (h : Consistent s) (held : s.subscription = some n)
    (history : History) : (s.run history).subscription = some n :=
  run_keeps_of_change (P := fun s => s.subscription = some n) subscription_change h held history

theorem ledger_run_of_same {history : History} (h : Consistent s)
    (same : (s.run history).subscription = s.subscription)
    (ledger : Ledger s s.subscription released) :
    Ledger (s.run history) s.subscription (released ++ s.releases history) := by
  induction history generalizing s released with
  | nil => simpa [releases, Source.commands] using ledger
  | cons o rest ih =>
    have steady : Consistent (s.after o) := consistent_after h o
    have kept : (s.after o).subscription = s.subscription := by
      cases held : s.subscription with
      | some n => exact subscription_change h held (change_step h o.1 o.2)
      | none =>
        cases taken : (s.after o).subscription with
        | none => rfl
        | some n =>
          -- a subscription taken now would still be there at the end
          have last := subscription_run steady taken rest
          rw [run_cons, last, held] at same
          cases same
    have next := ledger_advances (setup_change (change_step h o.1 o.2)) ledger (fun _ => rfl)
      (advances_after h o)
    rw [releases_cons, ← List.append_assoc, ← kept]
    rw [← kept] at next
    exact ih steady (by rw [kept, ← same, run_cons]) next

theorem closes_of_change (unclosed : s.lifecycle ≠ .closed)
    (change : Change s m e commands t) (closed : t.lifecycle = .closed) :
    s.lifecycle = .ready ∧ (s.isHandedOut = true
      ∨ s.setup.policy = .close ∧ ∃ v asked, Failure s m e v asked) := by
  cases change with
  | closes _ asked byFailure log serves cause =>
    refine ⟨serves, ?_⟩
    rcases cause with ⟨-, -, held⟩ | ⟨policy, v, failure⟩
    · exact .inl held
    · exact .inr ⟨policy, v, asked, failure⟩
  | applies => cases closed
  | fails => cases closed
  | misses v =>
    simp only [settle_eq] at closed
    split at closed
    · exact absurd closed unclosed
    · cases closed
  | expires ms =>
    simp only [settle_eq] at closed
    split at closed
    · exact absurd closed unclosed
    · cases closed
  | _ => exact absurd closed unclosed

theorem failure_of_closed {history : History} (h : Consistent s) (unclosed : s.lifecycle ≠ .closed)
    (closed : (s.run history).lifecycle = .closed)
    (unheld : (s.run history).isHandedOut = false) :
    s.setup.policy = .close ∧ ∃ before o rest, history = before ++ o :: rest ∧
      (s.run before).lifecycle = .ready ∧ ∃ v asked, Failure (s.run before) o.1 o.2 v asked := by
  induction history generalizing s with
  | nil => exact absurd closed unclosed
  | cons o rest ih =>
    have change := change_step h o.1 o.2
    have steady : Consistent (s.after o) := consistent_after h o
    by_cases now : (s.after o).lifecycle = .closed
    · obtain ⟨serves, cause⟩ := closes_of_change unclosed change now
      rcases cause with held | ⟨policy, failure⟩
      · have still : (s.run (o :: rest)).isHandedOut = true :=
          isHandedOut_iff.mpr (done_run h (isHandedOut_iff.mp held) _)
        rw [unheld] at still
        cases still
      · exact ⟨policy, [], o, rest, rfl, serves, failure⟩
    · obtain ⟨policy, before, p, later, rfl, serves, failure⟩ := ih steady now closed unheld
      exact ⟨setup_change change ▸ policy, o :: before, p, later, rfl, serves, failure⟩

theorem idle_iff_unclosed (h : Consistent s) (calls : s.opening = .subscribing) :
    s.teardown = .idle ↔ s.lifecycle ≠ .closed := by
  have closed := closing_isSome_iff h
  have same := h.teardown
  simp only [stage, calls, Opening.stage] at same
  cases hc : s.closing with
  | none =>
    simp only [hc] at same closed
    cases ht : s.teardown <;> simp_all [Teardown.stage]
  | some c =>
    simp only [hc] at same closed
    cases c <;> cases ht : s.teardown <;> simp_all [Teardown.stage]

theorem closed_change (h : Consistent s) (closed : s.lifecycle = .closed)
    (change : Change s m e commands t) : t.lifecycle = .closed := by
  have opened : s.gate.isOpen = true := by
    have ready := h.closing ((closing_isSome_iff h).mpr closed)
    simp [Gate.isOpen, ready]
  cases change with
  | applies context picked log lives => rcases lives with hl | hl <;> simp [hl] at closed
  | fails _ v asked starts => simp [starts] at closed
  | closes => rfl
  | misses v => rwa [settle_of_isOpen opened]
  | expires ms => rwa [settle_of_isOpen opened]
  | _ => exact closed

theorem closed_of_failure {v : Value} {asked : List (List Candidate)} (quiet : s.setup.Quiet)
    (policy : s.setup.policy = .close) (serves : s.lifecycle = .ready)
    (failure : Failure s m e v asked) (change : Change s m e commands t) :
    t.lifecycle = .closed := by
  cases change with
  | closes => rfl
  | ignores _ nothing => cases failure <;> simp [expects, Ignores, serves] at nothing
  | tolerates _ x asked log ready failed kept =>
    rcases kept with keeps | ⟨y, throws⟩
    · rw [policy] at keeps
      cases keeps
    · exact absurd throws (quiet.not_throws y)
  | applies context picked log lives accepted =>
    cases failure with
    | selection _ f refused =>
      rw [accepted] at refused
      cases refused
  | fails _ x asked starts => simp [serves] at starts
  | reports _ d o r log ends => cases ends <;> cases failure
  | settles _ d r earlier later ends => cases ends <;> cases failure
  | _ => cases failure

end

/-- The watch fails after a first update, under the policy that this closes the source. -/
def FailsReady (setup : Setup) (h : History) : Prop :=
  setup.policy = .close ∧ ∃ before o rest, h = before ++ o :: rest ∧
    (setup.source.run before).lifecycle = .ready ∧
    ∃ v asked, Failure (setup.source.run before) o.1 o.2 v asked

theorem closed_iff_failsReady {setup : Setup} (quiet : setup.Quiet) {h : History}
    (unheld : (setup.source.run h).isHandedOut = false) :
    (setup.source.run h).lifecycle = .closed ↔ FailsReady setup h := by
  constructor
  · intro closed
    exact failure_of_closed (consistent_source setup) (by simp [Setup.source]) closed unheld
  · rintro ⟨policy, before, o, rest, rfl, serves, v, asked, failure⟩
    have steady : Consistent (setup.source.run before) := consistent_run setup before
    have same : (setup.source.run before).setup = setup := setup_run setup before
    have closed : ((setup.source.run before).after o).lifecycle = .closed :=
      closed_of_failure (by rwa [same]) (by rwa [same]) serves failure (change_step steady o.1 o.2)
    rw [run_append, run_cons]
    exact run_keeps_of_change (P := fun s => s.lifecycle = .closed) closed_change
      (consistent_after steady o) closed rest

theorem after_subscribed {s : Source} (h : Consistent s) (calls : s.opening = .subscribing)
    (m : Moment) (n : Nat) :
    s.after (m, .subscribed n) =
        { s with subscription := some n, opening := .waiting, timer := s.setup.timer } ∧
      (s.step m (.subscribed n)).commands = s.setup.timerCommands := by
  have unset := (unset_of_subscribing h calls).1
  have stepped : s.step m (.subscribed n) =
      ({ s with subscription := some n } : Source).await := by
    simp only [step, onSubscribed, calls]
  rw [after, stepped, await_eq (s := { s with subscription := some n }) unset]
  exact ⟨rfl, rfl⟩

theorem ledger_of_subscribed {s : Source} (h : Consistent s) (calls : s.opening = .subscribing)
    (idle : s.teardown = .idle) (m : Moment) (n : Nat) (later : History) :
    Ledger (s.run ((m, .subscribed n) :: later)) (some n)
      (s.releases ((m, .subscribed n) :: later)) := by
  obtain ⟨taken, silent⟩ := after_subscribed h calls m n
  have next : Consistent (s.after (m, .subscribed n)) := consistent_after h (m, .subscribed n)
  have held : (s.after (m, .subscribed n)).subscription = some n := by rw [taken]
  have blank :
      Ledger (s.after (m, .subscribed n)) (s.after (m, .subscribed n)).subscription [] := by
    rw [taken]
    simp only [Ledger, idle]
  have kept := subscription_run next held later
  have late := ledger_run_of_same next (by rw [kept, held]) blank
  rw [releases_cons, silent, releases_timerCommands, run_cons, ← held]
  exact late

theorem subscription_unique {s : Source} {a b : Option Nat} {released : List Command}
    (first : Ledger s a released) (second : Ledger s b released) (begun : s.teardown ≠ .idle) :
    a = b := by
  obtain ⟨rest, given⟩ := began_of_ledger first begun
  obtain ⟨other, again⟩ := began_of_ledger second begun
  rw [given, List.cons.injEq, Command.unsubscribe.injEq] at again
  exact again.1

theorem unheld_of_subscribing {s : Source} (calls : s.opening = .subscribing) :
    s.isHandedOut = false := by
  simp [isHandedOut, calls]

theorem countP_ends_released (n : Nat) (sub : Option Nat) (owns : Bool) :
    (Command.unsubscribe sub :: if owns then [.closeClient] else []).countP (Command.ends n) =
      if sub = some n then 1 else 0 := by
  cases owns <;> cases sub <;> simp [Command.ends, List.countP_cons]

theorem countP_closesClient_released (sub : Option Nat) (owns : Bool) :
    (Command.unsubscribe sub :: if owns then [.closeClient] else []).countP
      Command.closesClient = if owns then 1 else 0 := by
  cases owns <;> simp [Command.closesClient]

theorem ended_subscription {setup : Setup} (quiet : setup.Quiet) {before later : History}
    {m : Moment} {n : Nat} {sub : Option Nat} {d : Ending}
    (calls : (setup.source.run before).opening = .subscribing)
    (ledger : Ledger (setup.source.run (before ++ (m, .subscribed n) :: later)) sub
      (setup.source.releases (before ++ (m, .subscribed n) :: later)))
    (done : (setup.source.run (before ++ (m, .subscribed n) :: later)).teardown = .done d) :
    (FailsReady setup before ∧ sub = none) ∨ (¬FailsReady setup before ∧ sub = some n) := by
  have steady : Consistent (setup.source.run before) := consistent_run setup before
  have early : Ledger (setup.source.run before) none (setup.source.releases before) :=
    ledger_run_of_same (consistent_source setup) (unset_of_subscribing steady calls).2 rfl
  have failed := closed_iff_failsReady quiet (unheld_of_subscribing calls)
  have unclosed := idle_iff_unclosed steady calls
  rw [releases_append, run_append] at ledger
  rw [run_append] at done
  have begun :
      ((setup.source.run before).run ((m, .subscribed n) :: later)).teardown ≠ .idle := by
    rw [done]
    simp
  by_cases idle : (setup.source.run before).teardown = .idle
  · have nothing : setup.source.releases before = [] := by simpa only [Ledger, idle] using early
    rw [nothing, List.nil_append] at ledger
    have late := ledger_of_subscribed steady calls idle m n later
    refine .inr ⟨fun fails => unclosed.mp idle (failed.mpr fails), ?_⟩
    exact subscription_unique ledger late begun
  · have closed : (setup.source.run before).lifecycle = .closed :=
      Decidable.of_not_not fun other => idle (unclosed.mpr other)
    obtain ⟨rest, given⟩ := began_of_ledger early idle
    obtain ⟨more, again⟩ := began_of_ledger ledger begun
    rw [given, List.cons_append, List.cons.injEq, Command.unsubscribe.injEq] at again
    exact .inl ⟨failed.mp closed, again.1.symm⟩

/-- All that a source took has been given back when it has torn down, except a subscription that
came after the watch had failed. -/
theorem run_gives_back {deps : Deps} {options : Options} {setup : Setup}
    {built : Option Endpoint.Address} (plan : Plan.make deps options = .start setup built)
    (quiet : setup.Quiet) (h : History) (d : Ending)
    (done : (setup.source.run h).teardown = .done d) :
    (setup.source.commands h).countP Command.closesClient = (if built.isSome then 1 else 0) ∧
    ∀ before m n later, h = before ++ (m, .subscribed n) :: later →
      (setup.source.run before).opening = .subscribing →
      (FailsReady setup before ∧ (setup.source.commands h).countP (Command.ends n) = 0) ∨
      (¬FailsReady setup before ∧ (setup.source.commands h).countP (Command.ends n) = 1) := by
  obtain ⟨-, -, owner⟩ := Plan.of_make_eq_start plan
  obtain ⟨sub, ledger⟩ := ledger_source setup h
  have same : (setup.source.run h).setup = setup := setup_run setup h
  have uncut (v : Value) (throws : (setup.source.run h).setup.Throws v) : d ≠ .error v := by
    rw [same] at throws
    exact absurd throws (quiet.not_throws v)
  have released := released_of_done ledger done uncut
  rw [countP_closesClient_commands, released, same, owner, countP_closesClient_released]
  refine ⟨rfl, ?_⟩
  rintro before m n later rfl calls
  rw [countP_ends_commands, released, countP_ends_released]
  rcases ended_subscription quiet calls ledger done with ⟨failed, absent⟩ | ⟨lasted, held⟩
  · exact .inl ⟨failed, by simp [absent]⟩
  · exact .inr ⟨lasted, by simp [held]⟩

theorem run_gives_back_of_close :
    let deps : Deps := { factory := some fun _ => .ok () }
    let options : Options := { endpoint := some "unix:/a" }
    let setup : Setup := { endpoint := some "unix:///a", ownsClient := true }
    let h : History := [(⟨0, 0⟩, .subscribed 4), (⟨1, 1⟩, .update .single), (⟨2, 2⟩, .proceed),
      (⟨3, 3⟩, .close), (⟨4, 4⟩, .unsubscribed (.error .absent)), (⟨5, 5⟩, .clientClosed (.ok ()))]
    Plan.make deps options = .start setup (some (.unix "/a")) ∧ setup.Quiet ∧
      (setup.source.run h).teardown = .done (.ok ()) ∧
      (setup.source.commands h).countP Command.closesClient = 1 ∧
      (setup.source.commands h).countP (Command.ends 4) = 1 := by
  intro deps options setup h
  have plan : Plan.make deps options = .start setup (some (.unix "/a")) := rfl
  have quiet : setup.Quiet := fun _ _ => rfl
  obtain ⟨closed, ended⟩ := run_gives_back plan quiet h (.ok ()) rfl
  refine ⟨plan, quiet, rfl, closed, ?_⟩
  rcases ended [] ⟨0, 0⟩ 4 _ rfl rfl with ⟨⟨policy, -⟩, -⟩ | ⟨-, once⟩
  · cases policy
  · exact once

/-- The watch fails while the client is still being subscribed to: the subscription that it then
returns is never ended. -/
theorem subscription_outlives_source :
    ¬∀ (deps : Deps) (options : Options) (setup : Setup) (built : Option Endpoint.Address),
      Plan.make deps options = .start setup built → setup.Quiet → ∀ (h : History) (d : Ending),
      (setup.source.run h).lifecycle = .closed ∨ (setup.source.run h).lifecycle = .failed →
      (setup.source.run h).teardown = .done d →
      ∀ before m n later, h = before ++ (m, .subscribed n) :: later →
        (setup.source.run before).opening = .subscribing →
        (setup.source.commands h).countP (Command.ends n) = 1 := by
  intro claim
  have once := claim { hasClient := true } { policy := .close } { policy := .close } none rfl
    (fun _ _ => rfl)
    [(⟨0, 0⟩, .update .single), (⟨1, 1⟩, .error .absent), (⟨2, 2⟩, .subscribed 4),
      (⟨3, 3⟩, .unsubscribed (.ok ()))]
    (.ok ()) (.inl rfl) rfl [(⟨0, 0⟩, .update .single), (⟨1, 1⟩, .error .absent)] ⟨2, 2⟩ 4
    [(⟨3, 3⟩, .unsubscribed (.ok ()))] rfl rfl
  cases once

end Source

end WorkloadIdentity.Watch
