import WorkloadIdentity.Proofs.Source.Release

/-! How the creation of a source ends. The first event that could settle the wait decides it,
and nothing that comes later does, not even before the creation goes on. The creation has
its stages, and each of them passes once what it waits for has come. -/

namespace WorkloadIdentity.Watch

/-- What an event decides, if nothing has been decided before it. -/
def Setup.verdict (setup : Setup) : Moment × Event → Option Outcome
  | (m, .update context) =>
    match Source.accept m.wall context.candidates (setup.selector [] context.candidates) with
    | .ok _ => some .ready
    | .error f => some (.error (setup.watchFault m.wall (.fault f)))
  | (m, .error v) => some (.error (setup.watchFault m.wall v))
  | (m, .watchThrew v) => some (.error (setup.startFault m.wall v))
  | (_, .timerEnded) => setup.initTimeout.map .timeout
  | _ => none

def Opening.rank : Opening → Nat
  | .subscribing => 0
  | .waiting => 1
  | .stoppingTimer _ => 2
  | .tearingDown _ => 3
  | .done _ => 4

namespace Source

section
variable {s t : Source} {m : Moment} {e : Event} {commands : List Command}

theorem opened_settle (s : Source) (o : Outcome) :
    (s.settle o).gate.opened = s.gate.opened.or (some o) := by
  rw [settle_eq]
  cases hg : s.gate.opened <;> simp [Gate.opened_openWith, hg]

theorem verdict_of_failure {v : Value} {asked : List (List Candidate)} (h : Consistent s)
    (starts : s.lifecycle = .init) (failure : Failure s m e v asked) :
    s.setup.verdict (m, e) = some (.error (s.setup.watchFault m.wall v)) := by
  cases failure with
  | error => rfl
  | selection context f refused =>
    rw [h.asked starts] at refused
    simp only [Setup.verdict, refused]

theorem opened_of_started (h : Consistent s) (started : s.lifecycle ≠ .init) :
    ∃ o, s.gate.opened = some o := by
  cases hg : s.gate.opened with
  | some o => exact ⟨o, rfl⟩
  | none =>
    have fits := h.lifecycle
    rw [phase, hg] at fits
    exact absurd fits started

theorem or_of_started (h : Consistent s) (started : s.lifecycle ≠ .init) (o : Option Outcome) :
    s.gate.opened.or o = s.gate.opened := by
  obtain ⟨a, opened⟩ := opened_of_started h started
  rw [opened, Option.some_or]

theorem opened_change (h : Consistent s) (expected : s.expects e = true)
    (change : Change s m e commands t) :
    t.gate.opened = s.gate.opened.or (s.setup.verdict (m, e)) := by
  cases change with
  | ignores _ nothing =>
    rcases nothing with unexpected | late
    · rw [expected] at unexpected
      cases unexpected
    · cases e with
      | update context => exact (or_of_started h (by rcases late with hl | hl <;> simp [hl]) _).symm
      | error v => exact (or_of_started h (by rcases late with hl | hl <;> simp [hl]) _).symm
      | proceed => exact (Option.or_none).symm
      | close => exact (Option.or_none).symm
      | _ => cases late
  | tolerates _ v asked log serves => exact (or_of_started h (by simp [serves]) _).symm
  | applies context picked log lives accepted =>
    simp only [Gate.opened_openWith]
    rcases lives with starts | serves
    · rw [h.asked starts] at accepted
      simp [opened_of_init h.lifecycle starts, Setup.verdict, accepted]
    · simp [opened_of_ready h.lifecycle serves]
  | fails _ v asked starts failure =>
    rw [verdict_of_failure h starts failure]
    simp [Gate.opened_openWith, opened_of_init h.lifecycle starts]
  | closes _ asked byFailure log serves => exact (or_of_started h (by simp [serves]) _).symm
  | subscribes => exact (Option.or_none).symm
  | misses v calls => exact opened_settle s _
  | expires ms runs limit =>
    simpa [Setup.verdict, limit] using opened_settle s (.timeout ms)
  | stopsTimer => exact (Option.or_none).symm
  | handsOut => exact (Option.or_none).symm
  | givesUp => exact (Option.or_none).symm
  | closesClient => exact (Option.or_none).symm
  | reports _ d o r log ends => cases ends <;> exact (Option.or_none).symm
  | settles _ d r earlier later ends => cases ends <;> exact (Option.or_none).symm

theorem or_findSome? {α β : Type} (o : Option β) (f : α → Option β) (a : α) (l : List α) :
    o.or ((a :: l).findSome? f) = (o.or (f a)).or (l.findSome? f) := by
  rw [List.findSome?_cons]
  cases o <;> cases f a <;> rfl

theorem opened_run (h : Consistent s) (history : History) :
    (s.run history).gate.opened =
      s.gate.opened.or ((s.heard history).findSome? s.setup.verdict) := by
  induction history generalizing s with
  | nil => exact (Option.or_none).symm
  | cons o rest ih =>
    have steady : Consistent (s.after o) := consistent_after h o
    have same : (s.after o).setup = s.setup := setup_change (change_step h o.1 o.2)
    rw [run_cons, ih steady, same]
    by_cases expected : s.expects o.2 = true
    · have opened := opened_change h expected (change_step h o.1 o.2)
      simp only [heard, expected, if_true]
      rw [or_findSome?, ← opened, after]
    · have unmoved : s.after o = s := after_of_not_expects (by simpa using expected)
      simp [heard, expected, unmoved]

theorem opened_change_of_some {o : Outcome} (opened : s.gate.opened = some o)
    (change : Change s m e commands t) : t.gate.opened = some o := by
  cases change with
  | applies => exact opened_openWith_of_some opened _
  | fails => exact opened_openWith_of_some opened _
  | misses => rw [opened_settle, opened, Option.some_or]
  | expires => rw [opened_settle, opened, Option.some_or]
  | _ => exact opened

def Judged (s : Source) : Prop :=
  ∀ r, s.opening = .done r → ∃ o now, s.gate.opened = some o ∧ r = o.opened now

theorem ended_change {r : Opened} (h : Consistent s) (unended : s.opening ≠ .done r)
    (ended : t.opening = .done r) (change : Change s m e commands t) :
    (∃ o now, t.gate.opened = some o ∧ r = o.opened now) ∨
      ∃ v, s.setup.Throws v ∧ r = .rejected v := by
  cases change with
  | subscribes => cases ended
  | misses => cases ended
  | stopsTimer => cases ended
  | givesUp => cases ended
  | handsOut stops waits opened =>
    cases ended
    exact .inl ⟨.ready, 0, opened, rfl⟩
  | reports _ d o last log ends tears result =>
    cases ended
    rcases result with ⟨-, judged⟩ | thrown
    · exact .inl ⟨o, m.wall, (opened_of_tearing h tears).1, judged⟩
    · exact .inr thrown
  | expires => exact absurd (by simpa using ended) unended
  | _ => exact absurd ended unended

theorem judged_change (quiet : s.setup.Quiet) (h : Consistent s) (known : Judged s)
    (change : Change s m e commands t) : Judged t := by
  intro r done
  by_cases before : s.opening = .done r
  · obtain ⟨o, now, opened, ended⟩ := known r before
    exact ⟨o, now, opened_change_of_some opened change, ended⟩
  · rcases ended_change h before done change with judged | ⟨v, throws, -⟩
    · exact judged
    · exact absurd throws (quiet.not_throws v)

def Blamed (s : Source) : Prop :=
  ∀ f, s.opening = .done (.refused f) →
    ∃ o now, s.gate.opened = some o ∧ o.opened now = .refused f

theorem blamed_change (h : Consistent s) (known : Blamed s) (change : Change s m e commands t) :
    Blamed t := by
  intro f refused
  by_cases before : s.opening = .done (.refused f)
  · obtain ⟨o, now, opened, ended⟩ := known f before
    exact ⟨o, now, opened_change_of_some opened change, ended⟩
  · rcases ended_change h before refused change with ⟨o, now, opened, ended⟩ | ⟨v, -, ended⟩
    · exact ⟨o, now, opened, ended.symm⟩
    · cases ended

theorem rank_change (change : Change s m e commands t) : s.opening.rank ≤ t.opening.rank := by
  cases change with
  | subscribes n calls => simp [calls, Opening.rank]
  | misses v calls => simp [calls, Opening.rank]
  | stopsTimer o waits => simp [waits, Opening.rank]
  | handsOut stops waits =>
    cases ho : s.opening <;> simp_all [Opening.awaits, Opening.rank]
  | givesUp stops o waits =>
    cases ho : s.opening <;> simp_all [Opening.awaits, Opening.rank]
  | reports _ d o last log ends tears => simp [tears, Opening.rank]
  | expires => simp
  | _ => exact Nat.le_refl _

theorem proceed_change (change : Change s m .proceed commands t) :
    (t = s ∧ s.Ignores .proceed)
      ∨ (∃ o, s.opening = .waiting ∧ t.opening = .stoppingTimer o) ∨ 3 ≤ t.opening.rank := by
  cases change with
  | ignores _ nothing =>
    rcases nothing with unexpected | late
    · cases unexpected
    · exact .inl ⟨rfl, late⟩
  | tolerates _ v asked log serves failure => cases failure
  | fails _ v asked starts failure => cases failure
  | closes _ asked byFailure log serves cause =>
    rcases cause with ⟨other, -⟩ | ⟨-, v, failure⟩
    · cases other
    · cases failure
  | stopsTimer o waits => exact .inr (.inl ⟨o, waits, rfl⟩)
  | handsOut => exact .inr (.inr (by simp [Opening.rank]))
  | givesUp => exact .inr (.inr (by simp [Opening.rank]))
  | reports _ d o r log ends => cases ends
  | settles _ d r earlier later ends => cases ends

theorem timerEnded_change (change : Change s m .timerEnded commands t) : t.timer ≠ .running := by
  cases change with
  | ignores _ nothing =>
    rcases nothing with unexpected | late
    · simpa [expects] using unexpected
    · cases late
  | tolerates _ v asked log serves failure => cases failure
  | fails _ v asked starts failure => cases failure
  | closes _ asked byFailure log serves cause =>
    rcases cause with ⟨other, -⟩ | ⟨-, v, failure⟩
    · cases other
    · cases failure
  | expires => simp
  | reports _ d o r log ends => cases ends
  | settles _ d r earlier later ends => cases ends

theorem untimed_change (begun : 1 ≤ s.opening.rank) (ended : s.timer ≠ .running)
    (change : Change s m e commands t) : t.timer ≠ .running := by
  cases change with
  | subscribes n calls => simp [calls, Opening.rank] at begun
  | misses v calls => simp [calls, Opening.rank] at begun
  | expires => simp
  | _ => exact ended

theorem stage_of_tearing {o : Outcome} (h : Consistent s) (tears : s.opening = .tearingDown o) :
    s.teardown.stage = .running := by
  obtain ⟨opened, failed⟩ := opened_of_tearing h tears
  rw [h.teardown, stage, closing_of_failed h opened failed, tears]
  rfl

end

structure Decided (n : Nat) (s : Source) : Prop where
  consistent : Consistent s
  opened : s.gate.opened.isSome = true
  rank : n ≤ s.opening.rank

structure Untimed (s : Source) : Prop extends Decided 2 s where
  ended : s.timer ≠ .running

section
variable {s : Source} {n : Nat}

theorem decided_after (h : Decided n s) (o : Moment × Event) : Decided n (s.after o) := by
  have change := change_step h.consistent o.1 o.2
  obtain ⟨a, opened⟩ := Option.isSome_iff_exists.mp h.opened
  have still : (s.after o).gate.opened = some a := opened_change_of_some opened change
  exact ⟨consistent_after h.consistent o, by simp [still], Nat.le_trans h.rank (rank_change change)⟩

theorem untimed_after (h : Untimed s) (o : Moment × Event) : Untimed (s.after o) := by
  have begun : 1 ≤ s.opening.rank := by
    have rank := h.rank
    omega
  exact ⟨decided_after h.toDecided o,
    untimed_change begun h.ended (change_step h.consistent o.1 o.2)⟩

theorem decided_of_proceed (h : Decided 1 s) (m : Moment) : Decided 2 (s.after (m, .proceed)) := by
  have next := decided_after h (m, .proceed)
  refine ⟨next.consistent, next.opened, ?_⟩
  have opened := h.opened
  have rank := h.rank
  rcases proceed_change (change_step h.consistent m .proceed) with
    ⟨same, early | shut | ⟨-, o, stops⟩⟩ | ⟨o, waits, stops⟩ | far
  · rw [after, same]
    cases ho : s.opening <;> simp_all [Opening.awaits, Opening.rank]
  · simp [shut] at opened
  · rw [after, same, stops]
    exact Nat.le_refl 2
  · rw [after, stops]
    exact Nat.le_refl 2
  · exact Nat.le_of_succ_le far

theorem decided_of_untimed (h : Untimed s) (m : Moment) : Decided 3 (s.after (m, .proceed)) := by
  have next := decided_after h.toDecided (m, .proceed)
  refine ⟨next.consistent, next.opened, ?_⟩
  have opened := h.opened
  have rank := h.rank
  rcases proceed_change (change_step h.consistent m .proceed) with
    ⟨same, early | shut | ⟨runs, -⟩⟩ | ⟨o, waits, -⟩ | far
  · rw [after, same]
    cases ho : s.opening <;> simp_all [Opening.awaits, Opening.rank]
  · simp [shut] at opened
  · exact absurd runs h.ended
  · simp [waits, Opening.rank] at rank
  · exact far

theorem done_of_tearing {h : History} {x y : Ending} (decided : Decided 3 s)
    (comes : [Event.unsubscribed x, .clientClosed y].Sublist (h.map Prod.snd)) :
    ∃ r, (s.run h).opening = .done r := by
  have last : Decided 3 (s.run h) :=
    run_keeps (P := Decided 3) (fun _ o d => decided_after d o) decided h
  cases ho : s.opening with
  | done r =>
    exact ⟨r, done_run decided.consistent ho h⟩
  | tearingDown o =>
    have begun : s.teardown ≠ .idle := by
      have running := stage_of_tearing decided.consistent ho
      intro idle
      simp [idle, Teardown.stage] at running
    obtain ⟨d, done⟩ := done_of_sublist ⟨decided.consistent, begun⟩ comes
    cases hl : (s.run h).opening with
    | done r => exact ⟨r, rfl⟩
    | tearingDown a =>
      have running := stage_of_tearing last.consistent hl
      simp [done, Teardown.stage] at running
    | _ => simpa [hl, Opening.rank] using last.rank
  | _ => simpa [ho, Opening.rank] using decided.rank

theorem done_of_decided {h : History} {x y : Ending} (decided : Decided 1 s)
    (comes : [Event.proceed, .timerEnded, .proceed, .unsubscribed x, .clientClosed y].Sublist
      (h.map Prod.snd)) :
    ∃ r, (s.run h).opening = .done r := by
  have stops (s : Source) (m : Moment) (d : Decided 2 s) : Untimed (s.after (m, .timerEnded)) :=
    ⟨decided_after d _, timerEnded_change (change_step d.consistent m .timerEnded)⟩
  obtain ⟨a, b, rfl, second, comes⟩ := run_reaches (P := Decided 1) (Q := Decided 2)
    (fun _ o d => decided_after d o) (fun _ m d => decided_of_proceed d m) decided comes
  obtain ⟨b, c, rfl, untimed, comes⟩ := run_reaches (P := Decided 2) (Q := Untimed)
    (fun _ o d => decided_after d o) stops second comes
  obtain ⟨c, d, rfl, third, comes⟩ := run_reaches (P := Untimed) (Q := Decided 3)
    (fun _ o d => untimed_after d o) (fun _ m d => decided_of_untimed d m) untimed comes
  obtain ⟨r, done⟩ := done_of_tearing third comes
  exact ⟨r, by simpa using done⟩

end

theorem opened_eq_ok_iff {o : Outcome} {now : Int} : o.opened now = .ok ↔ o = .ready := by
  cases o <;> simp [Outcome.opened]

theorem handsOut_of_change {s t : Source} {m : Moment} {e : Event} {commands : List Command}
    (h : Consistent s) (unheld : s.isHandedOut = false) (held : t.isHandedOut = true)
    (change : Change s m e commands t) :
    s.gate.opened = some .ready ∧ t.lifecycle = s.lifecycle := by
  cases change with
  | handsOut stops waits opened => exact ⟨opened, rfl⟩
  | subscribes => cases held
  | misses => cases held
  | stopsTimer => cases held
  | givesUp => cases held
  | reports _ d o r log ends tears result =>
    obtain ⟨-, failed⟩ := opened_of_tearing h tears
    have accepted : r = .ok := by
      cases r with
      | ok => rfl
      | refused f => cases held
      | rejected v => cases held
    rcases result with ⟨-, ended⟩ | ⟨v, -, rejected⟩
    · rw [accepted, eq_comm, opened_eq_ok_iff] at ended
      rw [ended] at failed
      cases failed
    · rw [accepted] at rejected
      cases rejected
  | expires =>
    have same : s.isHandedOut = true := by simpa [isHandedOut] using held
    rw [unheld] at same
    cases same
  | _ =>
    have same : s.isHandedOut = true := held
    rw [unheld] at same
    cases same

theorem lifecycle_of_handsOut {setup : Setup} (quiet : setup.Quiet) {h : History}
    {o : Moment × Event} (unheld : (setup.source.run h).isHandedOut = false)
    (held : (setup.source.run (h ++ [o])).isHandedOut = true) :
    ((setup.source.run (h ++ [o])).lifecycle = .ready ∧ ¬FailsReady setup h)
      ∨ ((setup.source.run (h ++ [o])).lifecycle = .closed ∧ FailsReady setup h) := by
  have steady : Consistent (setup.source.run h) := consistent_run setup h
  obtain ⟨opened, same⟩ := handsOut_of_change steady unheld held (change_run setup h o)
  have failed := closed_iff_failsReady quiet unheld
  rw [same]
  have fits := steady.lifecycle
  rw [phase, opened] at fits
  cases called : (setup.source.run h).closing with
  | none =>
    have serves : (setup.source.run h).lifecycle = .ready := by rw [fits, called]
    refine .inl ⟨serves, fun fails => ?_⟩
    rw [failed.mpr fails] at serves
    cases serves
  | some c =>
    have closed : (setup.source.run h).lifecycle = .closed := by rw [fits, called]
    exact .inr ⟨closed, failed.mp closed⟩

theorem judged_run {setup : Setup} (quiet : setup.Quiet) (h : History) :
    Judged (setup.source.run h) := by
  have both : Judged (setup.source.run h) ∧ (setup.source.run h).setup = setup := by
    refine run_keeps_of_change (P := fun s => Judged s ∧ s.setup = setup) ?_
      (consistent_source setup) ⟨(fun r done => by cases done), rfl⟩ h
    intro s m e commands t steady known change
    exact ⟨judged_change (known.2 ▸ quiet) steady known.1 change,
      (setup_change change).trans known.2⟩
  exact both.1

theorem verdict_of_refused {setup : Setup} {h : History} {f : Fault}
    (refused : (setup.source.run h).opening = .done (.refused f)) :
    ∃ p ∈ setup.source.heard h, ∃ o now, setup.verdict p = some o ∧ o.opened now = .refused f := by
  have unrefused : Blamed setup.source := fun f refused => by cases refused
  obtain ⟨o, now, opened, ended⟩ :=
    run_keeps_of_change blamed_change (consistent_source setup) unrefused h f refused
  rw [opened_run (consistent_source setup) h] at opened
  obtain ⟨p, there, decided⟩ := List.exists_of_findSome?_eq_some opened
  exact ⟨p, there, o, now, decided, ended⟩

theorem limit_of_verdict {setup : Setup} {o : Moment × Event} {ms : Float}
    (timed : setup.verdict o = some (.timeout ms)) : setup.initTimeout = some ms := by
  obtain ⟨m, e⟩ := o
  cases e with
  | update context =>
    simp only [Setup.verdict] at timed
    split at timed <;> cases timed
  | error v => cases timed
  | watchThrew v => cases timed
  | timerEnded => simpa [Setup.verdict] using timed
  | _ => cases timed

/-- The first event that can decide a creation does, and nothing else has a part in it. -/
theorem creation_is_decided {deps : Deps} {options : Options} {setup : Setup}
    {built : Option Endpoint.Address} (plan : Plan.make deps options = .start setup built)
    (quiet : setup.Quiet) (h : History) :
    let s := setup.source.run h
    let first := (setup.source.heard h).findSome? setup.verdict
    (∀ before o later, h = before ++ o :: later → (setup.source.run before).Reaches o.2 →
      ∃ rest, setup.source.heard h = setup.source.heard before ++ o :: rest) ∧
    (∀ r, s.opening = .done r →
      (∃ o now, first = some o ∧ r = o.opened now) ∧ (r = .ok ↔ first = some .ready) ∧
      ∀ later, (setup.source.run (h ++ later)).opening = .done r ∧
        (setup.source.heard (h ++ later)).findSome? setup.verdict = first) ∧
    (∀ o, first = some o → s.opening ≠ .subscribing → ∀ later x y,
      [Event.proceed, .timerEnded, .proceed, .unsubscribed x, .clientClosed y].Sublist
        (later.map Prod.snd) → ∃ r, (setup.source.run (h ++ later)).opening = .done r) ∧
    (∀ ms, first = some (.timeout ms) → options.initTimeout = .number ms) ∧
    ∀ o, s.isHandedOut = false → (setup.source.run (h ++ [o])).isHandedOut = true →
      ((setup.source.run (h ++ [o])).lifecycle = .ready ∧ ¬FailsReady setup h) ∨
      ((setup.source.run (h ++ [o])).lifecycle = .closed ∧ FailsReady setup h) := by
  intro s first
  have steady : Consistent s := consistent_run setup h
  have opened : s.gate.opened = first := opened_run (consistent_source setup) h
  obtain ⟨-, limited, -⟩ := Plan.of_make_eq_start plan
  refine ⟨?_, ?_, ?_, ?_, fun o => lifecycle_of_handsOut quiet⟩
  · rintro before o later rfl reaches
    exact heard_of_reaches reaches
  · intro r done
    obtain ⟨o, now, passed, ended⟩ := judged_run quiet h r done
    have decided : first = some o := opened.symm.trans passed
    refine ⟨⟨o, now, decided, ended⟩, ?_, ?_⟩
    · rw [ended, opened_eq_ok_iff, decided, Option.some.injEq]
    · intro later
      constructor
      · rw [run_append]
        exact done_run steady done later
      · rw [heard_append, List.findSome?_append]
        have before : (setup.source.heard h).findSome? setup.verdict = some o := decided
        rw [before, Option.some_or]
        exact decided.symm
  · intro o decided called later x y comes
    have begun : 1 ≤ s.opening.rank := by
      cases ho : s.opening with
      | subscribing => exact absurd ho called
      | _ => simp [Opening.rank]
    rw [run_append]
    have passed : s.gate.opened = some o := opened.trans decided
    exact done_of_decided ⟨steady, by rw [passed]; rfl, begun⟩ comes
  · intro ms decided
    obtain ⟨p, -, timed⟩ := List.exists_of_findSome?_eq_some decided
    rw [limit_of_verdict timed] at limited
    exact eq_number_of_initTimeout? limited

theorem creation_is_decided_of_stranger :
    let deps : Deps := { hasClient := true }
    let setup : Setup := {}
    let h : History := [(⟨0, 0⟩, .update ⟨[], .empty⟩), (⟨1, 1⟩, .update .single),
      (⟨2, 2⟩, .subscribed 4), (⟨3, 3⟩, .proceed), (⟨4, 4⟩, .unsubscribed (.ok ()))]
    Plan.make deps {} = .start setup none ∧ setup.Quiet ∧ ∀ later,
      (setup.source.run (h ++ later)).opening =
        .done (.refused (setup.watchFault 0 (.fault (strangerFault 0)))) := by
  intro deps setup h
  have plan : Plan.make deps {} = .start setup none := rfl
  have quiet : setup.Quiet := fun _ _ => rfl
  obtain ⟨-, ended, -, -, -⟩ := creation_is_decided plan quiet h
  obtain ⟨-, -, final⟩ := ended _ rfl
  exact ⟨plan, quiet, fun later => (final later).1⟩

end Source

end WorkloadIdentity.Watch
