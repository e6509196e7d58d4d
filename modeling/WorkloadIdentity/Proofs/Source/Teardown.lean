import WorkloadIdentity.Proofs.Source.Invariant
import WorkloadIdentity.Watch.Creation

/-! The teardown of a source. What a run has given back so far can be read off the teardown
alone: nothing, the subscription, or the subscription and then a client of its own. So a
teardown happens once, whoever asks for it and in whatever order its steps end, and the
callers of `close` all learn how this one ended. -/

namespace WorkloadIdentity.Watch

def Command.isRelease : Command → Bool
  | .unsubscribe _ | .closeClient => true
  | _ => false

def Event.endsStep : Event → Bool
  | .unsubscribed _ | .clientClosed _ => true
  | _ => false

namespace Source

def releases (s : Source) (h : History) : List Command :=
  (s.commands h).filter Command.isRelease

/-- What an event does to the teardown, and what is given back. -/
inductive Advances (s t : Source) (e : Event) : List Command → Prop
  | keeps (same : t.teardown = s.teardown) (apart : s.expects e = true → e.endsStep = false) :
    Advances s t e []
  | starts (idle : s.teardown = .idle) (begun : t.teardown = .unsubscribing)
      (apart : e.endsStep = false) :
    Advances s t e [.unsubscribe s.subscription]
  | closesClient (x : Ending) (settled : e = .unsubscribed x) (waits : s.teardown = .unsubscribing)
      (owns : s.setup.ownsClient = true) (begun : t.teardown = .closingClient) :
    Advances s t e [.closeClient]
  | ends (d : Ending) (ends : Ends s e d) (done : t.teardown = .done d) : Advances s t e []

/-- What has been given back by the time a teardown is where it is. -/
def Ledger (s : Source) (sub : Option Nat) (released : List Command) : Prop :=
  match s.teardown with
  | .idle => released = []
  | .unsubscribing => released = [.unsubscribe sub]
  | .closingClient => s.setup.ownsClient = true ∧ released = [.unsubscribe sub, .closeClient]
  | .done d =>
    (s.setup.ownsClient = true ∧ released = [.unsubscribe sub, .closeClient])
      ∨ released = [.unsubscribe sub]
        ∧ (s.setup.ownsClient = true → ∃ v, s.setup.Throws v ∧ d = .error v)

section
variable {s t : Source} {m : Moment} {e : Event} {sub : Option Nat} {released : List Command}
  {commands : List Command}

theorem releases_append {a b : History} :
    s.releases (a ++ b) = s.releases a ++ (s.run a).releases b := by
  simp [releases]

theorem releases_cons {o : Moment × Event} {h : History} :
    s.releases (o :: h) =
      (s.step o.1 o.2).commands.filter Command.isRelease ++ (s.after o).releases h := by
  simp [releases, Source.commands]

theorem releases_of_harmless {stops : List Command} (harmless : ∀ c ∈ stops, c = .stopTimer) :
    stops.filter Command.isRelease = [] := by
  rw [List.filter_eq_nil_iff]
  intro c member
  rw [harmless c member]
  simp [Command.isRelease]

theorem releases_timerCommands (setup : Setup) :
    setup.timerCommands.filter Command.isRelease = [] := by
  unfold Setup.timerCommands
  cases setup.initTimeout <;> simp [Command.isRelease]

theorem endsStep_of_ignores (late : s.Ignores e) : e.endsStep = false := by
  cases e with
  | unsubscribed x => cases late
  | clientClosed x => cases late
  | _ => rfl

theorem endsStep_of_failure {v : Value} {asked : List (List Candidate)}
    (failure : Failure s m e v asked) : e.endsStep = false := by
  cases failure <;> rfl

theorem advances_change (h : Consistent s) (change : Change s m e commands t) :
    Advances s t e (commands.filter Command.isRelease) := by
  cases change with
  | ignores _ nothing =>
    refine .keeps rfl fun expected => ?_
    rcases nothing with unexpected | late
    · rw [expected] at unexpected
      cases unexpected
    · exact endsStep_of_ignores late
  | tolerates _ v asked log serves failure => exact .keeps rfl fun _ => endsStep_of_failure failure
  | applies => exact .keeps rfl fun _ => rfl
  | fails _ v asked starts failure => exact .keeps rfl fun _ => endsStep_of_failure failure
  | closes _ asked byFailure log serves cause =>
    refine .starts (idle_of_ready h serves) rfl ?_
    rcases cause with ⟨rfl, -, -⟩ | ⟨-, v, failure⟩
    · rfl
    · exact endsStep_of_failure failure
  | subscribes n calls =>
    rw [releases_timerCommands]
    exact .keeps rfl fun _ => rfl
  | misses v calls =>
    rw [releases_timerCommands]
    exact .keeps (by simp) fun _ => rfl
  | expires ms runs limit => exact .keeps (by simp) fun _ => rfl
  | stopsTimer => exact .keeps rfl fun _ => rfl
  | handsOut stops waits opened harmless =>
    rw [releases_of_harmless harmless]
    exact .keeps rfl fun _ => rfl
  | givesUp stops o waits opened failed harmless =>
    rw [List.filter_append, releases_of_harmless harmless]
    exact .starts (idle_of_awaits h waits opened failed) rfl rfl
  | closesClient x log waits owns => exact .closesClient x rfl waits owns rfl
  | reports _ d o r log ends tears result => exact .ends d ends rfl
  | settles _ d r earlier later ends pending result => exact .ends d ends rfl

theorem advances_after (h : Consistent s) (o : Moment × Event) :
    Advances s (s.after o) o.2 ((s.step o.1 o.2).commands.filter Command.isRelease) :=
  advances_change h (change_step h o.1 o.2)

theorem advances_of (h : Consistent s) (o : Moment × Event) :
    ∃ more, Advances s (s.after o) o.2 more := ⟨_, advances_after h o⟩

theorem of_unsubscribe_mem (member : .unsubscribe sub ∈ commands)
    (advances : Advances s t e (commands.filter Command.isRelease)) :
    s.teardown = .idle ∧ sub = s.subscription := by
  have kept : .unsubscribe sub ∈ commands.filter Command.isRelease :=
    List.mem_filter.mpr ⟨member, rfl⟩
  generalize commands.filter Command.isRelease = more at advances kept
  cases advances with
  | keeps => cases kept
  | starts idle =>
    rw [List.mem_singleton] at kept
    cases kept
    exact ⟨idle, rfl⟩
  | closesClient =>
    rw [List.mem_singleton] at kept
    cases kept
  | ends => cases kept

theorem of_closeClient_mem (member : .closeClient ∈ commands)
    (advances : Advances s t e (commands.filter Command.isRelease)) :
    s.setup.ownsClient = true ∧ s.teardown = .unsubscribing ∧ ∃ x, e = .unsubscribed x := by
  have kept : .closeClient ∈ commands.filter Command.isRelease :=
    List.mem_filter.mpr ⟨member, rfl⟩
  generalize commands.filter Command.isRelease = more at advances kept
  cases advances with
  | keeps => cases kept
  | starts =>
    rw [List.mem_singleton] at kept
    cases kept
  | closesClient x settled waits owns => exact ⟨owns, waits, x, settled⟩
  | ends => cases kept

theorem ledger_of_idle (idle : s.teardown = .idle) (ledger : Ledger s sub released)
    (other : Option Nat) : Ledger s other released := by
  simpa only [Ledger, idle] using ledger

theorem ledger_advances {more : List Command} (same : t.setup = s.setup)
    (ledger : Ledger s sub released) (fixed : s.teardown = .idle → sub = s.subscription)
    (advances : Advances s t e more) : Ledger t sub (released ++ more) := by
  cases advances with
  | keeps kept => simpa only [Ledger, kept, same, List.append_nil] using ledger
  | starts idle begun =>
    simp only [Ledger, idle] at ledger
    simp [Ledger, begun, ledger, fixed idle]
  | closesClient x settled waits owns begun =>
    simp only [Ledger, waits] at ledger
    simp [Ledger, begun, same, owns, ledger]
  | ends d ends done =>
    cases ends with
    | unsubscribed x d waits cause =>
      simp only [Ledger, waits] at ledger
      simp only [Ledger, done, same, List.append_nil]
      refine .inr ⟨ledger, fun owns => ?_⟩
      rcases cause with ⟨-, unowned⟩ | thrown
      · rw [owns] at unowned
        cases unowned
      · exact thrown
    | clientClosed x d waits cause =>
      simp only [Ledger, waits] at ledger
      simpa only [Ledger, done, same, List.append_nil] using .inl ledger

theorem ledger_run (h : Consistent s) (ledger : Ledger s sub released) (history : History) :
    ∃ other, Ledger (s.run history) other (released ++ s.releases history) := by
  induction history generalizing s sub released with
  | nil => exact ⟨sub, by simpa [releases, Source.commands] using ledger⟩
  | cons o rest ih =>
    -- until the teardown begins, the ledger is empty and fits any subscription
    have start : ∃ first, Ledger s first released ∧
        (s.teardown = .idle → first = s.subscription) := by
      by_cases idle : s.teardown = .idle
      · exact ⟨s.subscription, ledger_of_idle idle ledger _, fun _ => rfl⟩
      · exact ⟨sub, ledger, fun unstarted => absurd unstarted idle⟩
    obtain ⟨first, written, fixed⟩ := start
    have next := ledger_advances (setup_change (change_step h o.1 o.2)) written fixed
      (advances_after h o)
    rw [releases_cons, ← List.append_assoc]
    exact ih (consistent_after h o) next

theorem prefix_of_ledger (ledger : Ledger s sub released) :
    released <+: [.unsubscribe sub, .closeClient] := by
  unfold Ledger at ledger
  split at ledger
  · exact ledger ▸ List.nil_prefix
  · exact ledger ▸ ⟨[.closeClient], rfl⟩
  · exact ledger.2 ▸ List.prefix_rfl
  · rcases ledger with ⟨-, both⟩ | ⟨one, -⟩
    · exact both ▸ List.prefix_rfl
    · exact one ▸ ⟨[.closeClient], rfl⟩

theorem done_of_advances {d : Ending} {more : List Command} (done : s.teardown = .done d)
    (advances : Advances s t e more) : t.teardown = .done d ∧ more = [] := by
  cases advances with
  | keeps same => exact ⟨same.trans done, rfl⟩
  | starts idle => simp [idle] at done
  | closesClient x settled waits => simp [waits] at done
  | ends d ends => rcases ends.runs with waits | waits <;> simp [waits] at done

theorem ended_run {d : Ending} (h : Consistent s) (done : s.teardown = .done d)
    (history : History) :
    (s.run history).teardown = .done d ∧ s.releases history = [] := by
  induction history generalizing s with
  | nil => exact ⟨done, rfl⟩
  | cons o rest ih =>
    obtain ⟨still, nothing⟩ := done_of_advances done (advances_after h o)
    obtain ⟨last, silent⟩ := ih (consistent_after h o) still
    exact ⟨last, by rw [releases_cons, nothing, silent]; rfl⟩

/-- How a call of `close` ends when the teardown has ended so: with what the sink threw, at
the latest when it was told that the source is closed. -/
def Reported (s : Source) (d r : Ending) : Prop :=
  (∃ v, s.setup.Throws v ∧ d = .error v ∧ r = .error v)
    ∨ d = .ok () ∧ ∃ earlier m later, s.log = earlier ++ closedEntry m :: later
      ∧ r = ending (s.setup.sink earlier (closedEntry m))

def Settled (s : Source) : Prop :=
  ∀ r, s.closing = some (.settled r) → ∃ d, s.teardown = .done d ∧ Reported s d r

theorem settled_change (h : Consistent s) (known : Settled s) (change : Change s m e commands t) :
    Settled t := by
  intro r settled
  cases change with
  | ignores => exact known r settled
  | tolerates _ v asked log serves =>
    simp [closing_of_ready h.lifecycle serves] at settled
  | applies context picked log lives =>
    rcases lives with starts | serves
    · simp [closing_of_init h starts] at settled
    · simp [closing_of_ready h.lifecycle serves] at settled
  | fails => exact known r settled
  | closes => cases settled
  | subscribes => exact known r settled
  | misses v => simpa [Reported] using known r (by simpa using settled)
  | expires ms => simpa [Reported] using known r (by simpa using settled)
  | stopsTimer => exact known r settled
  | handsOut => exact known r settled
  | givesUp stops o waits opened failed =>
    simp [closing_of_failed h opened failed] at settled
  | closesClient x log waits =>
    obtain ⟨d, done, -⟩ := known r settled
    simp [waits] at done
  | reports _ d o last log ends =>
    obtain ⟨d, done, -⟩ := known r settled
    rcases ends.runs with waits | waits <;> simp [waits] at done
  | settles _ d last earlier later ends pending result =>
    cases settled
    refine ⟨d, rfl, ?_⟩
    rcases result with ⟨v, rfl, rfl⟩ | ⟨rfl, rest, rfl, rfl⟩
    · exact .inl ⟨v, ends.throws, rfl, rfl⟩
    · exact .inr ⟨rfl, earlier, m, rest, rfl, rfl⟩

theorem settled_keeps {r : Ending} (h : Consistent s) (settled : s.closing = some (.settled r))
    (change : Change s m e commands t) : t.closing = some (.settled r) := by
  cases change with
  | closes _ asked byFailure log serves =>
    simp [closing_of_ready h.lifecycle serves] at settled
  | settles _ d last earlier later ends pending =>
    simp [pending] at settled
  | misses => simpa using settled
  | expires => simpa using settled
  | _ => exact settled

/-- A creation ends with an error only after a teardown that ended without one. -/
def Refused (s : Source) : Prop :=
  ∀ f, s.opening = .done (.refused f) → s.teardown = .done (.ok ())

theorem refused_change (h : Consistent s) (known : Refused s) (change : Change s m e commands t) :
    Refused t := by
  intro f refused
  have kept (before : s.opening = .done (.refused f)) : t.teardown = .done (.ok ()) :=
    (done_of_advances (known f before) (advances_change h change)).1
  cases change with
  | reports _ d o r log ends tears result =>
    rcases result with ⟨rfl, -⟩ | ⟨v, -, rfl⟩
    · rfl
    · cases refused
  | subscribes => cases refused
  | misses => cases refused
  | stopsTimer => cases refused
  | handsOut => cases refused
  | givesUp => cases refused
  | expires => exact kept (by simpa using refused)
  | _ => exact kept refused

theorem finished_of_failed_creation {r : Opened} (h : Consistent s) (done : s.opening = .done r)
    (failed : r ≠ .ok) : ∃ d, s.teardown = .done d := by
  have fits := h.opening
  have ended : s.lifecycle = .failed := by
    cases r with
    | ok => exact absurd rfl failed
    | refused f => simpa only [OpeningFits, done] using fits
    | rejected v => simpa only [OpeningFits, done] using fits
  have unclosed : s.closing = none := by
    cases hc : s.closing with
    | none => rfl
    | some c => simp [closed_of_closing h hc] at ended
  have finished : s.teardown.stage = .finished := by
    rw [h.teardown, stage, unclosed, done]
    cases r with
    | ok => exact absurd rfl failed
    | refused f => rfl
    | rejected v => rfl
  cases ht : s.teardown with
  | done d => exact ⟨d, rfl⟩
  | _ => simp [ht, Teardown.stage] at finished

theorem closing_isSome_iff (h : Consistent s) :
    s.closing.isSome = true ↔ s.lifecycle = .closed := by
  constructor
  · intro called
    obtain ⟨c, called⟩ := Option.isSome_iff_exists.mp called
    exact closed_of_closing h called
  · intro closed
    have fits := h.lifecycle
    unfold phase at fits
    split at fits <;> simp_all

structure Unwinds (s : Source) : Prop where
  consistent : Consistent s
  begun : s.teardown ≠ .idle

structure Stopped (s : Source) : Prop extends Unwinds s where
  stopped : s.teardown ≠ .unsubscribing

theorem unwinds_after (h : Unwinds s) (o : Moment × Event) : Unwinds (s.after o) := by
  refine ⟨consistent_after h.consistent o, ?_⟩
  have begun := h.begun
  obtain ⟨more, advances⟩ := advances_of h.consistent o
  cases advances with
  | keeps same => rwa [same]
  | starts idle => exact absurd idle begun
  | closesClient x settled waits owns next => simp [next]
  | ends d ends done => simp [done]

theorem stopped_after (h : Stopped s) (o : Moment × Event) : Stopped (s.after o) := by
  refine ⟨unwinds_after h.toUnwinds o, ?_⟩
  have stopped := h.stopped
  obtain ⟨more, advances⟩ := advances_of h.consistent o
  cases advances with
  | keeps same => rwa [same]
  | starts idle => exact absurd idle h.begun
  | closesClient x settled waits owns next => simp [next]
  | ends d ends done => simp [done]

theorem stopped_of_unsubscribed {x : Ending} {more : List Command}
    (advances : Advances s t (.unsubscribed x) more) : t.teardown ≠ .unsubscribing := by
  intro waits
  cases advances with
  | keeps same apart =>
    rw [same] at waits
    cases apart (by simp [expects, waits])
  | starts idle begun apart => cases apart
  | closesClient y settled before owns next => simp [next] at waits
  | ends d ends done => simp [done] at waits

theorem done_of_clientClosed {x : Ending} {more : List Command} (h : Stopped s)
    (advances : Advances s t (.clientClosed x) more) : ∃ d, t.teardown = .done d := by
  cases advances with
  | keeps same apart =>
    cases ht : s.teardown with
    | idle => exact absurd ht h.begun
    | unsubscribing => exact absurd ht h.stopped
    | closingClient => cases apart (by simp [expects, ht])
    | done d => exact ⟨d, same.trans ht⟩
  | starts idle => exact absurd idle h.begun
  | closesClient y settled => cases settled
  | ends d ends done => exact ⟨d, done⟩

theorem done_of_sublist {h : History} {x y : Ending} (unwinds : Unwinds s)
    (comes : [Event.unsubscribed x, .clientClosed y].Sublist (h.map Prod.snd)) :
    ∃ d, (s.run h).teardown = .done d := by
  have stops (s : Source) (m : Moment) (known : Unwinds s) :
      Stopped (s.after (m, .unsubscribed x)) :=
    ⟨unwinds_after known _, stopped_of_unsubscribed (advances_after known.consistent _)⟩
  have finishes (s : Source) (m : Moment) (known : Stopped s) :
      Consistent (s.after (m, .clientClosed y)) ∧
        ∃ d, (s.after (m, .clientClosed y)).teardown = .done d :=
    ⟨consistent_after known.consistent _,
      done_of_clientClosed known (advances_after known.consistent _)⟩
  obtain ⟨a, rest, rfl, stopped, comes⟩ :=
    run_reaches (fun _ o known => unwinds_after known o) stops unwinds comes
  obtain ⟨b, c, rfl, ⟨steady, d, done⟩, -⟩ :=
    run_reaches (Q := fun s => Consistent s ∧ ∃ d, s.teardown = .done d)
      (fun _ o known => stopped_after known o) finishes stopped comes
  exact ⟨d, by simpa using (ended_run steady done c).1⟩

end

theorem settled_of_done {s : Source} {d : Ending} (h : Consistent s)
    (called : s.closing.isSome = true) (done : s.teardown = .done d) :
    ∃ r, s.closing = some (.settled r) := by
  have finished : s.stage = .finished := by
    rw [← h.teardown, done]
    rfl
  unfold stage at finished
  split at finished
  · cases finished
  · rename_i r settled
    exact ⟨r, settled⟩
  · rename_i uncalled
    simp [uncalled] at called

theorem begun_of_closing {s : Source} (h : Consistent s) (called : s.closing.isSome = true) :
    s.teardown ≠ .idle := by
  obtain ⟨c, called⟩ := Option.isSome_iff_exists.mp called
  intro idle
  have resting : s.stage = .idle := by
    rw [← h.teardown, idle]
    rfl
  cases c <;> simp [stage, called] at resting

theorem closing_keeps {s t : Source} {m : Moment} {e : Event} {commands : List Command}
    (called : s.closing.isSome = true) (change : Change s m e commands t) :
    t.closing.isSome = true := by
  cases change with
  | closes => rfl
  | settles => rfl
  | misses => simpa using called
  | expires => simpa using called
  | _ => exact called

theorem ledger_source (setup : Setup) (h : History) :
    ∃ sub, Ledger (setup.source.run h) sub (setup.source.releases h) := by
  have blank : Ledger setup.source none [] := rfl
  simpa using ledger_run (consistent_source setup) blank h

/-- What is true of a teardown after every run. It gives back the subscription and then the
client, each once at most, and the client only if it was built for the source and the end of the
subscription has been heard of. Whoever closes the source waits for the same end, which comes
when the teardown ends and stays as it is. A creation that fails has had its teardown before. -/
structure OneTeardown (deps : Deps) (setup : Setup) (built : Option Endpoint.Address)
    (h : History) : Prop where
  inOrder : ∃ sub, setup.source.releases h <+: [.unsubscribe sub, .closeClient]
  first : ∀ m e sub, .unsubscribe sub ∈ ((setup.source.run h).step m e).commands →
    setup.source.releases h = [] ∧ sub = (setup.source.run h).subscription
  second : ∀ m e, .closeClient ∈ ((setup.source.run h).step m e).commands →
    (∃ x, e = .unsubscribed x) ∧ (∃ sub, setup.source.releases h = [.unsubscribe sub]) ∧
      deps.hasClient = false ∧ ∃ address build, built = some address ∧
        deps.factory = some build ∧ build address = .ok ()
  closed : (setup.source.run h).closing.isSome = true ↔ (setup.source.run h).lifecycle = .closed
  called : ∀ m, (setup.source.run h).isHandedOut = true →
    ((setup.source.run h).step m .close).source.closing.isSome = true
  again : ∀ m, (setup.source.run h).closing.isSome = true →
    (setup.source.run h).step m .close = { source := setup.source.run h }
  together : (setup.source.run h).closing.isSome = true →
    ((∃ r, (setup.source.run h).closing = some (.settled r))
      ↔ ∃ d, (setup.source.run h).teardown = .done d)
  outcome : ∀ r, (setup.source.run h).closing = some (.settled r) →
    ∃ d, (setup.source.run h).teardown = .done d ∧ Reported (setup.source.run h) d r
  final : ∀ r, (setup.source.run h).closing = some (.settled r) →
    ∀ later, (setup.source.run (h ++ later)).closing = some (.settled r)
  settles : (setup.source.run h).closing.isSome = true →
    ∀ later x y, [Event.unsubscribed x, .clientClosed y].Sublist (later.map Prod.snd) →
      ∃ r, (setup.source.run (h ++ later)).closing = some (.settled r)
  failed : ∀ r, (setup.source.run h).opening = .done r → r ≠ .ok →
    (∃ sub rest, setup.source.releases h = .unsubscribe sub :: rest) ∧
      ∀ later, setup.source.releases (h ++ later) = setup.source.releases h
  refused : ∀ f, (setup.source.run h).opening = .done (.refused f) →
    (setup.source.run h).teardown = .done (.ok ()) ∧ ∃ sub, setup.source.releases h =
      .unsubscribe sub :: if built.isSome then [.closeClient] else []

theorem called_of_handedOut {s : Source} (held : s.isHandedOut = true) (m : Moment) :
    (s.step m .close).source.closing.isSome = true := by
  simp only [step, held, if_true]
  cases called : s.closing with
  | some c => simp [close_of_closing called, called]
  | none => simp [close, called, startTeardown]

theorem again_of_closing {s : Source} (called : s.closing.isSome = true) (m : Moment) :
    s.step m .close = { source := s } := by
  obtain ⟨c, called⟩ := Option.isSome_iff_exists.mp called
  simp [step, close_of_closing called]

theorem settled_iff_done {s : Source} (h : Consistent s) (called : s.closing.isSome = true) :
    (∃ r, s.closing = some (.settled r)) ↔ ∃ d, s.teardown = .done d := by
  constructor
  · rintro ⟨r, settled⟩
    have finished : s.teardown.stage = .finished := by rw [h.teardown, stage, settled]
    cases ht : s.teardown with
    | done d => exact ⟨d, rfl⟩
    | _ => simp [ht, Teardown.stage] at finished
  · rintro ⟨d, done⟩
    exact settled_of_done h called done

theorem began_of_ledger {s : Source} {sub : Option Nat} {released : List Command}
    (ledger : Ledger s sub released) (begun : s.teardown ≠ .idle) :
    ∃ rest, released = .unsubscribe sub :: rest := by
  unfold Ledger at ledger
  split at ledger
  · rename_i idle
    exact absurd idle begun
  · exact ⟨[], ledger⟩
  · exact ⟨_, ledger.2⟩
  · rcases ledger with ⟨-, both⟩ | ⟨one, -⟩
    · exact ⟨_, both⟩
    · exact ⟨_, one⟩

theorem released_of_done {s : Source} {sub : Option Nat} {released : List Command} {d : Ending}
    (ledger : Ledger s sub released) (done : s.teardown = .done d)
    (uncut : ∀ v, s.setup.Throws v → d ≠ .error v) :
    released = .unsubscribe sub :: if s.setup.ownsClient then [.closeClient] else [] := by
  simp only [Ledger, done] at ledger
  rcases ledger with ⟨owns, both⟩ | ⟨one, thrown⟩
  · simp [owns, both]
  · have unowned : s.setup.ownsClient = false := by
      cases owns : s.setup.ownsClient with
      | false => rfl
      | true =>
        obtain ⟨v, throws, ended⟩ := thrown owns
        exact absurd ended (uncut v throws)
    simp [unowned, one]

theorem run_has_one_teardown {deps : Deps} {options : Options} {setup : Setup}
    {built : Option Endpoint.Address} (plan : Plan.make deps options = .start setup built)
    (h : History) : OneTeardown deps setup built h := by
  have consistent : Consistent (setup.source.run h) := consistent_run setup h
  obtain ⟨chosen, -, owner⟩ := Plan.of_make_eq_start plan
  obtain ⟨sub, ledger⟩ := ledger_source setup h
  have same : (setup.source.run h).setup = setup := setup_run setup h
  have advances (m : Moment) (e : Event) := advances_after consistent (m, e)
  constructor
  case inOrder => exact ⟨sub, prefix_of_ledger ledger⟩
  case first =>
    intro m e other member
    obtain ⟨idle, stored⟩ := of_unsubscribe_mem member (advances m e)
    exact ⟨by simpa only [Ledger, idle] using ledger, stored⟩
  case second =>
    intro m e member
    obtain ⟨owns, waits, settled⟩ := of_closeClient_mem member (advances m e)
    have builds : built.isSome = true := by rw [← owner, ← same, owns]
    obtain ⟨address, rfl⟩ := Option.isSome_iff_exists.mp builds
    obtain ⟨ungiven, build, given, made⟩ := Plan.of_chooseClient_eq_some chosen
    exact ⟨settled, ⟨sub, by simpa only [Ledger, waits] using ledger⟩, ungiven, address, build,
      rfl, given, made⟩
  case closed => exact closing_isSome_iff consistent
  case called => exact fun m held => called_of_handedOut held m
  case again => exact fun m called => again_of_closing called m
  case together => exact settled_iff_done consistent
  case outcome =>
    have unsettled : Settled setup.source := fun r settled => by cases settled
    exact run_keeps_of_change settled_change (consistent_source setup) unsettled h
  case final =>
    intro r settled later
    rw [run_append]
    exact run_keeps_of_change settled_keeps consistent settled later
  case settles =>
    intro called later x y comes
    rw [run_append]
    have still : (((setup.source.run h).run later).closing).isSome = true :=
      run_keeps_of_change (P := fun s => s.closing.isSome = true)
        (fun _ kept change => closing_keeps kept change) consistent called later
    obtain ⟨d, done⟩ := done_of_sublist ⟨consistent, begun_of_closing consistent called⟩ comes
    rw [← run_append] at still done ⊢
    exact settled_of_done (consistent_run setup _) still done
  case failed =>
    intro r done failing
    obtain ⟨d, finished⟩ := finished_of_failed_creation consistent done failing
    refine ⟨⟨sub, began_of_ledger ledger (by simp [finished])⟩, fun later => ?_⟩
    rw [releases_append, (ended_run consistent finished later).2, List.append_nil]
  case refused =>
    intro f refused
    have unrefused : Refused setup.source := fun f refused => by cases refused
    have done : (setup.source.run h).teardown = .done (.ok ()) :=
      run_keeps_of_change refused_change (consistent_source setup) unrefused h f refused
    refine ⟨done, sub, ?_⟩
    rw [released_of_done ledger done (fun _ _ => nofun), same, owner]

theorem run_has_one_teardown_of_failed_watch :
    let deps : Deps := { factory := some fun _ => .ok () }
    let options : Options := { endpoint := some "unix:/a", policy := .close }
    let setup : Setup := { policy := .close, endpoint := some "unix:///a", ownsClient := true }
    let h : History := [(⟨0, 0⟩, .subscribed 4), (⟨1, 1⟩, .update .single), (⟨2, 2⟩, .proceed),
      (⟨3, 3⟩, .error .absent), (⟨4, 4⟩, .close), (⟨5, 5⟩, .unsubscribed (.error .absent)),
      (⟨6, 6⟩, .clientClosed (.error .absent))]
    Plan.make deps options = .start setup (some (.unix "/a")) ∧
      OneTeardown deps setup (some (.unix "/a")) h ∧
      (setup.source.run h).closing = some (.settled (.ok ())) := by
  intro deps options setup h
  have plan : Plan.make deps options = .start setup (some (.unix "/a")) := rfl
  exact ⟨plan, run_has_one_teardown plan h, rfl⟩

end Source

end WorkloadIdentity.Watch
