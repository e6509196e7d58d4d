import WorkloadIdentity.Proofs.Source.Entries
import WorkloadIdentity.Proofs.Source.Verdict

/-! What becomes of the failures of others: of the factory, of the call that begins the
watch, of the watch, of the selector, of the unsubscription and of the close of a client.
None is passed on as a throw. A failure before the first update ends the creation with a
fault that says what was thrown; a failure of a teardown costs a warning, and the teardown
goes on. The sink is taken to be one that never throws. -/

namespace WorkloadIdentity.Watch

open Endpoint

/-- What a fault says of the failure for which a source could not be started. -/
inductive Obstacle.Explained (deps : Deps) (options : Options) (f : Fault) : Prop
  | unusable (coded : f.code? = some "configuration")
  | factory (address : Address) (build : Factory) (v : Value)
      (found : Address.find options.endpoint deps.environment = .ok address)
      (given : deps.factory = some build) (threw : build address = .error v)
      (coded : f.code? = some "connection") (cause : f.cause = v)

theorem AddressProblem.code_fault (p : AddressProblem) (now : Int) :
    (p.fault now).code? = some "configuration" := by
  cases p <;> rfl

namespace Plan

theorem badTimeout_of_refused {v : Value} {o : Obstacle} (refused : initTimeout? v = .error o) :
    o = .badTimeout v := by
  unfold initTimeout? at refused
  split at refused
  · cases refused
  · split at refused <;> cases refused
    rfl
  · cases refused
    rfl

theorem explained_of_chooseClient {deps : Deps} {options : Options} {o : Obstacle}
    (refused : chooseClient deps options = .error o) (now : Int) :
    Obstacle.Explained deps options (o.fault now) := by
  unfold chooseClient at refused
  split at refused
  · cases refused
  · split at refused
    · rename_i p _
      cases refused
      exact .unusable (AddressProblem.code_fault p now)
    · rename_i address found
      split at refused
      · cases refused
        exact .unusable rfl
      · rename_i build given
        split at refused
        · rename_i v threw
          cases refused
          exact .factory address build v found given threw rfl rfl
        · cases refused

theorem explained_of_refuse {deps : Deps} {options : Options} {o : Obstacle}
    (plan : make deps options = .refuse o) (now : Int) :
    Obstacle.Explained deps options (o.fault now) := by
  unfold make at plan
  split at plan
  · rename_i refused
    cases plan
    rw [badTimeout_of_refused refused]
    exact .unusable rfl
  · split at plan
    · rename_i refused
      cases plan
      exact explained_of_chooseClient refused now
    · cases plan

theorem refuse_of_factory {deps : Deps} {options : Options} {limit : Option Float}
    {address : Address} {build : Factory} {v : Value}
    (limited : initTimeout? options.initTimeout = .ok limit) (missing : deps.hasClient = false)
    (found : Address.find options.endpoint deps.environment = .ok address)
    (given : deps.factory = some build) (threw : build address = .error v) :
    make deps options = .refuse (.factoryThrew address v) := by
  simp [make, limited, chooseClient, missing, found, given, threw]

end Plan

def Deps.Quiet (deps : Deps) : Prop :=
  ∀ sink ∈ deps.sink, ∀ earlier entry, sink earlier entry = none

theorem Plan.quiet_of_make {deps : Deps} {options : Options} {setup : Setup}
    {built : Option Address} (quiet : deps.Quiet) (plan : make deps options = .start setup built) :
    setup.Quiet := by
  unfold make at plan
  split at plan
  · cases plan
  · split at plan
    · cases plan
    · cases plan
      intro earlier entry
      cases given : deps.sink with
      | none => rfl
      | some sink => exact quiet sink given earlier entry

/-- What the fault of a failed creation says of the event that decided it. -/
inductive Setup.Explains (setup : Setup) (f : Fault) : Moment × Event → Prop
  | timer (m : Moment) (ms : Float) (limit : setup.initTimeout = some ms)
      (coded : f.code? = some "timeout") : Explains setup f (m, .timerEnded)
  | watch (m : Moment) (v : Value) (coded : f.code? = some "connection") (cause : f.cause = v) :
    Explains setup f (m, .error v)
  | call (m : Moment) (v : Value) (coded : f.code? = some "connection") (cause : f.cause = v) :
    Explains setup f (m, .watchThrew v)
  | selectorThrew (m : Moment) (context : Context) (v : Value)
      (threw : setup.selector [] context.candidates = .error v)
      (coded : f.code? = some "connection")
      (cause : f.cause = .fault (v.adopt m.wall Source.selectorCode)) :
    Explains setup f (m, .update context)
  | selectedStranger (m : Moment) (context : Context) (picked : Option Candidate)
      (answered : setup.selector [] context.candidates = .ok picked)
      (stranger : ∀ c ∈ picked, c ∉ context.candidates)
      (coded : f.code? = some "connection")
      (cause : f.cause = .fault (Source.strangerFault m.wall)) :
    Explains setup f (m, .update context)

namespace Source

theorem accept_eq_error_iff {now : Int} {candidates : List Candidate}
    {answer : Except Value (Option Candidate)} {f : Fault} :
    accept now candidates answer = .error f ↔
      (∃ v, answer = .error v ∧ f = v.adopt now selectorCode) ∨
        ∃ picked, answer = .ok picked ∧ (∀ c ∈ picked, c ∉ candidates) ∧
          f = strangerFault now := by
  rcases answer with v | _ | other
  · simp [accept, eq_comm]
  · simp [accept, eq_comm]
  · by_cases listed : isCandidate candidates other = true
    · have member : other ∈ candidates := isCandidate_iff_mem.mp listed
      simp [accept, listed, member]
    · have stranger : other ∉ candidates := fun member => listed (isCandidate_iff_mem.mpr member)
      simp [accept, listed, stranger, eq_comm]

theorem explains_of_verdict {setup : Setup} {p : Moment × Event} {o : Outcome} {now : Int}
    {f : Fault} (decided : setup.verdict p = some o) (refused : o.opened now = .refused f) :
    setup.Explains f p := by
  obtain ⟨m, e⟩ := p
  cases e with
  | update context =>
    simp only [Setup.verdict] at decided
    split at decided
    · cases decided
      cases refused
    · rename_i r unaccepted
      cases decided
      cases refused
      rcases accept_eq_error_iff.mp unaccepted with
        ⟨v, threw, rfl⟩ | ⟨picked, answered, stranger, rfl⟩
      · exact .selectorThrew m context v threw rfl rfl
      · exact .selectedStranger m context picked answered stranger rfl rfl
  | error v =>
    cases decided
    cases refused
    exact .watch m v rfl rfl
  | watchThrew v =>
    cases decided
    cases refused
    exact .call m v rfl rfl
  | timerEnded =>
    obtain ⟨ms, limit, rfl⟩ := Option.map_eq_some_iff.mp decided
    cases refused
    exact .timer m ms limit rfl
  | _ => cases decided

def clientWarning (m : Moment) (v : Value) : Log.Entry :=
  ⟨.warn, "Failed to close the Workload API client", some [("err", v)], m.wall⟩

/-- The warning that the end of a step of a teardown costs. -/
def warning? : Moment × Event → Option Log.Entry
  | (m, .unsubscribed (.error v)) => some (stopWarning m v)
  | (m, .clientClosed (.error v)) => some (clientWarning m v)
  | _ => none

def isTeardownWarning (entry : Log.Entry) : Bool :=
  entry.severity = .warn && entry.message ≠ keptMessage

section
variable {s t : Source} {m : Moment} {e : Event}

theorem filter_warned {message : String} (teardown : message ≠ keptMessage) (m : Moment)
    (d : Ending) : (warned m message d).filter isTeardownWarning = warned m message d := by
  cases d <;> simp [warned, isTeardownWarning, teardown]

theorem filter_farewell (s : Source) (m : Moment) :
    (s.farewell m).filter isTeardownWarning = [] := by
  unfold farewell
  split <;> simp [closedEntry, isTeardownWarning]

theorem filter_unwound (s : Source) (m : Moment) (e : Event) :
    (s.unwound m e).filter isTeardownWarning = (warning? (m, e)).toList := by
  cases e with
  | unsubscribed d =>
    rw [unwound, List.filter_append, filter_warned (by decide)]
    cases s.setup.ownsClient <;> cases d <;>
      simp [filter_farewell, warned, warning?, stopWarning]
  | clientClosed d =>
    rw [unwound, List.filter_append, filter_warned (by decide), filter_farewell]
    cases d <;> simp [warned, warning?, clientWarning]
  | _ => rfl

theorem filter_entries (s : Source) (m : Moment) (e : Event) :
    (s.entries (m, e)).filter isTeardownWarning =
      if s.expects e then (warning? (m, e)).toList else [] := by
  have update (first : Bool) (m : Moment) (n : Nat) (picked : Candidate) :
      isTeardownWarning (updateEntry first m n picked) = false := by
    cases first <;> rfl
  have setback (policy : FailurePolicy) (m : Moment) (v : Value) (n : Nat) :
      isTeardownWarning (failureEntry policy m v n) = false := by
    cases policy <;> simp [isTeardownWarning, failureEntry]
  rw [entries, List.filter_append, List.filter_append, filter_updates update,
    filter_setbacks setback]
  cases s.expects e <;> simp [filter_unwound]

theorem over_of_teardown (h : Consistent s)
    (runs : s.teardown = .unsubscribing ∨ s.teardown = .closingClient) :
    s.lifecycle = .closed ∨ s.lifecycle = .failed := by
  rcases pending_or_tearing h runs with pending | ⟨o, tears⟩
  · exact .inl (closed_of_closing h pending)
  · obtain ⟨opened, failed⟩ := opened_of_tearing h tears
    exact .inr (failed_of_opened h opened failed)

theorem runs_of_warning {o : Moment × Event} (warns : (warning? o).isSome = true)
    (expected : s.expects o.2 = true) :
    s.teardown = .unsubscribing ∨ s.teardown = .closingClient := by
  obtain ⟨m, e⟩ := o
  cases e with
  | unsubscribed d => exact .inl (expects_unsubscribed_iff.mp expected)
  | clientClosed d => exact .inr (expects_clientClosed_iff.mp expected)
  | _ => cases warns

theorem settled_of_sublist {h : History} {x y : Ending} (steady : Consistent s)
    (called : s.closing.isSome = true)
    (comes : [Event.unsubscribed x, .clientClosed y].Sublist (h.map Prod.snd)) :
    ∃ r, (s.run h).closing = some (.settled r) := by
  have still : Consistent (s.run h) ∧ (s.run h).closing.isSome = true :=
    run_keeps_of_change (P := fun t => Consistent t ∧ t.closing.isSome = true)
      (fun t kept change => ⟨consistent_change t change, closing_keeps kept.2 change⟩)
      steady ⟨steady, called⟩ h
  obtain ⟨d, done⟩ := done_of_sublist ⟨steady, begun_of_closing steady called⟩ comes
  exact settled_of_done still.1 still.2 done

end

theorem warnings_run {s : Source} (quiet : s.setup.Quiet) (h : Consistent s) (history : History) :
    (s.run history).log.filter isTeardownWarning =
      s.log.filter isTeardownWarning ++ (s.heard history).filterMap warning? := by
  induction history generalizing s with
  | nil => simp [heard]
  | cons o rest ih =>
    have same : (s.after o).setup = s.setup := setup_change (change_step h o.1 o.2)
    have logged : (s.after o).log = s.log ++ s.entries o := (logs_step quiet h o.1 o.2).entries
    rw [run_cons, ih (same ▸ quiet) (consistent_after h o), logged, List.filter_append,
      filter_entries, List.append_assoc]
    -- a failure that is not heard is not warned of either
    by_cases expected : s.expects o.2 = true
    · simp only [heard, expected, if_true]
      cases hw : warning? o <;> simp [hw]
    · have unmoved : s.after o = s := after_of_not_expects (by simpa using expected)
      simp [heard, expected, unmoved]

theorem explained_run {setup : Setup} (quiet : setup.Quiet) {h : History} {f : Fault}
    (refused : (setup.source.run h).opening = .done (.refused f)) :
    ∃ before o rest, setup.source.heard h = before ++ o :: rest ∧
      (∀ p ∈ before, setup.verdict p = none) ∧ setup.Explains f o := by
  obtain ⟨o, now, opened, ended⟩ := judged_run quiet h _ refused
  rw [opened_run (consistent_source setup) h] at opened
  obtain ⟨before, p, rest, split, decided, undecided⟩ := List.findSome?_eq_some_iff.mp opened
  exact ⟨before, p, rest, split, undecided, explains_of_verdict decided ended.symm⟩

theorem done_of_heard {setup : Setup} {h later : History} {o : Moment × Event} {x y : Ending}
    (member : o ∈ setup.source.heard h) (decides : (setup.verdict o).isSome = true)
    (called : (setup.source.run h).opening ≠ .subscribing)
    (comes : [Event.proceed, .timerEnded, .proceed, .unsubscribed x, .clientClosed y].Sublist
      (later.map Prod.snd)) :
    ∃ r, (setup.source.run (h ++ later)).opening = .done r := by
  have passed : (setup.source.run h).gate.opened.isSome = true := by
    rw [opened_run (consistent_source setup) h]
    exact List.findSome?_isSome_iff.mpr ⟨o, member, decides⟩
  have begun : 1 ≤ (setup.source.run h).opening.rank := by
    cases ho : (setup.source.run h).opening with
    | subscribing => exact absurd ho called
    | _ => simp [Opening.rank]
  rw [run_append]
  exact done_of_decided ⟨consistent_run setup h, passed, begun⟩ comes

theorem of_settled {setup : Setup} (quiet : setup.Quiet) {h : History} {r : Ending}
    (settled : (setup.source.run h).closing = some (.settled r)) :
    r = .ok () ∧ (setup.source.run h).teardown = .done (.ok ()) ∧
      ∃ m, closedEntry m ∈ (setup.source.run h).log := by
  have unsettled : Settled setup.source := fun r settled => by cases settled
  obtain ⟨d, done, reported⟩ :=
    run_keeps_of_change settled_change (consistent_source setup) unsettled h r settled
  rw [Reported, setup_run] at reported
  rcases reported with ⟨v, throws, -⟩ | ⟨rfl, earlier, m, later, log, told⟩
  · exact absurd throws (quiet.not_throws v)
  · rw [told, quiet _ _]
    exact ⟨rfl, done, m, by simp [log]⟩

theorem over_of_warning {s : Source} (h : Consistent s) {o : Moment × Event}
    (warns : (warning? o).isSome = true) (expected : s.expects o.2 = true) (history : History) :
    (s.run history).lifecycle = .closed ∨ (s.run history).lifecycle = .failed := by
  have ended := over_of_teardown h (runs_of_warning warns expected)
  have kept : (s.run history).lifecycle = s.lifecycle := by
    refine over_run h (fun k next => ?_) history
    rcases ended with closed | failed
    · rw [closed] at next
      cases next
    · rw [failed] at next
      cases next
  rwa [kept]

/-- What becomes of the failures of others in every run. -/
structure Contained (setup : Setup) (h : History) : Prop where
  silent : ∀ m e, ((setup.source.run h).step m e).thrown = none
  fulfilled : ∀ v, (setup.source.run h).opening ≠ .done (.rejected v)
  ends : ∀ o ∈ setup.source.heard h, (setup.verdict o).isSome = true →
    (setup.source.run h).opening ≠ .subscribing → ∀ later x y,
      [Event.proceed, .timerEnded, .proceed, .unsubscribed x, .clientClosed y].Sublist
        (later.map Prod.snd) → ∃ r, (setup.source.run (h ++ later)).opening = .done r
  explained : ∀ f, (setup.source.run h).opening = .done (.refused f) →
    ∃ before o rest, setup.source.heard h = before ++ o :: rest ∧
      (∀ p ∈ before, setup.verdict p = none) ∧ setup.Explains f o
  closesWell : ∀ r, (setup.source.run h).closing = some (.settled r) → r = .ok ()
  called : ∀ m, (setup.source.run h).isHandedOut = true →
    ((setup.source.run h).step m .close).source.closing.isSome = true
  settles : (setup.source.run h).closing.isSome = true → ∀ later x y,
    [Event.unsubscribed x, .clientClosed y].Sublist (later.map Prod.snd) →
      (setup.source.run (h ++ later)).closing = some (.settled (.ok ()))
  warned : (setup.source.run h).log.filter isTeardownWarning =
    (setup.source.heard h).filterMap warning?
  stays : ∀ o, (warning? o).isSome = true → (setup.source.run h).expects o.2 = true →
    ∀ later, (setup.source.run (h ++ o :: later)).lifecycle = .closed ∨
      (setup.source.run (h ++ o :: later)).lifecycle = .failed
  goesOn : ∀ m x, (setup.source.run h).teardown = .unsubscribing → setup.ownsClient = true →
    ((setup.source.run h).step m (.unsubscribed x)).commands = [.closeClient]

theorem contained_run {setup : Setup} (quiet : setup.Quiet) (h : History) :
    Contained setup h := by
  have steady : Consistent (setup.source.run h) := consistent_run setup h
  have same : (setup.source.run h).setup = setup := setup_run setup h
  have silence : (setup.source.run h).setup.Quiet := by rwa [same]
  constructor
  case silent => exact fun m e => (logs_step silence steady m e).silent
  case fulfilled =>
    intro v rejected
    obtain ⟨o, now, -, ended⟩ := judged_run quiet h _ rejected
    cases o <;> cases ended
  case ends => exact fun o member decides called later x y => done_of_heard member decides called
  case explained => exact fun f refused => explained_run quiet refused
  case closesWell => exact fun r settled => (of_settled quiet settled).1
  case called => exact fun m held => called_of_handedOut held m
  case settles =>
    intro called later x y comes
    obtain ⟨r, settled⟩ := settled_of_sublist steady called comes
    rw [← run_append] at settled
    rw [settled, (of_settled quiet settled).1]
  case warned => exact warnings_run quiet (consistent_source setup) h
  case stays =>
    intro o warns expected later
    rw [run_append]
    exact over_of_warning steady warns expected (o :: later)
  case goesOn =>
    intro m x waits owns
    exact commands_of_quiet silence waits (by rwa [same])

/-- Failures of the factory, the client and the selector end in faults and warnings, never in a
throw, and keep no step of a teardown from being taken. -/
theorem failures_are_contained (deps : Deps) (options : Options) (quiet : deps.Quiet) :
    (∀ o, Plan.make deps options = .refuse o → ∀ now,
      Obstacle.Explained deps options (o.fault now)) ∧
    (∀ limit address build v, initTimeout? options.initTimeout = .ok limit →
      deps.hasClient = false → Address.find options.endpoint deps.environment = .ok address →
      deps.factory = some build → build address = .error v →
      ∃ o, Plan.make deps options = .refuse o ∧ ∀ now,
        (o.fault now).code? = some "connection" ∧ (o.fault now).cause = v) ∧
    ∀ setup built, Plan.make deps options = .start setup built → ∀ h, Contained setup h := by
  refine ⟨fun o plan now => Plan.explained_of_refuse plan now, ?_, fun setup built plan h => ?_⟩
  · intro limit address build v limited missing found given threw
    exact ⟨_, Plan.refuse_of_factory limited missing found given threw, fun now => ⟨rfl, rfl⟩⟩
  · exact contained_run (Plan.quiet_of_make quiet plan) h

theorem failures_are_contained_of_teardown :
    let deps : Deps := { factory := some fun _ => .ok (), sink := some fun _ _ => none }
    let options : Options := { endpoint := some "unix:/a" }
    let setup : Setup := { endpoint := some "unix:///a", ownsClient := true }
    let h : History := [(⟨0, 0⟩, .watchThrew (.text "refused")), (⟨1, 1⟩, .proceed),
      (⟨2, 2⟩, .unsubscribed (.error .absent)), (⟨3, 3⟩, .clientClosed (.error .null))]
    deps.Quiet ∧ Plan.make deps options = .start setup (some (.unix "/a")) ∧
      (setup.source.run h).log.filter isTeardownWarning =
        [stopWarning ⟨2, 2⟩ .absent, clientWarning ⟨3, 3⟩ .null] ∧
      ∃ f, (setup.source.run h).opening = .done (.refused f) ∧
        setup.Explains f (⟨0, 0⟩, .watchThrew (.text "refused")) := by
  intro deps options setup h
  have quiet : deps.Quiet := by
    intro sink given earlier entry
    cases given
    rfl
  have plan : Plan.make deps options = .start setup (some (.unix "/a")) := rfl
  obtain ⟨-, -, contained⟩ := failures_are_contained deps options quiet
  have run : Contained setup h := contained setup _ plan h
  obtain ⟨before, o, rest, split, undecided, explains⟩ := run.explained _ rfl
  refine ⟨quiet, plan, run.warned, _, rfl, ?_⟩
  cases before with
  | nil => exact (List.cons.inj split).1 ▸ explains
  | cons p before =>
    have first : (⟨0, 0⟩, .watchThrew (.text "refused")) = p := (List.cons.inj split).1
    have silent : setup.verdict p = none := undecided p List.mem_cons_self
    rw [← first] at silent
    cases silent

end Source

end WorkloadIdentity.Watch
