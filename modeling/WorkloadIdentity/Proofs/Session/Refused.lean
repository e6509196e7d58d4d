import WorkloadIdentity.Proofs.Number.Order
import WorkloadIdentity.Proofs.Session.Course
import WorkloadIdentity.Proofs.Session.Opening

/-! What comes back of a call that makes a source. A call is refused at once, or its source is
subscribed and the answer comes when the creation has ended. Settings are to blame only for a
refusal at once, and then the session is as it was: no client was built, nothing is watched and no
timer was begun. The limit on the wait is looked at first; the address only if no ready client is
given, and then the factory is called for this address alone. -/

namespace WorkloadIdentity

def Fault.isConfiguration (f : Fault) : Bool := f.heading.kind = "ConfigurationError"

namespace Watch

open Endpoint

/-- No timer can be set for this limit. -/
def InvalidLimit : Value → Prop
  | .absent => False
  | .number x => x.isFinite = false ∨ x ≤ 0 ∨ maxInitTimeout.toFloat < x
  | _ => True

theorem initTimeout?_eq_error_iff {v : Value} {o : Obstacle} :
    initTimeout? v = .error o ↔ InvalidLimit v ∧ o = .badTimeout v := by
  cases v with
  | absent => simp [initTimeout?, InvalidLimit]
  | number x =>
    have unfit :
        (x.isNaN || x.isInf || decide (x ≤ 0) || decide (x > maxInitTimeout.toFloat)) = true ↔
          InvalidLimit (.number x) := by
      simp only [InvalidLimit, Number.isFinite_eq, Bool.or_eq_true, decide_eq_true_eq, or_assoc]
      cases x.isNaN <;> cases x.isInf <;> simp
    rw [initTimeout?, ← unfit]
    split
    · rename_i refused
      simp only [refused, Except.error.injEq, true_and, eq_comm]
    · rename_i accepted
      simp only [accepted, false_and, reduceCtorEq]
  | _ => simp [initTimeout?, InvalidLimit, eq_comm]

theorem not_invalidLimit {v : Value} {limit : Option Float} (limited : initTimeout? v = .ok limit) :
    ¬InvalidLimit v := by
  intro invalid
  rw [initTimeout?_eq_error_iff.mpr ⟨invalid, rfl⟩] at limited
  cases limited

theorem of_find {given environment : Option String} {a : Address}
    (found : Address.find given environment = .ok a) :
    ∃ text, Address.parse text = .ok a ∧
      (given = some text ∨ given = none ∧ environment = some text) := by
  unfold Address.find at found
  split at found
  · cases found
  · rename_i text held
    split at found
    · cases found
    · refine ⟨text, ?_, by simpa [Option.or_eq_some_iff] using held⟩
      unfold Address.read at found
      cases parsed : Address.parse text with
      | error r =>
        rw [parsed] at found
        cases found
      | ok b =>
        rw [parsed] at found
        cases found
        rfl

namespace Plan

variable {deps : Deps} {options : Options} {a : Address}

theorem mem_addresses_iff : a ∈ (make deps options).addresses ↔
    ¬InvalidLimit options.initTimeout ∧ deps.hasClient = false ∧ deps.factory.isSome = true ∧
      Address.find options.endpoint deps.environment = .ok a := by
  cases limited : initTimeout? options.initTimeout with
  | error o =>
    obtain ⟨invalid, rfl⟩ := initTimeout?_eq_error_iff.mp limited
    simp [make, limited, addresses, invalid]
  | ok limit =>
    have valid := not_invalidLimit limited
    cases ready : deps.hasClient with
    | true => simp [make, limited, chooseClient, ready, addresses]
    | false =>
      cases found : Address.find options.endpoint deps.environment with
      | error p => simp [make, limited, chooseClient, ready, found, addresses]
      | ok b =>
        cases given : deps.factory with
        | none => simp [make, limited, chooseClient, ready, found, given, addresses]
        | some build =>
          cases built : build b <;>
            simp [make, limited, chooseClient, ready, found, given, built, addresses, valid,
              eq_comm]

theorem make_of_same_factory {given build : Factory} (has : deps.factory = some given)
    (same : ∀ a ∈ (make deps options).addresses, build a = given a) :
    make { deps with factory := some build } options = make deps options := by
  cases limited : initTimeout? options.initTimeout with
  | error o => simp [make, limited]
  | ok limit =>
    have valid := not_invalidLimit limited
    cases ready : deps.hasClient with
    | true => simp [make, limited, chooseClient, ready]
    | false =>
      cases found : Address.find options.endpoint deps.environment with
      | error p => simp [make, limited, chooseClient, ready, found]
      | ok b =>
        have called : b ∈ (make deps options).addresses :=
          mem_addresses_iff.mpr ⟨valid, ready, by simp [has], found⟩
        simp [make, limited, chooseClient, ready, found, has, same b called]

end Plan

theorem Obstacle.addresses_eq_nil {o : Obstacle} {now : Int}
    (blamed : (o.fault now).isConfiguration = true) : (Plan.refuse o).addresses = [] := by
  cases o with
  | factoryThrew used v =>
    simp [Obstacle.fault, Fault.connection, Fault.isConfiguration, Fault.heading] at blamed
  | _ => rfl

theorem Setup.isConfiguration_of_verdict {setup : Setup} {p : Moment × Event} {o : Outcome}
    {now : Int} {f : Fault} (decided : setup.verdict p = some o)
    (refused : o.opened now = .refused f) : f.isConfiguration = false := by
  obtain ⟨m, e⟩ := p
  cases e with
  | update context =>
    simp only [Setup.verdict] at decided
    split at decided
    · cases decided
      cases refused
    · cases decided
      cases refused
      rfl
  | error v | watchThrew v =>
    cases decided
    cases refused
    rfl
  | timerEnded =>
    obtain ⟨ms, -, rfl⟩ := Option.map_eq_some_iff.mp decided
    cases refused
    rfl
  | _ => cases decided

def Opening.answer? : Opening → Option Opened
  | .done r => some r
  | _ => none

def Occurrence.addresses : Occurrence → List Address
  | .move (.create deps options) => (Plan.make deps options).addresses
  | _ => []

namespace Session

/-- What a call that makes a source has come back with by then, if it has. -/
def answer? (s : Session) (deps : Deps) (options : Options) (later : List Occurrence) :
    Option Opened :=
  match s.create deps options with
  | (_, .error o) => some (.refused (o.fault s.wall))
  | (made, .ok i) => (made.course later).sources[i]?.bind fun x => x.opening.answer?

section
variable {s : Session} {deps : Deps} {options : Options}

theorem addresses_undergo (s : Session) (o : Occurrence) :
    (s.undergo o).addresses = s.addresses ++ o.addresses := by
  have steady := steady_addresses s.addresses
  have still {o : Occurrence} (calls : o.addresses = [])
      (same : (s.undergo o).addresses = s.addresses) :
      (s.undergo o).addresses = s.addresses ++ o.addresses := by
    rw [calls, List.append_nil, same]
  cases o with
  | serve =>
    refine still rfl ?_
    simp only [undergo, serve]
    split
    · rfl
    · rename_i i e rest _
      exact steady.react (s := { s with pending := rest }) i e rfl
  | proceed i => exact still rfl (steady.react i .proceed rfl)
  | closeTransport => exact still rfl rfl
  | move move =>
    cases move with
    | create deps options =>
      cases plan : Plan.make deps options with
      | refuse o => simp [undergo, play, create, plan, Occurrence.addresses]
      | start setup built => simp [undergo, play, create, plan, Occurrence.addresses]
    | push context => exact still rfl (steady.deliver (.update context) rfl)
    | fail e => exact still rfl (steady.deliver (.error e) rfl)
    | close i => exact still rfl (steady.react i .close rfl)
    | turn => exact still rfl (steady.turn (fun h => h) rfl)
    | advance ms | setTime ms | elapse ms =>
      refine still rfl ?_
      simp only [undergo, play, advance, setTime, elapse]
      split <;> rfl

theorem addresses_course (s : Session) (occurrences : List Occurrence) :
    (s.course occurrences).addresses = s.addresses ++ occurrences.flatMap Occurrence.addresses := by
  induction occurrences generalizing s with
  | nil => simp [course]
  | cons o rest ih =>
    have next := ih (s.undergo o)
    rw [addresses_undergo] at next
    simpa [course] using next

theorem answer?_of_ok {i : Nat} (made : (s.create deps options).2 = .ok i)
    (later : List Occurrence) :
    s.answer? deps options later =
      ((s.create deps options).1.course later).sources[i]?.bind fun x => x.opening.answer? := by
  rcases created : s.create deps options with ⟨t, r⟩
  rw [created] at made
  cases made
  simp only [answer?, created]

theorem answer?_of_refused {o : Obstacle} (refused : Plan.make deps options = .refuse o)
    (later : List Occurrence) :
    s.answer? deps options later = some (.refused (o.fault s.wall)) := by
  simp only [answer?, create_of_refused refused]

theorem isConfiguration_of_started {setup : Setup} {built : Option Address} {f : Fault}
    {later : List Occurrence} (started : Plan.make deps options = .start setup built)
    (refused : s.answer? deps options later = some (.refused f)) : f.isConfiguration = false := by
  have lives : Lives s.sources.length setup.source (s.create deps options).1 := by
    simp only [create, started]
    exact lives_subscribe ⟨[], by simp⟩ _
  obtain ⟨h, there⟩ := lives_course lives later
  rw [answer?_of_ok (create_of_start started).2, there, Option.bind_some] at refused
  have ended : (setup.source.run h).opening = .done (.refused f) := by
    cases opening : (setup.source.run h).opening with
    | done r => simpa [opening, Opening.answer?] using refused
    | _ => simp [opening, Opening.answer?] at refused
  obtain ⟨p, -, o, now, decided, refuses⟩ := Source.verdict_of_refused ended
  exact setup.isConfiguration_of_verdict decided refuses

end

/-- A call that comes back with a fault of its settings has left the session as it was. The factory
is called when a source is made and at no other time, once at most, and only for the address that
is given, or the one of the environment where none is given, and never beside a ready client, with
which neither address matters. A limit that no timer can be set for is refused whatever else is
wrong. -/
theorem refused_settings_start_nothing (s : Session) (deps : Deps) (options : Options) :
    let made := s.create deps options
    let called := (Plan.make deps options).addresses
    (∀ later f, s.answer? deps options later = some (.refused f) → f.isConfiguration = true →
      called = [] ∧ made.1 = s ∧ ∃ o, made.2 = .error o) ∧
    (∀ later, (made.1.course later).addresses =
      s.addresses ++ called ++ later.flatMap Occurrence.addresses) ∧
    called.length ≤ 1 ∧
    (∀ a ∈ called, deps.hasClient = false ∧ ∃ text, Address.parse text = .ok a ∧
      (options.endpoint = some text ∨ options.endpoint = none ∧ deps.environment = some text)) ∧
    (∀ given build, deps.factory = some given → (∀ a ∈ called, build a = given a) →
      s.create { deps with factory := some build } options = made) ∧
    (deps.hasClient = true →
      (∀ endpoint environment factory,
        s.create { deps with environment := environment, factory := factory }
          { options with endpoint := endpoint } = made) ∧
      (¬InvalidLimit options.initTimeout → made.2 = .ok s.sources.length)) ∧
    (InvalidLimit options.initTimeout →
      made = (s, .error (.badTimeout options.initTimeout)) ∧
      ∀ later, s.answer? deps options later = some (.refused (.configuration s.wall
        "initTimeoutMs must be a positive number no greater than 2147483647"
        [("initTimeoutMs", options.initTimeout)]))) ∧
    ∀ v, made.2 = .error (.badTimeout v) → InvalidLimit options.initTimeout := by
  intro made called
  refine ⟨?_, ?_, Plan.length_addresses_le _, ?_, ?_, ?_, ?_, ?_⟩
  · intro later f back blamed
    cases plan : Plan.make deps options with
    | start setup built =>
      rw [isConfiguration_of_started plan back] at blamed
      cases blamed
    | refuse o =>
      rw [answer?_of_refused plan] at back
      cases back
      have uncalled := Obstacle.addresses_eq_nil blamed
      have unmade := create_of_refused (s := s) plan
      rw [uncalled, List.append_nil] at unmade
      exact ⟨by rw [← uncalled, ← plan], congrArg Prod.fst unmade, o, congrArg Prod.snd unmade⟩
  · intro later
    have first : made.1.addresses = s.addresses ++ called :=
      addresses_undergo s (.move (.create deps options))
    rw [addresses_course, first]
  · intro a member
    obtain ⟨-, clientless, -, found⟩ := Plan.mem_addresses_iff.mp member
    exact ⟨clientless, of_find found⟩
  · intro given build has same
    simp only [made, create, Plan.make_of_same_factory has same]
  · intro ready
    constructor
    · intro endpoint environment factory
      simp only [made, create, Plan.make_of_hasClient _ _ ready]
    · intro valid
      cases limited : initTimeout? options.initTimeout with
      | error o => exact absurd (initTimeout?_eq_error_iff.mp limited).1 valid
      | ok limit =>
        have started : ∃ setup, Plan.make deps options = .start setup none := by
          simp [Plan.make, limited, Plan.chooseClient, ready]
        obtain ⟨setup, started⟩ := started
        exact (create_of_start started).2
  · intro invalid
    have refused : Plan.make deps options = .refuse (.badTimeout options.initTimeout) := by
      simp only [Plan.make, initTimeout?_eq_error_iff.mpr ⟨invalid, rfl⟩]
    refine ⟨?_, fun later => answer?_of_refused refused later⟩
    simpa [Plan.addresses] using create_of_refused (s := s) refused
  · intro v bad
    cases limited : initTimeout? options.initTimeout with
    | error o => exact (initTimeout?_eq_error_iff.mp limited).1
    | ok limit => exact absurd bad (create_ne_badTimeout s deps limited v)

theorem refused_settings_start_nothing_of_limit :
    let s := fresh 0 true 0 (.memory {})
    let deps : Deps :=
      { factory := some fun _ => .error .absent, environment := some "tcp://localhost:1" }
    let options : Options := { initTimeout := .number 0 }
    InvalidLimit options.initTimeout ∧ (Plan.make deps options).addresses = [] ∧
      s.create deps options = (s, .error (.badTimeout (.number 0))) := by
  intro s deps options
  have invalid : InvalidLimit options.initTimeout := .inr (.inl (by decide +kernel))
  obtain ⟨nothing, -, -, -, -, -, first, -⟩ := refused_settings_start_nothing s deps options
  obtain ⟨same, answer⟩ := first invalid
  obtain ⟨uncalled, -, -⟩ := nothing [] _ (answer []) rfl
  exact ⟨invalid, uncalled, same⟩

end Session

end Watch

end WorkloadIdentity
