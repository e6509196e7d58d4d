import WorkloadIdentity.Proofs.Session.Delivery

/-! Runs of a session whose sources share a client. Sources are created, contexts pushed,
errors delivered and sources closed in any order, and turns and timers come in between. After
every move the client, its watchers and the sources agree: a source that is ready serves what
was pushed last, and its version counts what it was told. -/

namespace WorkloadIdentity.Watch

/-- What can happen to a session. -/
inductive Move where
  | create (deps : Deps) (options : Options)
  | push (context : Context)
  | fail (e : Value)
  | close (i : Nat)
  | turn
  | advance (ms : Float)
  | setTime (ms : Float)
  | elapse (ms : Float)

namespace Move

/-- A source is created with the client that is there, a sink that never throws and a selector of
the library, and a context that is pushed holds an SVID. -/
def Allowed : Move → Prop
  | .create deps options => deps.hasClient = true ∧ deps.Quiet ∧ options.selector.BuiltIn
  | .push context => context.candidates ≠ []
  | _ => True

def context? : Move → Option Context
  | .push context => some context
  | _ => none

def setup? : Move → Option Setup
  | .create deps options =>
    match Plan.make deps options with
    | .start setup _ => some setup
    | .refuse _ => none
  | _ => none

end Move

namespace Session

def vacant (wall : Int) (handDriven : Bool) (timers : Clock.Manual Nat Nat Float)
    (replaying : Bool) : Session :=
  { wall := wall, handDriven := handDriven, timers := timers
    transport := .memory { replaying := replaying } }

def play (s : Session) : Move → Session
  | .create deps options => (s.create deps options).1
  | .push context => (s.deliver (.update context)).1
  | .fail e => (s.deliver (.error e)).1
  | .close i => s.close i
  | .turn => s.turn
  | .advance ms => s.advance ms
  | .setTime ms => s.setTime ms
  | .elapse ms => s.elapse ms

def run (s : Session) (moves : List Move) : Session := moves.foldl play s

def occasions (s : Session) : List Move → List (Session × Move)
  | [] => []
  | move :: rest => (s, move) :: (s.play move).occasions rest

def listens (s : Session) (i : Nat) : Bool :=
  match s.transport, s.sources[i]? with
  | .memory c, some x => c.watchers.contains i && x.isLive
  | _, _ => false

def replays (s : Session) : Bool :=
  match s.transport with
  | .memory c => (replay? c).isSome
  | .scripted _ => false

def hears (i : Nat) (o : Session × Move) : Bool := o.2.context?.isSome && o.1.listens i

def isReplayedTo (i : Nat) (o : Session × Move) : Bool :=
  o.2.setup?.isSome && (o.1.sources.length == i && o.1.replays)

def heard (i : Nat) (past : List (Session × Move)) : Nat :=
  past.countP (hears i) + if past.any (isReplayedTo i) then 1 else 0

section
variable {s t : Session} {c d : Client Nat Context} {i : Nat} {e : Event}
  {past : List (Session × Move)} {o : Session × Move} {moves : List Move} {move : Move}

theorem map_snd_occasions : (s.occasions moves).map Prod.snd = moves := by
  induction moves generalizing s with
  | nil => rfl
  | cons move rest ih => simp [occasions, ih]

/-- The client, the sources and the past agree. -/
structure Agrees (s : Session) (c : Client Nat Context) (past : List (Session × Move)) : Prop where
  shared : Shared s c
  free : c.calls = []
  latest : c.latest = ((past.map Prod.snd).filterMap Move.context?).getLast?
  setups : s.sources.map Source.setup = (past.map Prod.snd).filterMap Move.setup?
  follows : ∀ i x, s.sources[i]? = some x → Source.Follows x c.latest (heard i past)
  unheard : ∀ i, s.sources.length ≤ i → heard i past = 0

theorem agrees_vacant (wall : Int) (handDriven : Bool) (timers : Clock.Manual Nat Nat Float)
    (replaying : Bool) :
    Agrees (vacant wall handDriven timers replaying) { replaying := replaying } [] := by
  refine ⟨⟨rfl, rfl, List.nodup_nil, ?_, ?_, ?_, ?_⟩, rfl, rfl, rfl, ?_, fun _ _ => rfl⟩ <;>
    simp [vacant]

theorem heard_snoc : heard i (past ++ [o]) =
    (past.countP (hears i) + if hears i o then 1 else 0) +
      if past.any (isReplayedTo i) || isReplayedTo i o then 1 else 0 := by
  simp only [heard, List.countP_append, List.countP_singleton, List.any_append, List.any_cons,
    List.any_nil, Bool.or_false]

theorem heard_snoc_of_kept (creates : o.2.setup? = none) : heard i (past ++ [o]) =
    heard i past + if o.2.context?.isSome && o.1.listens i then 1 else 0 := by
  have unreplayed : isReplayedTo i o = false := by simp [isReplayedTo, creates]
  rw [heard_snoc, unreplayed, Bool.or_false, heard, Nat.add_right_comm]
  rfl

theorem Agrees.snoc (agrees : Agrees s c past) (pushes : o.2.context? = none)
    (creates : o.2.setup? = none) : Agrees s c (past ++ [o]) := by
  have same (i : Nat) : heard i (past ++ [o]) = heard i past := by
    simp [heard_snoc_of_kept creates, pushes]
  refine ⟨agrees.shared, agrees.free, ?_, ?_, ?_, ?_⟩
  · simpa [pushes] using agrees.latest
  · simpa [creates] using agrees.setups
  · simpa only [same] using agrees.follows
  · simpa only [same] using agrees.unheard

theorem Agrees.beside (agrees : Agrees s c past) (transport : t.transport = s.transport)
    (sources : t.sources = s.sources)
    (pending : ∀ o ∈ t.pending, o ∈ s.pending ∨ o.2.context? = none) : Agrees t c past :=
  ⟨agrees.shared.beside transport sources pending, agrees.free, agrees.latest,
    sources ▸ agrees.setups, sources ▸ agrees.follows, sources ▸ agrees.unheard⟩

theorem Agrees.withTimers (agrees : Agrees s c past) (timers : Clock.Manual Nat Nat Float) :
    Agrees (s.withTimers timers) c past :=
  agrees.beside rfl rfl (pending_withTimers timers)

theorem listens_eq (shared : Shared s c) {x : Source} (there : s.sources[i]? = some x) :
    s.listens i = (c.watchers.contains i && x.isLive) := by
  simp only [listens, shared.transport, there]

/-- What an update leads to, if it reaches all that watch the client, and what any other event
leads to, whatever it reaches. -/
theorem Agrees.told (agrees : Agrees s c past) (filled : e.Filled) {reached : List Nat}
    (whole : e.context?.isSome = true → reached = c.watchers) {y : Source}
    (found : (Watch.told s.moment e reached s.sources)[i]? = some y) :
    y.Follows (e.context? <|> c.latest)
      (heard i past + if e.context?.isSome && s.listens i then 1 else 0) := by
  rw [getElem?_told] at found
  obtain ⟨x, there, rfl⟩ := Option.map_eq_some_iff.mp found
  have enrolled := agrees.shared.enrolled i x there
  have follows := agrees.follows i x there
  have change := Source.change_step enrolled.consistent s.moment e
  have next := Source.follows_change enrolled.sharing filled follows change
  rw [listens_eq agrees.shared there]
  cases brought : e.context? with
  | none =>
    rw [brought] at next
    by_cases member : i ∈ reached
    · simpa [member] using next
    · simpa [member] using follows
  | some context =>
    rw [brought] at next whole
    rw [whole rfl]
    by_cases member : i ∈ c.watchers
    · simpa [member] using next
    · have late : x.isLive = false := by
        rw [Bool.eq_false_iff]
        exact fun live =>
          member (enrolled.watches.mpr (Source.idle_of_live enrolled.consistent live))
      simpa [member] using Source.Follows.of_not_live late

theorem Agrees.react (agrees : Agrees s c past) (i : Nat) (untold : e.context? = none) :
    ∃ d, Agrees (s.react i e).1 d past := by
  obtain ⟨-, d, spreads⟩ := react_shared agrees.shared i e
  refine ⟨d, spreads.shared, spreads.alike.calls.trans agrees.free,
    spreads.alike.latest.trans agrees.latest, ?_, ?_, ?_⟩
  · rw [spreads.sources, map_setup_told agrees.shared, agrees.setups]
  · intro j y found
    rw [spreads.sources] at found
    have follows := agrees.told (by simp [Event.Filled, untold]) (by simp [untold]) found
    rw [spreads.alike.latest]
    simpa [untold] using follows
  · rw [spreads.sources, length_told]
    exact agrees.unheard

theorem Agrees.foldl {α : Type} {f : Session → α → Session} {xs : List α}
    (keeps : ∀ x ∈ xs, ∀ s c, Agrees s c past → ∃ d, Agrees (f s x) d past)
    (agrees : Agrees s c past) : ∃ d, Agrees (xs.foldl f s) d past := by
  induction xs generalizing s c with
  | nil => exact ⟨c, agrees⟩
  | cons x rest ih =>
    obtain ⟨d, next⟩ := keeps x List.mem_cons_self s c agrees
    exact ih (fun y later => keeps y (List.mem_cons_of_mem x later)) next

theorem Agrees.turn (agrees : Agrees s c past) : ∃ d, Agrees s.turn d past := by
  have begun : Agrees { s with pending := [] } c past := agrees.beside rfl rfl (by simp)
  have serves : ∀ o ∈ s.pending, ∀ t b, Agrees t b past → ∃ d, Agrees (t.react o.1 o.2).1 d past :=
    fun o waits t b now => now.react o.1 (agrees.shared.untold o waits)
  obtain ⟨d, served⟩ := begun.foldl serves
  exact served.foldl fun i _ t b now => now.react i rfl

theorem Agrees.deliver (agrees : Agrees s c past) (notice : Notice Context)
    (filled : notice.event.Filled) (pushes : move.context? = notice.event.context?)
    (creates : move.setup? = none) :
    ∃ d, Agrees (s.deliver notice).1 d (past ++ [(s, move)]) := by
  obtain ⟨t, d, ends, spreads⟩ := deliver_shared agrees.shared agrees.free notice filled
  have heard (i : Nat) : heard i (past ++ [(s, move)]) =
      heard i past + if notice.event.context?.isSome && s.listens i then 1 else 0 := by
    rw [heard_snoc_of_kept creates, pushes]
  rw [ends]
  refine ⟨d, spreads.shared, spreads.alike.calls.trans agrees.free, ?_, ?_, ?_, ?_⟩
  · rw [spreads.alike.latest]
    cases brought : notice.event.context? with
    | none => simpa [pushes, brought] using agrees.latest
    | some context => simp [pushes, brought]
  · rw [spreads.sources, map_setup_told agrees.shared, agrees.setups]
    simp [creates]
  · intro i y found
    rw [spreads.sources] at found
    rw [heard, spreads.alike.latest]
    exact agrees.told filled (fun _ => rfl) found
  · intro i late
    rw [spreads.sources, length_told] at late
    have absent : s.listens i = false := by
      simp only [listens, agrees.shared.transport, List.getElem?_eq_none late]
    simp [heard, agrees.unheard i late, absent]

theorem sharing_of_make {deps : Deps} {options : Options} {setup : Setup}
    {built : Option Endpoint.Address} (allowed : (Move.create deps options).Allowed)
    (plan : Plan.make deps options = .start setup built) : setup.Sharing := by
  obtain ⟨given, quiet, builtIn⟩ := allowed
  obtain ⟨chosen, -, owns⟩ := Plan.of_make_eq_start plan
  refine ⟨Plan.selector_of_make plan ▸ builtIn, Plan.quiet_of_make quiet plan, ?_⟩
  cases built with
  | none => exact owns
  | some address =>
    have missing := (Plan.of_chooseClient_eq_some chosen).1
    simp [given] at missing

theorem heard_snoc_of_create (pushes : o.2.context? = none) (creates : o.2.setup?.isSome = true) :
    heard i (past ++ [o]) = past.countP (hears i) +
      if past.any (isReplayedTo i) || (o.1.sources.length == i && o.1.replays) then 1 else 0 := by
  have deaf : hears i o = false := by simp [hears, pushes]
  rw [heard_snoc, deaf, isReplayedTo, creates, Bool.true_and]
  rfl

theorem of_heard_eq_zero (unheard : heard i past = 0) :
    past.countP (hears i) = 0 ∧ past.any (isReplayedTo i) = false := by
  obtain ⟨none, never⟩ := Nat.add_eq_zero_iff.mp unheard
  refine ⟨none, ?_⟩
  cases replayed : past.any (isReplayedTo i) with
  | false => rfl
  | true => simp [replayed] at never

theorem Agrees.create (agrees : Agrees s c past) {deps : Deps} {options : Options}
    (allowed : (Move.create deps options).Allowed) :
    ∃ d, Agrees (s.create deps options).1 d (past ++ [(s, .create deps options)]) := by
  have noted (addresses : List Endpoint.Address) :
      Agrees { s with addresses := addresses } c past :=
    agrees.beside rfl rfl fun o waits => .inl waits
  cases plan : Plan.make deps options with
  | refuse o =>
    have creates : (Move.create deps options).setup? = none := by simp [Move.setup?, plan]
    simp only [Session.create, plan]
    exact ⟨c, (noted _).snoc rfl creates⟩
  | start setup built =>
    have creates : (Move.create deps options).setup? = some setup := by simp [Move.setup?, plan]
    have begun := noted (s.addresses ++ (Plan.start setup built).addresses)
    obtain ⟨y, d, next, latest, free, sources, same, follows⟩ :=
      subscribe_shared begun.shared begun.free (sharing_of_make allowed plan)
    replace sources : _ = s.sources ++ [y] := sources
    have heard (i : Nat) : heard i (past ++ [(s, .create deps options)]) =
        past.countP (hears i) +
          if past.any (isReplayedTo i) || (s.sources.length == i && s.replays) then 1 else 0 :=
      heard_snoc_of_create rfl (by rw [creates]; rfl)
    have replayed : s.replays = (replay? c).isSome := by
      simp only [replays, agrees.shared.transport]
    simp only [Session.create, plan]
    refine ⟨d, next, free, ?_, ?_, ?_, ?_⟩
    · simpa [latest, Move.context?] using agrees.latest
    · simp [sources, same, creates, agrees.setups]
    · intro i x found
      rw [sources] at found
      rw [latest, heard]
      rcases getElem?_concat found with ⟨rfl, rfl⟩ | ⟨before, there⟩
      · obtain ⟨none, never⟩ := of_heard_eq_zero (agrees.unheard _ (Nat.le_refl _))
        simpa only [none, never, replayed, beq_self_eq_true, Bool.true_and, Bool.false_or,
          Nat.zero_add] using follows
      · have other : (s.sources.length == i) = false := by simpa using Nat.ne_of_gt before
        simpa only [Session.heard, other, Bool.false_and, Bool.or_false] using
          agrees.follows i x there
    · intro i late
      rw [sources, List.length_append, List.length_singleton] at late
      obtain ⟨none, never⟩ := of_heard_eq_zero (agrees.unheard i (by omega))
      have other : (s.sources.length == i) = false := by
        simp only [beq_eq_false_iff_ne]
        omega
      rw [heard, none, never, other]
      rfl

theorem Agrees.play (agrees : Agrees s c past) (allowed : move.Allowed) :
    ∃ d, Agrees (s.play move) d (past ++ [(s, move)]) := by
  have idle (quiet : move.context? = none ∧ move.setup? = none) {t : Session}
      (next : ∃ d, Agrees t d past) : ∃ d, Agrees t d (past ++ [(s, move)]) :=
    next.imp fun d agrees => agrees.snoc quiet.1 quiet.2
  cases move with
  | create deps options => exact agrees.create allowed
  | push context => exact agrees.deliver (.update context) (Event.filled_update allowed) rfl rfl
  | fail e => exact agrees.deliver (.error e) (by rintro _ ⟨⟩) rfl rfl
  | close i => exact idle ⟨rfl, rfl⟩ (agrees.react i rfl)
  | turn => exact idle ⟨rfl, rfl⟩ agrees.turn
  | advance ms =>
    refine idle ⟨rfl, rfl⟩ ⟨c, ?_⟩
    simp only [Session.play, advance]
    split
    · exact agrees.withTimers _
    · exact agrees
  | setTime ms =>
    refine idle ⟨rfl, rfl⟩ ⟨c, ?_⟩
    simp only [Session.play, setTime]
    split
    · exact agrees.withTimers _
    · exact agrees
  | elapse ms =>
    refine idle ⟨rfl, rfl⟩ ⟨c, ?_⟩
    simp only [Session.play, elapse]
    split
    · exact agrees
    · exact agrees.withTimers _

theorem Agrees.run (agrees : Agrees s c past) (allowed : ∀ move ∈ moves, move.Allowed) :
    ∃ d, Agrees (s.run moves) d (past ++ s.occasions moves) := by
  induction moves generalizing s c past with
  | nil => exact ⟨c, by simpa [occasions, Session.run] using agrees⟩
  | cons move rest ih =>
    obtain ⟨d, next⟩ := agrees.play (allowed move List.mem_cons_self)
    have rest := ih next fun later member => allowed later (List.mem_cons_of_mem move member)
    simpa [occasions, Session.run] using rest

end

/-- Nothing is lost or repeated between a push and a read, for any number of sources and any order
of their creations, pushes, failures and closes. A delivery that comes next reaches each of those
that watch once and the others not at all, also if some of them stop watching because of it. -/
theorem sources_keep_up (wall : Int) (handDriven : Bool) (timers : Clock.Manual Nat Nat Float)
    (replaying : Bool) (moves : List Move) (allowed : ∀ move ∈ moves, move.Allowed) :
    let start := vacant wall handDriven timers replaying
    let s := start.run moves
    let past := start.occasions moves
    s.sources.map Source.setup = moves.filterMap Move.setup? ∧
    (∀ i x, s.sources[i]? = some x → x.lifecycle = .ready →
      ∃ context c, (moves.filterMap Move.context?).getLast? = some context ∧
        x.snapshot? = .ok c ∧ c.Reflects x.setup.selector context ∧
        c.version = past.countP (hears i) + if past.any (isReplayedTo i) then 1 else 0) ∧
    ∃ c, s.transport = .memory c ∧ c.watchers.Nodup ∧
      (∀ i, i ∈ c.watchers ↔ ∃ x, s.sources[i]? = some x ∧ x.teardown = .idle) ∧
      (∀ i x, s.sources[i]? = some x → x.isLive = true → i ∈ c.watchers) ∧
      ∀ notice : Notice Context, notice.event.Filled →
        ∃ t d, s.deliver notice = (t, none) ∧ t.transport = .memory d ∧
          d.delivered = c.delivered ++ c.watchers.map (·, notice) ∧
          t.sources = told s.moment notice.event c.watchers s.sources := by
  intro start s past
  obtain ⟨c, agrees⟩ := (agrees_vacant wall handDriven timers replaying).run allowed
  have setups := agrees.setups
  have latest := agrees.latest
  rw [List.nil_append, map_snd_occasions] at setups latest
  refine ⟨setups, ?_, c, agrees.shared.transport, agrees.shared.distinct,
    fun i => agrees.shared.mem_watchers_iff, ?_, ?_⟩
  · intro i x there ready
    have enrolled := agrees.shared.enrolled i x there
    have follows := agrees.follows i x there
    obtain ⟨context, pushed, c, current, reflects⟩ := follows.serves ready
    have version := follows.version (Source.isLive_iff.mpr (.inr ready))
    refine ⟨context, c, latest.symm.trans pushed, ?_, reflects, ?_⟩
    · simp [Source.snapshot?, Source.snapshot_eq_current enrolled.consistent, current]
    · change c.version = heard i past
      simpa [Source.version, current] using version
  · intro i x there live
    have enrolled := agrees.shared.enrolled i x there
    exact enrolled.watches.mpr (Source.idle_of_live enrolled.consistent live)
  · intro notice filled
    obtain ⟨t, d, ends, spreads⟩ := deliver_shared agrees.shared agrees.free notice filled
    exact ⟨t, d, ends, spreads.shared.transport, spreads.alike.delivered, spreads.sources⟩

theorem sources_keep_up_of_close :
    let moves : List Move :=
      [.create { hasClient := true } { policy := .close }, .push .single,
        .create { hasClient := true } {}, .turn, .fail .absent, .push .single]
    let s := (vacant 0 true { time := 0 } true).run moves
    (∀ move ∈ moves, move.Allowed) ∧ s.sources.map Source.lifecycle = [.closed, .ready] ∧
      ∃ x c, s.sources[1]? = some x ∧ x.snapshot? = .ok c ∧ c.version = 2 := by
  intro moves s
  have quiet : ({ hasClient := true } : Deps).Quiet := by
    rintro _ ⟨⟩
  have filled : Context.single.candidates ≠ [] := List.cons_ne_nil _ _
  have allowed : ∀ move ∈ moves, move.Allowed := by
    simp only [moves, List.forall_mem_cons]
    exact ⟨⟨rfl, quiet, .first⟩, filled, ⟨rfl, quiet, .first⟩, trivial, trivial, filled, by simp⟩
  obtain ⟨setups, serves, -⟩ := sources_keep_up 0 true { time := 0 } true moves allowed
  obtain ⟨context, c, -, served, -, version⟩ := serves 1 _ rfl rfl
  exact ⟨allowed, rfl, _, c, rfl, served, version.trans rfl⟩

end Session

end WorkloadIdentity.Watch
