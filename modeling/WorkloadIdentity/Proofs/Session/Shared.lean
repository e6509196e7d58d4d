import WorkloadIdentity.Proofs.Session.Guest
import WorkloadIdentity.Watch.Session

/-! Sessions in which all sources share one client that lives in the process. Who watches
the client, which subscriptions are active and which sources have not begun their teardown
is the same thing three times over. An event of one source keeps it so, even in the middle of
a delivery, and touches no other source. -/

namespace WorkloadIdentity.Watch

/-- The same client, but for who is subscribed to it. -/
structure Client.Alike {κ α : Type} (c d : Client κ α) : Prop where
  replaying : d.replaying = c.replaying
  latest : d.latest = c.latest
  closed : d.closed = c.closed
  calls : d.calls = c.calls
  delivered : d.delivered = c.delivered

namespace Client

variable {κ α : Type} {c d e : Client κ α}

theorem Alike.refl (c : Client κ α) : Alike c c := ⟨rfl, rfl, rfl, rfl, rfl⟩

theorem alike_unsubscribe [DecidableEq κ] {n : Nat} {w : κ}
    (active : c.subscriptions[n]? = some ⟨w, true⟩) : Alike c (c.unsubscribe n) := by
  rw [unsubscribe_of_active active]
  exact ⟨rfl, rfl, rfl, rfl, rfl⟩

end Client

/-- A source that holds a subscription of the client, and watches it until its teardown begins. -/
structure Source.Enrolled (c : Client Nat Context) (i : Nat) (x : Source) : Prop where
  consistent : Consistent x
  sharing : x.setup.Sharing
  called : x.opening ≠ .subscribing
  holds : ∃ n active, x.subscription = some n ∧ c.subscriptions[n]? = some ⟨i, active⟩ ∧
    (active = true ↔ x.teardown = .idle)
  watches : i ∈ c.watchers ↔ x.teardown = .idle

namespace Source

section
variable {c d : Client Nat Context} {i j n : Nat} {x : Source}

theorem Enrolled.of_same (enrolled : Enrolled c i x) (watchers : d.watchers = c.watchers)
    (subscriptions : d.subscriptions = c.subscriptions) : Enrolled d i x :=
  ⟨enrolled.consistent, enrolled.sharing, enrolled.called, subscriptions ▸ enrolled.holds,
    watchers ▸ enrolled.watches⟩

theorem Enrolled.unsubscribe_other (enrolled : Enrolled c i x) (other : j ≠ i)
    (active : c.subscriptions[n]? = some ⟨j, true⟩) : Enrolled (c.unsubscribe n) i x := by
  obtain ⟨k, live, held, place, fits⟩ := enrolled.holds
  have apart : n ≠ k := by
    rintro rfl
    rw [active, Option.some.injEq, Subscription.mk.injEq] at place
    exact other place.1
  rw [Client.unsubscribe_of_active active]
  refine ⟨enrolled.consistent, enrolled.sharing, enrolled.called, ⟨k, live, held, ?_, fits⟩, ?_⟩
  · rw [List.getElem?_set_ne apart, place]
  · simp [← enrolled.watches, other.symm]

theorem Enrolled.step (enrolled : Enrolled c i x) (m : Moment) (e : Event) :
    ∃ stops, (∀ command ∈ stops, command.isOfTimer = true) ∧
      ((x.step m e).commands = stops ∧ Enrolled c i (x.step m e).source
        ∨ ∃ n, (x.step m e).commands = stops ++ [.unsubscribe (some n)] ∧
          c.subscriptions[n]? = some ⟨i, true⟩ ∧
          Enrolled (c.unsubscribe n) i (x.step m e).source) := by
  have change := change_step enrolled.consistent m e
  have consistent := consistent_change enrolled.consistent change
  have sharing : (x.step m e).source.setup.Sharing := setup_change change ▸ enrolled.sharing
  obtain ⟨called, stops, harmless, asked⟩ :=
    commands_of_change enrolled.consistent enrolled.sharing enrolled.called change
  obtain ⟨n, active, held, place, fits⟩ := enrolled.holds
  have keeps := subscription_change enrolled.consistent held change
  refine ⟨stops, harmless, asked.imp ?_ ?_⟩
  · rintro ⟨same, idle⟩
    exact ⟨same, consistent, sharing, called, ⟨n, active, keeps, place, fits.trans idle.symm⟩,
      enrolled.watches.trans idle.symm⟩
  · rintro ⟨unsubscribes, idle, begun⟩
    have live : active = true := fits.mpr idle
    rw [live] at place
    refine ⟨n, by rw [unsubscribes, held], place, consistent, sharing, called, ?_, ?_⟩
    · refine ⟨n, false, keeps, ?_, by simp [begun]⟩
      have within : n < c.subscriptions.length := (List.getElem?_eq_some_iff.mp place).1
      rw [Client.unsubscribe_of_active place, List.getElem?_set_self within]
    · simp [Client.unsubscribe_of_active place, begun]

end

end Source

def told (m : Moment) (e : Event) (reached : List Nat) (sources : List Source) : List Source :=
  sources.mapIdx fun i x => if i ∈ reached then (x.step m e).source else x

section
variable {m : Moment} {e : Event} {i : Nat} {rest : List Nat} {sources : List Source} {x : Source}

theorem getElem?_told {reached : List Nat} :
    (told m e reached sources)[i]? =
      sources[i]?.map fun x => if i ∈ reached then (x.step m e).source else x :=
  List.getElem?_mapIdx

@[simp] theorem length_told {reached : List Nat} :
    (told m e reached sources).length = sources.length := List.length_mapIdx

theorem told_nil : told m e [] sources = sources := by
  apply List.ext_getElem?
  intro i
  simp [getElem?_told]

theorem told_cons (new : i ∉ rest) :
    told m e (i :: rest) sources = told m e rest (told m e [i] sources) := by
  apply List.ext_getElem?
  intro j
  simp only [getElem?_told, Option.map_map, List.mem_cons, List.not_mem_nil, or_false]
  congr 1
  funext x
  by_cases same : j = i
  · simp [same, new]
  · simp [same]

theorem told_of_some (there : sources[i]? = some x) :
    told m e [i] sources = sources.set i (x.step m e).source := by
  apply List.ext_getElem?
  intro j
  by_cases same : i = j
  · subst same
    simp [getElem?_told, there, List.getElem?_set_self (List.getElem?_eq_some_iff.mp there).1]
  · simp [getElem?_told, List.getElem?_set_ne same, Ne.symm same]

theorem told_of_none (absent : sources[i]? = none) : told m e [i] sources = sources := by
  apply List.ext_getElem?
  intro j
  by_cases same : j = i
  · simp [getElem?_told, same, absent]
  · simp [getElem?_told, same]

end

namespace Session

/-- What holds of a session with a client that all sources share, whatever call of the client is
under way. -/
structure Shared (s : Session) (c : Client Nat Context) : Prop where
  transport : s.transport = .memory c
  unclosed : c.closed = false
  distinct : c.watchers.Nodup
  known : ∀ i ∈ c.watchers, i < s.sources.length
  enrolled : ∀ i x, s.sources[i]? = some x → Source.Enrolled c i x
  filled : ∀ context ∈ c.latest, context.candidates ≠ []
  untold : ∀ o ∈ s.pending, o.2.context? = none

structure Idles (s t : Session) : Prop where
  transport : t.transport = s.transport
  sources : t.sources = s.sources
  moment : t.moment = s.moment
  pending : ∀ o ∈ t.pending, o ∈ s.pending ∨ o.2.context? = none

/-- An event reaches these sources, and of the client only who is subscribed to it is not as it
is in `c`. -/
structure Spreads (s : Session) (reached : List Nat) (e : Event) (c : Client Nat Context)
    (t : Session) (d : Client Nat Context) : Prop where
  shared : Shared t d
  alike : c.Alike d
  sources : t.sources = told s.moment e reached s.sources
  moment : t.moment = s.moment

section
variable {s t u : Session} {c d : Client Nat Context} {i : Nat}

theorem Idles.refl (s : Session) : Idles s s := ⟨rfl, rfl, rfl, fun _ waits => .inl waits⟩

theorem Idles.trans (first : Idles s t) (second : Idles t u) : Idles s u := by
  refine ⟨second.transport.trans first.transport, second.sources.trans first.sources,
    second.moment.trans first.moment, fun o waits => ?_⟩
  rcases second.pending o waits with before | untold
  · exact first.pending o before
  · exact .inr untold

theorem pending_withTimers (timers : Clock.Manual Nat Nat Float) :
    ∀ o ∈ (s.withTimers timers).pending, o ∈ s.pending ∨ o.2.context? = none := by
  intro o waits
  rcases List.mem_append.mp waits with before | woken
  · exact .inl before
  · obtain ⟨key, -, rfl⟩ := List.mem_map.mp woken
    exact .inr rfl

theorem idles_withTimers {timers : Clock.Manual Nat Nat Float}
    (same : timers.time = s.timers.time) : Idles s (s.withTimers timers) :=
  ⟨rfl, rfl, by simp [moment, reading, withTimers, same], pending_withTimers timers⟩

theorem idles_execute {command : Command} (harmless : command.isOfTimer = true) :
    Idles s (s.execute i command) := by
  cases command with
  | unsubscribe subscription => cases harmless
  | closeClient => cases harmless
  | startTimer ms => exact idles_withTimers (Clock.Manual.time_sleep _ _ _ _)
  | stopTimer => exact idles_withTimers (Clock.Manual.time_raise _ _)

theorem idles_commands {stops : List Command} (harmless : ∀ c ∈ stops, c.isOfTimer = true) :
    Idles s (stops.foldl (execute i) s) := by
  induction stops generalizing s with
  | nil => exact .refl s
  | cons first rest ih =>
    have next : Idles s (s.execute i first) := idles_execute (harmless first List.mem_cons_self)
    exact next.trans (ih fun c later => harmless c (List.mem_cons_of_mem first later))

theorem Shared.beside (shared : Shared s c) (transport : t.transport = s.transport)
    (sources : t.sources = s.sources)
    (pending : ∀ o ∈ t.pending, o ∈ s.pending ∨ o.2.context? = none) : Shared t c := by
  refine ⟨transport.trans shared.transport, shared.unclosed, shared.distinct,
    sources ▸ shared.known, sources ▸ shared.enrolled, shared.filled, ?_⟩
  intro o waits
  exact (pending o waits).elim (shared.untold o) id

theorem Shared.of_idles (shared : Shared s c) (idles : Idles s t) : Shared t c :=
  shared.beside idles.transport idles.sources idles.pending

theorem Idles.resume (idles : Idles s t) (transport : Transport) :
    Idles { s with transport := transport } { t with transport := transport } :=
  ⟨rfl, idles.sources, idles.moment, idles.pending⟩

theorem idles_unsubscribe (transport : s.transport = .memory c) (n : Nat) :
    Idles { s with transport := .memory (c.unsubscribe n) }
      (s.execute i (.unsubscribe (some n))) := by
  simp only [execute, transport]
  refine ⟨rfl, rfl, rfl, fun o waits => ?_⟩
  rcases List.mem_append.mp waits with before | ended
  · exact .inl before
  · rw [List.mem_singleton.mp ended]
    exact .inr rfl

theorem map_setup_told (shared : Shared s c) (m : Moment) (e : Event) (reached : List Nat) :
    (told m e reached s.sources).map Source.setup = s.sources.map Source.setup := by
  apply List.ext_getElem?
  intro i
  simp only [List.getElem?_map, getElem?_told, Option.map_map]
  refine Option.map_congr fun x there => ?_
  have change := Source.change_step (shared.enrolled i x there).consistent m e
  by_cases member : i ∈ reached <;> simp [member, Source.setup_change change]

theorem Shared.tell (shared : Shared s c) {m : Moment} {e : Event} {x : Source}
    (there : s.sources[i]? = some x) (alike : c.Alike d) (fewer : d.watchers.Sublist c.watchers)
    (own : Source.Enrolled d i (x.step m e).source)
    (others : ∀ j y, i ≠ j → Source.Enrolled c j y → Source.Enrolled d j y) :
    Shared { s with sources := told m e [i] s.sources, transport := .memory d } d := by
  refine ⟨rfl, alike.closed.trans shared.unclosed, fewer.nodup shared.distinct, ?_, ?_,
    alike.latest ▸ shared.filled, shared.untold⟩
  · intro j watches
    simpa using shared.known j (fewer.subset watches)
  · intro j y found
    rw [told_of_some there] at found
    by_cases same : i = j
    · subst same
      obtain ⟨within, rfl⟩ := List.getElem?_eq_some_iff.mp found
      simpa using own
    · rw [List.getElem?_set_ne same] at found
      exact others j y same (shared.enrolled j y found)

theorem Shared.mem_watchers_iff (shared : Shared s c) :
    i ∈ c.watchers ↔ ∃ x, s.sources[i]? = some x ∧ x.teardown = .idle := by
  constructor
  · intro watches
    have there := List.getElem?_eq_getElem (shared.known i watches)
    exact ⟨_, there, (shared.enrolled i _ there).watches.mp watches⟩
  · rintro ⟨x, there, idle⟩
    exact (shared.enrolled i x there).watches.mpr idle

theorem Shared.of_same (shared : Shared s c) (watchers : d.watchers = c.watchers)
    (subscriptions : d.subscriptions = c.subscriptions) (closed : d.closed = c.closed)
    (filled : ∀ context ∈ d.latest, context.candidates ≠ []) :
    Shared { s with transport := .memory d } d :=
  ⟨rfl, closed.trans shared.unclosed, watchers ▸ shared.distinct, watchers ▸ shared.known,
    fun i x there => (shared.enrolled i x there).of_same watchers subscriptions, filled,
    shared.untold⟩

/-- A handler of a source throws nothing, and whatever it asks of the client concerns its own
subscription. -/
theorem react_shared (shared : Shared s c) (i : Nat) (e : Event) :
    (s.react i e).2 = none ∧ ∃ d, Spreads s [i] e c (s.react i e).1 d := by
  cases there : s.sources[i]? with
  | none =>
    simp only [react, there]
    exact ⟨trivial, c, shared, .refl c, (told_of_none there).symm, rfl⟩
  | some x =>
    have enrolled := shared.enrolled i x there
    have silent : (x.step s.moment e).thrown = none :=
      (Source.logs_step enrolled.sharing.quiet enrolled.consistent s.moment e).silent
    simp only [react, there]
    refine ⟨silent, ?_⟩
    rw [← told_of_some (m := s.moment) (e := e) there]
    obtain ⟨stops, harmless, ⟨asked, kept⟩ | ⟨n, asked, active, kept⟩⟩ :=
      enrolled.step s.moment e
    · have next := shared.tell there (.refl c) (.refl _) kept fun j y _ h => h
      rw [← shared.transport] at next
      have idles := idles_commands (i := i)
        (s := { s with sources := told s.moment e [i] s.sources }) harmless
      rw [asked]
      exact ⟨c, next.of_idles idles, .refl c, idles.sources, idles.moment⟩
    · have alike := Client.alike_unsubscribe active
      have fewer : (c.unsubscribe n).watchers.Sublist c.watchers := by
        rw [Client.unsubscribe_of_active active]
        exact List.filter_sublist
      have next := shared.tell there alike fewer kept fun j y other h =>
        h.unsubscribe_other other active
      have stopped := idles_commands (i := i)
        (s := { s with sources := told s.moment e [i] s.sources }) harmless
      have ended := idles_unsubscribe (i := i) (stopped.transport.trans shared.transport) n
      have idles := (stopped.resume (.memory (c.unsubscribe n))).trans ended
      rw [asked, List.foldl_append]
      exact ⟨_, next.of_idles idles, alike, idles.sources, idles.moment⟩

end

end Session

end WorkloadIdentity.Watch
