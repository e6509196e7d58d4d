import WorkloadIdentity.Proofs.Session.Shared

/-! What a client that is shared delivers. A delivery reaches those that watch the client
when it begins, each of them once, whoever stops watching it on the way. A source that is
subscribed to a client that replays begins with what was pushed last. -/

namespace WorkloadIdentity.Watch

namespace Session

section
variable {s t : Session} {c d : Client Nat Context} {i n : Nat} {notice : Notice Context}

theorem getElem?_concat {α : Type} {xs : List α} {x y : α} (found : (xs ++ [x])[i]? = some y) :
    (i = xs.length ∧ x = y) ∨ (i < xs.length ∧ xs[i]? = some y) := by
  rw [List.getElem?_append] at found
  split at found
  · rename_i before
    exact .inr ⟨before, found⟩
  · rename_i after
    obtain ⟨within, rfl⟩ := List.getElem?_eq_some_iff.mp found
    rw [List.length_singleton] at within
    exact .inl ⟨by omega, by simp⟩

theorem attend_of_free (transport : s.transport = .memory c) (free : c.calls = []) (n : Nat) :
    attend n s = (s, none) := by
  cases n with
  | zero => rfl
  | succ n => simp [attend, transport, Client.running?, free]

theorem attend_of_running (transport : s.transport = .memory c)
    (runs : c.running? = some (i, notice)) (silent : (s.react i notice.event).2 = none)
    (after : (s.react i notice.event).1.transport = .memory d) (n : Nat) :
    attend (n + 1) s =
      attend n { (s.react i notice.event).1 with transport := .memory d.finish } := by
  simp [attend, transport, runs, silent, after]

/-- Whoever stops watching while the delivery goes on, nobody is left out and nobody comes twice.
The induction is on the watchers that are still to come. -/
theorem attend_deliver {watchers : List Nat} (distinct : watchers.Nodup) (shared : Shared s c)
    (free : c.calls = []) (notice : Notice Context) :
    ∃ t d, attend (watchers.length + 1)
        { s with transport := .memory (c.deliver notice watchers) } = (t, none) ∧
      Spreads s watchers notice.event
        { c with delivered := c.delivered ++ watchers.map (·, notice) } t d := by
  induction watchers generalizing s c with
  | nil =>
    refine ⟨_, c, attend_of_free rfl free _, ?_⟩
    refine ⟨shared.of_same rfl rfl rfl shared.filled, ?_, told_nil.symm, rfl⟩
    simpa using Client.Alike.refl c
  | cons w rest ih =>
    obtain ⟨new, distinct⟩ := List.nodup_cons.mp distinct
    let began := c.call w (.delivery notice rest)
    have shared : Shared { s with transport := .memory began } began :=
      shared.of_same rfl rfl rfl shared.filled
    obtain ⟨silent, d, reached⟩ := react_shared shared w notice.event
    have calls : d.calls = (w, .delivery notice rest) :: c.calls := reached.alike.calls
    let left : Client Nat Context := { d with calls := c.calls }
    have goesOn : d.finish = left.deliver notice rest := by simp [Client.finish, calls, left]
    obtain ⟨t, last, ends, spreads⟩ := ih distinct
      (reached.shared.of_same (d := left) rfl rfl rfl reached.shared.filled) free
    refine ⟨t, last, ?_, ?_⟩
    · refine (attend_of_running rfl rfl silent reached.shared.transport _).trans ?_
      rw [goesOn]
      exact ends
    · refine ⟨spreads.shared, ⟨?_, ?_, ?_, spreads.alike.calls, ?_⟩, ?_, ?_⟩
      · exact spreads.alike.replaying.trans reached.alike.replaying
      · exact spreads.alike.latest.trans reached.alike.latest
      · exact spreads.alike.closed.trans reached.alike.closed
      · rw [spreads.alike.delivered]
        change d.delivered ++ rest.map (·, notice) = _
        rw [reached.alike.delivered]
        simp [began, Client.call, Call.notice]
      · rw [spreads.sources, told_cons new]
        exact (congrArg (told · _ rest _) reached.moment).trans
          (congrArg (told s.moment _ rest) reached.sources)
      · exact spreads.moment.trans reached.moment

theorem deliver_shared (shared : Shared s c) (free : c.calls = []) (notice : Notice Context)
    (filled : notice.event.Filled) :
    ∃ t d, s.deliver notice = (t, none) ∧
      Spreads s c.watchers notice.event
        { c with
          latest := notice.event.context? <|> c.latest
          delivered := c.delivered ++ c.watchers.map (·, notice) } t d := by
  cases notice with
  | update context =>
    let told : Client Nat Context := { c with latest := some context }
    have next : Shared { s with transport := .memory told } told :=
      shared.of_same rfl rfl rfl filled
    simp only [deliver, shared.transport]
    obtain ⟨t, d, ends, spreads⟩ :=
      attend_deliver shared.distinct next free (.update context)
    exact ⟨t, d, ends, spreads.shared, spreads.alike, spreads.sources, spreads.moment⟩
  | error e =>
    simp only [deliver, shared.transport]
    exact attend_deliver shared.distinct shared free (.error e)

def replay? (c : Client Nat Context) : Option Context := if c.replaying then c.latest else none

theorem replay?_eq_some_iff {context : Context} :
    replay? c = some context ↔ c.replaying = true ∧ c.latest = some context := by
  simp [replay?]

def arrive (s : Session) (x : Source) (d : Client Nat Context) : Session :=
  { s with sources := s.sources ++ [x], transport := .memory d }

theorem getElem?_arrive (s : Session) (x : Source) (d : Client Nat Context) :
    (s.arrive x d).sources[s.sources.length]? = some x := List.getElem?_concat_length

structure Admitted (c : Client Nat Context) (i : Nat) (d : Client Nat Context) : Prop where
  watchers : d.watchers = Client.enlist i c.watchers
  subscriptions : d.subscriptions = c.subscriptions ++ [⟨i, true⟩]
  closed : d.closed = c.closed
  latest : d.latest = c.latest
  replaying : d.replaying = c.replaying
  calls : d.calls = c.calls

theorem admitted_watch (unclosed : c.closed = false) (silent : replay? c = none) (i : Nat) :
    Admitted c i (c.watch i) := by
  have handed : c.watch i =
      { c with
        watched := c.watched + 1, watchers := Client.enlist i c.watchers
        subscriptions := c.subscriptions ++ [⟨i, true⟩] } := by
    unfold replay? at silent
    cases hr : c.replaying <;> cases hl : c.latest <;>
      simp_all [Client.watch, Client.handOut]
  rw [handed]
  exact ⟨rfl, rfl, rfl, rfl, rfl, rfl⟩

theorem admitted_finish_watch {context : Context} (unclosed : c.closed = false)
    (given : replay? c = some context) (i : Nat) :
    (c.watch i).running? = some (i, .update context) ∧ Admitted c i (c.watch i).finish := by
  obtain ⟨replays, latest⟩ := replay?_eq_some_iff.mp given
  have begun : c.watch i =
      ({ c with watched := c.watched + 1, watchers := Client.enlist i c.watchers }).call i
        (.admission (.update context) true) := by
    simp [Client.watch, unclosed, replays, latest]
  rw [begun]
  exact ⟨rfl, rfl, rfl, rfl, rfl, rfl, rfl⟩

theorem Admitted.keeps {x : Source} {j : Nat} (admitted : Admitted c i d) (other : j ≠ i)
    (enrolled : x.Enrolled c j) : x.Enrolled d j := by
  obtain ⟨n, active, held, place, fits⟩ := enrolled.holds
  refine ⟨enrolled.consistent, enrolled.sharing, enrolled.called, ⟨n, active, held, ?_, fits⟩, ?_⟩
  · rw [admitted.subscriptions,
      List.getElem?_append_left (List.getElem?_eq_some_iff.mp place).1, place]
  · simp [admitted.watchers, Client.mem_enlist, other, enrolled.watches]

theorem Admitted.enrolls {x : Source} (admitted : Admitted c i d) (h : x.Consistent)
    (sharing : x.setup.Sharing) (called : x.opening ≠ .subscribing) (idle : x.teardown = .idle)
    (holds : x.subscription = some c.subscriptions.length) : x.Enrolled d i := by
  refine ⟨h, sharing, called, ⟨_, true, holds, ?_, by simp [idle]⟩, ?_⟩
  · rw [admitted.subscriptions, List.getElem?_concat_length]
  · simp [admitted.watchers, Client.mem_enlist, idle]

theorem timerCommands_ofTimer (setup : Setup) :
    ∀ command ∈ setup.timerCommands, command.isOfTimer = true := by
  intro command member
  obtain ⟨ms, -, rfl⟩ := List.mem_map.mp member
  rfl

theorem join_shared (shared : Shared s c) {x : Source} (h : x.Consistent)
    (sharing : x.setup.Sharing) (calls : x.opening = .subscribing) (idle : x.teardown = .idle)
    (admitted : Admitted c s.sources.length d) :
    ∃ y, let t := ((s.arrive x d).react s.sources.length (.subscribed c.subscriptions.length)).1
      Shared t d ∧ t.sources = s.sources ++ [y] ∧ y.setup = x.setup ∧
        ∀ latest n, x.Follows latest n → y.Follows latest n := by
  let y : Source :=
    { x with
      subscription := some c.subscriptions.length, opening := .waiting, timer := x.setup.timer }
  have step (m : Moment) : x.step m (.subscribed c.subscriptions.length) =
      { source := y, commands := x.setup.timerCommands } := by
    simp only [Source.step, Source.onSubscribed, calls]
    exact Source.await_eq (s := { x with subscription := some c.subscriptions.length })
      (Source.unset_of_subscribing h calls).1
  have consistent : y.Consistent := by
    have change := Source.change_step h s.moment (.subscribed c.subscriptions.length)
    rw [step] at change
    exact Source.consistent_change h change
  have put : (s.arrive x d).sources.set s.sources.length y = s.sources ++ [y] := by simp [arrive]
  have idles : Idles (s.arrive y d)
      ((s.arrive x d).react s.sources.length (.subscribed c.subscriptions.length)).1 := by
    simp only [react, getElem?_arrive, step, put]
    exact idles_commands (timerCommands_ofTimer x.setup)
  refine ⟨y, Shared.of_idles ?_ idles, idles.sources, rfl, fun latest n follows =>
    follows.of_same rfl rfl rfl⟩
  refine ⟨rfl, admitted.closed.trans shared.unclosed, ?_, ?_, ?_, admitted.latest ▸ shared.filled,
    shared.untold⟩
  · rw [admitted.watchers]
    exact Client.nodup_enlist _ shared.distinct
  · intro j watches
    rw [admitted.watchers, Client.mem_enlist] at watches
    rw [arrive, List.length_append]
    rcases watches with rfl | before
    · exact Nat.lt_add_one _
    · exact Nat.lt_add_right 1 (shared.known j before)
  · intro j z found
    rcases getElem?_concat found with ⟨rfl, rfl⟩ | ⟨before, there⟩
    · exact admitted.enrolls consistent sharing (by simp [y]) idle rfl
    · exact admitted.keeps (Nat.ne_of_lt before) (shared.enrolled j z there)

/-- Before its subscription is handed out, a source has been told what is replayed, if
anything is. -/
theorem attend_watch (shared : Shared s c) (free : c.calls = []) {setup : Setup}
    (sharing : setup.Sharing) :
    ∃ x d, attend 2 (s.arrive setup.source (c.watch s.sources.length)) = (s.arrive x d, none) ∧
      Admitted c s.sources.length d ∧ x.Consistent ∧ x.setup = setup ∧
      x.opening = .subscribing ∧ x.teardown = .idle ∧
      x.Follows c.latest (if (replay? c).isSome then 1 else 0) := by
  cases given : replay? c with
  | none =>
    have admitted := admitted_watch shared.unclosed given s.sources.length
    exact ⟨setup.source, _, attend_of_free rfl (admitted.calls.trans free) 2, admitted,
      Source.consistent_source setup, rfl, rfl, rfl, Source.follows_source setup c.latest⟩
  | some context =>
    obtain ⟨runs, admitted⟩ := admitted_finish_watch shared.unclosed given s.sources.length
    obtain ⟨-, latest⟩ := replay?_eq_some_iff.mp given
    obtain ⟨x, step, consistent, same, calls, idle, follows⟩ :=
      Source.step_of_replay sharing (shared.filled context latest) s.moment
    have reacts : (s.arrive setup.source (c.watch s.sources.length)).react s.sources.length
        (Notice.update context).event = (s.arrive x (c.watch s.sources.length), none) := by
      have now : (s.arrive setup.source (c.watch s.sources.length)).moment = s.moment := rfl
      simp only [react, getElem?_arrive, now, Notice.event, step]
      simp [arrive]
    refine ⟨x, _, ?_, admitted, consistent, same, calls, idle, by rw [latest]; exact follows⟩
    rw [attend_of_running rfl runs (by rw [reacts]) (by rw [reacts]; rfl), reacts]
    exact attend_of_free rfl (admitted.calls.trans free) 1

theorem subscribe_shared (shared : Shared s c) (free : c.calls = []) {setup : Setup}
    (sharing : setup.Sharing) :
    ∃ y d, let t := subscribe { s with sources := s.sources ++ [setup.source] } s.sources.length
      Shared t d ∧ d.latest = c.latest ∧ d.calls = [] ∧
        t.sources = s.sources ++ [y] ∧ y.setup = setup ∧
        y.Follows c.latest (if (replay? c).isSome then 1 else 0) := by
  obtain ⟨x, d, ends, admitted, consistent, rfl, calls, idle, follows⟩ :=
    attend_watch shared free sharing
  have handed : d.subscriptions.length - 1 = c.subscriptions.length := by
    simp [admitted.subscriptions]
  have begun : subscribe { s with sources := s.sources ++ [x.setup.source] } s.sources.length =
      ((s.arrive x d).react s.sources.length (.subscribed c.subscriptions.length)).1 := by
    simp only [subscribe, shared.transport, ← handed]
    rw [arrive] at ends
    simp only [ends, arrive]
  obtain ⟨y, next, sources, same, keeps⟩ :=
    join_shared shared consistent sharing calls idle admitted
  simp only [begun]
  exact ⟨y, d, next, admitted.latest, admitted.calls.trans free, sources, same, keeps _ _ follows⟩

end

end Session

end WorkloadIdentity.Watch
