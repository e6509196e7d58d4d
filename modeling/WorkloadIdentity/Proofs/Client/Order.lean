import Mathlib.Data.List.Infix
import WorkloadIdentity.Proofs.Client.Once
import WorkloadIdentity.Proofs.Source.Choice
import WorkloadIdentity.Proofs.Source.Reading

/-! The order in which a watcher is told of the pushes. A push that is made while a delivery is
under way tells all watchers before that delivery goes on, so a watcher that is still due the
earlier context is told the later one first. That is the only way out of order: a watcher to which
nothing is due whenever a push is made is told of the pushes one after the other, and of the latest
last. -/

namespace WorkloadIdentity.Watch

variable {κ α : Type}

section
variable {rest : List (Action κ α)}

theorem raise_not_mem_numbered (returns : .raise ∉ rest) (n : Nat) : .raise ∉ numbered n rest := by
  intro there
  have raised := List.mem_map_of_mem (f := Action.map Prod.snd) there
  rw [map_snd_numbered] at raised
  exact returns raised

theorem pushed?_of_mem_numbered (silent : ∀ a ∈ rest, a.pushed? = none) {n : Nat}
    {a : Action κ (Nat × α)} (there : a ∈ numbered n rest) : a.pushed? = none := by
  have listed := List.mem_map_of_mem (f := Action.map Prod.snd) there
  rw [map_snd_numbered] at listed
  simpa [Action.pushed?_map] using silent _ listed

end

namespace Client

variable [DecidableEq κ]

section
variable {c : Client κ α} {a : Action κ α} {w : κ}

theorem updates_append_due_step (returns : a ≠ .raise) :
    updatesFor w (c.tells a) ++ (c.step a).due w = updatesFor w (c.announced a) ++ c.due w := by
  rw [due, due, ← updatesFor_append, ← updatesFor_append, tells_append_owed_step c returns]

theorem updatesFor_announced_push (distinct : c.watchers.Nodup) (watches : w ∈ c.watchers) (x : α) :
    updatesFor w (c.announced (.push x)) = [x] := by
  have part : (updatesFor w (c.announced (.push x))).Sublist [x] :=
    updatesFor_map_sublist distinct w (.update x)
  have there : x ∈ updatesFor w (c.announced (.push x)) :=
    List.mem_filterMap.mpr ⟨(w, .update x), List.mem_map_of_mem watches, if_pos rfl⟩
  exact part.eq_of_length_le (List.length_pos_of_mem there)

theorem mem_latest_of_announced {x : α} (told : x ∈ updatesFor w (c.announced a)) :
    x ∈ (c.step a).latest := by
  rw [latest_step]
  cases a with
  | watch v =>
    by_cases same : v = w
    · subst same
      rw [updatesFor_announced_watch, Option.mem_toList] at told
      exact mem_latest_of_replay told
    · rw [updatesFor_announced_watch_of_ne same] at told
      cases told
  | push y =>
    obtain ⟨entry, listed, brings⟩ := List.mem_filterMap.mp told
    obtain ⟨v, -, rfl⟩ := List.mem_map.mp listed
    dsimp only at brings
    split at brings
    · exact brings
    · cases brings
  | fail e =>
    obtain ⟨entry, listed, brings⟩ := List.mem_filterMap.mp told
    obtain ⟨v, -, rfl⟩ := List.mem_map.mp listed
    dsimp only at brings
    split at brings <;> cases brings
  | _ => cases told

/-- Where no push is made while something is due, what a watcher is told and is still due after a
step is the latest context. -/
theorem mem_latest_step (current : ∀ x ∈ c.due w, x ∈ c.latest)
    (undue : a.pushed?.isSome → c.due w = []) {x : α}
    (there : x ∈ updatesFor w (c.tells a) ++ (c.step a).due w) : x ∈ (c.step a).latest := by
  rcases List.mem_append.mp ((updates_append_due_step_sublist c a w).mem there) with new | old
  · exact mem_latest_of_announced new
  · rw [latest_step]
    cases pushed : a.pushed? with
    | none => exact current x old
    | some y =>
      rw [undue (by rw [pushed]; rfl)] at old
      cases old

end

theorem due_arrives (c : Client κ α) (w : κ) {later : List (Action κ α)}
    (returns : .raise ∉ later) :
    ∃ told, (c.run later).received w = c.received w ++ told ∧
      (c.due w).Sublist (told ++ (c.run later).due w) := by
  induction later generalizing c with
  | nil => exact ⟨[], (List.append_nil _).symm, List.Sublist.refl _⟩
  | cons a later ih =>
    rw [List.mem_cons, not_or] at returns
    obtain ⟨told, received, arrives⟩ := ih (c.step a) returns.2
    refine ⟨updatesFor w (c.tells a) ++ told, ?_, ?_⟩
    · rw [run_cons, received, received_step, List.append_assoc]
    · have first := updates_append_due_step (c := c) (w := w) (Ne.symm returns.1)
      have owed : (c.due w).Sublist (updatesFor w (c.tells a) ++ (c.step a).due w) :=
        first ▸ List.sublist_append_right _ _
      rw [List.append_assoc]
      exact owed.trans (arrives.append_left _)

theorem due_eq_nil {c : Client κ α} (free : c.calls = []) (w : κ) : c.due w = [] := by
  rw [due, owed, free]
  rfl

section
variable {c : Client κ α} {w : κ} {rest : List (Action κ α)}

theorem push_arrives (distinct : c.watchers.Nodup) (watches : w ∈ c.watchers) (x : α)
    (returns : .raise ∉ rest) (ended : ((c.step (.push x)).run rest).calls = []) :
    ∃ told, ((c.step (.push x)).run rest).received w = c.received w ++ told ∧
      (x :: c.due w).Sublist told := by
  obtain ⟨told, received, arrives⟩ := due_arrives (c.step (.push x)) w returns
  rw [due_eq_nil ended, List.append_nil] at arrives
  refine ⟨updatesFor w (c.tells (.push x)) ++ told, ?_, ?_⟩
  · rw [received, received_step, List.append_assoc]
  · have first := updates_append_due_step (c := c) (a := .push x) (w := w) nofun
    rw [updatesFor_announced_push distinct watches, List.singleton_append] at first
    rw [← first]
    exact arrives.append_left _

theorem told_without_push (current : ∀ x ∈ c.due w, x ∈ c.latest)
    (silent : ∀ a ∈ rest, a.pushed? = none) :
    (c.run rest).latest = c.latest ∧
      ∃ told, (c.run rest).received w = c.received w ++ told ∧ ∀ x ∈ told, x ∈ c.latest := by
  induction rest generalizing c with
  | nil => exact ⟨rfl, [], (List.append_nil _).symm, nofun⟩
  | cons a rest ih =>
    obtain ⟨first, later⟩ := List.forall_mem_cons.mp silent
    have kept : (c.step a).latest = c.latest := by rw [latest_step, first, Option.none_or]
    have new {x : α} (there : x ∈ updatesFor w (c.tells a) ++ (c.step a).due w) : x ∈ c.latest :=
      kept ▸ mem_latest_step current (by simp [first]) there
    obtain ⟨latest, told, received, only⟩ :=
      ih (fun x there => kept ▸ new (List.mem_append_right _ there)) later
    refine ⟨latest.trans kept, updatesFor w (c.tells a) ++ told, ?_, fun x there => ?_⟩
    · rw [run_cons, received, received_step, List.append_assoc]
    · rcases List.mem_append.mp there with here | there
      · exact new (List.mem_append_left _ here)
      · exact kept ▸ only x there

theorem getLast?_received_of_push (distinct : c.watchers.Nodup) (watches : w ∈ c.watchers)
    (undue : c.due w = []) (x : α) (returns : .raise ∉ rest)
    (silent : ∀ a ∈ rest, a.pushed? = none)
    (ended : ((c.step (.push x)).run rest).calls = []) :
    ((c.step (.push x)).run rest).latest = some x ∧
      (((c.step (.push x)).run rest).received w).getLast? = some x := by
  have pushed : (c.step (.push x)).latest = some x := latest_step c _
  have new {y : α} (there : y ∈ updatesFor w (c.tells (.push x)) ++ (c.step (.push x)).due w) :
      y = x := by
    have held := mem_latest_step (by simp [undue]) (fun _ => undue) there
    exact (Option.some.inj (pushed.symm.trans held)).symm
  have current : ∀ y ∈ (c.step (.push x)).due w, y ∈ (c.step (.push x)).latest := by
    intro y there
    rw [new (List.mem_append_right _ there)]
    exact pushed
  obtain ⟨latest, told, received, only⟩ := told_without_push current silent
  obtain ⟨whole, received', arrives⟩ := push_arrives distinct watches x returns ended
  have same : updatesFor w (c.tells (.push x)) ++ told = whole := by
    rw [received, received_step, List.append_assoc] at received'
    exact List.append_cancel_left received'
  have filled : whole ≠ [] := by
    rintro rfl
    exact absurd (arrives.mem List.mem_cons_self) List.not_mem_nil
  refine ⟨latest.trans pushed, ?_⟩
  rw [received', List.getLast?_append, List.getLast?_eq_some_getLast filled, Option.some_or]
  have last : whole.getLast filled ∈ updatesFor w (c.tells (.push x)) ++ told := by
    rw [same]
    exact List.getLast_mem filled
  rcases List.mem_append.mp last with here | there
  · rw [new (List.mem_append_left _ here)]
  · have held := only _ there
    rw [pushed] at held
    exact held.symm

end

/-- Since it was told what it was told earlier, a watcher has been told of the pushes one after the
other, and what is due to it is the latest context. -/
structure InOrder (c : Client κ (Nat × α)) (watcher : κ) (earlier : List (Nat × α)) (n : Nat) :
    Prop where
  received : ∃ since, c.received watcher = earlier ++ since ∧
    (since.map Prod.fst).Pairwise (· ≤ ·) ∧ ∀ x ∈ since, x.1 < n
  current : ∀ x ∈ c.due watcher, x ∈ c.latest

section
variable {c : Client κ (Nat × α)} {w : κ} {earlier : List (Nat × α)} {n : Nat}

theorem Counted.lt_of_due (counted : c.Counted n) {x : Nat × α} (due : x ∈ c.due w) : x.1 < n := by
  obtain ⟨⟨v, notice⟩, listed, brings⟩ := List.mem_filterMap.mp due
  obtain ⟨⟨u, pending⟩, under, queued⟩ := List.mem_flatMap.mp listed
  cases pending with
  | delivery told queue =>
    obtain ⟨_, -, same⟩ := List.mem_map.mp (queued : _ ∈ queue.map (·, told))
    cases same
    dsimp only at brings
    split at brings
    · cases notice with
      | update context =>
        cases brings
        exact counted.begun u _ x under rfl
      | error e => cases brings
    · cases brings
  | admission told live => cases queued

theorem InOrder.step (ordered : c.InOrder w earlier n) (counted : c.Counted n) {a : Action κ α}
    (undue : a.pushed?.isSome → c.due w = []) :
    (c.step (a.map (n, ·))).InOrder w earlier (n + pushes [a]) := by
  have undue' : (a.map (n, ·)).pushed?.isSome → c.due w = [] := by
    rwa [Action.pushed?_map, Option.isSome_map]
  have latest {x : Nat × α}
      (there : x ∈ updatesFor w (c.tells (a.map (n, ·))) ++ (c.step (a.map (n, ·))).due w) :
      x ∈ (c.step (a.map (n, ·))).latest := mem_latest_step ordered.current undue' there
  have number {x : Nat × α} (there : x ∈ updatesFor w (c.tells (a.map (n, ·)))) :
      x.1 + 1 = n + pushes [a] :=
    (counted.step a).latest x (latest (List.mem_append_left _ there))
  obtain ⟨since, received, sorted, bound⟩ := ordered.received
  refine ⟨⟨since ++ updatesFor w (c.tells (a.map (n, ·))), ?_, ?_, fun x there => ?_⟩,
    fun x there => latest (List.mem_append_right _ there)⟩
  · rw [received_step, received, List.append_assoc]
  · rw [List.map_append, List.pairwise_append]
    refine ⟨sorted, ?_, ?_⟩
    · rw [List.pairwise_map]
      refine List.pairwise_of_forall_mem_list fun x here y there => ?_
      have first := number here
      have second := number there
      omega
    · intro i before j after
      obtain ⟨x, here, rfl⟩ := List.mem_map.mp before
      obtain ⟨y, there, rfl⟩ := List.mem_map.mp after
      have first := bound x here
      have second := number there
      omega
  · rcases List.mem_append.mp there with here | there
    · exact Nat.lt_add_right _ (bound x here)
    · have last := number there
      omega

end

section
variable (replaying : Bool) {before after front rest : List (Action κ α)} {w : κ} {x : α}

theorem marked_append (actions later : List (Action κ α)) :
    marked replaying (actions ++ later) =
      (marked replaying actions).run (numbered (pushes actions) later) := by
  rw [marked, numbered_append, run_append, Nat.zero_add]
  rfl

theorem marked_append_push (actions rest : List (Action κ α)) (x : α) :
    marked replaying (actions ++ .push x :: rest) =
      ((marked replaying actions).step (.push (pushes actions, x))).run
        (numbered (pushes actions + 1) rest) := by
  rw [marked_append]
  rfl

theorem inOrder_marked
    (current : ∀ x ∈ (marked replaying before).due w, x ∈ (marked replaying before).latest)
    (free : ∀ front x rest, after = front ++ .push x :: rest →
      (marked replaying (before ++ .watch w :: front)).due w = []) :
    (marked replaying (before ++ .watch w :: after)).InOrder w
      ((marked replaying before).received w) (pushes (before ++ .watch w :: after)) := by
  induction after using List.reverseRecOn with
  | nil =>
    have start : (marked replaying before).InOrder w ((marked replaying before).received w)
        (pushes before) :=
      ⟨⟨[], (List.append_nil _).symm, List.Pairwise.nil, nofun⟩, current⟩
    rw [marked_concat, pushes_append]
    exact start.step (a := .watch w) (counted_marked replaying before) nofun
  | append_singleton after a ih =>
    have regrouped : before ++ .watch w :: (after ++ [a]) = before ++ .watch w :: after ++ [a] := by
      simp
    have earlier := ih fun front x rest split => free front x (rest ++ [a]) (by simp [split])
    rw [regrouped, marked_concat, pushes_append (before ++ .watch w :: after) [a]]
    refine earlier.step (counted_marked replaying _) fun pushes => ?_
    cases a with
    | push x => exact free after x [] rfl
    | _ => cases pushes

theorem undue_of_sorted (returns : .raise ∉ after)
    (stays : ∀ front rest, after = front ++ rest →
      w ∈ (marked replaying (before ++ .watch w :: front)).watchers)
    (ended : (marked replaying (before ++ .watch w :: after)).calls = [])
    (sorted : (((marked replaying (before ++ .watch w :: after)).received w).drop
      ((marked replaying before).received w).length |>.map Prod.fst).Pairwise (· ≤ ·))
    (split : after = front ++ .push x :: rest) :
    (marked replaying (before ++ .watch w :: front)).due w = [] := by
  have counted := counted_marked replaying (before ++ .watch w :: front)
  have watches := stays front _ split
  subst split
  have whole : before ++ .watch w :: (front ++ .push x :: rest) =
      before ++ .watch w :: front ++ .push x :: rest := by simp
  rw [whole, marked_append_push] at ended sorted
  simp only [List.mem_append, List.mem_cons, not_or] at returns
  obtain ⟨told, received, arrives⟩ := push_arrives counted.distinct watches _
    (raise_not_mem_numbered returns.2.2 _) ended
  have calm : .raise ∉ .watch w :: front := by simp [returns.1]
  obtain ⟨since, earlier, -⟩ := due_arrives (marked replaying before) w
    (raise_not_mem_numbered calm (pushes before))
  rw [← marked_append] at earlier
  rw [received, earlier, List.append_assoc, List.drop_left, List.map_append] at sorted
  refine List.eq_nil_iff_forall_not_mem.mpr fun y due => ?_
  have later := ((List.pairwise_append.mp sorted).2.1.sublist (arrives.map Prod.fst))
  have first := List.rel_of_pairwise_cons later (List.mem_map_of_mem due)
  have second := counted.lt_of_due due
  omega

end

end Client

namespace Source

theorem current_run_of_no_update {s : Source} (h : Consistent s) {rest : History}
    (silent : ∀ o ∈ rest, o.2.context? = none) (serves : (s.run rest).lifecycle = .ready) :
    s.lifecycle = .ready ∧ (s.run rest).current = s.current := by
  induction rest generalizing s with
  | nil => exact ⟨serves, rfl⟩
  | cons o rest ih =>
    obtain ⟨first, later⟩ := List.forall_mem_cons.mp silent
    obtain ⟨ready, current⟩ := ih (consistent_after h o) later serves
    have unapplied : s.applied? o = none := by
      rw [Option.eq_none_iff_forall_ne_some]
      intro picked applied
      obtain ⟨-, context, update, -⟩ := after_of_applied h applied
      simp [update, Event.context?] at first
    obtain ⟨served, same⟩ := (kept_of_unapplied unapplied (change_step h o.1 o.2)).2 ready
    exact ⟨served, current.trans same⟩

theorem lives_of_ready_after {s : Source} (h : Consistent s) {o : Moment × Event}
    (ready : (s.after o).lifecycle = .ready) : s.lifecycle = .init ∨ s.lifecycle = .ready := by
  rcases next_change h (change_step h o.1 o.2) with same | next
  · exact .inr (same.symm.trans ready)
  · change s.lifecycle.Next (s.after o).lifecycle at next
    rw [ready] at next
    generalize s.lifecycle = l at next ⊢
    cases next
    exact .inl rfl

/-- A source that is ready serves the last update that came, if its selector picks one of its
candidates. -/
theorem served_of_last_update {setup : Setup} {earlier later : History} {m : Moment}
    {context : Context} {picked : Candidate} (listed : picked ∈ context.candidates)
    (picks : setup.selector (setup.source.run earlier).asked context.candidates =
      .ok (some picked))
    (silent : ∀ o ∈ later, o.2.context? = none)
    (serves : (setup.source.run (earlier ++ (m, .update context) :: later)).lifecycle = .ready) :
    ∃ c, (setup.source.run (earlier ++ (m, .update context) :: later)).snapshot? = .ok c ∧
      c.IsFrom m context := by
  have consistent := consistent_run setup (earlier ++ (m, .update context) :: later)
  rw [run_append, run_cons] at serves consistent ⊢
  have before := consistent_run setup earlier
  obtain ⟨ready, current⟩ := current_run_of_no_update (consistent_after before _) silent serves
  have lives := lives_of_ready_after before ready
  have applied : (setup.source.run earlier).applied? (m, .update context) = some picked := by
    have accepted : accept m.wall context.candidates
        ((setup.source.run earlier).setup.selector (setup.source.run earlier).asked
          context.candidates) = .ok picked := by
      rw [setup_run]
      exact accept_eq_ok_iff.mpr ⟨picks, listed⟩
    exact applied?_eq_some_iff.mpr ⟨lives, by simp only [brought, select, accepted]⟩
  obtain ⟨-, _, same, put⟩ := after_of_applied before applied
  cases same
  exact ⟨_, (snapshot?_eq_ok_iff consistent).mpr (current.trans put), listed, rfl, rfl⟩

end Source

def contexts (h : History) : List Context := h.filterMap fun o => o.2.context?

theorem exists_last_update {h : History} {x : Context} (last : (contexts h).getLast? = some x) :
    ∃ earlier m later, h = earlier ++ (m, .update x) :: later ∧
      ∀ o ∈ later, o.2.context? = none := by
  obtain ⟨front, whole⟩ := List.getLast?_eq_some_iff.mp last
  obtain ⟨earlier, rest, rfl, -, one⟩ := List.filterMap_eq_append_iff.mp whole
  obtain ⟨between, ⟨m, e⟩, later, rfl, -, update, silent⟩ := List.filterMap_eq_cons_iff.mp one
  refine ⟨earlier ++ between, m, later, ?_, List.filterMap_eq_nil_iff.mp silent⟩
  cases e with
  | update context =>
    cases update
    rw [List.append_assoc]
  | _ => cases update

namespace Client

variable [DecidableEq κ]

/-- A watcher to which no earlier context is due when it subscribes, and that stays subscribed, is
told of the pushes in the order in which they were made just when nothing was due to it at any of
them. Once nothing is under way any more, it has been told of the latest push last, if nothing was
due to it at that one. A source that has been brought what the watcher was told then serves the
latest context, if it is ready and its selector takes it. -/
theorem pushes_arrive_in_order (replaying : Bool) (before after : List (Action κ Context)) (w : κ)
    (current : ∀ x ∈ (marked replaying before).due w, x ∈ (marked replaying before).latest)
    (returns : .raise ∉ after)
    (stays : ∀ front rest, after = front ++ rest →
      w ∈ (marked replaying (before ++ .watch w :: front)).watchers)
    (ended : (marked replaying (before ++ .watch w :: after)).calls = []) :
    let c := marked replaying (before ++ .watch w :: after)
    let since := (c.received w).drop ((marked replaying before).received w).length
    let dueAfter front := (marked replaying (before ++ .watch w :: front)).due w
    c.map Prod.snd =
      ({ replaying := replaying } : Client κ Context).run (before ++ .watch w :: after) ∧
    ((since.map Prod.fst).Pairwise (· ≤ ·) ↔
      ∀ front x rest, after = front ++ .push x :: rest → dueAfter front = []) ∧
    ∀ front x rest, after = front ++ .push x :: rest → (∀ a ∈ rest, a.pushed? = none) →
      dueAfter front = [] →
      c.latest.map Prod.snd = some x ∧ (c.received w).getLast? = c.latest ∧
      ∀ (setup : Setup) (h : History), contexts h = (c.received w).map Prod.snd →
        ∃ earlier m later, h = earlier ++ (m, .update x) :: later ∧ contexts later = [] ∧
          ∀ picked ∈ x.candidates,
            setup.selector (setup.source.run earlier).asked x.candidates = .ok (some picked) →
            (setup.source.run h).lifecycle = .ready →
            ∃ served, (setup.source.run h).snapshot? = .ok served ∧ served.IsFrom m x := by
  intro c since dueAfter
  refine ⟨map_snd_marked replaying _, ⟨fun sorted front x rest split => ?_, fun free => ?_⟩, ?_⟩
  · exact undue_of_sorted replaying returns stays ended sorted split
  · obtain ⟨told, received, sorted, -⟩ := (inOrder_marked replaying current free).received
    simp only [since, c, received, List.drop_left]
    exact sorted
  · rintro front x rest rfl silent free
    have whole : before ++ .watch w :: (front ++ .push x :: rest) =
        before ++ .watch w :: front ++ .push x :: rest := by simp
    have counted := counted_marked replaying (before ++ .watch w :: front)
    simp only [List.mem_append, List.mem_cons, not_or] at returns
    rw [whole, marked_append_push] at ended
    obtain ⟨latest, last⟩ := getLast?_received_of_push counted.distinct (stays front _ rfl) free _
      (raise_not_mem_numbered returns.2.2 _) (fun _ => pushed?_of_mem_numbered silent) ended
    rw [← marked_append_push, ← whole] at latest last
    refine ⟨congrArg (Option.map Prod.snd) latest, last.trans latest.symm, fun setup h same => ?_⟩
    have brought : (contexts h).getLast? = some x := by
      rw [same, List.getLast?_map, last]
      rfl
    obtain ⟨earlier, m, later, rfl, quiet⟩ := exists_last_update brought
    have done : contexts later = [] := List.filterMap_eq_nil_iff.mpr quiet
    refine ⟨earlier, m, later, rfl, done, fun picked listed picks => ?_⟩
    exact Source.served_of_last_update listed picks quiet

theorem pushes_arrive_in_order_of_nested :
    let after : List (Action Nat Context) :=
      [.push ⟨[], .empty⟩, .finish, .push .single, .finish, .finish, .finish]
    let c := marked false ([.watch 0] ++ .watch 1 :: after)
    ((c.received 1).map Prod.fst).Pairwise (· ≤ ·) ∧ (c.received 1).getLast? = c.latest ∧
      c.latest.map Prod.snd = some .single := by
  intro after c
  have within {front rest : List (Action Nat Context)} (split : after = front ++ rest) :
      front ∈ after.inits := (List.mem_inits front after).mpr ⟨rest, split.symm⟩
  simp only [after, List.inits, List.map_cons, List.map_nil, List.mem_cons, List.not_mem_nil,
    or_false] at within
  have stays : ∀ front rest, after = front ++ rest →
      1 ∈ (marked false ([.watch 0] ++ .watch 1 :: front)).watchers := by
    intro front rest split
    rcases within split with rfl | rfl | rfl | rfl | rfl | rfl | rfl <;> decide
  have free : ∀ front x rest, after = front ++ .push x :: rest →
      (marked false ([.watch 0] ++ .watch 1 :: front)).due 1 = [] := by
    intro front x rest split
    rcases within split with rfl | rfl | rfl | rfl | rfl | rfl | rfl
    · rfl
    · simp [after] at split
    · rfl
    all_goals simp [after] at split
  have undue : (marked false [.watch 0]).due 1 = ([] : List (Nat × Context)) := rfl
  obtain ⟨-, ordered, latest⟩ := pushes_arrive_in_order false [.watch 0] after 1
    (by simp [undue]) (by simp [after]) stays rfl
  obtain ⟨pushed, last, -⟩ := latest [.push ⟨[], .empty⟩, .finish] .single
    [.finish, .finish, .finish] rfl (by simp [Action.pushed?]) rfl
  exact ⟨ordered.mpr free, last, pushed⟩

/-- The watcher 0 pushes again in its handler. The watcher 1 is told of that first, and then of the
push before it. -/
theorem nested_push_overtakes :
    let actions : List (Action Nat Nat) :=
      [.watch 0, .watch 1, .push 5, .push 6, .finish, .finish, .finish, .finish]
    let c := ({} : Client Nat Nat).run actions
    c.calls = [] ∧ c.watchers = [0, 1] ∧ c.received 0 = [5, 6] ∧ c.received 1 = [6, 5] ∧
      c.latest = some 6 := by
  exact ⟨rfl, rfl, rfl, rfl, rfl⟩

end Client

end WorkloadIdentity.Watch
