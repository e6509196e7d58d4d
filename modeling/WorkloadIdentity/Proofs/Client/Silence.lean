import Mathlib.Data.List.Induction
import WorkloadIdentity.Proofs.Client.Owed

/-! What a client does after it is closed. Its watchers are gone, so pushes and failures reach
nobody, and who subscribes is told that the client is closed and gets a subscription that is ended
already. But a delivery that is under way goes through the watchers there were when it began, and
does not look at the client again: what is owed when a client is closed is still told. -/

namespace WorkloadIdentity.Watch

variable {κ α : Type}

namespace Client

/-- The client is closed, and it has nobody to tell anything. -/
structure Shut (c : Client κ α) : Prop where
  closed : c.closed = true
  unwatched : c.watchers = []

section
variable {c : Client κ α}

theorem Shut.greeting (shut : c.Shut) : c.greeting? = some (.error clientClosed) :=
  if_pos shut.closed

theorem Shut.announced_eq_nil {a : Action κ α} (shut : c.Shut) (other : a.isWatch = false) :
    c.announced a = [] := by
  cases a with
  | watch w => cases other
  | _ => simp [announced, shut.unwatched]

theorem Shut.tells_watch (shut : c.Shut) (w : κ) :
    c.tells (.watch w) = [(w, .error clientClosed)] := by
  rw [tells, announced, shut.greeting]
  rfl

theorem mem_announced {a : Action κ α} {entry : κ × Notice α}
    (listed : entry ∈ c.announced a) : entry.1 ∈ c.watchers ∨ a = .watch entry.1 := by
  cases a with
  | watch w =>
    obtain ⟨notice, -, rfl⟩ := List.mem_map.mp listed
    exact .inr rfl
  | push x =>
    obtain ⟨w, there, rfl⟩ := List.mem_map.mp listed
    exact .inl there
  | fail e =>
    obtain ⟨w, there, rfl⟩ := List.mem_map.mp listed
    exact .inl there
  | _ => cases listed

theorem suffix_calls_deliver {base : List (κ × Call κ α)} (waits : base <:+ c.calls)
    (notice : Notice α) (watchers : List κ) : base <:+ (c.deliver notice watchers).calls := by
  cases watchers with
  | nil => exact waits
  | cons w rest => exact waits.trans (List.suffix_cons _ _)

theorem prefix_subscriptions_deliver (c : Client κ α) (notice : Notice α) (watchers : List κ) :
    c.subscriptions <+: (c.deliver notice watchers).subscriptions := by
  cases watchers <;> exact List.prefix_rfl

theorem prefix_subscriptions_finish (c : Client κ α) :
    c.subscriptions <+: c.finish.subscriptions := by
  unfold finish
  split
  · exact List.prefix_rfl
  · rename_i notice rest calls _
    exact prefix_subscriptions_deliver { c with calls := calls } notice rest
  · exact List.prefix_append _ _

end

variable [DecidableEq κ]

section
variable {c : Client κ α} {a : Action κ α} {actions : List (Action κ α)} {w : κ}

theorem Shut.step (shut : c.Shut) (a : Action κ α) : (c.step a).Shut := by
  cases a with
  | watch w =>
    refine ⟨(keeps_watch c w).closed.trans shut.closed, ?_⟩
    rw [Client.step, watchers_watch, if_pos shut.closed, shut.unwatched]
  | push x =>
    exact ⟨(keeps_deliver _ _ _).closed.trans shut.closed,
      (watchers_deliver _ _ _).trans shut.unwatched⟩
  | fail e =>
    exact ⟨(keeps_deliver _ _ _).closed.trans shut.closed,
      (watchers_deliver _ _ _).trans shut.unwatched⟩
  | unsubscribe i =>
    refine ⟨(keeps_unsubscribe c i).closed.trans shut.closed, List.sublist_nil.mp ?_⟩
    exact shut.unwatched ▸ watchers_unsubscribe_sublist c i
  | close => exact ⟨rfl, rfl⟩
  | finish =>
    exact ⟨(keeps_finish c).closed.trans shut.closed, (watchers_finish c).trans shut.unwatched⟩
  | raise => exact ⟨shut.closed, shut.unwatched⟩

theorem Shut.run (shut : c.Shut) (actions : List (Action κ α)) : (c.run actions).Shut := by
  induction actions generalizing c with
  | nil => exact shut
  | cons a later ih => exact ih (shut.step a)

theorem Shut.tells_append_owed (shut : c.Shut) (other : a.isWatch = false) (returns : a ≠ .raise) :
    c.tells a ++ (c.step a).owed = c.owed := by
  have settled := tells_append_owed_step c returns
  rwa [shut.announced_eq_nil other, List.nil_append] at settled

theorem Shut.tells_append_owed_sublist (shut : c.Shut) (other : a.isWatch = false) :
    (c.tells a ++ (c.step a).owed).Sublist c.owed := by
  have settled := tells_append_owed_step_sublist c a
  rwa [shut.announced_eq_nil other, List.nil_append] at settled

/-- What is told in a run, but not to those who subscribe in it. -/
def resumed (c : Client κ α) (actions : List (Action κ α)) : List (κ × Notice α) :=
  ((c.trace actions).filter fun (a, _) => !a.isWatch).flatMap Prod.snd

theorem resumed_cons_watch (c : Client κ α) (w : κ) (later : List (Action κ α)) :
    c.resumed (.watch w :: later) = (c.step (.watch w)).resumed later := rfl

theorem resumed_cons_of_not_watch (c : Client κ α) (other : a.isWatch = false)
    (later : List (Action κ α)) :
    c.resumed (a :: later) = c.tells a ++ (c.step a).resumed later := by
  rw [resumed, trace, List.filter_cons_of_pos (by simpa using other), List.flatMap_cons, resumed]

theorem Shut.resumed_append_owed_sublist (shut : c.Shut) (actions : List (Action κ α)) :
    (c.resumed actions ++ (c.run actions).owed).Sublist c.owed := by
  induction actions generalizing c with
  | nil => exact List.Sublist.refl _
  | cons a later ih =>
    have goes := ih (shut.step a)
    rw [run_cons]
    cases watches : a.isWatch with
    | true =>
      obtain ⟨w, rfl⟩ := Action.isWatch_iff.mp watches
      rw [owed_watch] at goes
      rwa [resumed_cons_watch]
    | false =>
      rw [resumed_cons_of_not_watch c watches, List.append_assoc]
      exact (goes.append_left _).trans (shut.tells_append_owed_sublist watches)

theorem Shut.resumed_append_owed (shut : c.Shut) (returns : .raise ∉ actions) :
    c.resumed actions ++ (c.run actions).owed = c.owed := by
  induction actions generalizing c with
  | nil => rfl
  | cons a later ih =>
    obtain ⟨here, there⟩ := not_or.mp (mt List.mem_cons.mpr returns)
    have goes := ih (shut.step a) there
    rw [run_cons]
    cases watches : a.isWatch with
    | true =>
      obtain ⟨w, rfl⟩ := Action.isWatch_iff.mp watches
      rw [owed_watch] at goes
      rwa [resumed_cons_watch]
    | false =>
      rw [resumed_cons_of_not_watch c watches, List.append_assoc, goes]
      exact shut.tells_append_owed watches (Ne.symm here)

theorem Shut.resumed_eq_nil_iff (shut : c.Shut) :
    (∀ actions, c.resumed actions = []) ↔ c.owed = [] := by
  constructor
  · intro silent
    have returns : (.raise : Action κ α) ∉ List.replicate c.backlog .finish := by simp
    have settled := shut.resumed_append_owed returns
    rw [silent, run_finish] at settled
    exact settled.symm
  · intro settled actions
    have part := shut.resumed_append_owed_sublist actions
    rw [settled, List.sublist_nil, List.append_eq_nil_iff] at part
    exact part.1

theorem Shut.filter_told (shut : c.Shut) (settled : ∀ entry ∈ c.owed, entry.1 ≠ w)
    (actions : List (Action κ α)) :
    ((c.trace actions).flatMap Prod.snd).filter (·.1 = w) =
      List.replicate (actions.countP (·.watches w)) (w, .error clientClosed) := by
  induction actions generalizing c with
  | nil => rfl
  | cons a later ih =>
    rw [trace, List.flatMap_cons, List.filter_append, List.countP_cons]
    cases watches : a.isWatch with
    | true =>
      obtain ⟨v, rfl⟩ := Action.isWatch_iff.mp watches
      rw [ih (shut.step _) (owed_watch c v ▸ settled), shut.tells_watch]
      by_cases same : v = w
      · simp [same, Action.watches, List.replicate_succ]
      · simp [same, Action.watches]
    | false =>
      have part := shut.tells_append_owed_sublist watches
      have others : (c.tells a).filter (·.1 = w) = [] := by
        rw [List.filter_eq_nil_iff]
        intro entry told
        simpa using settled entry (part.mem (List.mem_append_left _ told))
      have unwatched : a.watches w = false := by
        cases a <;> first | rfl | cases watches
      rw [others, unwatched, ih (shut.step a) fun entry left =>
        settled entry (part.mem (List.mem_append_right _ left))]
      rfl

end

section
variable {c : Client κ α} {w : κ} {notice : Notice α} {live : Bool} {base : List (κ × Call κ α)}

theorem suffix_calls_watch (c : Client κ α) (w : κ) : c.calls <:+ (c.watch w).calls := by
  cases greets : c.greeting? with
  | none =>
    rw [(watch_of_no_greeting greets w).2]
    exact List.suffix_rfl
  | some notice =>
    rw [watch_of_greeting greets w]
    exact List.suffix_cons _ _

theorem admission_waits_step (waits : (w, .admission notice live) :: base <:+ c.calls)
    {a : Action κ α} (deep : base.length < (c.step a).calls.length) :
    (w, .admission notice live) :: base <:+ (c.step a).calls := by
  cases a with
  | watch v => exact waits.trans (suffix_calls_watch c v)
  | push x => exact suffix_calls_deliver (c := { c with latest := some x }) waits _ _
  | fail e => exact suffix_calls_deliver waits _ _
  | unsubscribe i =>
    rw [step, calls_unsubscribe]
    exact waits
  | close => exact waits
  | finish =>
    cases stack : c.calls with
    | nil => simp [stack] at waits
    | cons top calls =>
      rw [stack] at waits
      rcases List.suffix_cons_iff.mp waits with same | below
      · obtain ⟨rfl, rfl⟩ := List.cons.inj same
        rw [step, finish_of_admission stack] at deep
        exact absurd deep (Nat.lt_irrefl _)
      · obtain ⟨v, ⟨notice, rest⟩ | ⟨notice, live⟩⟩ := top
        · rw [step, finish_of_delivery stack]
          exact suffix_calls_deliver below _ _
        · rw [step, finish_of_admission stack]
          exact below
  | raise =>
    cases stack : c.calls with
    | nil => simp [stack] at waits
    | cons top calls =>
      rw [stack] at waits
      rw [step, raise, stack] at deep ⊢
      rcases List.suffix_cons_iff.mp waits with same | below
      · obtain ⟨rfl, rfl⟩ := List.cons.inj same
        exact absurd deep (Nat.lt_irrefl _)
      · exact below

theorem admission_waits_run (waits : (w, .admission notice live) :: base <:+ c.calls)
    {inner : List (Action κ α)}
    (deep : ∀ front, front <+: inner → base.length < (c.run front).calls.length) :
    (w, .admission notice live) :: base <:+ (c.run inner).calls := by
  induction inner using List.reverseRecOn with
  | nil => exact waits
  | append_singleton inner a ih =>
    have before := ih fun front part => deep front (part.trans (List.prefix_append _ _))
    have last := deep _ List.prefix_rfl
    rw [run_concat] at last ⊢
    exact admission_waits_step before last

theorem prefix_subscriptions_watch (c : Client κ α) (w : κ) :
    c.subscriptions <+: (c.watch w).subscriptions := by
  cases greets : c.greeting? with
  | none =>
    rw [(watch_of_no_greeting greets w).2]
    exact List.prefix_append _ _
  | some notice =>
    rw [watch_of_greeting greets w]
    exact List.prefix_rfl

theorem unsubscribe_of_ended {i : Nat} (ended : c.subscriptions[i]? = some ⟨w, false⟩) :
    c.unsubscribe i = c := by
  simp [unsubscribe, ended]

theorem ended_step {i : Nat} (ended : c.subscriptions[i]? = some ⟨w, false⟩) (a : Action κ α) :
    (c.step a).subscriptions[i]? = some ⟨w, false⟩ := by
  have stays : ∀ {later : List (Subscription κ)}, c.subscriptions <+: later →
      later[i]? = some ⟨w, false⟩ := by
    rintro later ⟨more, rfl⟩
    rw [List.getElem?_append_left (List.getElem?_eq_some_iff.mp ended).1]
    exact ended
  cases a with
  | watch v => exact stays (prefix_subscriptions_watch c v)
  | push x => exact stays (prefix_subscriptions_deliver { c with latest := some x } _ _)
  | fail e => exact stays (prefix_subscriptions_deliver c _ _)
  | unsubscribe j =>
    by_cases same : j = i
    · rw [step, same, unsubscribe_of_ended ended]
      exact ended
    · rw [step, unsubscribe]
      split
      · rw [List.getElem?_set_ne same]
        exact ended
      · exact ended
  | close => exact ended
  | finish => exact stays (prefix_subscriptions_finish c)
  | raise => exact ended

theorem ended_run {i : Nat} (ended : c.subscriptions[i]? = some ⟨w, false⟩)
    (actions : List (Action κ α)) : (c.run actions).subscriptions[i]? = some ⟨w, false⟩ := by
  induction actions generalizing c with
  | nil => exact ended
  | cons a later ih => exact ih (ended_step ended a)

theorem Shut.finish_watch (shut : c.Shut) (w : κ) {inner : List (Action κ α)}
    (deep : ∀ front, front <+: inner →
      c.calls.length < ((c.step (.watch w)).run front).calls.length)
    (returns : ((c.step (.watch w)).run inner).calls.length = c.calls.length + 1) :
    ((c.step (.watch w)).run inner).finish =
      ({ (c.step (.watch w)).run inner with calls := c.calls } : Client κ α).handOut w false := by
  have waits : (w, .admission (.error clientClosed) false) :: c.calls <:+
      (c.step (.watch w)).calls := by
    rw [Client.step, watch_of_greeting shut.greeting, shut.closed]
    exact List.suffix_rfl
  have stack := (admission_waits_run waits deep).eq_of_length returns.symm
  exact finish_of_admission stack.symm

end

theorem watched_of_run (replaying : Bool) (actions : List (Action κ α)) :
    let c := ({ replaying := replaying } : Client κ α).run actions
    (∀ w ∈ c.watchers, .watch w ∈ actions) ∧
      ∀ entry ∈ c.delivered ++ c.owed, .watch entry.1 ∈ actions := by
  induction actions using List.reverseRecOn with
  | nil => exact ⟨nofun, nofun⟩
  | append_singleton actions a ih =>
    intro c
    obtain ⟨watchers, entries⟩ := ih
    have last : c = (({ replaying := replaying } : Client κ α).run actions).step a :=
      run_concat _ actions a
    constructor
    · intro w there
      rcases mem_watchers_step (last ▸ there) with before | rfl
      · exact List.mem_append_left _ (watchers w before)
      · simp
    · intro entry there
      rw [last, delivered_step, List.append_assoc, List.mem_append] at there
      rcases there with before | new
      · exact List.mem_append_left _ (entries entry (List.mem_append_left _ before))
      · rcases List.mem_append.mp ((tells_append_owed_step_sublist _ a).mem new) with here | left
        · rcases mem_announced here with there | rfl
          · exact List.mem_append_left _ (watchers _ there)
          · simp
        · exact List.mem_append_left _ (entries entry (List.mem_append_right _ left))

/-- A client that is closed tells who subscribes that it is closed. For the rest it tells what it
owed when it was closed and nothing else: if no handler throws, all of that in its order. So its
watchers hear nothing further if and only if no delivery was under way that had still some of them
to reach. A subscription to a closed client is ended when it is handed out, whatever the handler
does first that is told of the end: `inner` is what happens until it returns, all of it above the
calls that waited before. -/
theorem close_leaves_what_is_owed (replaying : Bool) (before : List (Action κ α)) :
    let c := ({ replaying := replaying } : Client κ α).run before
    let d := c.step .close
    ((∀ after, d.resumed after = []) ↔ c.owed = []) ∧
      (∀ after,
        (d.run after).delivered = c.delivered ++ (d.trace after).flatMap Prod.snd ∧
        (d.resumed after ++ (d.run after).owed).Sublist c.owed ∧
        (.raise ∉ after → d.resumed after ++ (d.run after).owed = c.owed) ∧
        (∀ w told, (.watch w, told) ∈ d.trace after → told = [(w, .error clientClosed)]) ∧
        (∀ x told, (.push x, told) ∈ d.trace after → told = []) ∧
        (∀ e told, (.fail e, told) ∈ d.trace after → told = []) ∧
        ∀ w, .watch w ∉ before → (d.run after).delivered.filter (·.1 = w) =
          List.replicate (after.countP (·.watches w)) (w, .error clientClosed)) ∧
      ∀ front w inner,
        let called := (d.run front).step (.watch w)
        (∀ start, start <+: inner → (d.run front).calls.length < (called.run start).calls.length) →
          (called.run inner).calls.length = (d.run front).calls.length + 1 →
          let returned := (called.run inner).step .finish
          let i := (called.run inner).subscriptions.length
          returned.subscriptions = (called.run inner).subscriptions ++ [⟨w, false⟩] ∧
            ∀ later, (returned.run later).step (.unsubscribe i) = returned.run later := by
  intro c d
  have shut : d.Shut := ⟨rfl, rfl⟩
  have known := watched_of_run replaying before
  refine ⟨shut.resumed_eq_nil_iff, fun after => ⟨delivered_run d after,
    shut.resumed_append_owed_sublist after, shut.resumed_append_owed, ?_, ?_, ?_, ?_⟩, ?_⟩
  · intro w told listed
    obtain ⟨front, rest, -, rfl⟩ := exists_of_mem_trace listed
    exact (shut.run front).tells_watch w
  · intro x told listed
    obtain ⟨front, rest, -, rfl⟩ := exists_of_mem_trace listed
    rw [tells, (shut.run front).announced_eq_nil rfl, List.take_nil]
  · intro e told listed
    obtain ⟨front, rest, -, rfl⟩ := exists_of_mem_trace listed
    rw [tells, (shut.run front).announced_eq_nil rfl, List.take_nil]
  · intro w new
    have others : ∀ entry ∈ c.delivered ++ c.owed, entry.1 ≠ w := by
      rintro entry there rfl
      exact new (known.2 entry there)
    have untold : c.delivered.filter (·.1 = w) = [] := by
      rw [List.filter_eq_nil_iff]
      intro entry there
      simpa using others entry (List.mem_append_left _ there)
    have settled : ∀ entry ∈ d.owed, entry.1 ≠ w := fun entry left =>
      others entry (List.mem_append_right _ left)
    rw [delivered_run, List.filter_append, shut.filter_told settled]
    exact congrArg (· ++ _) untold
  · intro front w inner called deep returns returned i
    have handed : returned.subscriptions = (called.run inner).subscriptions ++ [⟨w, false⟩] :=
      congrArg subscriptions ((shut.run front).finish_watch w deep returns)
    have ended : returned.subscriptions[i]? = some ⟨w, false⟩ := by
      rw [handed]
      exact List.getElem?_concat_length
    exact ⟨handed, fun later => unsubscribe_of_ended (ended_run ended later)⟩

/-- The handler of 0 closes the client, and 1 is told of the context after that. -/
theorem close_does_not_end_a_delivery :
    let c := ({} : Client Nat Nat).run [.watch 0, .watch 1, .push 5]
    let d := c.step .close
    c.running? = some (0, .update 5) ∧ d.closed = true ∧ d.watchers = [] ∧
      (d.run [.finish]).delivered = d.delivered ++ [(1, .update 5)] :=
  ⟨rfl, rfl, rfl, rfl⟩

end Client

end WorkloadIdentity.Watch
