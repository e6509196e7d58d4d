import WorkloadIdentity.Watch.Client

/-! What a client tells its watchers against what it has announced. A delivery announces a notice to
all watchers at once and tells them one after the other; what it has not told yet it owes. Whatever
handlers call back in between, an action tells and owes in the end just what was owed before and
what it announces itself, and only a handler that throws lets some of it be lost. -/

namespace WorkloadIdentity.Watch

variable {κ α : Type}

def Call.rest : Call κ α → List (κ × Notice α)
  | .delivery notice rest => rest.map (·, notice)
  | .admission _ _ => []

def Call.handsOut (watcher : κ) : Call κ α → Option (Subscription κ)
  | .delivery _ _ => none
  | .admission _ live => some ⟨watcher, live⟩

def Action.isWatch : Action κ α → Bool
  | .watch _ => true
  | _ => false

theorem Action.isWatch_iff {a : Action κ α} : a.isWatch = true ↔ ∃ w, a = .watch w := by
  cases a <;> simp [isWatch]

def Action.watches [DecidableEq κ] (watcher : κ) : Action κ α → Bool
  | .watch w => w = watcher
  | _ => false

theorem Action.watches_iff [DecidableEq κ] {a : Action κ α} {w : κ} :
    a.watches w = true ↔ a = .watch w := by
  cases a <;> simp [watches]

namespace Client

/-- What the calls that are under way have still to tell, the innermost call first. -/
def owed (c : Client κ α) : List (κ × Notice α) := c.calls.flatMap fun (_, pending) => pending.rest

def greeting? (c : Client κ α) : Option (Notice α) :=
  if c.closed then some (.error clientClosed)
  else if c.replaying then c.latest.map .update
  else none

/-- What is to be told on account of an action, at once or later. -/
def announced (c : Client κ α) : Action κ α → List (κ × Notice α)
  | .watch watcher => c.greeting?.toList.map (watcher, ·)
  | .push context => c.watchers.map (·, .update context)
  | .fail e => c.watchers.map (·, .error e)
  | _ => []

/-- What is told in an action, before the next one. -/
def tells (c : Client κ α) : Action κ α → List (κ × Notice α)
  | .watch watcher => c.announced (.watch watcher)
  | .push context => (c.announced (.push context)).take 1
  | .fail e => (c.announced (.fail e)).take 1
  | .finish =>
    match c.calls with
    | [] => []
    | (_, pending) :: _ => pending.rest.take 1
  | _ => []

section
variable {c : Client κ α}

theorem owed_cons {watcher : κ} {pending : Call κ α} {calls : List (κ × Call κ α)}
    (under : c.calls = (watcher, pending) :: calls) :
    c.owed = pending.rest ++ ({ c with calls := calls } : Client κ α).owed := by
  simp [owed, under]

theorem delivered_deliver (c : Client κ α) (notice : Notice α) (watchers : List κ) :
    (c.deliver notice watchers).delivered =
      c.delivered ++ (watchers.map (·, notice)).take 1 := by
  cases watchers with
  | nil => simp [deliver]
  | cons w rest => rfl

theorem owed_deliver (c : Client κ α) (notice : Notice α) (watchers : List κ) :
    (c.deliver notice watchers).owed = (watchers.map (·, notice)).drop 1 ++ c.owed := by
  cases watchers with
  | nil => rfl
  | cons w rest => rfl

theorem finish_of_delivery {watcher : κ} {notice : Notice α} {rest : List κ}
    {calls : List (κ × Call κ α)} (under : c.calls = (watcher, .delivery notice rest) :: calls) :
    c.finish = ({ c with calls := calls } : Client κ α).deliver notice rest := by
  simp [finish, under]

theorem finish_of_admission {watcher : κ} {notice : Notice α} {live : Bool}
    {calls : List (κ × Call κ α)} (under : c.calls = (watcher, .admission notice live) :: calls) :
    c.finish = ({ c with calls := calls } : Client κ α).handOut watcher live := by
  simp [finish, under]

theorem mem_calls_deliver {notice : Notice α} {watchers : List κ} {waiting : κ × Call κ α}
    (under : waiting ∈ (c.deliver notice watchers).calls) :
    waiting ∈ c.calls ∨
      ∃ v rest, watchers = v :: rest ∧ waiting = (v, .delivery notice rest) := by
  cases watchers with
  | nil => exact .inl under
  | cons v rest =>
    rcases List.mem_cons.mp under with rfl | under
    · exact .inr ⟨v, rest, rfl, rfl⟩
    · exact .inl under

theorem watchers_deliver (c : Client κ α) (notice : Notice α) (watchers : List κ) :
    (c.deliver notice watchers).watchers = c.watchers := by
  cases watchers <;> rfl

theorem watchers_finish (c : Client κ α) : c.finish.watchers = c.watchers := by
  unfold finish
  split
  · rfl
  · exact watchers_deliver _ _ _
  · rfl

/-- What a change that is no push and no close leaves as it is. -/
structure Keeps (c d : Client κ α) : Prop where
  latest : d.latest = c.latest
  closed : d.closed = c.closed

theorem keeps_deliver (c : Client κ α) (notice : Notice α) (watchers : List κ) :
    c.Keeps (c.deliver notice watchers) := by
  cases watchers <;> exact ⟨rfl, rfl⟩

theorem keeps_finish (c : Client κ α) : c.Keeps c.finish := by
  unfold finish
  split
  · exact ⟨rfl, rfl⟩
  · rename_i notice rest calls _
    have kept := keeps_deliver { c with calls := calls } notice rest
    exact ⟨kept.latest, kept.closed⟩
  · exact ⟨rfl, rfl⟩

end

section
variable [DecidableEq κ] {c : Client κ α}

theorem watch_of_greeting {notice : Notice α} (greets : c.greeting? = some notice) (watcher : κ) :
    c.watch watcher =
      ({ c with
          watched := c.watched + 1
          watchers := if c.closed then c.watchers else enlist watcher c.watchers }).call watcher
        (.admission notice !c.closed) := by
  unfold greeting? at greets
  cases closed : c.closed with
  | true =>
    rw [if_pos closed] at greets
    cases greets
    simp [watch, closed]
  | false =>
    rw [closed] at greets
    cases replays : c.replaying <;> cases latest : c.latest <;>
      simp_all [watch]

theorem watch_of_no_greeting (silent : c.greeting? = none) (watcher : κ) :
    c.closed = false ∧ c.watch watcher =
      ({ c with
          watched := c.watched + 1
          watchers := enlist watcher c.watchers }).handOut watcher true := by
  unfold greeting? at silent
  cases closed : c.closed with
  | true => simp [closed] at silent
  | false => cases replays : c.replaying <;> cases latest : c.latest <;> simp_all [watch]

theorem watchers_watch (c : Client κ α) (w : κ) :
    (c.watch w).watchers = if c.closed then c.watchers else enlist w c.watchers := by
  cases greets : c.greeting? with
  | none =>
    obtain ⟨unclosed, handed⟩ := watch_of_no_greeting greets w
    rw [handed, unclosed]
    rfl
  | some notice =>
    rw [watch_of_greeting greets w]
    rfl

theorem keeps_watch (c : Client κ α) (w : κ) : c.Keeps (c.watch w) := by
  cases greets : c.greeting? with
  | none => rw [(watch_of_no_greeting greets w).2]; exact ⟨rfl, rfl⟩
  | some notice => rw [watch_of_greeting greets w]; exact ⟨rfl, rfl⟩

theorem keeps_unsubscribe (c : Client κ α) (i : Nat) : c.Keeps (c.unsubscribe i) := by
  unfold unsubscribe
  split <;> exact ⟨rfl, rfl⟩

theorem watchers_unsubscribe_sublist (c : Client κ α) (i : Nat) :
    (c.unsubscribe i).watchers.Sublist c.watchers := by
  unfold unsubscribe
  split
  · exact List.filter_sublist
  · exact List.Sublist.refl _

theorem calls_unsubscribe (c : Client κ α) (i : Nat) : (c.unsubscribe i).calls = c.calls := by
  unfold unsubscribe
  split <;> rfl

theorem mem_watchers_step {c : Client κ α} {a : Action κ α} {v : κ}
    (there : v ∈ (c.step a).watchers) : v ∈ c.watchers ∨ a = .watch v := by
  cases a with
  | watch w =>
    rw [step, watchers_watch] at there
    split at there
    · exact .inl there
    · rcases mem_enlist.mp there with rfl | before
      · exact .inr rfl
      · exact .inl before
  | push x =>
    rw [step, watchers_deliver] at there
    exact .inl there
  | fail e =>
    rw [step, watchers_deliver] at there
    exact .inl there
  | unsubscribe i => exact .inl ((watchers_unsubscribe_sublist c i).mem there)
  | close => cases there
  | finish => exact .inl (watchers_finish c ▸ there)
  | raise => exact .inl there

theorem nodup_watchers_step {c : Client κ α} (distinct : c.watchers.Nodup) (a : Action κ α) :
    (c.step a).watchers.Nodup := by
  cases a with
  | watch w =>
    rw [step, watchers_watch]
    split
    · exact distinct
    · exact nodup_enlist w distinct
  | push x =>
    rw [step, watchers_deliver]
    exact distinct
  | fail e =>
    rw [step, watchers_deliver]
    exact distinct
  | unsubscribe i => exact distinct.sublist (watchers_unsubscribe_sublist c i)
  | close => exact List.nodup_nil
  | finish => exact watchers_finish c ▸ distinct
  | raise => exact distinct

theorem delivered_step (c : Client κ α) (a : Action κ α) :
    (c.step a).delivered = c.delivered ++ c.tells a := by
  cases a with
  | watch w =>
    simp only [step, tells, announced]
    cases greets : c.greeting? with
    | none =>
      rw [(watch_of_no_greeting greets w).2]
      exact (List.append_nil _).symm
    | some notice =>
      rw [watch_of_greeting greets w]
      rfl
  | push x => exact delivered_deliver _ _ _
  | fail e => exact delivered_deliver _ _ _
  | unsubscribe i =>
    simp only [step, unsubscribe, tells, List.append_nil]
    split <;> rfl
  | close => exact (List.append_nil _).symm
  | finish =>
    simp only [step, tells]
    cases under : c.calls with
    | nil => simp [finish, under]
    | cons top calls =>
      obtain ⟨w, ⟨notice, rest⟩ | ⟨notice, live⟩⟩ := top
      · rw [finish_of_delivery under]
        exact delivered_deliver _ _ _
      · rw [finish_of_admission under]
        exact (List.append_nil _).symm
  | raise => exact (List.append_nil _).symm

/-- What is announced is told or owed, and nothing else is. -/
theorem tells_append_owed_step (c : Client κ α) {a : Action κ α} (returns : a ≠ .raise) :
    c.tells a ++ (c.step a).owed = c.announced a ++ c.owed := by
  cases a with
  | watch w =>
    simp only [step, tells]
    cases greets : c.greeting? with
    | none =>
      rw [(watch_of_no_greeting greets w).2]
      rfl
    | some notice =>
      rw [watch_of_greeting greets w]
      rfl
  | push x =>
    rw [step, owed_deliver, ← List.append_assoc, tells]
    exact congrArg (· ++ c.owed) (List.take_append_drop 1 _)
  | fail e =>
    rw [step, owed_deliver, ← List.append_assoc, tells]
    exact congrArg (· ++ c.owed) (List.take_append_drop 1 _)
  | unsubscribe i =>
    simp only [step, unsubscribe]
    split <;> rfl
  | close => rfl
  | finish =>
    simp only [step, tells, announced, List.nil_append]
    cases under : c.calls with
    | nil => simp [finish, owed, under]
    | cons top calls =>
      rw [owed_cons under]
      obtain ⟨w, ⟨notice, rest⟩ | ⟨notice, live⟩⟩ := top
      · rw [finish_of_delivery under, owed_deliver, ← List.append_assoc]
        exact congrArg (· ++ _) (List.take_append_drop 1 _)
      · rw [finish_of_admission under]
        rfl
  | raise => exact absurd rfl returns

theorem owed_watch (c : Client κ α) (w : κ) : (c.step (.watch w)).owed = c.owed := by
  have told : c.tells (.watch w) ++ (c.step (.watch w)).owed = c.announced (.watch w) ++ c.owed :=
    tells_append_owed_step c nofun
  exact List.append_cancel_left told

theorem tells_append_owed_step_sublist (c : Client κ α) (a : Action κ α) :
    (c.tells a ++ (c.step a).owed).Sublist (c.announced a ++ c.owed) := by
  by_cases returns : a = .raise
  · rw [returns]
    cases under : c.calls with
    | nil => simp [step, raise, tells, announced, owed, under]
    | cons top calls =>
      rw [owed_cons under]
      simp [step, raise, tells, announced, owed, under]
  · exact tells_append_owed_step c returns ▸ List.Sublist.refl _

/-- How a call comes to be under way after an action. -/
inductive Arises (c : Client κ α) : Action κ α → κ × Call κ α → Prop where
  | still {a : Action κ α} {waiting : κ × Call κ α} (under : waiting ∈ c.calls) : Arises c a waiting
  | next {u v : κ} {notice : Notice α} {rest : List κ}
      (under : (u, .delivery notice (v :: rest)) ∈ c.calls) :
      Arises c .finish (v, .delivery notice rest)
  | push {context : α} {v : κ} {rest : List κ} (watchers : c.watchers = v :: rest) :
      Arises c (.push context) (v, .delivery (.update context) rest)
  | fail {e : Value} {v : κ} {rest : List κ} (watchers : c.watchers = v :: rest) :
      Arises c (.fail e) (v, .delivery (.error e) rest)
  | greet {v : κ} {notice : Notice α} (greets : c.greeting? = some notice) :
      Arises c (.watch v) (v, .admission notice !c.closed)

theorem arises_of_mem_step {c : Client κ α} {a : Action κ α} {waiting : κ × Call κ α}
    (under : waiting ∈ (c.step a).calls) : c.Arises a waiting := by
  cases a with
  | watch w =>
    rw [step] at under
    cases greets : c.greeting? with
    | none =>
      rw [(watch_of_no_greeting greets w).2] at under
      exact .still under
    | some notice =>
      rw [watch_of_greeting greets w] at under
      rcases List.mem_cons.mp under with rfl | under
      · exact .greet greets
      · exact .still under
  | push x =>
    rcases mem_calls_deliver under with under | ⟨v, rest, watchers, rfl⟩
    · exact .still under
    · exact .push watchers
  | fail e =>
    rcases mem_calls_deliver under with under | ⟨v, rest, watchers, rfl⟩
    · exact .still under
    · exact .fail watchers
  | unsubscribe i =>
    rw [step, calls_unsubscribe] at under
    exact .still under
  | close => exact .still under
  | finish =>
    rw [step] at under
    cases stack : c.calls with
    | nil =>
      rw [finish, stack] at under
      exact .still under
    | cons top calls =>
      obtain ⟨u, ⟨notice, queue⟩ | ⟨notice, live⟩⟩ := top
      · rw [finish_of_delivery stack] at under
        rcases mem_calls_deliver under with under | ⟨v, rest, rfl, rfl⟩
        · exact .still (stack ▸ List.mem_cons_of_mem _ under)
        · exact .next (stack ▸ List.mem_cons_self)
      · rw [finish_of_admission stack] at under
        exact .still (stack ▸ List.mem_cons_of_mem _ under)
  | raise => exact .still (List.mem_of_mem_drop under)

end

section
variable [DecidableEq κ]

theorem run_append (c : Client κ α) (actions later : List (Action κ α)) :
    c.run (actions ++ later) = (c.run actions).run later := List.foldl_append

theorem run_cons (c : Client κ α) (a : Action κ α) (later : List (Action κ α)) :
    c.run (a :: later) = (c.step a).run later := rfl

theorem run_concat (c : Client κ α) (actions : List (Action κ α)) (a : Action κ α) :
    c.run (actions ++ [a]) = (c.run actions).step a := run_append c actions [a]

def trace (c : Client κ α) : List (Action κ α) → List (Action κ α × List (κ × Notice α))
  | [] => []
  | a :: later => (a, c.tells a) :: (c.step a).trace later

theorem exists_of_mem_trace {c : Client κ α} {actions : List (Action κ α)} {a : Action κ α}
    {told : List (κ × Notice α)} (listed : (a, told) ∈ c.trace actions) :
    ∃ front rest, actions = front ++ a :: rest ∧ told = (c.run front).tells a := by
  induction actions generalizing c with
  | nil => cases listed
  | cons b later ih =>
    rcases List.mem_cons.mp listed with same | listed
    · cases same
      exact ⟨[], later, rfl, rfl⟩
    · obtain ⟨front, rest, rfl, rfl⟩ := ih listed
      exact ⟨b :: front, rest, rfl, rfl⟩

theorem delivered_run (c : Client κ α) (actions : List (Action κ α)) :
    (c.run actions).delivered = c.delivered ++ (c.trace actions).flatMap Prod.snd := by
  induction actions generalizing c with
  | nil => exact (List.append_nil _).symm
  | cons a later ih =>
    rw [run_cons, ih, delivered_step, trace, List.flatMap_cons, List.append_assoc]

end

def backlog (c : Client κ α) : Nat := c.calls.length + c.owed.length

def admitted (c : Client κ α) : List (Subscription κ) :=
  c.calls.filterMap fun (watcher, pending) => pending.handsOut watcher

/-- When all handlers have returned, what was owed is told. -/
theorem run_finish [DecidableEq κ] (c : Client κ α) :
    c.run (List.replicate c.backlog .finish) =
      { c with
        calls := []
        delivered := c.delivered ++ c.owed
        subscriptions := c.subscriptions ++ c.admitted } := by
  induction left : c.backlog generalizing c with
  | zero =>
    have free : c.calls = [] := by
      rw [backlog] at left
      exact List.length_eq_zero_iff.mp (by omega)
    cases c
    simp_all [run, owed, admitted]
  | succ n ih =>
    cases under : c.calls with
    | nil => simp [backlog, owed, under] at left
    | cons top calls =>
      rw [backlog, owed_cons under, under] at left
      rw [List.replicate_succ, run_cons, step, owed_cons under]
      obtain ⟨w, ⟨notice, _ | ⟨next, rest⟩⟩ | ⟨notice, live⟩⟩ := top
      · rw [finish_of_delivery under, ih]
        · simp [deliver, Call.rest, admitted, under, Call.handsOut]
        · simp [Call.rest, deliver, backlog] at left ⊢
          omega
      · rw [finish_of_delivery under, ih]
        · simp [deliver, call, Call.notice, Call.rest, admitted, under, Call.handsOut, owed]
        · simp [Call.rest, deliver, call, owed, backlog] at left ⊢
          omega
      · rw [finish_of_admission under, ih]
        · simp [handOut, Call.rest, admitted, under, Call.handsOut, owed]
        · simp [Call.rest, handOut, owed, backlog] at left ⊢
          omega

end Client

end WorkloadIdentity.Watch
