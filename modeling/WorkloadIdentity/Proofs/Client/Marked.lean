import WorkloadIdentity.Proofs.Client.Owed

/-! Which push a context comes from. A client hands contexts on without looking at them, so that
other contexts in the same places make no other run. With its number put to the context of each
push, a run is the same run, and every context that is told says of which push it is. -/

namespace WorkloadIdentity.Watch

variable {κ α β : Type}

def Notice.map (f : α → β) : Notice α → Notice β
  | .update context => .update (f context)
  | .error e => .error e

def Call.map (f : α → β) : Call κ α → Call κ β
  | .delivery notice rest => .delivery (notice.map f) rest
  | .admission notice live => .admission (notice.map f) live

def Action.map (f : α → β) : Action κ α → Action κ β
  | .watch watcher => .watch watcher
  | .push context => .push (f context)
  | .fail e => .fail e
  | .unsubscribe subscription => .unsubscribe subscription
  | .close => .close
  | .finish => .finish
  | .raise => .raise

namespace Client

def map (f : α → β) (c : Client κ α) : Client κ β where
  replaying := c.replaying
  watchers := c.watchers
  latest := c.latest.map f
  closed := c.closed
  watched := c.watched
  unsubscribed := c.unsubscribed
  closings := c.closings
  subscriptions := c.subscriptions
  calls := c.calls.map fun (w, pending) => (w, pending.map f)
  delivered := c.delivered.map fun (w, notice) => (w, notice.map f)

section
variable (f : α → β) (c : Client κ α)

theorem map_call (w : κ) (pending : Call κ α) :
    (c.call w pending).map f = (c.map f).call w (pending.map f) := by
  cases pending <;> simp [call, map, Call.map, Call.notice]

theorem map_deliver (notice : Notice α) (watchers : List κ) :
    (c.deliver notice watchers).map f = (c.map f).deliver (notice.map f) watchers := by
  cases watchers with
  | nil => rfl
  | cons w rest => exact map_call f c w _

theorem map_finish : c.finish.map f = (c.map f).finish := by
  cases under : c.calls with
  | nil => simp [finish, map, under]
  | cons top calls =>
    obtain ⟨w, ⟨notice, rest⟩ | ⟨notice, live⟩⟩ := top
    · have mapped : (c.map f).calls =
          (w, .delivery (notice.map f) rest) ::
            calls.map fun (w, pending) => (w, pending.map f) := by
        simp [map, under, Call.map]
      rw [finish_of_delivery under, finish_of_delivery mapped, map_deliver]
      rfl
    · have mapped : (c.map f).calls =
          (w, .admission (notice.map f) live) ::
            calls.map fun (w, pending) => (w, pending.map f) := by
        simp [map, under, Call.map]
      rw [finish_of_admission under, finish_of_admission mapped]
      rfl

theorem map_greeting? : (c.map f).greeting? = c.greeting?.map (Notice.map f) := by
  unfold greeting? map
  cases c.closed with
  | true => rfl
  | false => cases c.replaying <;> cases c.latest <;> rfl

end

variable [DecidableEq κ]

section
variable (f : α → β) (c : Client κ α)

theorem map_watch (w : κ) : (c.watch w).map f = (c.map f).watch w := by
  have mapped := map_greeting? f c
  cases greets : c.greeting? with
  | none =>
    rw [greets] at mapped
    rw [(watch_of_no_greeting greets w).2, (watch_of_no_greeting mapped w).2]
    rfl
  | some notice =>
    rw [greets] at mapped
    rw [watch_of_greeting greets, watch_of_greeting mapped, map_call]
    rfl

theorem step_map (a : Action κ α) : (c.step a).map f = (c.map f).step (a.map f) := by
  cases a with
  | watch w => exact map_watch f c w
  | push x => exact map_deliver f _ _ _
  | fail e => exact map_deliver f _ _ _
  | unsubscribe i =>
    change (c.unsubscribe i).map f = (c.map f).unsubscribe i
    have same : (c.map f).subscriptions = c.subscriptions := rfl
    unfold unsubscribe
    rw [same]
    split <;> rfl
  | close => rfl
  | finish => exact map_finish f c
  | raise => simp [step, raise, map, Action.map]

theorem run_map (actions : List (Action κ α)) :
    (c.run actions).map f = (c.map f).run (actions.map (Action.map f)) := by
  induction actions generalizing c with
  | nil => rfl
  | cons a later ih => rw [run_cons, ih, step_map, List.map_cons, run_cons]

end

end Client

def Action.pushed? : Action κ α → Option α
  | .push context => some context
  | _ => none

theorem Action.pushed?_map (f : α → β) (a : Action κ α) : (a.map f).pushed? = a.pushed?.map f := by
  cases a <;> rfl

def pushes (actions : List (Action κ α)) : Nat := actions.countP (·.pushed?.isSome)

def numbered : Nat → List (Action κ α) → List (Action κ (Nat × α))
  | _, [] => []
  | n, a :: later => a.map (n, ·) :: numbered (n + pushes [a]) later

theorem pushes_append (actions later : List (Action κ α)) :
    pushes (actions ++ later) = pushes actions + pushes later := List.countP_append

theorem numbered_append (n : Nat) (actions later : List (Action κ α)) :
    numbered n (actions ++ later) = numbered n actions ++ numbered (n + pushes actions) later := by
  induction actions generalizing n with
  | nil => rfl
  | cons a actions ih =>
    have counted : pushes (a :: actions) = pushes [a] + pushes actions := pushes_append [a] actions
    rw [List.cons_append, numbered, ih, numbered, counted, Nat.add_assoc, List.cons_append]

theorem map_snd_numbered (n : Nat) (actions : List (Action κ α)) :
    (numbered n actions).map (Action.map Prod.snd) = actions := by
  induction actions generalizing n with
  | nil => rfl
  | cons a later ih =>
    rw [numbered, List.map_cons, ih]
    cases a <;> rfl

namespace Client

variable [DecidableEq κ]

/-- The run of a client with its number put to the context of each push. -/
def marked (replaying : Bool) (actions : List (Action κ α)) : Client κ (Nat × α) :=
  ({ replaying := replaying } : Client κ (Nat × α)).run (numbered 0 actions)

theorem marked_concat (replaying : Bool) (actions : List (Action κ α)) (a : Action κ α) :
    marked replaying (actions ++ [a]) =
      (marked replaying actions).step (a.map (pushes actions, ·)) := by
  rw [marked, numbered_append, run_append, Nat.zero_add]
  rfl

theorem map_snd_marked (replaying : Bool) (actions : List (Action κ α)) :
    (marked replaying actions).map Prod.snd =
      ({ replaying := replaying } : Client κ α).run actions := by
  rw [marked, run_map, map_snd_numbered]
  rfl

end Client

end WorkloadIdentity.Watch
