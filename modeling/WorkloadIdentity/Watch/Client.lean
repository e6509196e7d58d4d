import WorkloadIdentity.Value

/-! A Workload API client inside the process. Contexts that are pushed and errors are
delivered to the watchers at once, one handler after the other. A handler may call
the client back before it returns, so calls nest: each call that waits for a handler
is kept on a stack, and the run of a client is a sequence of actions, of which
`finish` and `raise` end the handler that runs now. A delivery goes to the watchers
there were when it began. -/

namespace WorkloadIdentity.Watch

inductive Notice (α : Type) where
  | update (context : α)
  | error (e : Value)

/-- A call of the client that waits for the handler of a watcher: a delivery with the watchers it
has still to reach, or a subscription that is told something before it is handed out. -/
inductive Call (κ α : Type) where
  | delivery (notice : Notice α) (rest : List κ)
  | admission (notice : Notice α) (live : Bool)

namespace Call

variable {κ α : Type}

def notice : Call κ α → Notice α
  | .delivery n _ => n
  | .admission n _ => n

end Call

structure Subscription (κ : Type) where
  watcher : κ
  active : Bool

structure Client (κ α : Type) where
  replaying : Bool := false
  watchers : List κ := []
  latest : Option α := none
  closed : Bool := false
  watched : Nat := 0
  unsubscribed : Nat := 0
  closings : Nat := 0
  subscriptions : List (Subscription κ) := []
  calls : List (κ × Call κ α) := []
  delivered : List (κ × Notice α) := []

inductive Action (κ α : Type) where
  | watch (watcher : κ)
  | push (context : α)
  | fail (e : Value)
  | unsubscribe (subscription : Nat)
  | close
  | finish
  | raise

def clientClosed : Value :=
  .fault (.foreign { kind := "Error", message := "client is closed" } .absent)

namespace Client

variable {κ α : Type} [DecidableEq κ]

def call (c : Client κ α) (watcher : κ) (pending : Call κ α) : Client κ α :=
  { c with
    calls := (watcher, pending) :: c.calls
    delivered := c.delivered ++ [(watcher, pending.notice)] }

def deliver (c : Client κ α) (notice : Notice α) : List κ → Client κ α
  | [] => c
  | w :: rest => c.call w (.delivery notice rest)

def handOut (c : Client κ α) (watcher : κ) (active : Bool) : Client κ α :=
  { c with subscriptions := c.subscriptions ++ [⟨watcher, active⟩] }

/-- A watcher that is there already keeps its place. -/
def enlist (watcher : κ) (watchers : List κ) : List κ :=
  if watchers.contains watcher then watchers else watchers ++ [watcher]

theorem mem_enlist {w watcher : κ} {watchers : List κ} :
    w ∈ enlist watcher watchers ↔ w = watcher ∨ w ∈ watchers := by
  unfold enlist
  split
  · rename_i h
    constructor
    · exact Or.inr
    · rintro (rfl | hw)
      · simpa using h
      · exact hw
  · simp [or_comm]

theorem nodup_enlist (watcher : κ) {watchers : List κ} (h : watchers.Nodup) :
    (enlist watcher watchers).Nodup := by
  unfold enlist
  split
  · exact h
  · rename_i hc
    have hn : watcher ∉ watchers := by simpa using hc
    rw [List.nodup_append]
    refine ⟨h, by simp, ?_⟩
    rintro a ha b hb rfl
    rw [List.mem_singleton] at hb
    exact hn (hb ▸ ha)

def watch (c : Client κ α) (watcher : κ) : Client κ α :=
  let c := { c with watched := c.watched + 1 }
  if c.closed then c.call watcher (.admission (.error clientClosed) false)
  else
    let c := { c with watchers := enlist watcher c.watchers }
    match c.replaying, c.latest with
    | true, some context => c.call watcher (.admission (.update context) true)
    | _, _ => c.handOut watcher true

def unsubscribe (c : Client κ α) (subscription : Nat) : Client κ α :=
  match c.subscriptions[subscription]? with
  | some ⟨watcher, true⟩ =>
    { c with
      subscriptions := c.subscriptions.set subscription ⟨watcher, false⟩
      unsubscribed := c.unsubscribed + 1
      watchers := c.watchers.filter (· ≠ watcher) }
  | _ => c

theorem unsubscribe_of_active {c : Client κ α} {subscription : Nat} {watcher : κ}
    (active : c.subscriptions[subscription]? = some ⟨watcher, true⟩) :
    c.unsubscribe subscription =
      { c with
        subscriptions := c.subscriptions.set subscription ⟨watcher, false⟩
        unsubscribed := c.unsubscribed + 1
        watchers := c.watchers.filter (· ≠ watcher) } := by
  simp [unsubscribe, active]

def close (c : Client κ α) : Client κ α :=
  { c with closings := c.closings + 1, closed := true, watchers := [] }

/-- The running handler returns, and the call that ran it goes on. -/
def finish (c : Client κ α) : Client κ α :=
  match c.calls with
  | [] => c
  | (_, .delivery notice rest) :: calls => { c with calls := calls }.deliver notice rest
  | (watcher, .admission _ live) :: calls => { c with calls := calls }.handOut watcher live

/-- The running handler throws, which ends the call that ran it. -/
def raise (c : Client κ α) : Client κ α := { c with calls := c.calls.drop 1 }

def step (c : Client κ α) : Action κ α → Client κ α
  | .watch watcher => c.watch watcher
  | .push context => { c with latest := some context }.deliver (.update context) c.watchers
  | .fail e => c.deliver (.error e) c.watchers
  | .unsubscribe subscription => c.unsubscribe subscription
  | .close => c.close
  | .finish => c.finish
  | .raise => c.raise

def run (c : Client κ α) (actions : List (Action κ α)) : Client κ α := actions.foldl step c

def running? (c : Client κ α) : Option (κ × Notice α) :=
  c.calls.head?.map fun (watcher, pending) => (watcher, pending.notice)

end Client

end WorkloadIdentity.Watch
