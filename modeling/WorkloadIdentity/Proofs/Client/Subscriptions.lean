import Mathlib.Data.List.Induction
import WorkloadIdentity.Proofs.Client.Owed

/-! Calls of a client, one after the other, whose handlers return and call nothing back. A
subscription is live from the call that makes it, if the client is open by then, until it is ended
or the client is closed. Watchers are kept once each, however many subscriptions they have, and any
of these that is ended takes the watcher off. So a watcher is served if it has a live subscription,
and no other live one of its subscriptions was ended after it was subscribed the last time. -/

namespace WorkloadIdentity.Watch

variable {κ α : Type}

/-- The subscription that the call of `watch` after `i` others has made is live. -/
def Live (history : List (Action κ α)) (i : Nat) (watcher : κ) : Prop :=
  ∃ before after, history = before ++ .watch watcher :: after ∧
    before.countP Action.isWatch = i ∧ .close ∉ before ∧ .close ∉ after ∧ .unsubscribe i ∉ after

/-- A live subscription of the watcher was ended, and it was not subscribed again. -/
def Severed (history : List (Action κ α)) (watcher : κ) : Prop :=
  ∃ before i after, history = before ++ .unsubscribe i :: after ∧ Live before i watcher ∧
    .watch watcher ∉ after

section
variable {history : List (Action κ α)} {a : Action κ α} {i j : Nat} {w : κ}

theorem concat_eq_append_cons_iff {β : Type} {xs front back : List β} {x y : β} :
    xs ++ [x] = front ++ y :: back ↔
      (back = [] ∧ xs = front ∧ x = y) ∨ ∃ rest, back = rest ++ [x] ∧ xs = front ++ y :: rest := by
  cases back using List.reverseRecOn with
  | nil => simp
  | append_singleton rest z =>
    have regrouped : front ++ y :: (rest ++ [z]) = (front ++ y :: rest) ++ [z] := by simp
    rw [regrouped]
    constructor
    · intro same
      obtain ⟨rfl, last⟩ := List.append_inj' same rfl
      obtain rfl := List.singleton_inj.mp last
      exact .inr ⟨rest, rfl, rfl⟩
    · rintro (⟨empty, -⟩ | ⟨later, same, rfl⟩)
      · simp at empty
      · simp [same]

theorem Live.open (live : Live history i w) : .close ∉ history := by
  obtain ⟨before, after, rfl, -, first, later, -⟩ := live
  simp [first, later]

theorem live_concat : Live (history ++ [a]) i w ↔
    (Live history i w ∧ a ≠ .close ∧ a ≠ .unsubscribe i) ∨
      (a = .watch w ∧ history.countP Action.isWatch = i ∧ .close ∉ history) := by
  constructor
  · rintro ⟨before, after, split, counted, first, later, kept⟩
    rcases concat_eq_append_cons_iff.mp split with ⟨rfl, rfl, rfl⟩ | ⟨rest, rfl, rfl⟩
    · exact .inr ⟨rfl, counted, first⟩
    · simp only [List.mem_append, List.mem_singleton, not_or] at later kept
      exact .inl ⟨⟨before, rest, rfl, counted, first, later.1, kept.1⟩,
        Ne.symm later.2, Ne.symm kept.2⟩
  · rintro (⟨⟨before, after, rfl, counted, first, later, kept⟩, unclosed, other⟩ |
      ⟨rfl, counted, unclosed⟩)
    · refine ⟨before, after ++ [a], by simp, counted, first, ?_, ?_⟩
      · simp [later, unclosed.symm]
      · simp [kept, other.symm]
    · exact ⟨history, [], rfl, counted, unclosed, List.not_mem_nil, List.not_mem_nil⟩

theorem severed_concat : Severed (history ++ [a]) w ↔
    (Severed history w ∧ a ≠ .watch w) ∨ ∃ j, a = .unsubscribe j ∧ Live history j w := by
  constructor
  · rintro ⟨before, j, after, split, live, still⟩
    rcases concat_eq_append_cons_iff.mp split with ⟨rfl, rfl, rfl⟩ | ⟨rest, rfl, rfl⟩
    · exact .inr ⟨j, rfl, live⟩
    · simp only [List.mem_append, List.mem_singleton, not_or] at still
      exact .inl ⟨⟨before, j, rest, rfl, live, still.1⟩, Ne.symm still.2⟩
  · rintro (⟨⟨before, j, after, rfl, live, still⟩, other⟩ | ⟨j, rfl, live⟩)
    · refine ⟨before, j, after ++ [a], by simp, live, ?_⟩
      simp [still, other.symm]
    · exact ⟨history, j, [], rfl, live, List.not_mem_nil⟩

theorem Severed.exists_other (severed : Severed history w) (live : Live history i w) :
    ∃ front rest j, history = front ++ rest ∧ j ≠ i ∧ Live front i w ∧ Live front j w := by
  obtain ⟨front, j, rest, split, other, still⟩ := severed
  obtain ⟨before, after, rfl, counted, first, later, kept⟩ := live
  refine ⟨front, _, j, split, ?_⟩
  rcases List.append_eq_append_iff.mp split with ⟨mid, rfl, follows⟩ | ⟨mid, rfl, follows⟩
  · cases mid with
    | nil => cases follows
    | cons b mid =>
      rw [List.cons_append] at follows
      obtain ⟨rfl, rfl⟩ := List.cons.inj follows
      simp only [List.mem_append, List.mem_cons, not_or] at later kept
      exact ⟨fun same => kept.2.1 (same ▸ rfl),
        ⟨before, mid, rfl, counted, first, later.1, kept.1⟩, other⟩
  · cases mid with
    | nil => cases follows
    | cons b mid =>
      rw [List.cons_append] at follows
      obtain ⟨rfl, rfl⟩ := List.cons.inj follows
      exact absurd (List.mem_append_right mid List.mem_cons_self) still

end

namespace Client

/-- A client shows the history of its calls. -/
structure Reflects (c : Client κ α) (history : List (Action κ α)) : Prop where
  free : c.calls = []
  distinct : c.watchers.Nodup
  closed : c.closed = true ↔ .close ∈ history
  counted : c.subscriptions.length = history.countP Action.isWatch
  active : c.closed = false → ∀ i w, c.subscriptions[i]? = some ⟨w, true⟩ ↔ Live history i w
  watches : ∀ w, w ∈ c.watchers ↔ (∃ i, Live history i w) ∧ ¬Severed history w

section
variable {c d : Client κ α} {history : List (Action κ α)} {a : Action κ α} {i : Nat} {w : κ}

theorem Reflects.open_of_live (shows : Reflects c history) (live : Live history i w) :
    c.closed = false := by
  rw [← Bool.not_eq_true, shows.closed]
  exact live.open

theorem reflects_start (replaying : Bool) :
    Reflects ({ replaying := replaying } : Client κ α) [] := by
  have none_live : ∀ i w, ¬Live ([] : List (Action κ α)) i w := by
    rintro i w ⟨before, after, split, -⟩
    simp at split
  exact ⟨rfl, List.nodup_nil, by simp, rfl, fun _ i w => by simp [none_live],
    fun w => by simp [none_live]⟩

theorem Reflects.idle (shows : Reflects c history) (makes : a.isWatch = false) (stays : a ≠ .close)
    (ends : ∀ i w, a = .unsubscribe i → ¬Live history i w) (free : d.calls = [])
    (watchers : d.watchers = c.watchers) (closed : d.closed = c.closed)
    (counted : d.subscriptions.length = c.subscriptions.length)
    (active : c.closed = false → d.subscriptions = c.subscriptions) :
    Reflects d (history ++ [a]) := by
  have unwatched : ∀ w, a ≠ .watch w := by
    rintro w rfl
    cases makes
  have live : ∀ i w, Live (history ++ [a]) i w ↔ Live history i w := by
    intro i w
    rw [live_concat]
    constructor
    · rintro (⟨live, -⟩ | ⟨watched, -⟩)
      · exact live
      · exact absurd watched (unwatched w)
    · exact fun live => .inl ⟨live, stays, fun ended => ends i w ended live⟩
  have severed : ∀ w, Severed (history ++ [a]) w ↔ Severed history w := by
    intro w
    rw [severed_concat]
    constructor
    · rintro (⟨severed, -⟩ | ⟨i, ended, live⟩)
      · exact severed
      · exact absurd live (ends i w ended)
    · exact fun severed => .inl ⟨severed, unwatched w⟩
  refine ⟨free, watchers ▸ shows.distinct, ?_, ?_, fun unclosed i w => ?_, fun w => ?_⟩
  · simp [closed, shows.closed, stays.symm]
  · simp [counted, shows.counted, makes]
  · rw [closed] at unclosed
    rw [active unclosed, live]
    exact shows.active unclosed i w
  · rw [watchers, shows.watches]
    simp only [live, severed]

end

variable [DecidableEq κ]

def serve (c : Client κ α) (a : Action κ α) : Client κ α :=
  (c.step a).run (List.replicate (c.step a).backlog .finish)

def serveAll (c : Client κ α) (history : List (Action κ α)) : Client κ α := history.foldl serve c

section
variable {c : Client κ α}

theorem serveAll_concat (c : Client κ α) (history : List (Action κ α)) (a : Action κ α) :
    c.serveAll (history ++ [a]) = (c.serveAll history).serve a := List.foldl_append

theorem calls_serve (c : Client κ α) (a : Action κ α) : (c.serve a).calls = [] := by
  rw [serve, run_finish]

theorem delivered_serve (free : c.calls = []) (a : Action κ α) :
    (c.serve a).delivered = c.delivered ++ c.announced a := by
  rw [serve, run_finish]
  by_cases returns : a = .raise
  · rw [returns]
    simp [step, raise, announced, owed, free]
  · change (c.step a).delivered ++ (c.step a).owed = _
    rw [delivered_step, List.append_assoc, tells_append_owed_step c returns]
    simp [owed, free]

theorem watchers_serve (c : Client κ α) (a : Action κ α) :
    (c.serve a).watchers = (c.step a).watchers := by
  rw [serve, run_finish]

theorem closed_serve (c : Client κ α) (a : Action κ α) :
    (c.serve a).closed = (c.step a).closed := by
  rw [serve, run_finish]

theorem subscriptions_serve (c : Client κ α) (a : Action κ α) :
    (c.serve a).subscriptions = (c.step a).subscriptions ++ (c.step a).admitted := by
  rw [serve, run_finish]

theorem subscriptions_serve_watch (free : c.calls = []) (w : κ) :
    (c.serve (.watch w)).subscriptions = c.subscriptions ++ [⟨w, !c.closed⟩] := by
  rw [subscriptions_serve, step]
  cases greets : c.greeting? with
  | none =>
    obtain ⟨unclosed, handed⟩ := watch_of_no_greeting greets w
    rw [handed, unclosed]
    simp [handOut, admitted, free]
  | some notice =>
    rw [watch_of_greeting greets w]
    simp [call, admitted, free, Call.handsOut]

end

section
variable {c : Client κ α} {history : List (Action κ α)} {i : Nat} {w : κ}

theorem Reflects.serve_watch (shows : Reflects c history) (w : κ) :
    Reflects (c.serve (.watch w)) (history ++ [.watch w]) := by
  have closed : (c.serve (.watch w)).closed = c.closed := by
    rw [closed_serve]
    exact (keeps_watch c w).closed
  have live : ∀ i v, Live (history ++ [.watch w]) i v ↔
      Live history i v ∨ (v = w ∧ i = c.subscriptions.length ∧ c.closed = false) := by
    intro i v
    rw [live_concat, shows.counted, ← Bool.not_eq_true, shows.closed]
    simp [eq_comm]
  have severed : ∀ v, Severed (history ++ [.watch w]) v ↔ Severed history v ∧ v ≠ w := by
    intro v
    rw [severed_concat]
    simp [eq_comm]
  refine ⟨calls_serve _ _, ?_, ?_, ?_, fun unclosed i v => ?_, fun v => ?_⟩
  · rw [watchers_serve, step, watchers_watch]
    split
    · exact shows.distinct
    · exact nodup_enlist w shows.distinct
  · rw [closed, shows.closed]
    simp
  · rw [subscriptions_serve_watch shows.free]
    simp [shows.counted, Action.isWatch]
  · rw [closed] at unclosed
    rw [subscriptions_serve_watch shows.free, live, ← shows.active unclosed, unclosed]
    rcases Nat.lt_trichotomy i c.subscriptions.length with before | rfl | beyond
    · rw [List.getElem?_append_left before]
      simp [Nat.ne_of_lt before]
    · simp [eq_comm]
    · have past : c.subscriptions.length + 1 ≤ i := beyond
      rw [List.getElem?_eq_none (by simpa using past), List.getElem?_eq_none (by omega)]
      simp [Nat.ne_of_gt beyond]
  · rw [watchers_serve, step, watchers_watch]
    simp only [live, severed]
    cases closed : c.closed with
    | true =>
      have none_live : ∀ i v, ¬Live history i v := by
        intro i v live
        simp [shows.open_of_live live] at closed
      simp [shows.watches, none_live]
    | false =>
      by_cases same : v = w
      · simp [same, mem_enlist]
      · simp [same, mem_enlist, shows.watches]

theorem Reflects.serve_close (shows : Reflects c history) :
    Reflects (c.serve .close) (history ++ [.close]) := by
  have none_live : ∀ i v, ¬Live (history ++ [.close]) i v := by
    intro i v live
    exact live.open (by simp)
  have closed : (c.serve .close).closed = true := by rw [closed_serve]; rfl
  have watchers : (c.serve .close).watchers = [] := by rw [watchers_serve]; rfl
  refine ⟨calls_serve _ _, ?_, ?_, ?_, ?_, fun v => ?_⟩
  · simp [watchers]
  · simp [closed]
  · rw [subscriptions_serve]
    simp [step, close, admitted, shows.free, shows.counted, Action.isWatch]
  · simp [closed]
  · simp [watchers, none_live]

theorem serve_unsubscribe (free : c.calls = []) (i : Nat) :
    c.serve (.unsubscribe i) = c.unsubscribe i := by
  rw [serve, step, backlog, owed, calls_unsubscribe, free]
  rfl

theorem Reflects.serve_unsubscribe_of_live (shows : Reflects c history)
    (live : Live history i w) :
    Reflects (c.serve (.unsubscribe i)) (history ++ [.unsubscribe i]) := by
  have unclosed := shows.open_of_live live
  have place := (shows.active unclosed i w).mpr live
  have within : i < c.subscriptions.length := (List.getElem?_eq_some_iff.mp place).1
  have own : ∀ v, Live history i v ↔ v = w := by
    intro v
    rw [← shows.active unclosed, place]
    simp [eq_comm]
  have left : ∀ j v, Live (history ++ [.unsubscribe i]) j v ↔ Live history j v ∧ i ≠ j := by
    intro j v
    rw [live_concat]
    simp
  have severed : ∀ v, Severed (history ++ [.unsubscribe i]) v ↔ Severed history v ∨ v = w := by
    intro v
    rw [severed_concat]
    simp [← own]
  rw [serve_unsubscribe shows.free, unsubscribe_of_active place]
  refine ⟨shows.free, shows.distinct.filter _, ?_, ?_, fun _ j v => ?_, fun v => ?_⟩
  · simpa using shows.closed
  · simpa [Action.isWatch] using shows.counted
  · rw [left, ← shows.active unclosed, List.getElem?_set]
    by_cases same : i = j
    · simp [same]
    · simp [same]
  · simp only [List.mem_filter, decide_eq_true_eq, shows.watches, left, severed]
    constructor
    · rintro ⟨⟨⟨j, still⟩, unsevered⟩, other⟩
      refine ⟨⟨j, still, ?_⟩, fun cut => cut.elim unsevered other⟩
      rintro rfl
      exact other ((own v).mp still)
    · rintro ⟨⟨j, still, -⟩, uncut⟩
      exact ⟨⟨⟨j, still⟩, fun severed => uncut (.inl severed)⟩, fun same => uncut (.inr same)⟩

theorem Reflects.watchers_unsubscribe (shows : Reflects c history)
    (ended : ∀ w, ¬Live history i w) : (c.unsubscribe i).watchers = c.watchers ∧
      (c.closed = false → (c.unsubscribe i).subscriptions = c.subscriptions) := by
  unfold unsubscribe
  split
  · rename_i w active
    have closed : c.closed = true := by
      rw [← Bool.not_eq_false]
      exact fun unclosed => ended w ((shows.active unclosed i w).mp active)
    have unwatched : c.watchers = [] := by
      refine List.eq_nil_iff_forall_not_mem.mpr fun v watches => ?_
      obtain ⟨j, live⟩ := ((shows.watches v).mp watches).1
      simp [shows.open_of_live live] at closed
    simp [unwatched, closed]
  · exact ⟨rfl, fun _ => rfl⟩

theorem Reflects.serve_unsubscribe_of_ended (shows : Reflects c history)
    (ended : ∀ w, ¬Live history i w) :
    Reflects (c.serve (.unsubscribe i)) (history ++ [.unsubscribe i]) := by
  have ends : ∀ j w, (.unsubscribe i : Action κ α) = .unsubscribe j → ¬Live history j w := by
    rintro j w same
    cases same
    exact ended w
  obtain ⟨watchers, subscriptions⟩ := shows.watchers_unsubscribe ended
  have counted : (c.unsubscribe i).subscriptions.length = c.subscriptions.length := by
    unfold unsubscribe
    split <;> simp
  rw [serve_unsubscribe shows.free]
  exact shows.idle rfl (by simp) ends ((calls_unsubscribe c i).trans shows.free) watchers
    (keeps_unsubscribe c i).closed counted subscriptions

theorem Reflects.serve_deliver (shows : Reflects c history) (notice : Notice α) (watchers : List κ)
    {latest : Option α} (makes : a.isWatch = false) (stays : a ≠ .close)
    (ends : ∀ i, a ≠ .unsubscribe i)
    (delivers : c.step a = ({ c with latest := latest } : Client κ α).deliver notice watchers) :
    Reflects (c.serve a) (history ++ [a]) := by
  have subscriptions : (c.serve a).subscriptions = c.subscriptions := by
    rw [subscriptions_serve, delivers]
    cases watchers <;> simp [deliver, call, admitted, shows.free, Call.handsOut]
  refine shows.idle makes stays (fun i _ same => absurd same (ends i)) (calls_serve c a) ?_ ?_
    (congrArg _ subscriptions) fun _ => subscriptions
  · rw [watchers_serve, delivers, watchers_deliver]
  · rw [closed_serve, delivers]
    exact (keeps_deliver _ _ _).closed

theorem Reflects.serve (shows : Reflects c history) (a : Action κ α) :
    Reflects (c.serve a) (history ++ [a]) := by
  cases a with
  | watch w => exact shows.serve_watch w
  | push x => exact shows.serve_deliver _ _ rfl (by simp) (by simp) rfl
  | fail e => exact shows.serve_deliver _ _ rfl (by simp) (by simp) rfl
  | unsubscribe i =>
    by_cases live : ∃ w, Live history i w
    · exact shows.serve_unsubscribe_of_live live.choose_spec
    · exact shows.serve_unsubscribe_of_ended (not_exists.mp live)
  | close => exact shows.serve_close
  -- no handler runs between the calls, so that the two that end one deliver nothing to nobody
  | finish =>
    have still : c.step .finish = c := by simp [step, finish, shows.free]
    exact shows.serve_deliver (.error .absent) [] rfl (by simp) (by simp) still
  | raise =>
    have still : c.step .raise = c := by
      have none_left : c.calls.drop 1 = c.calls := by rw [shows.free, List.drop_nil]
      rw [step, Client.raise, none_left]
    exact shows.serve_deliver (.error .absent) [] rfl (by simp) (by simp) still

theorem reflects_serveAll (replaying : Bool) (history : List (Action κ α)) :
    Reflects (({ replaying := replaying } : Client κ α).serveAll history) history := by
  induction history using List.reverseRecOn with
  | nil => exact reflects_start replaying
  | append_singleton history a ih =>
    rw [serveAll_concat]
    exact ih.serve a

end

/-- Whatever calls a client has served, it watches out for each watcher once, and a push or a
failure runs the handler of each of these once and of no other. They are the watchers with a live
subscription of which no other live subscription was ended since they were subscribed the last time.
To end a subscription that is not live is nothing to anyone; to end a live one takes its watcher
off, whatever else that watcher is subscribed to, and nobody else. So where no watcher ever has two
live subscriptions at once, the watchers are those with a live subscription. -/
theorem delivery_follows_subscriptions (replaying : Bool) (history : List (Action κ α)) :
    let c := ({ replaying := replaying } : Client κ α).serveAll history
    c.calls = [] ∧ c.watchers.Nodup ∧
      (∀ w, w ∈ c.watchers ↔ (∃ i, Live history i w) ∧ ¬Severed history w) ∧
      (∀ x, (c.serve (.push x)).delivered = c.delivered ++ c.watchers.map (·, .update x)) ∧
      (∀ e, (c.serve (.fail e)).delivered = c.delivered ++ c.watchers.map (·, .error e)) ∧
      (∀ i, (∀ w, ¬Live history i w) → (c.serve (.unsubscribe i)).watchers = c.watchers) ∧
      (∀ i w, Live history i w →
        ∀ v, v ∈ (c.serve (.unsubscribe i)).watchers ↔ v ∈ c.watchers ∧ v ≠ w) ∧
      ∀ w, (∀ front rest, history = front ++ rest →
          ∀ i j, Live front i w → Live front j w → i = j) →
        (w ∈ c.watchers ↔ ∃ i, Live history i w) := by
  intro c
  have shows : c.Reflects history := reflects_serveAll replaying history
  refine ⟨shows.free, shows.distinct, shows.watches, fun x => delivered_serve shows.free _,
    fun e => delivered_serve shows.free _, fun i ended => ?_, fun i w live v => ?_,
    fun w single => ?_⟩
  · rw [serve_unsubscribe shows.free]
    exact (shows.watchers_unsubscribe ended).1
  · have place := (shows.active (shows.open_of_live live) i w).mpr live
    rw [serve_unsubscribe shows.free, unsubscribe_of_active place]
    simp
  · rw [shows.watches]
    refine ⟨And.left, fun ⟨i, live⟩ => ⟨⟨i, live⟩, fun severed => ?_⟩⟩
    obtain ⟨front, rest, j, split, other, here, there⟩ := severed.exists_other live
    exact other (single front rest split j i there here)

/-- A watcher that subscribes twice and ends its first subscription is told nothing by a push,
though its second subscription is live. -/
theorem second_subscription_is_not_served :
    let history : List (Action Nat Nat) := [.watch 0, .watch 0, .unsubscribe 0]
    let c := ({} : Client Nat Nat).serveAll history
    Live history 1 0 ∧ c.watchers = [] ∧ (c.serve (.push 5)).delivered = c.delivered := by
  refine ⟨⟨[.watch 0], [.unsubscribe 0], rfl, rfl, ?_, ?_, ?_⟩, rfl, rfl⟩ <;> simp

end Client

end WorkloadIdentity.Watch
