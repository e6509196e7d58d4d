import Mathlib.Data.List.Induction
import WorkloadIdentity.Proofs.Client.Marked

/-! How often a watcher is told of a push. Handlers may call the client back, so that deliveries
nest and the watchers and the latest context change while a delivery is under way. A delivery goes
to the watchers there were when it began, each of them once, and the latest context is set by then.
So a watcher that comes during a delivery is told of it by the replay or not at all. -/

namespace WorkloadIdentity.Watch

variable {κ α : Type}

def Notice.context? : Notice α → Option α
  | .update context => some context
  | .error _ => none

/-- The contexts are of different pushes, from `start` on and before `n`. -/
structure Apart (contexts : List (Nat × α)) (start n : Nat) : Prop where
  once : (contexts.map Prod.fst).Nodup
  bounds : ∀ x ∈ contexts, start ≤ x.1 ∧ x.1 < n

section
variable {front back contexts : List (Nat × α)} {start n : Nat}

theorem Apart.sublist (apart : Apart back start n) (part : contexts.Sublist back) :
    Apart contexts start n :=
  ⟨apart.once.sublist (part.map _), fun x listed => apart.bounds x (part.mem listed)⟩

theorem Apart.insert (apart : Apart (front ++ back) start n) (begun : start ≤ n)
    (a : Action κ α) :
    Apart (front ++ ((a.map (n, ·)).pushed?.toList ++ back)) start (n + pushes [a]) := by
  rw [Action.pushed?_map]
  cases pushed : a.pushed? with
  | none => simpa [pushes, pushed] using apart
  | some context =>
    have grown : (front ++ ([(n, context)] ++ back)).Perm ((n, context) :: (front ++ back)) :=
      List.perm_middle
    have new : n ∉ (front ++ back).map Prod.fst := by
      intro listed
      obtain ⟨x, there, same⟩ := List.mem_map.mp listed
      have before := (apart.bounds x there).2
      omega
    constructor
    · exact (grown.map Prod.fst).nodup_iff.mpr (List.nodup_cons.mpr ⟨new, apart.once⟩)
    · intro x listed
      simp only [pushes, List.countP_singleton, pushed, Option.isSome_some, if_true]
      rcases List.mem_cons.mp (grown.mem_iff.mp listed) with rfl | there
      · exact ⟨begun, Nat.lt_succ_self n⟩
      · exact ⟨(apart.bounds x there).1, Nat.lt_succ_of_lt (apart.bounds x there).2⟩

end

section
variable [DecidableEq κ] {w : κ}

def updatesFor (watcher : κ) (entries : List (κ × Notice α)) : List α :=
  entries.filterMap fun (w, notice) => if w = watcher then notice.context? else none

theorem updatesFor_append (w : κ) (entries later : List (κ × Notice α)) :
    updatesFor w (entries ++ later) = updatesFor w entries ++ updatesFor w later :=
  List.filterMap_append

theorem updatesFor_eq_nil {entries : List (κ × Notice α)}
    (others : ∀ entry ∈ entries, entry.1 ≠ w) : updatesFor w entries = [] :=
  List.filterMap_eq_nil_iff.mpr fun entry listed => if_neg (others entry listed)

theorem updatesFor_map_of_not_mem {watchers : List κ} (absent : w ∉ watchers) (notice : Notice α) :
    updatesFor w (watchers.map (·, notice)) = [] := by
  refine updatesFor_eq_nil fun entry listed => ?_
  obtain ⟨v, there, rfl⟩ := List.mem_map.mp listed
  rintro rfl
  exact absent there

theorem updatesFor_map_sublist {watchers : List κ} (distinct : watchers.Nodup) (w : κ)
    (notice : Notice α) :
    (updatesFor w (watchers.map (·, notice))).Sublist notice.context?.toList := by
  induction watchers with
  | nil => exact List.nil_sublist _
  | cons v rest ih =>
    obtain ⟨absent, distinct⟩ := List.nodup_cons.mp distinct
    rw [List.map_cons, ← List.singleton_append, updatesFor_append]
    by_cases same : v = w
    · rw [updatesFor_map_of_not_mem (same ▸ absent), List.append_nil]
      cases notice <;> simp [updatesFor, same, Notice.context?]
    · simpa [updatesFor, same] using ih distinct

end

namespace Client

def replay? (c : Client κ α) : Option α :=
  if c.closed then none else if c.replaying then c.latest else none

theorem mem_latest_of_replay {c : Client κ α} {x : α} (replayed : x ∈ c.replay?) :
    x ∈ c.latest := by
  unfold replay? at replayed
  split at replayed
  · cases replayed
  · split at replayed
    · exact replayed
    · cases replayed

theorem context?_greeting (c : Client κ α) : c.greeting?.bind Notice.context? = c.replay? := by
  unfold greeting? replay?
  cases c.closed with
  | true => rfl
  | false => cases c.replaying <;> cases c.latest <;> rfl

variable [DecidableEq κ]

def received (c : Client κ α) (watcher : κ) : List α := updatesFor watcher c.delivered

/-- The contexts that a watcher is still to be told by deliveries that are under way. -/
def due (c : Client κ α) (watcher : κ) : List α := updatesFor watcher c.owed

section
variable (c : Client κ α) (a : Action κ α) (w : κ)

theorem received_step : (c.step a).received w = c.received w ++ updatesFor w (c.tells a) := by
  rw [received, delivered_step, updatesFor_append, received]

theorem updates_append_due_step_sublist :
    (updatesFor w (c.tells a) ++ (c.step a).due w).Sublist
      (updatesFor w (c.announced a) ++ c.due w) := by
  rw [due, due, ← updatesFor_append, ← updatesFor_append]
  exact (tells_append_owed_step_sublist c a).filterMap _

theorem updatesFor_announced_watch :
    updatesFor w (c.announced (.watch w)) = c.replay?.toList := by
  rw [← context?_greeting, announced]
  cases c.greeting? with
  | none => rfl
  | some notice => cases notice <;> simp [updatesFor, Notice.context?]

theorem latest_step : (c.step a).latest = a.pushed?.or c.latest := by
  cases a with
  | watch w => exact (keeps_watch c w).latest
  | push x => exact (keeps_deliver _ _ _).latest
  | fail e => exact (keeps_deliver _ _ _).latest
  | unsubscribe i => exact (keeps_unsubscribe c i).latest
  | close => rfl
  | finish => exact (keeps_finish c).latest
  | raise => rfl

variable {c a w}

theorem updatesFor_announced_watch_of_ne {v : κ} (other : v ≠ w) :
    updatesFor w (c.announced (.watch v)) = [] := by
  refine updatesFor_eq_nil fun entry listed => ?_
  obtain ⟨notice, -, rfl⟩ := List.mem_map.mp listed
  exact other

theorem updatesFor_announced_sublist (distinct : c.watchers.Nodup) (other : a.watches w = false) :
    (updatesFor w (c.announced a)).Sublist a.pushed?.toList := by
  cases a with
  | watch v =>
    rw [updatesFor_announced_watch_of_ne (of_decide_eq_false other)]
    exact List.nil_sublist _
  | push x => exact updatesFor_map_sublist distinct w _
  | fail e => exact updatesFor_map_sublist distinct w _
  | _ => exact List.nil_sublist _

theorem updatesFor_announced_of_not_mem (absent : w ∉ c.watchers) (other : a.watches w = false) :
    updatesFor w (c.announced a) = [] := by
  cases a with
  | watch v => exact updatesFor_announced_watch_of_ne (of_decide_eq_false other)
  | push x => exact updatesFor_map_of_not_mem absent _
  | fail e => exact updatesFor_map_of_not_mem absent _
  | _ => rfl

end

structure Unmet (c : Client κ α) (watcher : κ) : Prop where
  unwatched : watcher ∉ c.watchers
  received : c.received watcher = []
  due : c.due watcher = []
  outside : ∀ v notice rest, (v, .delivery notice rest) ∈ c.calls → watcher ∉ v :: rest

theorem Unmet.step {c : Client κ α} {a : Action κ α} {w : κ} (unmet : c.Unmet w)
    (other : a.watches w = false) : (c.step a).Unmet w := by
  have nothing := updates_append_due_step_sublist c a w
  rw [updatesFor_announced_of_not_mem unmet.unwatched other, unmet.due, List.append_nil,
    List.sublist_nil, List.append_eq_nil_iff] at nothing
  refine ⟨fun watches => ?_, ?_, nothing.2, fun v notice rest under => ?_⟩
  · rcases mem_watchers_step watches with before | rfl
    · exact unmet.unwatched before
    · simp [Action.watches] at other
  · rw [received_step, unmet.received, nothing.1, List.append_nil]
  · cases arises_of_mem_step under with
    | still under => exact unmet.outside _ _ _ under
    | next under => exact fun there => unmet.outside _ _ _ under (List.mem_cons_of_mem _ there)
    | push watchers => exact watchers ▸ unmet.unwatched
    | fail watchers => exact watchers ▸ unmet.unwatched

theorem unmet_marked (replaying : Bool) {actions : List (Action κ α)} {w : κ}
    (never : ∀ a ∈ actions, a.watches w = false) : (marked replaying actions).Unmet w := by
  induction actions using List.reverseRecOn with
  | nil => exact ⟨List.not_mem_nil, rfl, rfl, fun _ _ _ => nofun⟩
  | append_singleton actions a ih =>
    rw [marked_concat]
    refine (ih fun b before => never b (List.mem_append_left _ before)).step ?_
    have last := never a (by simp)
    cases a <;> exact last

/-- What a client holds is of the pushes that there were, the first `n`. -/
structure Counted (c : Client κ (Nat × α)) (n : Nat) : Prop where
  distinct : c.watchers.Nodup
  latest : ∀ x ∈ c.latest, x.1 + 1 = n
  begun : ∀ v call x, (v, call) ∈ c.calls → call.notice = .update x → x.1 < n

theorem Counted.step {c : Client κ (Nat × α)} {n : Nat} (counted : c.Counted n)
    (a : Action κ α) : (c.step (a.map (n, ·))).Counted (n + pushes [a]) := by
  refine ⟨nodup_watchers_step counted.distinct _, fun x held => ?_, fun v call x under told => ?_⟩
  · rw [latest_step, Action.pushed?_map] at held
    cases pushed : a.pushed? with
    | none =>
      rw [pushed] at held
      simpa [pushes, pushed] using counted.latest x held
    | some context =>
      rw [pushed] at held
      cases held
      simp [pushes, pushed]
  · generalize marking : a.map (n, ·) = b at under
    cases arises_of_mem_step under with
    | still before => exact Nat.lt_add_right _ (counted.begun _ _ _ before told)
    | next before => exact Nat.lt_add_right _ (counted.begun _ _ _ before told)
    | push watchers =>
      cases told
      cases a <;> cases marking
      simp [pushes, Action.pushed?]
    | fail watchers => cases told
    | greet greets =>
      cases told
      have replays : c.replay? = some x := by
        rw [← context?_greeting, greets]
        rfl
      have before := counted.latest x (mem_latest_of_replay replays)
      omega

theorem counted_marked (replaying : Bool) (actions : List (Action κ α)) :
    (marked replaying actions).Counted (pushes actions) := by
  induction actions using List.reverseRecOn with
  | nil => exact ⟨List.nodup_nil, nofun, fun _ _ _ => nofun⟩
  | append_singleton actions a ih =>
    rw [marked_concat, pushes_append]
    exact ih.step a

/-- After the replay a watcher has been told and is still to be told of pushes from `start` on, of
each once, and the deliveries that have it in hand are of these. -/
structure Served (c : Client κ (Nat × α)) (watcher : κ) (replay : List (Nat × α)) (start n : Nat) :
    Prop where
  received : ∃ later, c.received watcher = replay ++ later ∧
    Apart (later ++ c.due watcher) start n
  within : ∀ v x rest,
    (v, .delivery (.update x) rest) ∈ c.calls → watcher ∈ v :: rest → start ≤ x.1

section
variable {c : Client κ (Nat × α)} {w : κ} {replay : List (Nat × α)} {start n : Nat}

theorem Unmet.watch (unmet : c.Unmet w) (n : Nat) :
    (c.step (.watch w)).Served w c.replay?.toList n n := by
  have undue : (c.step (.watch w)).due w = [] :=
    (congrArg (updatesFor w) (owed_watch c w)).trans unmet.due
  refine ⟨⟨[], ?_, ?_⟩, fun v x rest under there => ?_⟩
  · rw [received_step, unmet.received, tells, updatesFor_announced_watch, List.nil_append,
      List.append_nil]
  · rw [undue]
    exact ⟨List.nodup_nil, fun x listed => absurd listed List.not_mem_nil⟩
  · cases arises_of_mem_step under with
    | still under => exact absurd there (unmet.outside v _ rest under)

theorem Served.step (served : c.Served w replay start n) (distinct : c.watchers.Nodup)
    (begun : start ≤ n) {a : Action κ α} (other : a.watches w = false) :
    (c.step (a.map (n, ·))).Served w replay start (n + pushes [a]) := by
  have others : (a.map (n, ·)).watches w = false := by cases a <;> exact other
  obtain ⟨later, told, apart⟩ := served.received
  constructor
  · refine ⟨later ++ updatesFor w (c.tells (a.map (n, ·))), ?_, ?_⟩
    · rw [received_step, told, List.append_assoc]
    · -- what the step tells and then owes is part of what it announces and of what was owed
      rw [List.append_assoc]
      refine (apart.insert begun a).sublist (List.Sublist.append_left ?_ later)
      exact (updates_append_due_step_sublist c _ w).trans
        ((updatesFor_announced_sublist distinct others).append_right _)
  · intro v x rest under there
    generalize marking : a.map (n, ·) = b at under
    cases arises_of_mem_step under with
    | still before => exact served.within v x rest before there
    | next before => exact served.within _ x _ before (List.mem_cons_of_mem _ there)
    | push watchers =>
      cases a <;> cases marking
      exact begun

theorem served_marked (replaying : Bool) {before : List (Action κ α)}
    (unmet : (marked replaying before).Unmet w) {after : List (Action κ α)}
    (never : ∀ a ∈ after, a.watches w = false) :
    (marked replaying (before ++ .watch w :: after)).Served w
      (marked replaying before).replay?.toList (pushes before)
      (pushes (before ++ .watch w :: after)) := by
  induction after using List.reverseRecOn with
  | nil =>
    rw [marked_concat, pushes_append]
    exact unmet.watch _
  | append_singleton after a ih =>
    have regrouped : before ++ .watch w :: (after ++ [a]) = before ++ .watch w :: after ++ [a] := by
      simp
    rw [regrouped, marked_concat, pushes_append (before ++ .watch w :: after) [a]]
    refine (ih fun b there => never b (List.mem_append_left _ there)).step
      (counted_marked _ _).distinct ?_ (never a (by simp))
    rw [pushes_append]
    exact Nat.le_add_right _ _

end

section
variable {w : κ} {before after : List (Action κ α)}

theorem watches_of_once (once : (before ++ .watch w :: after).countP (·.watches w) ≤ 1) :
    (∀ a ∈ before, a.watches w = false) ∧ ∀ a ∈ after, a.watches w = false := by
  have here : (Action.watch w : Action κ α).watches w = true := Action.watches_iff.mpr rfl
  simp only [List.countP_append, List.countP_cons, here, if_true] at once
  have first : before.countP (·.watches w) = 0 := by omega
  have later : after.countP (·.watches w) = 0 := by omega
  simp only [List.countP_eq_zero, Bool.not_eq_true] at first later
  exact ⟨first, later⟩

theorem received_of_once (replaying : Bool)
    (once : (before ++ .watch w :: after).countP (·.watches w) ≤ 1) :
    (marked replaying (before ++ .watch w :: after)).Served w
      (marked replaying before).replay?.toList (pushes before)
      (pushes (before ++ .watch w :: after)) :=
  have ⟨first, later⟩ := watches_of_once once
  served_marked replaying (unmet_marked replaying first) later

theorem nodup_received_of_once (replaying : Bool)
    (once : (before ++ .watch w :: after).countP (·.watches w) ≤ 1) :
    (((marked replaying (before ++ .watch w :: after)).received w).map Prod.fst).Nodup := by
  obtain ⟨later, told, apart⟩ := (received_of_once replaying once).received
  have distinct := apart.sublist (List.sublist_append_left later _)
  rw [told, List.map_append, List.nodup_append]
  refine ⟨?_, distinct.once, ?_⟩
  · cases (marked replaying before).replay? <;> simp
  · intro i replayed j listed
    obtain ⟨x, there, rfl⟩ := List.mem_map.mp replayed
    obtain ⟨y, follows, rfl⟩ := List.mem_map.mp listed
    have latest := (counted_marked replaying before).latest x
      (mem_latest_of_replay (Option.mem_toList.mp there))
    have bound := (distinct.bounds y follows).1
    omega

end

/-- A watcher that is subscribed at most once is told of each push at most once, by delivery or by
replay. Of the pushes that began before its subscription it is told of the latest at most, by the
replay, and then only of those that begin later. The delivery of a push that was under way when it
subscribed never has it in hand. -/
theorem pushes_arrive_once (replaying : Bool) (actions : List (Action κ α)) (w : κ)
    (once : actions.countP (·.watches w) ≤ 1) :
    let c := marked replaying actions
    c.map Prod.snd = ({ replaying := replaying } : Client κ α).run actions ∧
      ((c.received w).map Prod.fst).Nodup ∧
      ∀ before after, actions = before ++ .watch w :: after →
        let b := marked replaying before
        (∀ x ∈ b.replay?, x.1 + 1 = pushes before) ∧
          (∃ later, c.received w = b.replay?.toList ++ later ∧ ∀ x ∈ later, pushes before ≤ x.1) ∧
          ∀ v call x, (v, call) ∈ b.calls → call.notice = .update x →
            ∀ u queue, (u, .delivery (.update x) queue) ∈ c.calls → w ∉ u :: queue := by
  intro c
  refine ⟨map_snd_marked replaying actions, ?_, ?_⟩
  · by_cases met : .watch w ∈ actions
    · obtain ⟨before, after, rfl⟩ := List.append_of_mem met
      exact nodup_received_of_once replaying once
    · have unmet : c.Unmet w := unmet_marked replaying fun a there => by
        rw [← Bool.not_eq_true, Action.watches_iff]
        rintro rfl
        exact met there
      rw [unmet.received]
      exact List.nodup_nil
  · rintro before after rfl b
    have counted : b.Counted (pushes before) := counted_marked replaying before
    have served := received_of_once replaying once
    refine ⟨fun x replayed => counted.latest x (mem_latest_of_replay replayed), ?_, ?_⟩
    · obtain ⟨later, told, apart⟩ := served.received
      exact ⟨later, told, fun x listed => (apart.bounds x (List.mem_append_left _ listed)).1⟩
    · intro v call x under told u queue delivers there
      have earlier := counted.begun v call x under told
      have later := served.within u x queue delivers there
      omega

theorem pushes_arrive_once_of_nested :
    let actions : List (Action Nat Nat) :=
      [.watch 0, .push 5, .watch 1, .push 6, .finish, .finish, .finish, .finish]
    actions.countP (·.watches 1) ≤ 1 ∧
      (marked true actions).received 1 = [(0, 5), (1, 6)] ∧
      (((marked true actions).received 1).map Prod.fst).Nodup :=
  ⟨by decide, rfl, (pushes_arrive_once true _ 1 (by decide)).2.1⟩

end Client

end WorkloadIdentity.Watch
