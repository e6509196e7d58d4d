import WorkloadIdentity.Proofs.Source.Lifecycle

/-! What reaches a source that has failed or is closed. Its client may go on to deliver, and its
timer may still end. The steps of these late events ask for nothing, throw nothing and are the
same at any time; they leave the source as it is, its log and what its selector was asked
included. All that a late event leaves behind is that the timer has ended, which the creation
waits for. So the teardown takes the course that it would take without any delivery. -/

namespace WorkloadIdentity.Watch

namespace Event

def isDelivery : Event → Bool
  | .update _ | .error _ => true
  | _ => false

def endsTimer : Event → Bool
  | .timerEnded => true
  | _ => false

def isLate (e : Event) : Bool := e.isDelivery || e.endsTimer

end Event

def undelivered (h : History) : History := h.filter fun o => !o.2.isDelivery

theorem undelivered_cons (o : Moment × Event) (h : History) :
    undelivered (o :: h) = if o.2.isDelivery then undelivered h else o :: undelivered h := by
  cases brought : o.2.isDelivery <;> simp [undelivered, brought]

namespace Source

def Over (s : Source) : Prop := s.lifecycle = .closed ∨ s.lifecycle = .failed

def timerAfter (s : Source) (late : History) : Timer :=
  match s.timer, late.any fun o => o.2.endsTimer with
  | .running, true => .spent
  | timer, _ => timer

def throws (s : Source) : History → List Value
  | [] => []
  | o :: rest => (s.step o.1 o.2).thrown.toList ++ (s.after o).throws rest

section
variable {s : Source} {o : Moment × Event}

theorem over_after (h : Consistent s) (finished : s.Over) (o : Moment × Event) :
    (s.after o).Over := by
  have kept : (s.run [o]).lifecycle = s.lifecycle := by
    refine over_run h (fun k next => ?_) [o]
    rcases finished with ended | ended <;> rw [ended] at next <;> cases next
  exact finished.imp kept.trans kept.trans

theorem isOpen_of_over (h : Consistent s) (finished : s.Over) : s.gate.isOpen = true := by
  rw [isOpen_iff_started h]
  rcases finished with ended | ended <;> rw [ended] <;> nofun

theorem step_of_delivery (finished : s.Over) (m : Moment) {e : Event}
    (brought : e.isDelivery = true) : s.step m e = { source := s } := by
  cases e with
  | update context => exact onUpdate_of_over finished m context
  | error v => exact onError_of_over finished m v
  | _ => cases brought

theorem timerAfter_of_not_runs (idle : s.timer ≠ .running) (late : History) :
    s.timerAfter late = s.timer := by
  unfold timerAfter
  cases runs : s.timer with
  | running => exact absurd runs idle
  | _ => rfl

theorem timerAfter_cons (late : History) :
    ({ s with timer := s.timerAfter [o] } : Source).timerAfter late = s.timerAfter (o :: late) := by
  unfold timerAfter
  cases runs : s.timer <;> cases ends : o.2.endsTimer <;> simp [ends]

theorem step_timerEnded (h : Consistent s) (opened : s.gate.isOpen = true) (m : Moment) :
    s.step m .timerEnded = { source := { s with timer := s.timerAfter [(m, .timerEnded)] } } := by
  by_cases runs : s.timer = .running
  · obtain ⟨ms, limit⟩ := Option.isSome_iff_exists.mp (h.timer runs)
    have still : ({ s with timer := .spent } : Source).settle (.timeout ms) =
        { s with timer := .spent } :=
      settle_of_isOpen (s := { s with timer := .spent }) opened _
    rw [step, onTimerEnded, runs, limit]
    simp only [still]
    simp [timerAfter, runs, Event.endsTimer]
  · rw [timerAfter_of_not_runs runs]
    exact step_of_not_expects (decide_eq_false runs)

theorem step_of_isLate (h : Consistent s) (finished : s.Over) (m : Moment) {e : Event}
    (late : e.isLate = true) :
    s.step m e = { source := { s with timer := s.timerAfter [(m, e)] } } := by
  cases e with
  | timerEnded => exact step_timerEnded h (isOpen_of_over h finished) m
  | update | error =>
    rw [step_of_delivery finished m rfl]
    simp [timerAfter, Event.endsTimer]
  | _ => cases late

theorem run_of_late (h : Consistent s) (finished : s.Over) {late : History}
    (all : ∀ o ∈ late, o.2.isLate = true) :
    s.run late = { s with timer := s.timerAfter late } ∧ s.commands late = [] ∧
      s.throws late = [] := by
  induction late generalizing s with
  | nil => simp [timerAfter, commands, throws]
  | cons o rest ih =>
    obtain ⟨m, e⟩ := o
    have first := step_of_isLate h finished m (all _ List.mem_cons_self)
    have moved : s.after (m, e) = { s with timer := s.timerAfter [(m, e)] } :=
      congrArg Reaction.source first
    have later := ih (consistent_after h (m, e)) (over_after h finished (m, e))
      fun o there => all o (List.mem_cons_of_mem _ there)
    rw [run_cons, commands, throws, first, later.1, later.2.1, later.2.2, moved]
    exact ⟨by rw [timerAfter_cons], rfl, rfl⟩

theorem run_undelivered (h : Consistent s) (finished : s.Over) (later : History) :
    s.run (undelivered later) = s.run later ∧
      s.commands (undelivered later) = s.commands later ∧
      s.throws (undelivered later) = s.throws later := by
  induction later generalizing s with
  | nil => exact ⟨rfl, rfl, rfl⟩
  | cons o rest ih =>
    have next := ih (consistent_after h o) (over_after h finished o)
    rw [undelivered_cons]
    split
    · rename_i brought
      have first := step_of_delivery finished o.1 brought
      have same : s.after o = s := congrArg Reaction.source first
      rw [same] at next
      rw [run_cons, commands, throws, first, same, next.1, next.2.1, next.2.2]
      exact ⟨rfl, rfl, rfl⟩
    · rw [run_cons, run_cons, next.1, commands, commands, next.2.1, throws, throws, next.2.2]
      exact ⟨rfl, rfl, rfl⟩

end

/-- At every moment after the end a late event changes nothing, and neither do many together. The
whole course after the end, with the teardown in it, is what it would be without the deliveries. -/
theorem late_events_change_nothing (setup : Setup) (past later : History)
    (finished : (setup.source.run past).Over) :
    let s := setup.source.run past
    let t := s.run later
    t.Over ∧
    (∀ e : Event, e.isLate = true → ∀ m,
      t.step m e = { source := { t with timer := t.timerAfter [(m, e)] } }) ∧
    (∀ late : History, (∀ o ∈ late, o.2.isLate = true) →
      t.run late = { t with timer := t.timerAfter late } ∧
      t.commands late = [] ∧ t.throws late = []) ∧
    s.run (undelivered later) = t ∧
    s.commands (undelivered later) = s.commands later ∧
    s.throws (undelivered later) = s.throws later := by
  intro s t
  have ended : Consistent t ∧ t.Over :=
    run_keeps (P := fun s => Consistent s ∧ s.Over)
      (fun s o both => ⟨consistent_after both.1 o, over_after both.1 both.2 o⟩)
      ⟨consistent_run setup past, finished⟩ later
  exact ⟨ended.2, fun e late m => step_of_isLate ended.1 ended.2 m late,
    fun late all => run_of_late ended.1 ended.2 all,
    run_undelivered (consistent_run setup past) finished later⟩

theorem late_events_change_nothing_of_teardown :
    let setup : Setup := { ownsClient := true, initTimeout := some 5 }
    let past : History := [(⟨0, 0⟩, .subscribed 4), (⟨1, 1⟩, .error .absent)]
    let late : History :=
      [(⟨2, 2⟩, .update .single), (⟨3, 3⟩, .timerEnded), (⟨4, 4⟩, .error .absent)]
    let teardown : History := [(⟨5, 5⟩, .proceed), (⟨6, 6⟩, .unsubscribed (.ok ()))]
    let s := setup.source.run past
    let t := s.run (late ++ teardown)
    s.timer = .running ∧ t.teardown = .closingClient ∧
    s.run late = { s with timer := .spent } ∧ t.run late = t ∧ t.commands late = [] ∧
    s.commands (undelivered (late ++ teardown)) = s.commands (late ++ teardown) := by
  intro setup past late teardown s t
  have finished : s.Over := .inr rfl
  have all : ∀ o ∈ late, o.2.isLate = true := List.all_eq_true.mp rfl
  have before := late_events_change_nothing setup past [] finished
  have amid := late_events_change_nothing setup past (late ++ teardown) finished
  exact ⟨rfl, rfl, (before.2.2.1 late all).1, (amid.2.2.1 late all).1, (amid.2.2.1 late all).2.1,
    amid.2.2.2.2.1⟩

end Source

end WorkloadIdentity.Watch
