import WorkloadIdentity.Watch.Source

/-! Runs of a source. A history holds everything that reaches a source, in the order in
which it does, each event with its time; no order is excluded. An event that the source
does not expect, such as a call of `close` before anyone holds the source, changes
nothing, so what a history leads to is decided by the part of it that is heard. -/

namespace WorkloadIdentity.Watch

open Spiffe

abbrev History := List (Moment × Event)

def Context.single : Context :=
  { candidates := [⟨0,
      { id := ⟨⟨"example.org", by decide⟩, "/web", by decide⟩
        leaf := [], intermediates := [], privateKey := [], hint := none }⟩]
    bundles := BundleSet.empty }

namespace Source

def after (s : Source) (o : Moment × Event) : Source := (s.step o.1 o.2).source

def run (s : Source) (h : History) : Source := h.foldl after s

def commands (s : Source) : History → List Command
  | [] => []
  | o :: rest => (s.step o.1 o.2).commands ++ (s.after o).commands rest

/-- The handlers of the watch can be called at any time; of what else can happen each has its
time. -/
def expects (s : Source) : Event → Bool
  | .update _ | .error _ | .proceed => true
  | .subscribed _ | .watchThrew _ =>
    match s.opening with
    | .subscribing => true
    | _ => false
  | .timerEnded => s.timer = .running
  | .unsubscribed _ =>
    match s.teardown with
    | .unsubscribing => true
    | _ => false
  | .clientClosed _ =>
    match s.teardown with
    | .closingClient => true
    | _ => false
  | .close => s.isHandedOut

def heard (s : Source) : History → History
  | [] => []
  | o :: rest => if s.expects o.2 then o :: (s.after o).heard rest else s.heard rest

section
variable {s : Source} {o : Moment × Event} {a b h : History}

@[simp] theorem run_nil : s.run [] = s := rfl

@[simp] theorem run_cons : s.run (o :: h) = (s.after o).run h := rfl

@[simp] theorem run_append : s.run (a ++ b) = (s.run a).run b := List.foldl_append

theorem run_snoc : s.run (h ++ [o]) = (s.run h).after o := by simp

@[simp] theorem commands_append :
    s.commands (a ++ b) = s.commands a ++ (s.run a).commands b := by
  induction a generalizing s with
  | nil => rfl
  | cons o a ih => simp [commands, ih]

theorem expects_subscribed_iff {n : Nat} :
    s.expects (.subscribed n) = true ↔ s.opening = .subscribing := by
  cases ho : s.opening <;> simp [expects, ho]

theorem expects_watchThrew_iff {v : Value} :
    s.expects (.watchThrew v) = true ↔ s.opening = .subscribing := by
  cases ho : s.opening <;> simp [expects, ho]

theorem expects_unsubscribed_iff {d : Ending} :
    s.expects (.unsubscribed d) = true ↔ s.teardown = .unsubscribing := by
  cases ht : s.teardown <;> simp [expects, ht]

theorem expects_clientClosed_iff {d : Ending} :
    s.expects (.clientClosed d) = true ↔ s.teardown = .closingClient := by
  cases ht : s.teardown <;> simp [expects, ht]

theorem step_of_not_expects {m : Moment} {e : Event} (h : s.expects e = false) :
    s.step m e = { source := s } := by
  cases e with
  | update context => simp [expects] at h
  | error v => simp [expects] at h
  | proceed => simp [expects] at h
  | subscribed n => cases ho : s.opening <;> simp_all [expects, step, onSubscribed]
  | watchThrew v => cases ho : s.opening <;> simp_all [expects, step, onWatchThrew]
  | timerEnded => cases ht : s.timer <;> simp_all [expects, step, onTimerEnded]
  | unsubscribed e => cases ht : s.teardown <;> simp_all [expects, step, onUnsubscribed]
  | clientClosed e => cases ht : s.teardown <;> simp_all [expects, step, onClientClosed]
  | close => simp_all [expects, step]

theorem after_of_not_expects (h : s.expects o.2 = false) : s.after o = s := by
  rw [after, step_of_not_expects h]

theorem heard_append : s.heard (a ++ b) = s.heard a ++ (s.run a).heard b := by
  induction a generalizing s with
  | nil => rfl
  | cons o a ih =>
    by_cases ho : s.expects o.2 = true
    · simp [heard, ho, ih]
    · have same : s.after o = s := after_of_not_expects (by simpa using ho)
      simp [heard, ho, ih, same]

theorem heard_of_expects (expected : (s.run a).expects o.2 = true) :
    s.heard (a ++ o :: b) = s.heard a ++ o :: ((s.run a).after o).heard b := by
  rw [heard_append, heard, if_pos expected]

theorem mem_of_mem_heard (ho : o ∈ s.heard h) : o ∈ h := by
  induction h generalizing s with
  | nil => exact ho
  | cons first h ih =>
    rw [heard] at ho
    split at ho
    · rcases List.mem_cons.mp ho with rfl | later
      · exact List.mem_cons_self
      · exact List.mem_cons_of_mem first (ih later)
    · exact List.mem_cons_of_mem first (ih ho)

end

/-- The client delivers at any time, its call and the timer end while they are awaited, and `close`
is for whoever holds the source. -/
def Reaches (s : Source) : Event → Prop
  | .update _ | .error _ => True
  | .watchThrew _ => s.opening = .subscribing
  | .timerEnded => s.timer = .running
  | .close => s.opening = .done .ok
  | _ => False

theorem expects_of_reaches {s : Source} {e : Event} (reaches : s.Reaches e) :
    s.expects e = true := by
  cases e with
  | update context => rfl
  | error v => rfl
  | watchThrew v => simp only [expects, show s.opening = .subscribing from reaches]
  | timerEnded => exact decide_eq_true reaches
  | close => exact isHandedOut_iff.mpr reaches
  | _ => cases reaches

theorem heard_of_reaches {s : Source} {before later : History} {o : Moment × Event}
    (reaches : (s.run before).Reaches o.2) :
    ∃ rest, s.heard (before ++ o :: later) = s.heard before ++ o :: rest :=
  ⟨_, heard_of_expects (expects_of_reaches reaches)⟩

theorem run_keeps {P : Source → Prop} (step : ∀ s o, P s → P (after s o)) {s : Source}
    (start : P s) (h : History) : P (s.run h) := by
  induction h generalizing s with
  | nil => exact start
  | cons o h ih => exact ih (step s o start)

theorem run_reaches {P Q : Source → Prop} {e : Event} {more : List Event} {s : Source}
    {h : History} (keeps : ∀ s o, P s → P (after s o)) (moves : ∀ s m, P s → Q (after s (m, e)))
    (start : P s) (comes : (e :: more).Sublist (h.map Prod.snd)) :
    ∃ a b, h = a ++ b ∧ Q (s.run a) ∧ more.Sublist (b.map Prod.snd) := by
  induction h generalizing s with
  | nil => cases comes
  | cons o rest ih =>
    rw [List.map_cons] at comes
    cases comes with
    | cons _ later =>
      obtain ⟨a, b, rfl, reached, left⟩ := ih (keeps s o start) later
      exact ⟨o :: a, b, rfl, reached, left⟩
    | cons_cons _ left => exact ⟨[o], rest, rfl, moves s o.1 start, left⟩

end Source

end WorkloadIdentity.Watch
