import WorkloadIdentity.Watch.Session

/-! What holds of a session whatever its sources and its client do. A delivery, a subscription and a
turn are made of single events of sources, and of changes to the client between them; what these
keep is kept by the whole. -/

namespace WorkloadIdentity.Watch.Session

theorem execute_keeps (i : Nat) (s : Session) (command : Command) :
    (execute i s command).sources = s.sources ∧
      (execute i s command).addresses = s.addresses := by
  cases command with
  | unsubscribe subscription =>
    cases subscription with
    | none => exact ⟨rfl, rfl⟩
    | some n =>
      simp only [execute]
      split <;> exact ⟨rfl, rfl⟩
  | closeClient =>
    simp only [execute]
    split <;> exact ⟨rfl, rfl⟩
  | startTimer ms => exact ⟨rfl, rfl⟩
  | stopTimer => exact ⟨rfl, rfl⟩

theorem executeAll_keeps (i : Nat) (commands : List Command) (s : Session) :
    (commands.foldl (execute i) s).sources = s.sources ∧
      (commands.foldl (execute i) s).addresses = s.addresses := by
  induction commands generalizing s with
  | nil => exact ⟨rfl, rfl⟩
  | cons command rest ih =>
    have first := execute_keeps i s command
    have later := ih (execute i s command)
    exact ⟨later.1.trans first.1, later.2.trans first.2⟩

/-- Kept by every event of a source, and not about the client. -/
structure Steady (P : Session → Prop) : Prop where
  react {s : Session} (i : Nat) (e : Event) : P s → P (s.react i e).1
  transport {s : Session} (client : Transport) : P s → P { s with transport := client }

section
variable {P : Session → Prop} {s : Session}

theorem Steady.tell (steady : Steady P) (i : Nat) (notices : List (Notice Context)) (h : P s) :
    P (Session.tell i notices s).1 := by
  induction notices generalizing s with
  | nil => exact h
  | cons notice rest ih =>
    have kept := steady.react i notice.event h
    rcases reacted : s.react i notice.event with ⟨t, thrown⟩
    rw [reacted] at kept
    cases thrown with
    | some v => simpa only [Session.tell, reacted] using kept
    | none => simpa only [Session.tell, reacted] using ih kept

theorem Steady.attend (steady : Steady P) (n : Nat) (h : P s) : P (Session.attend n s).1 := by
  induction n generalizing s with
  | zero => exact h
  | succ n ih =>
    unfold Session.attend
    split
    · exact h
    · split
      · exact h
      · rename_i c _ j notice _
        have kept := steady.react j notice.event h
        rcases reacted : s.react j notice.event with ⟨t, thrown⟩
        rw [reacted] at kept
        simp only
        split
        · exact ih (steady.transport _ kept)
        · exact steady.transport _ kept
        · exact kept

theorem Steady.deliver (steady : Steady P) (notice : Notice Context) (h : P s) :
    P (s.deliver notice).1 := by
  unfold Session.deliver
  split
  · exact steady.attend _ (steady.transport _ h)
  · split
    · exact steady.tell _ _ h
    · exact h

theorem Steady.subscribe (steady : Steady P) (i : Nat) (h : P s) : P (s.subscribe i) := by
  cases held : s.transport with
  | memory c =>
    have told := steady.attend 2 (steady.transport (.memory (c.watch i)) h)
    simp only [Session.subscribe, held]
    split <;> exact steady.react _ _ told
  | scripted c =>
    simp only [Session.subscribe, held]
    cases c.watchThrows with
    | some v => exact steady.react _ _ (steady.transport _ h)
    | none => split <;> exact steady.react _ _ (steady.tell _ _ (steady.transport _ h))

theorem Steady.turn (steady : Steady P) (emptied : P s → P { s with pending := [] }) (h : P s) :
    P s.turn := by
  have each {α : Type} (who : α → Nat) (what : α → Event) (all : List α) (t : Session) (now : P t) :
      P (all.foldl (fun u a => (u.react (who a) (what a)).1) t) := by
    induction all generalizing t with
    | nil => exact now
    | cons a rest ih => exact ih _ (steady.react _ _ now)
  exact each (fun i => i) (fun _ => .proceed) _ _ (each Prod.fst Prod.snd _ _ (emptied h))

end

end WorkloadIdentity.Watch.Session
