import WorkloadIdentity.Proofs.Source.Run

/-! How the parts of a source fit together. The gate and the call of `close` decide the
lifecycle; a snapshot is there exactly while the source is ready; a teardown is as far
as the work that started it, a call of `close` or a creation that fails. Nothing here
depends on what the source logs. -/

namespace WorkloadIdentity.Watch

/-- How far a teardown is, whatever it waits for. -/
inductive Stage where
  | idle
  | running
  | finished
  deriving DecidableEq

def Teardown.stage : Teardown → Stage
  | .idle => .idle
  | .unsubscribing | .closingClient => .running
  | .done _ => .finished

namespace Opening

def stage : Opening → Stage
  | .tearingDown _ => .running
  | .done (.refused _) | .done (.rejected _) => .finished
  | _ => .idle

def awaits : Opening → Bool
  | .waiting | .stoppingTimer _ => true
  | _ => false

theorem stage_of_awaits {o : Opening} (waits : o.awaits = true) : o.stage = .idle := by
  cases o <;> simp_all [awaits, stage]

end Opening

namespace Source

def stage (s : Source) : Stage :=
  match s.closing with
  | some .pending => .running
  | some (.settled _) => .finished
  | none => s.opening.stage

/-- The lifecycle, as the gate and the call of `close` have it. -/
def phase (s : Source) : Lifecycle :=
  match s.gate.opened, s.closing with
  | none, _ => .init
  | some .ready, none => .ready
  | some .ready, some _ => .closed
  | some _, _ => .failed

/-- What the creation of a source has seen of the gate and the timer. -/
def OpeningFits (s : Source) : Prop :=
  match s.opening with
  | .subscribing => s.timer = .unset ∧ s.subscription = none
  | .waiting => s.timer = .unset ↔ s.setup.initTimeout = none
  | .stoppingTimer o => s.gate.opened = some o ∧ s.timer ≠ .unset
  | .tearingDown o => s.gate.opened = some o ∧ o.lifecycle = .failed
  | .done .ok => s.gate.opened = some .ready
  | .done _ => s.lifecycle = .failed

structure Consistent (s : Source) : Prop where
  lifecycle : s.lifecycle = s.phase
  current : s.current.isSome = true ↔ s.lifecycle = .ready
  closing : s.closing.isSome = true → s.gate.opened = some .ready
  teardown : s.teardown.stage = s.stage
  opening : s.OpeningFits
  timer : s.timer = .running → s.setup.initTimeout.isSome = true
  asked : s.lifecycle = .init → s.asked = []

theorem consistent_source (setup : Setup) : Consistent setup.source := by
  constructor <;> simp [Setup.source, phase, stage, Opening.stage, Teardown.stage, OpeningFits]

section
variable {s : Source}

theorem opened_of_init (fits : s.lifecycle = s.phase) (starts : s.lifecycle = .init) :
    s.gate.opened = none := by
  unfold phase at fits
  split at fits <;> simp_all

theorem opened_of_ready (fits : s.lifecycle = s.phase) (serves : s.lifecycle = .ready) :
    s.gate.opened = some .ready := by
  unfold phase at fits
  split at fits <;> simp_all

theorem closing_of_ready (fits : s.lifecycle = s.phase) (serves : s.lifecycle = .ready) :
    s.closing = none := by
  unfold phase at fits
  split at fits <;> simp_all

theorem closing_of_init (h : Consistent s) (starts : s.lifecycle = .init) : s.closing = none := by
  have opened := opened_of_init h.lifecycle starts
  have closing := h.closing
  cases hc : s.closing <;> simp_all

theorem closed_of_closing {c : Closing} (h : Consistent s) (called : s.closing = some c) :
    s.lifecycle = .closed := by
  rw [h.lifecycle, phase, h.closing (by simp [called]), called]

theorem closing_of_failed {o : Outcome} (h : Consistent s) (opened : s.gate.opened = some o)
    (failed : o.lifecycle = .failed) : s.closing = none := by
  cases hc : s.closing with
  | none => rfl
  | some c =>
    have ready := h.closing (by simp [hc])
    rw [opened, Option.some.injEq] at ready
    rw [ready] at failed
    cases failed

theorem failed_of_opened {o : Outcome} (h : Consistent s) (opened : s.gate.opened = some o)
    (failed : o.lifecycle = .failed) : s.lifecycle = .failed := by
  rw [h.lifecycle, phase, opened, closing_of_failed h opened failed]
  cases o with
  | ready => cases failed
  | error f => rfl
  | timeout ms => rfl

theorem ready_of_handedOut (h : Consistent s) (held : s.isHandedOut = true) :
    s.gate.opened = some .ready := by
  have fits := h.opening
  simpa only [OpeningFits, isHandedOut_iff.mp held] using fits

theorem unset_of_subscribing (h : Consistent s) (calls : s.opening = .subscribing) :
    s.timer = .unset ∧ s.subscription = none := by
  have fits := h.opening
  simpa only [OpeningFits, calls] using fits

theorem opened_of_tearing {o : Outcome} (h : Consistent s) (tears : s.opening = .tearingDown o) :
    s.gate.opened = some o ∧ o.lifecycle = .failed := by
  have fits := h.opening
  simpa only [OpeningFits, tears] using fits

theorem idle_of_stage (h : Consistent s) (idle : s.stage = .idle) : s.teardown = .idle := by
  rw [← h.teardown] at idle
  cases ht : s.teardown <;> simp_all [Teardown.stage]

theorem idle_of_awaits {o : Outcome} (h : Consistent s) (waits : s.opening.awaits = true)
    (opened : s.gate.opened = some o) (failed : o.lifecycle = .failed) : s.teardown = .idle := by
  apply idle_of_stage h
  rw [stage, closing_of_failed h opened failed]
  exact Opening.stage_of_awaits waits

theorem idle_of_ready (h : Consistent s) (serves : s.lifecycle = .ready) :
    s.teardown = .idle := by
  have opened := opened_of_ready h.lifecycle serves
  have fits := h.opening
  apply idle_of_stage h
  rw [stage, closing_of_ready h.lifecycle serves]
  unfold OpeningFits at fits
  cases ho : s.opening with
  | tearingDown o =>
    rw [ho, opened] at fits
    obtain ⟨rfl, failed⟩ := And.imp_left Option.some.inj fits
    cases failed
  | done r =>
    rw [ho] at fits
    cases r with
    | ok => rfl
    | refused f => simp [serves] at fits
    | rejected v => simp [serves] at fits
  | _ => rfl

theorem pending_or_tearing (h : Consistent s)
    (runs : s.teardown = .unsubscribing ∨ s.teardown = .closingClient) :
    s.closing = some .pending ∨ ∃ o, s.opening = .tearingDown o := by
  have running : s.stage = .running := by
    rw [← h.teardown]
    rcases runs with runs | runs <;> simp [runs, Teardown.stage]
  unfold stage at running
  split at running
  · rename_i pending
    exact .inl pending
  · cases running
  · unfold Opening.stage at running
    split at running
    · rename_i o tears
      exact .inr ⟨o, tears⟩
    all_goals cases running

end

end Source

end WorkloadIdentity.Watch
