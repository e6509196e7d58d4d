/-! A latch that is opened once. Whoever waits at it, before or after it is opened, is
let through with the value of the first opening, those who waited together in the
order in which they came. -/

namespace WorkloadIdentity.Watch

structure Gate (κ α : Type) where
  opened : Option α := none
  waiting : List κ := []
  passed : List (κ × α) := []

namespace Gate

variable {κ α : Type}

def openWith (g : Gate κ α) (a : α) : Gate κ α × Bool :=
  match g.opened with
  | some _ => (g, false)
  | none =>
    ({ opened := some a, waiting := [], passed := g.passed ++ g.waiting.map (·, a) }, true)

theorem opened_openWith (g : Gate κ α) (a : α) :
    (g.openWith a).1.opened = some (g.opened.getD a) := by
  unfold openWith
  cases h : g.opened <;> simp [h]

def wait (g : Gate κ α) (k : κ) : Gate κ α :=
  match g.opened with
  | some a => { g with passed := g.passed ++ [(k, a)] }
  | none => { g with waiting := g.waiting ++ [k] }

def isOpen (g : Gate κ α) : Bool := g.opened.isSome

theorem openWith_of_isOpen {g : Gate κ α} (h : g.isOpen = true) (a : α) :
    g.openWith a = (g, false) := by
  unfold openWith
  split
  · rfl
  · simp_all [isOpen]

section
variable {g : Gate κ α}

theorem openWith_of_closed (h : g.opened = none) (a : α) :
    g.openWith a =
      ({ opened := some a, waiting := [], passed := g.passed ++ g.waiting.map (·, a) }, true) := by
  rw [openWith, h]

theorem wait_of_closed (h : g.opened = none) (k : κ) :
    g.wait k = { g with waiting := g.waiting ++ [k] } := by
  rw [wait, h]

theorem wait_of_opened {a : α} (h : g.opened = some a) (k : κ) :
    g.wait k = { g with passed := g.passed ++ [(k, a)] } := by
  rw [wait, h]

end

theorem passed_prefix_openWith (g : Gate κ α) (a : α) : g.passed <+: (g.openWith a).1.passed := by
  cases h : g.opened with
  | none =>
    rw [openWith_of_closed h]
    exact List.prefix_append _ _
  | some b =>
    refine ⟨[], ?_⟩
    rw [List.append_nil, openWith, h]

theorem passed_prefix_wait (g : Gate κ α) (k : κ) : g.passed <+: (g.wait k).passed := by
  cases h : g.opened with
  | none =>
    refine ⟨[], ?_⟩
    rw [List.append_nil, wait_of_closed h]
  | some b =>
    rw [wait_of_opened h]
    exact List.prefix_append _ _

end Gate

end WorkloadIdentity.Watch
