import Mathlib.Data.List.Induction
import Mathlib.Data.List.Infix
import WorkloadIdentity.Watch.Gate

/-! The passage through a gate. Those who are let through go on in later turns, one in each turn,
and openings, arrivals and turns come in any order. However they come, only the first opening is
told that it opened the gate, and those who go on are the first who came, each once, in the order
in which they came, and all with the value of the first opening. -/

namespace WorkloadIdentity.Watch.Gate

inductive Act (κ α : Type) where
  | openWith (a : α)
  | wait (key : κ)
  | turn

variable {κ α : Type}

namespace Act

@[simp] def value? : Act κ α → Option α
  | .openWith a => some a
  | _ => none

@[simp] def key? : Act κ α → Option κ
  | .wait key => some key
  | _ => none

@[simp] def isTurn : Act κ α → Bool
  | .turn => true
  | _ => false

end Act

section
variable (acts : List (Act κ α))

def openings : List α := acts.filterMap Act.value?

def arrivals : List κ := acts.filterMap Act.key?

def turns : Nat := acts.countP Act.isTurn

def admitted : List (κ × α) :=
  match (openings acts).head? with
  | some a => (arrivals acts).map (·, a)
  | none => []

end

section
variable {acts : List (Act κ α)} {act : Act κ α}

@[simp] theorem openings_concat :
    openings (acts ++ [act]) = openings acts ++ act.value?.toList := by
  rw [openings, List.filterMap_append, openings]
  cases act <;> rfl

@[simp] theorem arrivals_concat : arrivals (acts ++ [act]) = arrivals acts ++ act.key?.toList := by
  rw [arrivals, List.filterMap_append, arrivals]
  cases act <;> rfl

theorem turns_cons : turns (act :: acts) = turns acts + if act.isTurn then 1 else 0 :=
  List.countP_cons

theorem admitted_of_unopened (h : openings acts = []) : admitted acts = [] := by
  rw [admitted, h, List.head?_nil]

theorem admitted_of_opened {a : α} (h : (openings acts).head? = some a) :
    admitted acts = (arrivals acts).map (·, a) := by
  rw [admitted, h]

theorem length_admitted_le (acts : List (Act κ α)) :
    (admitted acts).length ≤ (arrivals acts).length := by
  cases first : (openings acts).head? with
  | some a => simp [admitted_of_opened first]
  | none => simp [admitted_of_unopened (List.head?_eq_none_iff.mp first)]

end

/-- A gate, those who have gone on from it, and what the openings were told. -/
structure Passage (κ α : Type) where
  gate : Gate κ α := {}
  gone : List (κ × α) := []
  answers : List Bool := []

namespace Passage

/-- In a turn the first of those who are let through goes on. -/
def step (p : Passage κ α) : Act κ α → Passage κ α
  | .openWith a =>
    let (gate, opened) := p.gate.openWith a
    { p with gate := gate, answers := p.answers ++ [opened] }
  | .wait key => { p with gate := p.gate.wait key }
  | .turn =>
    { p with
      gate := { p.gate with passed := p.gate.passed.drop 1 }
      gone := p.gone ++ p.gate.passed.take 1 }

def run (p : Passage κ α) (acts : List (Act κ α)) : Passage κ α := acts.foldl step p

theorem run_cons (p : Passage κ α) (act : Act κ α) (acts : List (Act κ α)) :
    p.run (act :: acts) = (p.step act).run acts := rfl

theorem run_append (p : Passage κ α) (acts later : List (Act κ α)) :
    p.run (acts ++ later) = (p.run acts).run later := List.foldl_append

/-- What the acts so far have made of a gate that was new before them. -/
structure Follows (acts : List (Act κ α)) (p : Passage κ α) : Prop where
  opened : p.gate.opened = (openings acts).head?
  waiting : openings acts = [] → p.gate.waiting = arrivals acts
  kept : p.gone ++ p.gate.passed = admitted acts
  answers : p.answers = (openings acts).mapIdx fun i _ => decide (i = 0)

namespace Follows

variable {acts : List (Act κ α)} {p : Passage κ α}

theorem openings_eq_nil (h : Follows acts p) (closed : p.gate.opened = none) :
    openings acts = [] :=
  List.head?_eq_none_iff.mp (h.opened.symm.trans closed)

theorem openings_ne_nil (h : Follows acts p) {a : α} (opened : p.gate.opened = some a) :
    openings acts ≠ [] := by
  intro unopened
  rw [h.opened, unopened] at opened
  cases opened

theorem openWith (h : Follows acts p) (a : α) :
    Follows (acts ++ [.openWith a]) (p.step (.openWith a)) := by
  cases before : p.gate.opened with
  | none =>
    have unopened := h.openings_eq_nil before
    have first : (openings (acts ++ [.openWith a])).head? = some a := by simp [unopened]
    simp only [step, openWith_of_closed before]
    constructor
    case opened => exact first.symm
    case waiting => simp
    case kept =>
      -- all who came so far are still waiting, and are let through together
      calc p.gone ++ (p.gate.passed ++ p.gate.waiting.map (·, a))
          = admitted acts ++ p.gate.waiting.map (·, a) := by rw [← List.append_assoc, h.kept]
        _ = (arrivals acts).map (·, a) := by
          rw [admitted_of_unopened unopened, h.waiting unopened, List.nil_append]
        _ = admitted (acts ++ [.openWith a]) := by simp [admitted_of_opened first]
    case answers => simp [h.answers, unopened]
  | some b =>
    have isOpen : p.gate.isOpen = true := by rw [isOpen, before, Option.isSome_some]
    have first : (openings acts).head? = some b := h.opened.symm.trans before
    have still : (openings (acts ++ [.openWith a])).head? = some b := by simp [first]
    simp only [step, openWith_of_isOpen isOpen]
    constructor
    case opened => exact before.trans still.symm
    case waiting => simp
    case kept => simp [h.kept, admitted_of_opened first, admitted_of_opened still]
    case answers => simp [h.answers, List.mapIdx_concat, h.openings_ne_nil before]

theorem wait (h : Follows acts p) (key : κ) :
    Follows (acts ++ [.wait key]) (p.step (.wait key)) := by
  have same : openings (acts ++ [.wait key]) = openings acts := by simp
  cases before : p.gate.opened with
  | none =>
    have unopened := h.openings_eq_nil before
    simp only [step, wait_of_closed before]
    constructor
    case opened => rw [same, h.opened]
    case waiting => simp [h.waiting unopened]
    case kept =>
      rw [h.kept, admitted_of_unopened unopened, admitted_of_unopened (same.trans unopened)]
    case answers => rw [same, h.answers]
  | some b =>
    have first : (openings acts).head? = some b := h.opened.symm.trans before
    simp only [step, wait_of_opened before]
    constructor
    case opened => rw [same, first, ← before]
    case waiting => exact fun unopened => absurd (same ▸ unopened) (h.openings_ne_nil before)
    case kept =>
      calc p.gone ++ (p.gate.passed ++ [(key, b)])
          = (arrivals acts).map (·, b) ++ [(key, b)] := by
            rw [← List.append_assoc, h.kept, admitted_of_opened first]
        _ = (arrivals (acts ++ [.wait key])).map (·, b) := by simp
        _ = admitted (acts ++ [.wait key]) := (admitted_of_opened (same ▸ first)).symm
    case answers => rw [same, h.answers]

theorem turn (h : Follows acts p) : Follows (acts ++ [.turn]) (p.step .turn) := by
  have same : openings (acts ++ [.turn]) = openings acts := by simp
  have came : arrivals (acts ++ [.turn]) = arrivals acts := by simp
  constructor
  case opened => rw [same]; exact h.opened
  case waiting => rw [same, came]; exact h.waiting
  case kept =>
    calc p.gone ++ p.gate.passed.take 1 ++ p.gate.passed.drop 1
        = p.gone ++ p.gate.passed := by rw [List.append_assoc, List.take_append_drop]
      _ = admitted (acts ++ [.turn]) := by rw [h.kept, admitted, admitted, same, came]
  case answers => rw [same]; exact h.answers

end Follows

theorem follows_run (acts : List (Act κ α)) : Follows acts (run {} acts) := by
  induction acts using List.reverseRecOn with
  | nil => exact ⟨rfl, fun _ => rfl, rfl, rfl⟩
  | append_singleton acts act ih =>
    rw [run, List.foldl_concat]
    cases act with
    | openWith a => exact ih.openWith a
    | wait key => exact ih.wait key
    | turn => exact ih.turn

theorem gone_prefix_step (p : Passage κ α) (act : Act κ α) (n : Nat) :
    p.gone ++ p.gate.passed.take (n + if act.isTurn then 1 else 0) <+:
      (p.step act).gone ++ (p.step act).gate.passed.take n := by
  cases act with
  | openWith a =>
    exact (List.prefix_append_right_inj _).mpr ((p.gate.passed_prefix_openWith a).take n)
  | wait key =>
    exact (List.prefix_append_right_inj _).mpr ((p.gate.passed_prefix_wait key).take n)
  | turn =>
    have front : p.gate.passed.take (n + 1) =
        p.gate.passed.take 1 ++ (p.gate.passed.drop 1).take n := by
      rw [Nat.add_comm, List.take_add]
    rw [Act.isTurn, if_pos rfl, front, ← List.append_assoc]
    exact List.prefix_rfl

theorem gone_prefix_run (p : Passage κ α) (later : List (Act κ α)) :
    p.gone ++ p.gate.passed.take (turns later) <+: (p.run later).gone := by
  induction later generalizing p with
  | nil => simp [turns, run]
  | cons act later ih =>
    rw [run_cons, turns_cons]
    exact (p.gone_prefix_step act (turns later)).trans (ih (p.step act))

namespace Follows

variable {acts : List (Act κ α)} {p : Passage κ α}

theorem isOpen_iff (h : Follows acts p) : p.gate.isOpen = true ↔ openings acts ≠ [] := by
  rw [isOpen, h.opened, List.isSome_head?]

theorem gone_prefix_admitted (h : Follows acts p) : p.gone <+: admitted acts :=
  ⟨p.gate.passed, h.kept⟩

theorem admitted_prefix_gone (h : Follows acts p) {later : List (Act κ α)}
    (enough : (arrivals acts).length ≤ p.gone.length + turns later) :
    admitted acts <+: (p.run later).gone := by
  have total : p.gone.length + p.gate.passed.length ≤ (arrivals acts).length := by
    rw [← List.length_append, h.kept]
    exact length_admitted_le acts
  have all : p.gate.passed.take (turns later) = p.gate.passed :=
    List.take_of_length_le (by omega)
  have front := p.gone_prefix_run later
  rwa [all, h.kept] at front

end Follows

end Passage

open Passage

/-- Only the first opening is told that it opened the gate, and from then on the gate is open.
Before that nobody goes on. After it those who go on are the first who came, in the order in which
they came and with the value of that opening, and nobody stays behind. -/
theorem first_opening_decides (acts later : List (Act κ α)) :
    (run {} acts).answers = (openings acts).mapIdx (fun i _ => decide (i = 0)) ∧
    ((run {} acts).gate.isOpen = true ↔ openings acts ≠ []) ∧
    (openings acts = [] → (run {} acts).gone = []) ∧
    ∀ a, (openings acts).head? = some a →
      (run {} acts).gone <+: (arrivals acts).map (·, a) ∧
      (run {} acts).gone <+: (run {} (acts ++ later)).gone ∧
      ((arrivals acts).length ≤ (run {} acts).gone.length + turns later →
        (arrivals acts).map (·, a) <+: (run {} (acts ++ later)).gone) := by
  have follows := follows_run acts
  refine ⟨follows.answers, follows.isOpen_iff, fun unopened => ?_, fun a first => ?_⟩
  · have nobody := follows.gone_prefix_admitted
    rwa [admitted_of_unopened unopened, List.prefix_nil] at nobody
  · rw [← admitted_of_opened first, run_append]
    refine ⟨follows.gone_prefix_admitted, ?_, follows.admitted_prefix_gone⟩
    exact (List.prefix_append _ _).trans (gone_prefix_run (run {} acts) later)

theorem first_opening_decides_of_late_arrival :
    let acts : List (Act Nat Nat) :=
      [.wait 0, .turn, .wait 1, .openWith 7, .turn, .openWith 8, .wait 2]
    let later : List (Act Nat Nat) := [.turn, .wait 3, .turn]
    (openings acts).head? = some 7 ∧
    (arrivals acts).length ≤ (Passage.run {} acts).gone.length + turns later ∧
    (Passage.run {} acts).answers = [true, false] ∧
    (Passage.run {} acts).gone = [(0, 7)] ∧
    [(0, 7), (1, 7), (2, 7)] <+: (Passage.run {} (acts ++ later)).gone := by
  intro acts later
  have decided := first_opening_decides acts later
  have first : (openings acts).head? = some 7 := by decide
  have enough : (arrivals acts).length ≤ (Passage.run {} acts).gone.length + turns later := by
    decide
  exact ⟨first, enough, decided.1, by decide, (decided.2.2.2 7 first).2.2 enough⟩

end WorkloadIdentity.Watch.Gate
