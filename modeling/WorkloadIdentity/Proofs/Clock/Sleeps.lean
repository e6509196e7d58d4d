import Mathlib.Data.List.Induction
import Mathlib.Data.List.Nodup
import WorkloadIdentity.Clock.Manual
import WorkloadIdentity.Proofs.Number.Order

/-! Sleeps on a clock that is moved by hand. What a run of the clock should do is said without the
clock: which act a sleep ends with is read off the acts alone. After every act the clock has
woken exactly the sleeps that have ended, those of one act in the order in which they began, and
holds the others. Times may go back, and several sleeps may share a signal. -/

namespace WorkloadIdentity.Clock

inductive Act (κ σ τ : Type) where
  | sleep (key : κ) (length : τ) (signal : Option σ)
  | advance (length : τ)
  | set (time : τ)
  | raise (signal : σ)

/-- What a sleep waits for, fixed when it begins. -/
structure Begun (κ σ τ : Type) where
  key : κ
  wakeAt : τ
  signal : Option σ

def Sleep.begun {κ σ τ : Type} (s : Sleep κ σ τ) : Begun κ σ τ := ⟨s.key, s.wakeAt, s.signal⟩

variable {κ σ τ : Type} [DecidableEq σ] [Add τ] [OfNat τ 0] [LE τ] [DecidableLE τ]

namespace Act

def time (t : τ) : Act κ σ τ → τ
  | .advance length => t + length
  | .set time => time
  | _ => t

def key? : Act κ σ τ → Option κ
  | .sleep key _ _ => some key
  | _ => none

def raises (signal : σ) : Act κ σ τ → Bool
  | .raise s => s = signal
  | _ => false

/-- A move that makes the time late enough ends a sleep, and so does its signal. -/
def ends (time : τ) (s : Begun κ σ τ) : Act κ σ τ → Bool
  | .sleep _ _ _ => false
  | .advance _ | .set _ => s.wakeAt ≤ time
  | .raise signal => s.signal = some signal

end Act

section
variable (start : τ) (acts : List (Act κ σ τ))

def timeAfter (n : Nat) : τ := (acts.take n).foldl Act.time start

def isRaisedBefore (n : Nat) (signal : σ) : Bool := (acts.take n).any (Act.raises signal)

def begun? (i : Nat) : Option (Begun κ σ τ) :=
  match acts[i]? with
  | some (.sleep key length signal) => some ⟨key, timeAfter start acts i + length, signal⟩
  | _ => none

/-- A sleep ends at once if it has no length or if its signal is raised by then. -/
def endsAtOnce (i : Nat) : Bool :=
  match acts[i]? with
  | some (.sleep _ length signal) => decide (length ≤ 0) || signal.any (isRaisedBefore acts i)
  | _ => false

/-- The act that a sleep ends with, both by their numbers. A sleep that does not end at once ends
with the first later act that makes the time late enough or raises its signal. -/
def endOf? (i : Nat) : Option Nat :=
  (begun? start acts i).bind fun s =>
    if endsAtOnce acts i then some i
    else (List.range acts.length).find? fun j =>
      i < j && acts[j]?.any (Act.ends (timeAfter start acts (j + 1)) s)

def wokenBy (j : Nat) : List κ :=
  (List.range acts.length).filterMap fun i =>
    if endOf? start acts i = some j then acts[i]?.bind Act.key? else none

def isOpen (n i : Nat) : Bool :=
  (acts[i]?.bind Act.key?).isSome && (endOf? start acts i).all (n ≤ ·)

def openAfter (n : Nat) : List κ :=
  ((List.range n).filter (isOpen start acts n)).filterMap fun i => acts[i]?.bind Act.key?

end

namespace Manual

variable [LT τ] [DecidableLT τ]

def play (c : Manual κ σ τ) : Act κ σ τ → Manual κ σ τ
  | .sleep key length signal => c.sleep key length signal
  | .advance length => c.advance length
  | .set time => c.set time
  | .raise signal => c.raise signal

def run (start : τ) (acts : List (Act κ σ τ)) : Manual κ σ τ :=
  acts.foldl play { time := start }

end Manual

/-- A clock that keeps every sleep to its time. At every moment of a run the sleeps that have ended
have been woken, each with the act it ended with, and the others are pending; together they are
the sleeps that have begun, so none is woken twice and none is lost. -/
structure Punctual [LT τ] [DecidableLT τ] (start : τ) (acts : List (Act κ σ τ)) : Prop where
  time : ∀ n ≤ acts.length, (Manual.run start (acts.take n)).time = timeAfter start acts n
  woken : ∀ n ≤ acts.length, (Manual.run start (acts.take n)).woken =
    (List.range n).flatMap (wokenBy start acts)
  pending : ∀ n ≤ acts.length, (Manual.run start (acts.take n)).pending.map Sleep.key =
    openAfter start acts n
  count : ∀ n ≤ acts.length, (Manual.run start (acts.take n)).pending.length =
    (List.range n).countP (isOpen start acts n)
  kept : ∀ n ≤ acts.length, ((Manual.run start (acts.take n)).woken ++
    (Manual.run start (acts.take n)).pending.map Sleep.key).Perm
      ((acts.take n).filterMap Act.key?)

section
variable {κ σ τ : Type} {start : τ} {acts : List (Act κ σ τ)} {a : Act κ σ τ} {i n : Nat}

theorem isRaisedBefore_append [DecidableEq σ] (later : List (Act κ σ τ)) (h : n ≤ acts.length) :
    isRaisedBefore (acts ++ later) n = isRaisedBefore acts n := by
  funext signal
  rw [isRaisedBefore, List.take_append_of_le_length h, isRaisedBefore]

variable [Add τ]

theorem timeAfter_append (later : List (Act κ σ τ)) (h : n ≤ acts.length) :
    timeAfter start (acts ++ later) n = timeAfter start acts n := by
  rw [timeAfter, List.take_append_of_le_length h, timeAfter]

theorem timeAfter_concat :
    timeAfter start (acts ++ [a]) (acts.length + 1) =
      a.time (timeAfter start acts acts.length) := by
  simp [timeAfter, List.take_of_length_le]

theorem begun?_append (later : List (Act κ σ τ)) (h : i < acts.length) :
    begun? start (acts ++ later) i = begun? start acts i := by
  rw [begun?, List.getElem?_append_left h, timeAfter_append later (Nat.le_of_lt h), begun?]

theorem begun?_last_of_key? (h : a.key? = none) :
    begun? start (acts ++ [a]) acts.length = none := by
  rw [begun?, List.getElem?_concat_length]
  cases a with
  | sleep => cases h
  | _ => rfl

theorem begun?_last (key : κ) (length : τ) (signal : Option σ) :
    begun? start (acts ++ [.sleep key length signal]) acts.length =
      some ⟨key, timeAfter start acts acts.length + length, signal⟩ := by
  rw [begun?, List.getElem?_concat_length, timeAfter_append _ (Nat.le_refl _)]

theorem map_key_begun? (start : τ) (acts : List (Act κ σ τ)) (i : Nat) :
    (begun? start acts i).map Begun.key = acts[i]?.bind Act.key? := by
  rw [begun?]
  rcases acts[i]? with - | (_ | _) <;> rfl

end

section
variable {start : τ} {acts : List (Act κ σ τ)} {a : Act κ σ τ} {i j : Nat}

theorem lt_of_endOf? (h : endOf? start acts i = some j) : i ≤ j ∧ j < acts.length := by
  obtain ⟨s, begun, ended⟩ := Option.bind_eq_some_iff.mp h
  split at ended
  · cases ended
    rw [begun?] at begun
    refine ⟨Nat.le_refl i, Nat.lt_of_not_le fun beyond => ?_⟩
    rw [List.getElem?_eq_none beyond] at begun
    cases begun
  · have found := List.find?_some ended
    rw [Bool.and_eq_true, decide_eq_true_eq] at found
    exact ⟨Nat.le_of_lt found.1, List.mem_range.mp (List.mem_of_find?_eq_some ended)⟩

theorem endOf?_concat (h : i < acts.length) :
    endOf? start (acts ++ [a]) i = (endOf? start acts i).or
      (if (begun? start acts i).any (a.ends (a.time (timeAfter start acts acts.length)))
        then some acts.length else none) := by
  have early (s : Begun κ σ τ) (j : Nat) (within : j ∈ List.range acts.length) :
      ((i < j && (acts ++ [a])[j]?.any (Act.ends (timeAfter start (acts ++ [a]) (j + 1)) s)) =
        (i < j && acts[j]?.any (Act.ends (timeAfter start acts (j + 1)) s))) := by
    have below := List.mem_range.mp within
    rw [List.getElem?_append_left below, timeAfter_append [a] below]
  have raised : isRaisedBefore (acts ++ [a]) i = isRaisedBefore acts i :=
    isRaisedBefore_append [a] (Nat.le_of_lt h)
  rw [endOf?, begun?_append [a] h, endOf?, endsAtOnce, List.getElem?_append_left h, raised,
    ← endsAtOnce]
  cases begun? start acts i with
  | none => rfl
  | some s =>
    simp only [Option.bind_some, Option.any_some]
    split
    · rfl
    · rw [List.length_append, List.length_singleton, List.range_succ, List.find?_append,
        ← List.head?_filter, List.filter_congr (early s), List.head?_filter]
      simp [timeAfter_concat, h]

theorem endOf?_last (key : κ) (length : τ) (signal : Option σ) :
    endOf? start (acts ++ [.sleep key length signal]) acts.length =
      if decide (length ≤ 0) || signal.any (isRaisedBefore acts acts.length)
        then some acts.length else none := by
  rw [endOf?, begun?_last, Option.bind_some, endsAtOnce, List.getElem?_concat_length,
    isRaisedBefore_append _ (Nat.le_refl _)]
  refine ite_congr rfl (fun _ => rfl) fun _ => ?_
  rw [List.find?_eq_none]
  intro j within
  have := List.mem_range.mp within
  rw [List.length_append, List.length_singleton] at this
  simp [show ¬acts.length < j by omega]

theorem endOf?_append (later : List (Act κ σ τ)) (h : i < acts.length) :
    endOf? start acts i = (endOf? start (acts ++ later) i).filter (· < acts.length) := by
  induction later using List.reverseRecOn with
  | nil =>
    rw [List.append_nil]
    cases ended : endOf? start acts i with
    | none => rfl
    | some j => rw [Option.filter_some, if_pos (decide_eq_true (lt_of_endOf? ended).2)]
  | append_singleton later a earlier =>
    have beyond : ¬decide ((acts ++ later).length < acts.length) = true := by simp
    rw [← List.append_assoc, endOf?_concat (by simp; omega), earlier]
    cases endOf? start (acts ++ later) i with
    | some j => rfl
    | none =>
      simp only [Option.none_or]
      split
      · rw [Option.filter_some, if_neg beyond]
        rfl
      · rfl

def held (start : τ) (acts : List (Act κ σ τ)) : List (Begun κ σ τ) :=
  (List.range acts.length).filterMap fun i =>
    if endOf? start acts i = none then begun? start acts i else none

theorem held_concat : held start (acts ++ [a]) =
    ((held start acts).filter fun s => !a.ends (a.time (timeAfter start acts acts.length)) s) ++
      (if endOf? start (acts ++ [a]) acts.length = none
        then begun? start (acts ++ [a]) acts.length else none).toList := by
  rw [held, List.length_append, List.length_singleton, List.range_succ, List.filterMap_append, held,
    List.filter_filterMap]
  congr 1
  refine List.filterMap_congr fun i within => ?_
  have below := List.mem_range.mp within
  rw [endOf?_concat below, begun?_append [a] below]
  cases endOf? start acts i with
  | some j => simp
  | none =>
    cases begun? start acts i with
    | none => simp
    | some s =>
      cases ended : a.ends (a.time (timeAfter start acts acts.length)) s <;>
        simp [Option.filter, ended]

theorem wokenBy_concat : wokenBy start (acts ++ [a]) acts.length =
    ((held start acts).filter (a.ends (a.time (timeAfter start acts acts.length)))).map Begun.key ++
      (if endOf? start (acts ++ [a]) acts.length = some acts.length
        then a.key? else none).toList := by
  rw [wokenBy, List.length_append, List.length_singleton, List.range_succ, List.filterMap_append,
    held, List.filter_filterMap, List.map_filterMap]
  congr 1
  · refine List.filterMap_congr fun i within => ?_
    have below := List.mem_range.mp within
    rw [endOf?_concat below, ← map_key_begun? start, begun?_append [a] below]
    cases ended : endOf? start acts i with
    | some j =>
      have := (lt_of_endOf? ended).2
      simp [show j ≠ acts.length by omega]
    | none =>
      cases begun? start acts i with
      | none => simp
      | some s =>
        cases woken : a.ends (a.time (timeAfter start acts acts.length)) s <;>
          simp [Option.filter, woken]
  · simp only [List.filterMap_cons, List.filterMap_nil, List.getElem?_concat_length,
      Option.bind_some]
    rfl

theorem wokenBy_append (later : List (Act κ σ τ)) (h : j < acts.length) :
    wokenBy start (acts ++ later) j = wokenBy start acts j := by
  rw [wokenBy, List.length_append, List.range_add, List.filterMap_append, wokenBy]
  have none_later : ((List.range later.length).map (acts.length + ·)).filterMap (fun i =>
      if endOf? start (acts ++ later) i = some j
        then (acts ++ later)[i]?.bind Act.key? else none) = [] := by
    rw [List.filterMap_eq_nil_iff]
    intro i within
    obtain ⟨k, -, rfl⟩ := List.mem_map.mp within
    refine if_neg fun ended => ?_
    have := (lt_of_endOf? ended).1
    omega
  rw [none_later, List.append_nil]
  refine List.filterMap_congr fun i within => ?_
  have below := List.mem_range.mp within
  rw [List.getElem?_append_left below, endOf?_append later below]
  congr 1
  cases endOf? start (acts ++ later) i with
  | none => rfl
  | some k =>
    simp only [Option.filter_some, Option.some.injEq, eq_iff_iff]
    split <;> simp_all
    omega

theorem flatMap_wokenBy_concat : (List.range (acts ++ [a]).length).flatMap
      (wokenBy start (acts ++ [a])) =
    (List.range acts.length).flatMap (wokenBy start acts) ++
      wokenBy start (acts ++ [a]) acts.length := by
  rw [List.length_append, List.length_singleton, List.range_succ, List.flatMap_append,
    List.flatMap_singleton]
  congr 1
  exact List.flatMap_congr fun j within => wokenBy_append [a] (List.mem_range.mp within)

theorem openAfter_append (later : List (Act κ σ τ)) :
    openAfter start (acts ++ later) acts.length = openAfter start acts acts.length := by
  rw [openAfter, List.filterMap_filter, openAfter, List.filterMap_filter]
  refine List.filterMap_congr fun i within => ?_
  have below := List.mem_range.mp within
  rw [isOpen, isOpen, List.getElem?_append_left below, endOf?_append later below]
  cases endOf? start (acts ++ later) i with
  | none => rfl
  | some k =>
    rcases Nat.lt_or_ge k acts.length with before | beyond
    · simp [Option.filter, before]
    · simp [Option.filter, beyond, Nat.not_lt.mpr beyond]

theorem length_openAfter (n : Nat) :
    (openAfter start acts n).length = (List.range n).countP (isOpen start acts n) := by
  rw [openAfter, List.countP_eq_length_filter, List.length_filterMap_eq_countP,
    List.countP_eq_length]
  intro i within
  have := (List.mem_filter.mp within).2
  rw [isOpen, Bool.and_eq_true] at this
  exact this.1

theorem openAfter_eq : openAfter start acts acts.length = (held start acts).map Begun.key := by
  rw [openAfter, List.filterMap_filter, held, List.map_filterMap]
  refine List.filterMap_congr fun i within => ?_
  have below := List.mem_range.mp within
  rw [isOpen, ← map_key_begun? start]
  cases ended : endOf? start acts i with
  | none => cases begun? start acts i <;> simp
  | some j =>
    have := (lt_of_endOf? ended).2
    simp [show ¬acts.length ≤ j by omega]

end

end WorkloadIdentity.Clock
