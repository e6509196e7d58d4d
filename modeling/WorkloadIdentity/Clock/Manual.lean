/-! A clock that is moved by hand. A sleep of a positive length is pending until a move
makes the time at least its end, or until its signal is raised, whichever comes
first; other sleeps end at once. A move keeps a sleep only if its end is still ahead,
so a time that compares with nothing drops the sleeps without waking them; raising
their signal still wakes those. -/

namespace WorkloadIdentity.Clock

structure Sleep (κ σ τ : Type) where
  serial : Nat
  key : κ
  wakeAt : τ
  signal : Option σ

structure Manual (κ σ τ : Type) where
  time : τ
  slept : Nat := 0
  pending : List (Sleep κ σ τ) := []
  listening : List (Sleep κ σ τ) := []
  raised : List σ := []
  woken : List κ := []

namespace Manual

variable {κ σ τ : Type}

def without (ended all : List (Sleep κ σ τ)) : List (Sleep κ σ τ) :=
  all.filter fun s => !ended.any fun e => e.serial = s.serial

section Sleeping

variable [DecidableEq σ] [Add τ] [LE τ] [DecidableLE τ] [OfNat τ 0]

def endsAtOnce (c : Manual κ σ τ) (length : τ) (signal : Option σ) : Bool :=
  decide (length ≤ 0) || signal.any c.raised.contains

def sleep (c : Manual κ σ τ) (key : κ) (length : τ) (signal : Option σ) : Manual κ σ τ :=
  if c.endsAtOnce length signal then { c with woken := c.woken ++ [key] }
  else
    let s : Sleep κ σ τ := ⟨c.slept, key, c.time + length, signal⟩
    { c with
      slept := c.slept + 1
      pending := c.pending ++ [s]
      listening := if signal.isSome then c.listening ++ [s] else c.listening }

@[simp] theorem time_sleep (c : Manual κ σ τ) (key : κ) (length : τ) (signal : Option σ) :
    (c.sleep key length signal).time = c.time := by
  unfold sleep
  split <;> rfl

end Sleeping

section Moving

variable [LE τ] [DecidableLE τ] [LT τ] [DecidableLT τ]

/-- Those that are due wake in the order in which they went to sleep. -/
def set (c : Manual κ σ τ) (time : τ) : Manual κ σ τ :=
  let due := c.pending.filter fun s => s.wakeAt ≤ time
  { c with
    time := time
    pending := c.pending.filter fun s => time < s.wakeAt
    listening := without due c.listening
    woken := c.woken ++ due.map Sleep.key }

def advance [Add τ] (c : Manual κ σ τ) (length : τ) : Manual κ σ τ := c.set (c.time + length)

end Moving

section Raising

variable [DecidableEq σ]

def raise (c : Manual κ σ τ) (signal : σ) : Manual κ σ τ :=
  if c.raised.contains signal then c
  else
    let ended := c.listening.filter fun s => s.signal = some signal
    { c with
      raised := c.raised ++ [signal]
      pending := without ended c.pending
      listening := c.listening.filter fun s => s.signal ≠ some signal
      woken := c.woken ++ ended.map Sleep.key }

@[simp] theorem time_raise (c : Manual κ σ τ) (signal : σ) : (c.raise signal).time = c.time := by
  unfold raise
  split <;> rfl

end Raising

end Manual

end WorkloadIdentity.Clock
