import WorkloadIdentity.Proofs.Clock.Punctual
import WorkloadIdentity.Proofs.Session.Agreement
import WorkloadIdentity.Proofs.Session.Steady

/-! The course of a session, with any client, cut as fine as it can be. Between two moves of a
session what waits for its turn can have it one by one, and each creation can go on alone; the clock
can move, and the client can deliver, at any of these moments. -/

namespace WorkloadIdentity.Clock

structure Act.Moves (a : Act Nat Nat Float) : Prop where
  within : a.Within (·.isNaN = false) (·.isFinite = true)
  begins : a.key? = none
  silent : ∀ i, a.raises i = false

end WorkloadIdentity.Clock

namespace WorkloadIdentity.Watch

open Clock

/-- What can happen to a session at any moment, also in the middle of a turn. -/
inductive Occurrence where
  | move (move : Move)
  | serve
  | proceed (i : Nat)
  | closeTransport

namespace Occurrence

def act? : Occurrence → Option (Act Nat Nat Float)
  | .move (.advance ms) | .move (.elapse ms) => some (.advance ms)
  | .move (.setTime ms) => some (.set ms)
  | _ => none

def InTime (o : Occurrence) : Prop :=
  ∀ a ∈ o.act?, a.Within (·.isNaN = false) (·.isFinite = true)

def isIdle : Occurrence → Bool
  | .serve | .proceed _ | .move .turn => true
  | o => o.act?.isSome

theorem moves_of_act? {o : Occurrence} {a : Act Nat Nat Float} (inTime : o.InTime)
    (moved : o.act? = some a) : a.Moves := by
  have within := inTime a moved
  unfold act? at moved
  split at moved
  all_goals cases moved
  all_goals exact ⟨within, rfl, fun _ => rfl⟩

end Occurrence

namespace Session

def serve (s : Session) : Session :=
  match s.pending with
  | [] => s
  | (i, e) :: rest => ({ s with pending := rest }.react i e).1

def undergo (s : Session) : Occurrence → Session
  | .move move => s.play move
  | .serve => s.serve
  | .proceed i => (s.react i .proceed).1
  | .closeTransport => s.closeTransport

def course (s : Session) (occurrences : List Occurrence) : Session := occurrences.foldl undergo s

def fresh (wall : Int) (handDriven : Bool) (time : Float) (transport : Transport) : Session :=
  { wall := wall, handDriven := handDriven, timers := { time := time }, transport := transport }

section
variable {s : Session} {o : Occurrence} {i j : Nat} {e : Event}

theorem undergo_of_act? {a : Act Nat Nat Float} (moved : o.act? = some a) :
    s.undergo o = s ∨ s.undergo o = s.withTimers (s.timers.play a) := by
  cases o with
  | move move =>
    cases move with
    | advance ms =>
      cases moved
      simp only [undergo, Session.play, advance]
      split
      · exact .inr rfl
      · exact .inl rfl
    | setTime ms =>
      cases moved
      simp only [undergo, Session.play, setTime]
      split
      · exact .inr rfl
      · exact .inl rfl
    | elapse ms =>
      cases moved
      simp only [undergo, Session.play, elapse]
      split
      · exact .inl rfl
      · exact .inr rfl
    | _ => cases moved
  | _ => cases moved

theorem sources_react (s : Session) (i : Nat) (e : Event) :
    (s.react i e).1.sources = told s.moment e [i] s.sources := by
  cases there : s.sources[i]? with
  | none => simp only [react, there, told_of_none there]
  | some x => simp only [react, there, executeAll_keeps, told_of_some there]

theorem getElem?_react : (s.react i e).1.sources[j]? =
    s.sources[j]?.map fun x => if j = i then (x.step s.moment e).source else x := by
  simp only [sources_react, getElem?_told, List.mem_singleton]

end

/-- Kept whatever happens, as long as the clock keeps to numbers. -/
structure Lasting (P : Session → Prop) : Prop where
  react {s : Session} (i : Nat) (e : Event) : P s → P (s.react i e).1
  joins {s : Session} {deps : Deps} {options : Options} {setup : Setup}
    {built : Option Endpoint.Address} (planned : Plan.make deps options = .start setup built) :
    P s → P { s with sources := s.sources ++ [setup.source] }
  moves {s : Session} {a : Act Nat Nat Float} (moves : a.Moves) :
    P s → P (s.withTimers (s.timers.play a))
  beside {s t : Session} : P s → t.timers = s.timers → t.sources = s.sources → P t

section
variable {P : Session → Prop} {s : Session} {o : Occurrence}

theorem Lasting.steady (lasting : Lasting P) : Steady P where
  react := lasting.react
  transport _ h := lasting.beside h rfl rfl

theorem Lasting.undergo (lasting : Lasting P) (inTime : o.InTime) (h : P s) : P (s.undergo o) := by
  cases moved : o.act? with
  | some a =>
    rcases undergo_of_act? (s := s) moved with same | moves
    · rwa [same]
    · rw [moves]
      exact lasting.moves (Occurrence.moves_of_act? inTime moved) h
  | none =>
    cases o with
    | serve =>
      simp only [Session.undergo, serve]
      split
      · exact h
      · exact lasting.react _ _ (lasting.beside h rfl rfl)
    | proceed i => exact lasting.react i .proceed h
    | closeTransport => exact lasting.beside h rfl rfl
    | move move =>
      cases move with
      | create deps options =>
        cases plan : Plan.make deps options with
        | refuse o =>
          simp only [Session.undergo, Session.play, create, plan]
          exact lasting.beside h rfl rfl
        | start setup built =>
          simp only [Session.undergo, Session.play, create, plan]
          exact lasting.steady.subscribe _ (lasting.beside (lasting.joins plan h) rfl rfl)
      | push context => exact lasting.steady.deliver _ h
      | fail e => exact lasting.steady.deliver _ h
      | close i => exact lasting.react i .close h
      | turn => exact lasting.steady.turn (fun h => lasting.beside h rfl rfl) h
      | advance | setTime | elapse => cases moved

theorem Lasting.course (lasting : Lasting P) {occurrences : List Occurrence}
    (inTime : ∀ o ∈ occurrences, o.InTime) (h : P s) : P (s.course occurrences) := by
  induction occurrences generalizing s with
  | nil => exact h
  | cons o rest ih =>
    exact ih (fun o later => inTime o (List.mem_cons_of_mem _ later))
      (lasting.undergo (inTime o List.mem_cons_self) h)

theorem Lasting.undergo_of_sources (lasting : Lasting P)
    (sources : ∀ {s t : Session}, P s → t.sources = s.sources → P t) (o : Occurrence) (h : P s) :
    P (s.undergo o) := by
  cases moved : o.act? with
  | some a =>
    rcases undergo_of_act? (s := s) moved with same | moves
    · rwa [same]
    · rw [moves]
      exact sources h rfl
  | none => exact lasting.undergo (fun a moves => by simp [moved] at moves) h

end

/-- This source is what it was, after some history. -/
def Lives (i : Nat) (x : Source) (s : Session) : Prop := ∃ h, s.sources[i]? = some (x.run h)

section
variable {s : Session} {i : Nat} {x : Source}

theorem lasting_lives (i : Nat) (x : Source) : Lasting (Lives i x) where
  react {s} j e := by
    rintro ⟨h, there⟩
    by_cases own : i = j
    · subst own
      exact ⟨h ++ [(s.moment, e)], by simp [getElem?_react, there, Source.after]⟩
    · exact ⟨h, by simp [getElem?_react, there, own]⟩
  joins := by
    rintro s deps options setup built - ⟨h, there⟩
    exact ⟨h, by rw [List.getElem?_append_left (List.getElem?_eq_some_iff.mp there).1, there]⟩
  moves := by
    rintro s a - ⟨h, there⟩
    exact ⟨h, there⟩
  beside := by
    rintro s t ⟨h, there⟩ - sources
    exact ⟨h, sources ▸ there⟩

theorem lives_course (lives : Lives i x s) (occurrences : List Occurrence) :
    Lives i x (s.course occurrences) := by
  induction occurrences generalizing s with
  | nil => exact lives
  | cons o rest ih =>
    refine ih ((lasting_lives i x).undergo_of_sources ?_ o lives)
    rintro s t ⟨h, there⟩ sources
    exact ⟨h, sources ▸ there⟩

theorem lives_subscribe (lives : Lives i x s) (j : Nat) : Lives i x (s.subscribe j) :=
  (lasting_lives i x).steady.subscribe j lives

end

end Session

end WorkloadIdentity.Watch
