import WorkloadIdentity.Proofs.Session.Course
import WorkloadIdentity.Proofs.Source.Timer

/-! The timers of the sources of a session, with any client. Each source has a sleep and a signal of
its own on the clock. Once a creation has ended, the signal is raised and the sleep is gone; from
then on the clock has no hold on the source. As long as the signal is not raised the sleep can only
end with its time, and after that the end of the sleep comes too late to decide anything. -/

namespace WorkloadIdentity.Watch

open Clock

theorem isFinite_of_initTimeout? {v : Value} {ms : Float}
    (limited : initTimeout? v = .ok (some ms)) : ms.isFinite = true := by
  cases eq_number_of_initTimeout? limited
  rw [initTimeout?] at limited
  split at limited
  · cases limited
  · rename_i fits
    simp only [Bool.or_eq_true, not_or, Bool.not_eq_true] at fits
    exact Number.isFinite_of_not fits.1.1.1 fits.1.1.2

/-- The timers of a session: each sleep listens to the signal of its own source, and whoever has
been woken has been told. -/
structure KeepsTime (timers : Manual Nat Nat Float) : Prop where
  orderly : timers.Orderly (·.isNaN = false)
  own : ∀ sleep ∈ timers.pending, sleep.signal = some sleep.key
  told : timers.woken = []

namespace KeepsTime

variable {timers : Manual Nat Nat Float} {a : Act Nat Nat Float} {i : Nat}

theorem sleep (keeps : KeepsTime timers) (i : Nat) {ms : Float} (finite : ms.isFinite = true) :
    KeepsTime { timers.sleep i ms (some i) with woken := [] } := by
  have orderly := keeps.orderly.sleep comparable_float i finite (some i)
  refine ⟨{ orderly with }, ?_, rfl⟩
  intro sleep there
  change sleep ∈ (timers.sleep i ms (some i)).pending at there
  rw [Manual.sleep] at there
  split at there
  · exact keeps.own sleep there
  · rcases List.mem_append.mp there with before | last
    · exact keeps.own sleep before
    · cases List.mem_singleton.mp last
      rfl

theorem play (keeps : KeepsTime timers) (within : a.Within (·.isNaN = false) (·.isFinite = true))
    (begins : a.key? = none) : KeepsTime { timers.play a with woken := [] } := by
  have orderly := keeps.orderly.play comparable_float within
  refine ⟨{ orderly with }, ?_, rfl⟩
  intro sleep there
  change sleep ∈ (timers.play a).pending at there
  rw [Manual.play_eq comparable_float keeps.orderly within begins] at there
  exact keeps.own sleep (List.mem_of_mem_filter there)

theorem mem_woken (keeps : KeepsTime timers)
    (within : a.Within (·.isNaN = false) (·.isFinite = true)) (begins : a.key? = none)
    (wakes : i ∈ (timers.play a).woken) :
    ∃ sleep ∈ timers.pending, sleep.key = i ∧ a.ends (a.time timers.time) sleep.begun = true := by
  rw [Manual.play_eq comparable_float keeps.orderly within begins] at wakes
  simp only [keeps.told, List.nil_append] at wakes
  obtain ⟨sleep, ended, rfl⟩ := List.mem_map.mp wakes
  obtain ⟨there, ends⟩ := List.mem_filter.mp ended
  exact ⟨sleep, there, rfl, ends⟩

theorem mem_raised_iff (timers : Manual Nat Nat Float) (silent : a.raises i = false) :
    i ∈ (timers.play a).raised ↔ i ∈ timers.raised := by
  rw [← List.contains_iff_mem, Manual.contains_raised_play, silent, Bool.or_false,
    List.contains_iff_mem]

theorem ne_of_raised (keeps : KeepsTime timers) (raised : i ∈ timers.raised) :
    ∀ sleep ∈ timers.pending, sleep.key ≠ i := by
  rintro sleep there rfl
  exact keeps.orderly.quiet sleep there _ raised (keeps.own sleep there)

end KeepsTime

namespace Session

section
variable {s t u : Session} {i j : Nat}

/-- What the commands of a source lead to: only its own signal can be raised, and what has to wait
for its turn is for the source. -/
structure Carries (i : Nat) (commands : List Command) (s t : Session) : Prop where
  keeps : KeepsTime t.timers
  raised : ∀ j, j ∈ t.timers.raised ↔ j ∈ s.timers.raised ∨ j = i ∧ .stopTimer ∈ commands
  pending : ∀ o ∈ t.pending, o ∈ s.pending ∨ o.1 = i

theorem carries_await (keeps : KeepsTime s.timers) (transport : Transport) (i : Nat) (e : Event)
    {command : Command} (other : command ≠ .stopTimer) :
    Carries i [command] s ({ s with transport := transport }.await i e) := by
  refine ⟨keeps, by simp [await, other.symm], fun o waits => ?_⟩
  exact (List.mem_append.mp waits).imp id fun last => by rw [List.mem_singleton.mp last]

theorem carries_execute (keeps : KeepsTime s.timers) (i : Nat) {command : Command}
    (finite : ∀ ms, command = .startTimer ms → ms.isFinite = true) :
    Carries i [command] s (s.execute i command) := by
  have woken_of {timers : Manual Nat Nat Float} (own : ∀ j ∈ timers.woken, j = i) :
      ∀ o ∈ (s.withTimers timers).pending, o ∈ s.pending ∨ o.1 = i := by
    intro o waits
    refine (List.mem_append.mp waits).imp id fun woken => ?_
    obtain ⟨j, there, rfl⟩ := List.mem_map.mp woken
    exact own j there
  cases command with
  | unsubscribe subscription =>
    cases subscription with
    | none => exact carries_await keeps s.transport i _ (by rintro ⟨⟩)
    | some n =>
      simp only [execute]
      split <;> exact carries_await keeps _ i _ (by rintro ⟨⟩)
  | closeClient =>
    simp only [execute]
    split <;> exact carries_await keeps _ i _ (by rintro ⟨⟩)
  | startTimer ms =>
    refine ⟨keeps.sleep i (finite ms rfl), fun j => ?_, woken_of fun j woken => ?_⟩
    · have unraised := Manual.contains_raised_play s.timers (.sleep i ms (some i)) j
      simp only [execute, withTimers]
      simpa [Manual.play, Act.raises] using unraised
    · rw [Manual.sleep] at woken
      split at woken
      · simpa [keeps.told] using woken
      · simp [keeps.told] at woken
  | stopTimer =>
    have within : (Act.raise i : Act Nat Nat Float).Within (·.isNaN = false) (·.isFinite = true) :=
      trivial
    refine ⟨keeps.play within rfl, fun j => ?_, woken_of fun j woken => ?_⟩
    · have raised := Manual.contains_raised_play s.timers (.raise i) j
      simp only [execute, withTimers]
      rw [← List.contains_iff_mem, ← List.contains_iff_mem]
      exact (Bool.eq_iff_iff.mp raised).trans (by simp [Act.raises, eq_comm (a := i)])
    · obtain ⟨sleep, there, rfl, ends⟩ := keeps.mem_woken within rfl woken
      have heard : sleep.signal = some i := of_decide_eq_true ends
      rw [keeps.own sleep there] at heard
      exact Option.some.inj heard

theorem carries_commands (keeps : KeepsTime s.timers) (i : Nat) {commands : List Command}
    (finite : ∀ ms, .startTimer ms ∈ commands → ms.isFinite = true) :
    Carries i commands s (commands.foldl (execute i) s) := by
  induction commands generalizing s with
  | nil => exact ⟨keeps, by simp, fun o waits => .inl waits⟩
  | cons first rest ih =>
    have begun := carries_execute keeps i fun ms starts => finite ms (starts ▸ List.mem_cons_self)
    have rest := ih begun.keeps fun ms starts => finite ms (List.mem_cons_of_mem first starts)
    refine ⟨rest.keeps, fun j => ?_, fun o waits => ?_⟩
    · rw [List.foldl_cons, rest.raised, begun.raised, List.mem_singleton, List.mem_cons, or_assoc,
        ← and_or_left]
    · exact (rest.pending o waits).elim (begun.pending o) .inr

structure Timed (s : Session) : Prop where
  keeps : KeepsTime s.timers
  known : ∀ i ∈ s.timers.raised, i < s.sources.length
  timely : ∀ (i : Nat) (x : Source), s.sources[i]? = some x → x.Timely (i ∈ s.timers.raised)

theorem Timed.beside (timed : Timed s) (timers : t.timers = s.timers)
    (sources : t.sources = s.sources) : Timed t :=
  ⟨timers ▸ timed.keeps, by simpa only [timers, sources] using timed.known,
    by simpa only [timers, sources] using timed.timely⟩

theorem Timed.carries (timed : Timed s) {x : Source} (there : s.sources[i]? = some x) (e : Event) :
    Carries i (x.step s.moment e).commands s (s.react i e).1 := by
  have timely := timed.timely i x there
  have change := Source.change_step timely.consistent s.moment e
  have carries := carries_commands
    (s := { s with sources := s.sources.set i (x.step s.moment e).source }) timed.keeps i
    fun ms starts => timely.finite ms (Source.limit_of_starts starts change)
  simp only [Session.react, there]
  exact ⟨carries.keeps, carries.raised, carries.pending⟩

theorem Timed.react (timed : Timed s) (i : Nat) (e : Event) : Timed (s.react i e).1 := by
  cases there : s.sources[i]? with
  | none => simpa only [Session.react, there] using timed
  | some x =>
    have carries := timed.carries there e
    refine ⟨carries.keeps, fun j raised => ?_, fun j y found => ?_⟩
    · rw [sources_react, length_told]
      rcases (carries.raised j).mp raised with before | ⟨rfl, -⟩
      · exact timed.known j before
      · exact (List.getElem?_eq_some_iff.mp there).1
    · rw [getElem?_react] at found
      obtain ⟨z, held, rfl⟩ := Option.map_eq_some_iff.mp found
      by_cases same : j = i
      · subst same
        cases there.symm.trans held
        have next := (timed.timely j x there).step s.moment e
        simpa only [carries.raised, if_true, true_and] using next
      · have kept := timed.timely j z held
        rw [if_neg same]
        simpa only [carries.raised, same, false_and, or_false] using kept

theorem Timed.joins (timed : Timed s) {setup : Setup}
    (finite : ∀ ms, setup.initTimeout = some ms → ms.isFinite = true) :
    Timed { s with sources := s.sources ++ [setup.source] } := by
  refine ⟨timed.keeps, fun i raised => ?_, fun i x found => ?_⟩
  · rw [List.length_append]
    exact Nat.lt_add_right 1 (timed.known i raised)
  · rcases getElem?_concat found with ⟨rfl, rfl⟩ | ⟨-, there⟩
    · have unraised : s.sources.length ∉ s.timers.raised := fun raised =>
        Nat.lt_irrefl _ (timed.known _ raised)
      simpa only [unraised] using Source.timely_source finite
    · exact timed.timely i x there

theorem Timed.withTimers (timed : Timed s) {a : Act Nat Nat Float} (moves : a.Moves) :
    Timed (s.withTimers (s.timers.play a)) := by
  have raised (j : Nat) := KeepsTime.mem_raised_iff s.timers (moves.silent j)
  refine ⟨timed.keeps.play moves.within moves.begins,
    fun j there => timed.known j ((raised j).mp there), fun j x there => ?_⟩
  have timely := timed.timely j x there
  rwa [← raised] at timely

theorem lasting_timed : Lasting Timed where
  react i e timed := timed.react i e
  joins planned timed := timed.joins fun _ limited =>
    isFinite_of_initTimeout? (limited ▸ (Plan.of_make_eq_start planned).2.1)
  moves moves timed := timed.withTimers moves
  beside timed timers sources := timed.beside timers sources

theorem timed_fresh (wall : Int) (handDriven : Bool) {time : Float} (number : time.isNaN = false)
    (transport : Transport) : Timed (fresh wall handDriven time transport) where
  keeps := {
    orderly := {
      listening := rfl
      distinct := List.nodup_nil
      old := nofun
      quiet := nofun
      time := number
      ahead := nofun }
    own := nofun
    told := rfl }
  known := nofun
  timely := by
    intro i x there
    simp [fresh] at there

/-- The wait of this source has ended so, and the signal of its timer is raised. -/
structure Overtaken (s : Session) (i : Nat) (o : Outcome) : Prop where
  timed : Timed s
  raised : i ∈ s.timers.raised
  outcome : ∃ x, s.sources[i]? = some x ∧ x.gate.opened = some o

theorem lasting_overtaken (i : Nat) (o : Outcome) : Lasting fun s => Overtaken s i o where
  react {s} j e := by
    rintro ⟨timed, raised, x, there, opened⟩
    refine ⟨timed.react j e, ?_, ?_⟩
    · cases found : s.sources[j]? with
      | none => simpa only [Session.react, found] using raised
      | some y => exact ((timed.carries found e).raised i).mpr (.inl raised)
    · rw [getElem?_react, there]
      refine ⟨_, rfl, ?_⟩
      split
      · have change := Source.change_step (timed.timely i x there).consistent s.moment e
        exact Source.opened_change_of_some opened change
      · exact opened
  joins planned := by
    rintro ⟨timed, raised, x, there, opened⟩
    refine ⟨lasting_timed.joins planned timed, raised, x, ?_, opened⟩
    exact (List.getElem?_append_left (List.getElem?_eq_some_iff.mp there).1).trans there
  moves moves := by
    rintro ⟨timed, raised, outcome⟩
    exact ⟨timed.withTimers moves, (KeepsTime.mem_raised_iff _ (moves.silent i)).mpr raised,
      outcome⟩
  beside := by
    rintro s t ⟨timed, raised, outcome⟩ timers sources
    exact ⟨timed.beside timers sources, timers ▸ raised, sources ▸ outcome⟩

end

section
variable {s t : Session} {i : Nat} {x : Source} {o : Occurrence}

/-- The creation of this source has ended, and nothing waits for the source. -/
structure Rests (s : Session) (i : Nat) (x : Source) : Prop where
  timed : Timed s
  there : s.sources[i]? = some x
  done : ∃ r, x.opening = .done r
  raised : i ∈ s.timers.raised
  unwanted : ∀ o ∈ s.pending, o.1 ≠ i

theorem Rests.react (rests : Rests s i x) {j : Nat} (other : j ≠ i) (e : Event) :
    Rests (s.react j e).1 i x := by
  cases found : s.sources[j]? with
  | none => simpa only [Session.react, found] using rests
  | some y =>
    have carries := rests.timed.carries found e
    refine ⟨rests.timed.react j e, ?_, rests.done, (carries.raised i).mpr (.inl rests.raised),
      fun o waits => ?_⟩
    · rw [getElem?_react, rests.there, Option.map_some, if_neg (Ne.symm other)]
    · rcases carries.pending o waits with before | own
      · exact rests.unwanted o before
      · rwa [own]

theorem Rests.proceed (rests : Rests s i x) (j : Nat) : Rests (s.react j .proceed).1 i x := by
  by_cases other : j = i
  · subst other
    obtain ⟨r, done⟩ := rests.done
    have still : x.step s.moment .proceed = { source := x } := by
      simp [Source.step, Source.onProceed, done]
    have same : s.sources.set j x = s.sources := by
      obtain ⟨within, rfl⟩ := List.getElem?_eq_some_iff.mp rests.there
      exact List.set_getElem_self within
    simpa only [Session.react, rests.there, still, List.foldl_nil, same] using rests
  · exact rests.react other .proceed

theorem ne_of_woken (timed : Timed s) (raised : i ∈ s.timers.raised) {a : Act Nat Nat Float}
    (moves : a.Moves) : ∀ j ∈ (s.timers.play a).woken, j ≠ i := by
  intro j wakes
  obtain ⟨sleep, there, rfl, -⟩ := timed.keeps.mem_woken moves.within moves.begins wakes
  exact timed.keeps.ne_of_raised raised sleep there

theorem Rests.withTimers (rests : Rests s i x) {a : Act Nat Nat Float} (moves : a.Moves) :
    Rests (s.withTimers (s.timers.play a)) i x where
  timed := rests.timed.withTimers moves
  there := rests.there
  done := rests.done
  raised := (KeepsTime.mem_raised_iff _ (moves.silent i)).mpr rests.raised
  unwanted := by
    intro o waits
    rcases List.mem_append.mp waits with before | woken
    · exact rests.unwanted o before
    · obtain ⟨j, wakes, rfl⟩ := List.mem_map.mp woken
      exact ne_of_woken rests.timed rests.raised moves j wakes

theorem Rests.foldl {α : Type} {f : Session → α → Session} (all : List α)
    (keeps : ∀ a ∈ all, ∀ t, Rests t i x → Rests (f t a) i x) (rests : Rests s i x) :
    Rests (all.foldl f s) i x := by
  induction all generalizing s with
  | nil => exact rests
  | cons a rest ih =>
    exact ih (fun b later => keeps b (List.mem_cons_of_mem a later))
      (keeps a List.mem_cons_self s rests)

theorem Rests.undergo (rests : Rests s i x) (idle : o.isIdle = true) (inTime : o.InTime) :
    Rests (s.undergo o) i x := by
  have served (rest : List (Nat × Event)) (fewer : ∀ o ∈ rest, o.1 ≠ i) :
      Rests { s with pending := rest } i x :=
    ⟨rests.timed.beside rfl rfl, rests.there, rests.done, rests.raised, fewer⟩
  cases moved : o.act? with
  | some a =>
    rcases undergo_of_act? (s := s) moved with same | moves
    · rwa [same]
    · rw [moves]
      exact rests.withTimers (Occurrence.moves_of_act? inTime moved)
  | none =>
    cases o with
    | serve =>
      simp only [Session.undergo, serve]
      split
      · exact rests
      · rename_i j e rest waits
        have unwanted := rests.unwanted
        rw [waits] at unwanted
        exact (served rest fun o later => unwanted o (List.mem_cons_of_mem _ later)).react
          (unwanted (j, e) List.mem_cons_self) e
    | proceed j => exact rests.proceed j
    | closeTransport => cases idle
    | move move =>
      cases move with
      | turn =>
        have turned := (served [] (by simp)).foldl (f := fun t o => (t.react o.1 o.2).1)
          s.pending fun o waits t now => now.react (rests.unwanted o waits) o.2
        exact turned.foldl _ fun j _ t now => now.proceed j
      | advance | setTime | elapse => cases moved
      | _ => cases idle

theorem Rests.course (rests : Rests s i x) {later : List Occurrence}
    (idle : ∀ o ∈ later, o.isIdle = true ∧ o.InTime) : (s.course later).sources[i]? = some x := by
  have all := rests.foldl (f := Session.undergo) later fun o member t now =>
    now.undergo (idle o member).1 (idle o member).2
  exact all.there

end

/-- The timer of this source has left nothing behind. Its signal is raised and its sleep is gone;
the clock does nothing to the source and has nothing to tell it, and when nobody else has either,
the source stays as it is while the clock moves and turns pass. -/
structure LeavesNothing (s : Session) (i : Nat) (x : Source) : Prop where
  raised : i ∈ s.timers.raised
  gone : ∀ sleep ∈ s.timers.pending, sleep.key ≠ i
  deaf : ∀ m, x.step m .timerEnded = { source := x }
  untold : ∀ o : Occurrence, o.act?.isSome = true → o.InTime →
    (s.undergo o).sources = s.sources ∧
      (s.undergo o).pending.filter (·.1 = i) = s.pending.filter (·.1 = i)
  still : (∀ o ∈ s.pending, o.1 ≠ i) → ∀ later : List Occurrence,
    (∀ o ∈ later, o.isIdle = true ∧ o.InTime) → (s.course later).sources[i]? = some x

/-- Once the signal is raised the outcome is there and stays. The end of the sleep, which is then
the work of the signal, changes nothing but that the timer has ended. -/
structure ComesLate (s : Session) (i : Nat) (x : Source) (o : Outcome) : Prop where
  opened : x.gate.opened = some o
  idle : ∀ m, x.step m .timerEnded =
    { source := { x with timer := x.timerAfter [(m, .timerEnded)] } }
  final : ∀ later : List Occurrence, (∀ o ∈ later, o.InTime) →
    i ∈ (s.course later).timers.raised ∧
      ∃ y, (s.course later).sources[i]? = some y ∧ y.gate.opened = some o

section
variable {s : Session} {i : Nat} {x : Source} {ms : Float}

theorem Timed.comesLate (timed : Timed s) (there : s.sources[i]? = some x)
    (raised : i ∈ s.timers.raised) : ∃ o, ComesLate s i x o := by
  have timely := timed.timely i x there
  have isOpen := timely.opened raised
  obtain ⟨o, opened⟩ := Option.isSome_iff_exists.mp isOpen
  refine ⟨o, opened, Source.step_timerEnded timely.consistent isOpen, fun later inTime => ?_⟩
  have kept := (lasting_overtaken i o).course inTime ⟨timed, raised, x, there, opened⟩
  exact ⟨kept.raised, kept.outcome⟩

theorem Timed.leavesNothing (timed : Timed s) (there : s.sources[i]? = some x)
    (limited : x.setup.initTimeout = some ms) {r : Opened} (done : x.opening = .done r) :
    LeavesNothing s i x := by
  have timely := timed.timely i x there
  have isLimited : x.setup.initTimeout.isSome = true := Option.isSome_of_eq_some limited
  have raised : i ∈ s.timers.raised := timely.stopped isLimited (by simp [done, Opening.rank])
  have spent : x.timer = .spent := timely.spent isLimited (by simp [done, Opening.rank])
  refine ⟨raised, timed.keeps.ne_of_raised raised, fun m => ?_, fun o moves inTime => ?_, ?_⟩
  · rw [Source.step_timerEnded timely.consistent (timely.opened raised),
      Source.timerAfter_of_not_runs (by simp [spent])]
  · obtain ⟨a, moved⟩ := Option.isSome_iff_exists.mp moves
    rcases undergo_of_act? (s := s) moved with same | moves
    · rw [same]
      exact ⟨rfl, rfl⟩
    · have others : ((s.timers.play a).woken.map (·, Event.timerEnded)).filter (·.1 = i) = [] := by
        rw [List.filter_eq_nil_iff]
        intro o woken
        obtain ⟨j, wakes, rfl⟩ := List.mem_map.mp woken
        simpa using ne_of_woken timed raised (Occurrence.moves_of_act? inTime moved) j wakes
      rw [moves]
      refine ⟨rfl, ?_⟩
      rw [Session.withTimers, List.filter_append, others, List.append_nil]
  · intro unwanted later idle
    exact Rests.course ⟨timed, there, ⟨r, done⟩, raised, unwanted⟩ idle

end

/-- Whatever comes before a creation or in the middle of it: once it has ended, its timer has left
nothing behind, and once its signal is raised, the end of its sleep comes too late. -/
theorem timer_leaves_nothing (wall : Int) (handDriven : Bool) (time : Float)
    (number : time.isNaN = false) (transport : Transport) (past : List Occurrence)
    (inTime : ∀ o ∈ past, o.InTime) :
    let s := (fresh wall handDriven time transport).course past
    ∀ i x ms, s.sources[i]? = some x → x.setup.initTimeout = some ms →
      (i ∈ s.timers.raised → ∃ o, ComesLate s i x o) ∧
      ∀ r, x.opening = .done r → LeavesNothing s i x := by
  intro s i x ms there limited
  have timed : Timed s := lasting_timed.course inTime (timed_fresh wall handDriven number transport)
  exact ⟨timed.comesLate there, fun r done => timed.leavesNothing there limited done⟩

theorem timer_leaves_nothing_of_update :
    let past : List Occurrence :=
      [.move (.create { hasClient := true } { initTimeout := .number 50 }), .move (.push .single),
        .move (.advance 10), .proceed 0, .move (.setTime 90), .serve, .proceed 0]
    let s := (fresh 0 true 0 (.memory {})).course past
    ∃ x, s.sources[0]? = some x ∧ x.setup.initTimeout = some 50 ∧ x.opening = .done .ok ∧
      x.lifecycle = .ready ∧ LeavesNothing s 0 x ∧ ComesLate s 0 x .ready := by
  intro past s
  have inTime : ∀ o ∈ past, o.InTime := by
    simp only [past, List.forall_mem_cons]
    exact ⟨nofun, nofun, by rintro _ ⟨⟩; decide +kernel, nofun, by rintro _ ⟨⟩; decide +kernel,
      nofun, nofun, nofun⟩
  have both :=
    timer_leaves_nothing 0 true 0 (by decide +kernel) (.memory {}) past inTime 0 _ 50 rfl rfl
  obtain ⟨o, late⟩ := both.1 (both.2 .ok rfl).raised
  cases late.opened
  exact ⟨_, rfl, rfl, rfl, rfl, both.2 .ok rfl, late⟩

end Session

end WorkloadIdentity.Watch
