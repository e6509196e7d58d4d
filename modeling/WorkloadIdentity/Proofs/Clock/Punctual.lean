import WorkloadIdentity.Proofs.Clock.Sleeps

/-! Every sleep ends once, at its time, on a clock whose times form a line: whole numbers, and
floating-point times as long as they are numbers and are moved by finite lengths. The clock numbers
its sleeps; the pending ones have different numbers, and those that have a signal are listening to
it. -/

namespace WorkloadIdentity.Clock

/-- Times that are in line with one another and stay so when a length is added. -/
structure Comparable {τ : Type} [Add τ] [LE τ] [LT τ] (Times Lengths : τ → Prop) : Prop where
  lt_iff {t u : τ} : Times t → Times u → (t < u ↔ ¬u ≤ t)
  add {t l : τ} : Times t → Lengths l → Times (t + l)

theorem comparable_int : Comparable (fun _ : Int => True) fun _ => True where
  lt_iff _ _ := Int.not_le.symm
  add _ _ := trivial

theorem comparable_float :
    Comparable (fun t : Float => t.isNaN = false) fun l => l.isFinite = true where
  lt_iff := Number.lt_iff_not_le
  add := Number.isNaN_add

section
variable {κ σ τ : Type}

def Act.Within (Times Lengths : τ → Prop) : Act κ σ τ → Prop
  | .sleep _ length _ => Lengths length
  | .advance length => Lengths length
  | .set time => Times time
  | .raise _ => True

instance {Times Lengths : τ → Prop} [DecidablePred Times] [DecidablePred Lengths]
    (a : Act κ σ τ) : Decidable (a.Within Times Lengths) :=
  match a with
  | .sleep _ length _ => inferInstanceAs (Decidable (Lengths length))
  | .advance length => inferInstanceAs (Decidable (Lengths length))
  | .set time => inferInstanceAs (Decidable (Times time))
  | .raise _ => inferInstanceAs (Decidable True)

namespace Manual

/-- What is true of a clock at every moment. -/
structure Orderly (Times : τ → Prop) (c : Manual κ σ τ) : Prop where
  listening : c.listening = c.pending.filter (·.signal.isSome)
  distinct : (c.pending.map Sleep.serial).Nodup
  old : ∀ s ∈ c.pending, s.serial < c.slept
  quiet : ∀ s ∈ c.pending, ∀ signal ∈ c.raised, s.signal ≠ some signal
  time : Times c.time
  ahead : ∀ s ∈ c.pending, Times s.wakeAt

theorem without_filter {all : List (Sleep κ σ τ)} (distinct : (all.map Sleep.serial).Nodup)
    (ended kept : Sleep κ σ τ → Bool) :
    without (all.filter ended) (all.filter kept) =
      (all.filter kept).filter fun s => !ended s := by
  refine List.filter_congr fun s within => congrArg Bool.not ?_
  have inside := List.mem_of_mem_filter within
  rw [Bool.eq_iff_iff, List.any_eq_true]
  constructor
  · rintro ⟨e, found, same⟩
    obtain ⟨there, woken⟩ := List.mem_filter.mp found
    rwa [← List.inj_on_of_nodup_map distinct there inside (of_decide_eq_true same)]
  · exact fun woken => ⟨s, List.mem_filter.mpr ⟨inside, woken⟩, decide_eq_true rfl⟩

variable {Times Lengths : τ → Prop} {c : Manual κ σ τ} {a : Act κ σ τ}

theorem raise_eq [DecidableEq σ] (orderly : c.Orderly Times) (signal : σ) :
    c.raise signal = { c with
      pending := c.pending.filter fun s => !decide (s.signal = some signal)
      listening := c.listening.filter fun s => !decide (s.signal = some signal)
      raised := if c.raised.contains signal then c.raised else c.raised ++ [signal]
      woken := c.woken ++
        (c.pending.filter fun s => s.signal = some signal).map Sleep.key } := by
  rw [raise]
  split
  · rename_i before
    have other (s : Sleep κ σ τ) (there : s ∈ c.pending) : ¬s.signal = some signal :=
      orderly.quiet s there signal (List.contains_iff_mem.mp before)
    have none_wakes : c.pending.filter (fun s => s.signal = some signal) = [] :=
      List.filter_eq_nil_iff.mpr fun s there => by simp [other s there]
    have all_stay : c.pending.filter (fun s => !decide (s.signal = some signal)) = c.pending :=
      List.filter_eq_self.mpr fun s there => by simp [other s there]
    have all_listen : c.listening.filter (fun s => !decide (s.signal = some signal)) =
        c.listening := by
      refine List.filter_eq_self.mpr fun s there => ?_
      rw [orderly.listening] at there
      simp [other s (List.mem_of_mem_filter there)]
    rw [none_wakes, all_stay, all_listen, List.map_nil, List.append_nil]
  · have heard : c.listening.filter (fun s => s.signal = some signal) =
        c.pending.filter fun s => s.signal = some signal := by
      rw [orderly.listening, List.filter_filter]
      refine List.filter_congr fun s _ => ?_
      cases s.signal <;> simp
    have stay := without_filter orderly.distinct (fun s => s.signal = some signal) fun _ => true
    rw [List.filter_true] at stay
    simp only [heard, stay, ne_eq, decide_not]

variable [Add τ] [LE τ] [DecidableLE τ] [LT τ]

theorem set_eq [DecidableLT τ] (line : Comparable Times Lengths) (orderly : c.Orderly Times)
    {time : τ} (real : Times time) :
    c.set time = { c with
      time := time
      pending := c.pending.filter fun s => !decide (s.wakeAt ≤ time)
      listening := c.listening.filter fun s => !decide (s.wakeAt ≤ time)
      woken := c.woken ++ (c.pending.filter fun s => s.wakeAt ≤ time).map Sleep.key } := by
  have ahead : c.pending.filter (fun s => time < s.wakeAt) =
      c.pending.filter fun s => !decide (s.wakeAt ≤ time) := by
    refine List.filter_congr fun s there => ?_
    rw [← decide_not]
    exact decide_eq_decide.mpr (line.lt_iff real (orderly.ahead s there))
  have deaf := without_filter orderly.distinct (fun s => s.wakeAt ≤ time) (·.signal.isSome)
  rw [← orderly.listening] at deaf
  rw [set, ahead, deaf]

variable [DecidableEq σ] [OfNat τ 0]

theorem Orderly.sleep (line : Comparable Times Lengths) (orderly : c.Orderly Times) (key : κ)
    {length : τ} (finite : Lengths length) (signal : Option σ) :
    (c.sleep key length signal).Orderly Times := by
  rw [Manual.sleep]
  split
  · exact { orderly with }
  · rename_i lasts
    rw [endsAtOnce, Bool.or_eq_true, not_or] at lasts
    have unheard : ∀ own ∈ c.raised, signal ≠ some own := by
      rintro own raised rfl
      exact lasts.2 (List.contains_iff_mem.mpr raised)
    exact {
      listening := by
        rw [List.filter_append, ← orderly.listening]
        cases signal <;> simp
      distinct := by
        rw [List.map_append, List.nodup_append]
        refine ⟨orderly.distinct, List.nodup_singleton _, ?_⟩
        rintro serial before last here rfl
        obtain ⟨s, there, rfl⟩ := List.mem_map.mp before
        exact Nat.lt_irrefl _ (List.mem_singleton.mp here ▸ orderly.old s there)
      old := by
        intro s there
        rcases List.mem_append.mp there with before | last
        · exact Nat.lt_succ_of_lt (orderly.old s before)
        · cases List.mem_singleton.mp last
          exact Nat.lt_succ_self _
      quiet := by
        intro s there
        rcases List.mem_append.mp there with before | last
        · exact orderly.quiet s before
        · cases List.mem_singleton.mp last
          exact unheard
      time := orderly.time
      ahead := by
        intro s there
        rcases List.mem_append.mp there with before | last
        · exact orderly.ahead s before
        · cases List.mem_singleton.mp last
          exact line.add orderly.time finite }

variable [DecidableLT τ]

/-- What an act that begins no sleep does: the sleeps that it ends wake, and the others stay. -/
theorem play_eq (line : Comparable Times Lengths) (orderly : c.Orderly Times)
    (within : a.Within Times Lengths) (begins : a.key? = none) :
    c.play a = { c with
      time := a.time c.time
      pending := c.pending.filter fun s => !a.ends (a.time c.time) s.begun
      listening := c.listening.filter fun s => !a.ends (a.time c.time) s.begun
      raised := (c.play a).raised
      woken := c.woken ++
        (c.pending.filter fun s => a.ends (a.time c.time) s.begun).map Sleep.key } := by
  cases a with
  | sleep => cases begins
  | advance length => exact set_eq line orderly (line.add orderly.time within)
  | set time => exact set_eq line orderly within
  | raise signal =>
    rw [play, raise_eq orderly]
    rfl

theorem contains_raised_play (c : Manual κ σ τ) (a : Act κ σ τ) (signal : σ) :
    (c.play a).raised.contains signal = (c.raised.contains signal || a.raises signal) := by
  cases a with
  | sleep key length own =>
    rw [play, sleep]
    split <;> simp [Act.raises]
  | advance length => simp [play, advance, set, Act.raises]
  | set time => simp [play, set, Act.raises]
  | raise own =>
    rw [play, raise]
    split
    · rename_i before
      by_cases same : own = signal
      · subst same
        simpa [Act.raises] using before
      · simp [Act.raises, same]
    · simp [Act.raises, eq_comm]

theorem Orderly.play (line : Comparable Times Lengths) (orderly : c.Orderly Times)
    (within : a.Within Times Lengths) : (c.play a).Orderly Times := by
  cases begins : a.key? with
  | some key =>
    cases a with
    | sleep key length signal => exact orderly.sleep line key within signal
    | _ => cases begins
  | none =>
    have moved := play_eq line orderly within begins
    have here (s : Sleep κ σ τ) (there : s ∈ (c.play a).pending) :
        s ∈ c.pending ∧ a.ends (a.time c.time) s.begun = false := by
      rw [moved] at there
      simpa using there
    exact {
      listening := by
        rw [moved]
        simp only [orderly.listening, List.filter_filter, Bool.and_comm]
      distinct := by
        rw [moved]
        exact orderly.distinct.sublist (List.filter_sublist.map _)
      old := fun s there => by
        rw [moved]
        exact orderly.old s (here s there).1
      quiet := fun s there signal raised own => by
        rw [← List.contains_iff_mem, contains_raised_play, Bool.or_eq_true] at raised
        obtain ⟨before, stays⟩ := here s there
        rcases raised with raised | raised
        · exact orderly.quiet s before signal (List.contains_iff_mem.mp raised) own
        · cases a with
          | raise given =>
            cases of_decide_eq_true raised
            simp [Act.ends, Sleep.begun, own] at stays
          | _ => cases raised
      time := by
        rw [moved]
        cases a with
        | sleep => cases begins
        | advance length => exact line.add orderly.time within
        | set time => exact within
        | raise signal => exact orderly.time
      ahead := fun s there => orderly.ahead s (here s there).1 }

/-- A clock after some acts, beside what should have happened by then. -/
structure Tracks (Times : τ → Prop) (start : τ) (acts : List (Act κ σ τ)) (c : Manual κ σ τ) :
    Prop where
  orderly : c.Orderly Times
  time : c.time = timeAfter start acts acts.length
  raised : c.raised.contains = isRaisedBefore acts acts.length
  pending : c.pending.map Sleep.begun = held start acts
  woken : c.woken = (List.range acts.length).flatMap (wokenBy start acts)
  kept : (c.woken ++ c.pending.map Sleep.key).Perm (acts.filterMap Act.key?)

variable {start : τ} {acts : List (Act κ σ τ)}

theorem Tracks.play (line : Comparable Times Lengths) (tracks : Tracks Times start acts c)
    (within : a.Within Times Lengths) : Tracks Times start (acts ++ [a]) (c.play a) where
  orderly := tracks.orderly.play line within
  time := by
    rw [List.length_append, List.length_singleton, timeAfter_concat, ← tracks.time]
    cases begins : a.key? with
    | none => rw [play_eq line tracks.orderly within begins]
    | some key =>
      cases a with
      | sleep => exact time_sleep ..
      | _ => cases begins
  raised := by
    funext signal
    rw [contains_raised_play, tracks.raised, isRaisedBefore, isRaisedBefore, List.take_length,
      List.take_length, List.any_append]
    simp
  pending := by
    rw [held_concat, ← tracks.pending, ← tracks.time]
    cases begins : a.key? with
    | none =>
      rw [begun?_last_of_key? begins, play_eq line tracks.orderly within begins, ite_self,
        List.filter_map]
      exact (List.append_nil _).symm
    | some key =>
      cases a with
      | sleep key length signal =>
        rw [endOf?_last, begun?_last, ← tracks.raised, ← tracks.time, Manual.play, sleep,
          endsAtOnce]
        simp only [Act.ends, Bool.not_false, List.filter_true]
        cases decide (length ≤ 0) || signal.any c.raised.contains
        · simp [Sleep.begun]
        · simp
      | _ => cases begins
  woken := by
    rw [flatMap_wokenBy_concat, wokenBy_concat, ← tracks.woken, ← tracks.pending, ← tracks.time]
    cases begins : a.key? with
    | none =>
      rw [play_eq line tracks.orderly within begins, ite_self, List.filter_map, List.map_map]
      exact congrArg _ (List.append_nil _).symm
    | some key =>
      cases a with
      | sleep own length signal =>
        cases begins
        rw [endOf?_last, ← tracks.raised, Manual.play, sleep, endsAtOnce]
        simp only [Act.ends, List.filter_false, List.map_nil, List.nil_append]
        cases decide (length ≤ 0) || signal.any c.raised.contains
        · simp
        · simp
      | _ => cases begins
  kept := by
    rw [List.filterMap_append]
    refine List.Perm.trans ?_ (tracks.kept.append_right _)
    cases begins : a.key? with
    | none =>
      have all := (List.filter_append_perm (fun s : Sleep κ σ τ => a.ends (a.time c.time) s.begun)
        c.pending).map Sleep.key
      rw [play_eq line tracks.orderly within begins, List.append_assoc, ← List.map_append]
      simpa [begins] using all.append_left c.woken
    | some key =>
      cases a with
      | sleep own length signal =>
        rw [Manual.play, sleep]
        split
        · rw [List.append_assoc, List.append_assoc]
          exact List.perm_append_comm.append_left c.woken
        · simp [Act.key?]
      | _ => cases begins

theorem run_concat (start : τ) (acts : List (Act κ σ τ)) (a : Act κ σ τ) :
    run start (acts ++ [a]) = (run start acts).play a :=
  List.foldl_concat ..

theorem tracks_run (line : Comparable Times Lengths) (begins : Times start)
    (within : ∀ a ∈ acts, a.Within Times Lengths) :
    Tracks Times start acts (run start acts) := by
  induction acts using List.reverseRecOn with
  | nil =>
    exact {
      orderly := {
        listening := rfl
        distinct := List.nodup_nil
        old := nofun
        quiet := nofun
        time := begins
        ahead := nofun }
      time := rfl
      raised := rfl
      pending := rfl
      woken := rfl
      kept := .refl [] }
  | append_singleton acts a earlier =>
    rw [run_concat]
    exact (earlier fun b there => within b (List.mem_append_left _ there)).play line
      (within a (List.mem_append_right _ (List.mem_singleton_self a)))

end Manual

theorem punctual [DecidableEq σ] [Add τ] [OfNat τ 0] [LE τ] [DecidableLE τ] [LT τ] [DecidableLT τ]
    {Times Lengths : τ → Prop} (line : Comparable Times Lengths) {start : τ}
    {acts : List (Act κ σ τ)} (begins : Times start)
    (within : ∀ a ∈ acts, a.Within Times Lengths) : Punctual start acts := by
  have split {n : Nat} (h : n ≤ acts.length) :
      ∃ earlier later, acts = earlier ++ later ∧ n = earlier.length :=
    ⟨acts.take n, acts.drop n, (List.take_append_drop n acts).symm,
      (List.length_take_of_le h).symm⟩
  have tracks {earlier later : List (Act κ σ τ)} (parts : acts = earlier ++ later) :
      Manual.Tracks Times start earlier (Manual.run start earlier) :=
    Manual.tracks_run line begins fun a there =>
      within a (parts ▸ List.mem_append_left later there)
  have held_by {earlier later : List (Act κ σ τ)} (parts : acts = earlier ++ later) :
      (Manual.run start earlier).pending.map Sleep.key =
        openAfter start (earlier ++ later) earlier.length := by
    rw [openAfter_append, openAfter_eq, ← (tracks parts).pending, List.map_map]
    rfl
  exact {
    time := fun n h => by
      obtain ⟨earlier, later, parts, rfl⟩ := split h
      rw [parts, List.take_left, (tracks parts).time, timeAfter_append later (Nat.le_refl _)]
    woken := fun n h => by
      obtain ⟨earlier, later, parts, rfl⟩ := split h
      rw [parts, List.take_left, (tracks parts).woken]
      exact List.flatMap_congr fun j there =>
        (wokenBy_append later (List.mem_range.mp there)).symm
    pending := fun n h => by
      obtain ⟨earlier, later, parts, rfl⟩ := split h
      rw [parts, List.take_left, held_by parts]
    count := fun n h => by
      obtain ⟨earlier, later, parts, rfl⟩ := split h
      rw [parts, List.take_left, ← length_openAfter, ← held_by parts, List.length_map]
    kept := fun n h => by
      obtain ⟨earlier, later, parts, rfl⟩ := split h
      rw [parts, List.take_left]
      exact (tracks parts).kept }

/-- For whole numbers nothing is asked. Floating-point times have to be numbers, and a time that has
grown infinite is one of them. -/
theorem sleeps_end_once [DecidableEq σ] :
    (∀ (start : Int) (acts : List (Act κ σ Int)), Punctual start acts) ∧
    ∀ (start : Float) (acts : List (Act κ σ Float)), start.isNaN = false →
      (∀ a ∈ acts, a.Within (·.isNaN = false) (·.isFinite = true)) → Punctual start acts := by
  refine ⟨fun start acts => ?_, fun start acts => punctual comparable_float⟩
  refine punctual comparable_int trivial fun a _ => ?_
  cases a <;> trivial

end

def backAndForth : List (Act String Nat Float) :=
  [.sleep "a" 10 (some 1), .sleep "b" 20 (some 1), .sleep "c" 0 none, .set (-3), .sleep "d" 4 none,
    .advance 6, .raise 1, .sleep "e" 9 (some 1), .advance 100]

theorem sleeps_end_once_of_shared_signal :
    Punctual 0 backAndForth ∧
    (List.range 9).map (wokenBy 0 backAndForth) =
      [[], [], ["c"], [], [], ["d"], ["a", "b"], ["e"], []] ∧
    openAfter 0 backAndForth 6 = ["a", "b"] :=
  ⟨sleeps_end_once.2 0 backAndForth (by decide +kernel) (by decide +kernel),
    by decide +kernel, by decide +kernel⟩

end WorkloadIdentity.Clock
