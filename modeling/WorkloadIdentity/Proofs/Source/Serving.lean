import WorkloadIdentity.Proofs.Source.Invariant

/-! What a source serves. A view is all that a reader can know of a source, and it can be
computed without gate, timer, log or teardown: a fold over what the source hears, in
which an update counts as a whole or, when nothing can be picked from it, as an error.
A source with a quiet sink shows this view after every history. -/

namespace WorkloadIdentity.Watch

/-- The SVID and the bundles of a snapshot both come from this update. -/
def Snapshot.IsFrom (c : Snapshot) (m : Moment) (context : Context) : Prop :=
  c.picked ∈ context.candidates ∧ c.bundles = context.bundles ∧ c.updatedAt = m.reading

structure View where
  lifecycle : Lifecycle := .init
  served : Option Snapshot := none
  applied : Nat := 0
  asked : List (List Candidate) := []

namespace View

def picks? (selector : Selector) (v : View) (candidates : List Candidate) : Option Candidate :=
  match selector v.asked candidates with
  | .ok (some picked) => if picked ∈ candidates then some picked else none
  | _ => none

def serve (m : Moment) (context : Context) (picked : Candidate) (v : View) : View :=
  { v with
    lifecycle := .ready
    served := some ⟨picked, context.bundles, v.applied + 1, m.reading⟩
    applied := v.applied + 1 }

def fail (policy : FailurePolicy) (v : View) : View :=
  match v.lifecycle, policy with
  | .init, _ => { v with lifecycle := .failed }
  | .ready, .close => { v with lifecycle := .closed, served := none }
  | _, _ => v

def take (setup : Setup) (m : Moment) (context : Context) (v : View) : View :=
  match v.picks? setup.selector context.candidates with
  | some picked => { v with asked := context.candidates :: v.asked }.serve m context picked
  | none => { v with asked := context.candidates :: v.asked }.fail setup.policy

def next (setup : Setup) (v : View) : Moment × Event → View
  | (m, .update context) =>
    match v.lifecycle with
    | .init | .ready => v.take setup m context
    | .failed | .closed => v
  | (_, .error _) => v.fail setup.policy
  | (_, .watchThrew _) | (_, .timerEnded) =>
    match v.lifecycle with
    | .init => { v with lifecycle := .failed }
    | _ => v
  | (_, .close) =>
    match v.lifecycle with
    | .ready => { v with lifecycle := .closed, served := none }
    | _ => v
  | _ => v

def fold (setup : Setup) (h : History) : View := h.foldl (next setup) {}

theorem next_of_over {setup : Setup} {v : View} {o : Moment × Event}
    (ended : v.lifecycle = .closed ∨ v.lifecycle = .failed) : v.next setup o = v := by
  obtain ⟨m, e⟩ := o
  rcases ended with ended | ended <;> cases e <;> simp [next, fail, ended]

theorem next_update {setup : Setup} {v : View} {m : Moment} {context : Context}
    (lives : v.lifecycle = .init ∨ v.lifecycle = .ready) :
    v.next setup (m, .update context) = v.take setup m context := by
  rcases lives with hl | hl <;> simp [next, hl]

theorem mem_of_picks? {selector : Selector} {v : View} {candidates : List Candidate}
    {picked : Candidate} (picks : v.picks? selector candidates = some picked) :
    picked ∈ candidates := by
  unfold picks? at picks
  split at picks
  · split at picks
    · rename_i member
      cases picks
      exact member
    · cases picks
  · cases picks

theorem served_fail {policy : FailurePolicy} {v : View} {c : Snapshot}
    (served : (v.fail policy).served = some c) : v.served = some c := by
  unfold fail at served
  split at served
  · exact served
  · cases served
  · exact served

theorem served_take {setup : Setup} {m : Moment} {context : Context} {v : View} {c : Snapshot}
    (served : (v.take setup m context).served = some c) :
    v.served = some c ∨ c.IsFrom m context := by
  unfold take at served
  split at served
  · rename_i picked picks
    cases served
    exact .inr ⟨mem_of_picks? picks, rfl, rfl⟩
  · exact .inl (served_fail (v := { v with asked := context.candidates :: v.asked }) served)

theorem served_next {setup : Setup} {v : View} {o : Moment × Event} {c : Snapshot}
    (served : (v.next setup o).served = some c) :
    v.served = some c ∨ ∃ context, o.2 = .update context ∧ c.IsFrom o.1 context := by
  obtain ⟨m, e⟩ := o
  cases e with
  | update context =>
    have live (taken : (v.take setup m context).served = some c) :
        v.served = some c ∨ ∃ brought, Event.update context = .update brought ∧
          c.IsFrom m brought :=
      (served_take taken).imp_right fun made => ⟨context, rfl, made⟩
    cases hl : v.lifecycle with
    | init => exact live (by simpa only [next, hl] using served)
    | ready => exact live (by simpa only [next, hl] using served)
    | failed => exact .inl (by simpa only [next, hl] using served)
    | closed => exact .inl (by simpa only [next, hl] using served)
  | error x => exact .inl (served_fail served)
  | close =>
    cases hl : v.lifecycle <;> simp only [next, hl] at served
    · exact .inl served
    · cases served
    · exact .inl served
    · exact .inl served
  | _ => cases hl : v.lifecycle <;> exact .inl (by simpa only [next, hl] using served)

theorem served_foldl {setup : Setup} {v : View} {h : History} {c : Snapshot}
    (served : (h.foldl (next setup) v).served = some c) :
    v.served = some c ∨ ∃ m context, (m, Event.update context) ∈ h ∧ c.IsFrom m context := by
  induction h generalizing v with
  | nil => exact .inl served
  | cons o rest ih =>
    rcases ih served with before | ⟨m, context, later, made⟩
    · rcases served_next before with kept | ⟨context, brought, made⟩
      · exact .inl kept
      · exact .inr ⟨o.1, context, by simp [← brought], made⟩
    · exact .inr ⟨m, context, List.mem_cons_of_mem o later, made⟩

end View

namespace Source

theorem accept_eq_ok_iff {now : Int} {candidates : List Candidate}
    {answer : Except Value (Option Candidate)} {picked : Candidate} :
    accept now candidates answer = .ok picked ↔
      answer = .ok (some picked) ∧ picked ∈ candidates := by
  rcases answer with v | _ | other
  · simp [accept]
  · simp [accept]
  · by_cases listed : isCandidate candidates other = true
    · have member : other ∈ candidates := isCandidate_iff_mem.mp listed
      simp only [accept, listed, if_true, Except.ok.injEq, Option.some.injEq]
      constructor
      · rintro rfl
        exact ⟨rfl, member⟩
      · exact fun both => both.1
    · have stranger : other ∉ candidates := fun member => listed (isCandidate_iff_mem.mpr member)
      simp only [accept, listed]
      constructor
      · intro taken
        cases taken
      · rintro ⟨same, member⟩
        cases same
        exact absurd member stranger

/-- A source shows a view when a reader sees the one in the other. The number of updates is
needed only while there can be more. -/
structure Shows (s : Source) (v : View) : Prop where
  lifecycle : s.lifecycle = v.lifecycle
  current : s.current = v.served
  asked : s.asked = v.asked
  version : s.lifecycle = .init ∨ s.lifecycle = .ready → s.version = v.applied

section
variable {s : Source} {v : View} {m : Moment}

theorem picks?_of_accept {now : Int} {candidates : List Candidate} {picked : Candidate}
    (asked : s.asked = v.asked)
    (accepted : accept now candidates (s.setup.selector s.asked candidates) = .ok picked) :
    v.picks? s.setup.selector candidates = some picked := by
  obtain ⟨answered, member⟩ := accept_eq_ok_iff.mp accepted
  rw [asked] at answered
  simp [View.picks?, answered, member]

theorem picks?_of_refused {now : Int} {candidates : List Candidate} {f : Fault}
    (asked : s.asked = v.asked)
    (refused : accept now candidates (s.setup.selector s.asked candidates) = .error f) :
    v.picks? s.setup.selector candidates = none := by
  unfold View.picks?
  rw [← asked]
  split
  · rename_i picked answered
    split
    · rename_i member
      rw [accept_eq_ok_iff.mpr ⟨answered, member⟩] at refused
      cases refused
    · rfl
  · rfl

theorem next_of_failure {e : Event} {x : Value} {asked : List (List Candidate)}
    (shows : Shows s v) (lives : s.lifecycle = .init ∨ s.lifecycle = .ready)
    (failure : Failure s m e x asked) :
    v.next s.setup (m, e) = { v with asked := asked }.fail s.setup.policy := by
  cases failure with
  | error => rw [shows.asked]; rfl
  | selection context f refused =>
    rw [View.next_update (by rwa [← shows.lifecycle]), View.take,
      picks?_of_refused shows.asked refused, shows.asked]

theorem next_of_applies {context : Context} {picked : Candidate} (shows : Shows s v)
    (lives : s.lifecycle = .init ∨ s.lifecycle = .ready)
    (accepted : accept m.wall context.candidates
      (s.setup.selector s.asked context.candidates) = .ok picked) :
    v.next s.setup (m, .update context) =
      { v with asked := context.candidates :: v.asked }.serve m context picked := by
  rw [View.next_update (by rwa [← shows.lifecycle]), View.take,
    picks?_of_accept shows.asked accepted]

theorem shows_settle {e : Event} {o : Outcome} (h : Consistent s) (shows : Shows s v)
    (failed : o.lifecycle = .failed)
    (gives : v.next s.setup (m, e)
      = match v.lifecycle with
        | .init => { v with lifecycle := .failed }
        | _ => v) :
    Shows (s.settle o) (v.next s.setup (m, e)) := by
  rw [gives]
  by_cases ended : s.gate.isOpen = true
  · rw [settle_of_isOpen ended]
    have started : v.lifecycle ≠ .init := by
      rw [← shows.lifecycle]
      intro starts
      simp [Gate.isOpen, opened_of_init h.lifecycle starts] at ended
    split
    · rename_i starts
      exact absurd starts started
    · exact shows
  · have unopened : s.gate.opened = none := by simpa [Gate.isOpen] using ended
    have starts : s.lifecycle = .init := by rw [h.lifecycle, phase, unopened]
    rw [settle_eq, ← shows.lifecycle, starts]
    simp only [ended, failed]
    exact ⟨rfl, shows.current, shows.asked, by simp⟩

theorem shows_change {e : Event} {commands : List Command} {t : Source}
    (quiet : s.setup.Quiet) (h : Consistent s) (expected : s.expects e = true)
    (shows : Shows s v) (change : Change s m e commands t) :
    Shows t (v.next s.setup (m, e)) := by
  cases change with
  | ignores _ nothing =>
    rcases nothing with unexpected | late
    · rw [expected] at unexpected
      cases unexpected
    · cases e with
      | update context => rwa [View.next_of_over (by rwa [← shows.lifecycle])]
      | error x => rwa [View.next_of_over (by rwa [← shows.lifecycle])]
      | close => rwa [View.next_of_over (.inl (shows.lifecycle ▸ late))]
      | proceed => exact shows
      | _ => cases late
  | tolerates _ x asked log serves failure kept =>
    have policy : s.setup.policy = .keepLast := by
      rcases kept with policy | ⟨y, throws⟩
      · exact policy
      · exact absurd throws (quiet.not_throws y)
    have ready : v.lifecycle = .ready := shows.lifecycle ▸ serves
    rw [next_of_failure shows (.inr serves) failure]
    simp only [View.fail, ready, policy]
    exact ⟨shows.lifecycle.trans ready, shows.current, rfl, shows.version⟩
  | applies context picked log lives accepted =>
    have counted := shows.version lives
    rw [next_of_applies shows lives accepted, View.serve]
    exact ⟨rfl, by rw [counted], by rw [shows.asked], fun _ => congrArg (· + 1) counted⟩
  | fails _ x asked starts failure =>
    have init : v.lifecycle = .init := shows.lifecycle ▸ starts
    rw [next_of_failure shows (.inl starts) failure]
    simp only [View.fail, init]
    exact ⟨rfl, shows.current, rfl, by simp⟩
  | closes _ asked byFailure log serves cause =>
    have ready : v.lifecycle = .ready := shows.lifecycle ▸ serves
    have gives : v.next s.setup (m, e)
        = { v with lifecycle := .closed, served := none, asked := asked } := by
      rcases cause with ⟨rfl, rfl, -⟩ | ⟨policy, x, failure⟩
      · simp [View.next, ready, shows.asked]
      · rw [next_of_failure shows (.inr serves) failure]
        simp [View.fail, ready, policy]
    rw [gives]
    exact ⟨rfl, rfl, rfl, by simp⟩
  | subscribes => exact ⟨shows.lifecycle, shows.current, shows.asked, shows.version⟩
  | misses x calls =>
    have settled : Shows (s.settle (.error (s.setup.startFault m.wall x)))
        (v.next s.setup (m, .watchThrew x)) := shows_settle h shows rfl rfl
    exact ⟨settled.lifecycle, settled.current, settled.asked, settled.version⟩
  | expires ms runs limit =>
    have settled : Shows (s.settle (.timeout ms)) (v.next s.setup (m, .timerEnded)) :=
      shows_settle h shows rfl rfl
    exact ⟨settled.lifecycle, settled.current, settled.asked, settled.version⟩
  | stopsTimer => exact ⟨shows.lifecycle, shows.current, shows.asked, shows.version⟩
  | handsOut => exact ⟨shows.lifecycle, shows.current, shows.asked, shows.version⟩
  | givesUp => exact ⟨shows.lifecycle, shows.current, shows.asked, shows.version⟩
  | closesClient => exact ⟨shows.lifecycle, shows.current, shows.asked, shows.version⟩
  | reports _ d o r log ends =>
    cases ends <;> exact ⟨shows.lifecycle, shows.current, shows.asked, shows.version⟩
  | settles _ d r earlier later ends =>
    cases ends <;> exact ⟨shows.lifecycle, shows.current, shows.asked, shows.version⟩

end

theorem shows_run {s : Source} {v : View} (quiet : s.setup.Quiet) (h : Consistent s)
    (shows : Shows s v) (history : History) :
    Shows (s.run history) ((s.heard history).foldl (View.next s.setup) v) := by
  induction history generalizing s v with
  | nil => exact shows
  | cons o rest ih =>
    have consistent : Consistent (s.after o) := consistent_after h o
    have same : (s.after o).setup = s.setup := setup_change (change_step h o.1 o.2)
    by_cases expected : s.expects o.2 = true
    · have shown : Shows (s.after o) (v.next s.setup o) :=
        shows_change quiet h expected shows (change_step h o.1 o.2)
      simpa [heard, expected, same] using ih (same ▸ quiet) consistent shown
    · have unmoved : s.after o = s := after_of_not_expects (by simpa using expected)
      simpa [heard, expected, unmoved] using ih quiet h shows

theorem snapshot_eq_current {s : Source} (h : Consistent s) : s.snapshot = s.current := by
  unfold snapshot isClosed
  by_cases closed : s.lifecycle = .closed
  · have absent : s.current = none := by
      have serves := h.current
      cases hc : s.current <;> simp_all
    simp [closed, absent]
  · simp [closed]

theorem step_update_of_refused {s : Source} {m : Moment} {context : Context} {f : Fault}
    (lives : s.lifecycle = .init ∨ s.lifecycle = .ready)
    (refused : accept m.wall context.candidates
      (s.setup.selector s.asked context.candidates) = .error f) :
    s.step m (.update context) =
      ({ s with asked := context.candidates :: s.asked } : Source).step m (.error (.fault f)) := by
  simp only [step, onUpdate_of_live lives, take, select, refused]

theorem refused_of_picks? {s : Source} {v : View} {candidates : List Candidate}
    (asked : s.asked = v.asked) (now : Int)
    (picks : v.picks? s.setup.selector candidates = none) :
    ∃ f, accept now candidates (s.setup.selector s.asked candidates) = .error f := by
  cases taken : accept now candidates (s.setup.selector s.asked candidates) with
  | error f => exact ⟨f, rfl⟩
  | ok picked =>
    rw [picks?_of_accept asked taken] at picks
    cases picks

/-- A source is the fold of what it hears, and it hears all that reaches it. -/
theorem run_shows_fold (setup : Setup) (quiet : setup.Quiet) (h : History) :
    let s := setup.source.run h
    let v := View.fold setup (setup.source.heard h)
    (∀ before o later, h = before ++ o :: later → (setup.source.run before).Reaches o.2 →
      ∃ rest, setup.source.heard h = setup.source.heard before ++ o :: rest) ∧
    s.lifecycle = v.lifecycle ∧ s.snapshot = v.served ∧ s.asked = v.asked ∧
    (∀ c, s.snapshot = some c →
      ∃ m context, (m, Event.update context) ∈ h ∧ c.IsFrom m context) ∧
    (∀ m context, s.lifecycle = .init ∨ s.lifecycle = .ready →
      v.picks? setup.selector context.candidates = none →
      ∃ f, accept m.wall context.candidates (setup.selector s.asked context.candidates) = .error f ∧
        s.step m (.update context) =
          ({ s with asked := context.candidates :: s.asked } : Source).step m
            (.error (.fault f))) := by
  intro s v
  have consistent : Consistent s := consistent_run setup h
  have same : s.setup = setup := setup_run setup h
  have shows : Shows s v :=
    shows_run quiet (consistent_source setup) ⟨rfl, rfl, rfl, fun _ => rfl⟩ h
  have served : s.snapshot = v.served := (snapshot_eq_current consistent).trans shows.current
  refine ⟨?_, shows.lifecycle, served, shows.asked, ?_, ?_⟩
  · rintro before o later rfl reaches
    exact heard_of_reaches reaches
  · intro c taken
    rw [served] at taken
    rcases View.served_foldl taken with never | ⟨m, context, later, made⟩
    · cases never
    · exact ⟨m, context, mem_of_mem_heard later, made⟩
  · intro m context lives picks
    rw [← same] at picks
    obtain ⟨f, refused⟩ := refused_of_picks? shows.asked m.wall picks
    exact ⟨f, by rwa [same] at refused, step_update_of_refused lives refused⟩

theorem run_shows_fold_of_empty_update :
    let setup : Setup := { policy := .close }
    let h : History := [(⟨0, 0⟩, .subscribed 4), (⟨1, 1⟩, .update .single),
      (⟨2, 2⟩, .update ⟨[], .empty⟩)]
    setup.Quiet ∧ (setup.source.run h).lifecycle = .closed ∧
      (setup.source.run h).snapshot = none ∧
      (setup.source.run h).asked = [[], Context.single.candidates] := by
  intro setup h
  have quiet : setup.Quiet := fun _ _ => rfl
  obtain ⟨-, lifecycle, served, asked, -, -⟩ := run_shows_fold setup quiet h
  exact ⟨quiet, lifecycle.trans rfl, served.trans rfl, asked.trans rfl⟩

end Source

end WorkloadIdentity.Watch
