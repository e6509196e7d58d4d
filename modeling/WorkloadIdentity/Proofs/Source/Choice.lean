import WorkloadIdentity.Proofs.Source.Chronicle

/-! What the selectors of the library pick. They answer from whatever candidates there are, with
the same one whatever they were asked before, and always with one of the candidates. So a
source that has one of them takes every update that comes in time, and has no failure but
those that its client brings. -/

namespace WorkloadIdentity.Watch

namespace Selector

inductive BuiltIn : Selector → Prop
  | first : BuiltIn first
  | last : BuiltIn last
  | byId (id : Spiffe.Id) : BuiltIn (byId id)
  | byHint (hint : String) : BuiltIn (byHint hint)

def Picks (selector : Selector) (candidates : List Candidate) (picked : Candidate) : Prop :=
  ∀ earlier, selector earlier candidates = .ok (some picked)

/-- The first candidate that fits, or the first of all if none does. -/
inductive FirstOr (fits : Spiffe.Svid → Prop) : List Candidate → Candidate → Prop
  | fitting (before : List Candidate) (picked : Candidate) (after : List Candidate)
      (fit : fits picked.svid) (unfit : ∀ c ∈ before, ¬fits c.svid) :
    FirstOr fits (before ++ picked :: after) picked
  | default (picked : Candidate) (rest : List Candidate)
      (unfit : ∀ c ∈ picked :: rest, ¬fits c.svid) : FirstOr fits (picked :: rest) picked

section
variable {selector : Selector} {candidates : List Candidate}

theorem FirstOr.mem {fits : Spiffe.Svid → Prop} {picked : Candidate}
    (chosen : FirstOr fits candidates picked) : picked ∈ candidates := by
  cases chosen <;> simp

theorem exists_picks_preferring (fits : Spiffe.Svid → Prop) [DecidablePred fits]
    (filled : candidates ≠ []) :
    ∃ picked, (preferring fun s => fits s).Picks candidates picked ∧
      FirstOr fits candidates picked := by
  cases found : candidates.find? fun c => fits c.svid with
  | some picked =>
    refine ⟨picked, fun _ => by simp [preferring, found], ?_⟩
    obtain ⟨fit, before, after, rfl, unfit⟩ := List.find?_eq_some_iff_append.mp found
    exact .fitting before picked after (by simpa using fit) (by simpa using unfit)
  | none =>
    have unfit : ∀ c ∈ candidates, ¬fits c.svid := by simpa using found
    cases candidates with
    | nil => exact absurd rfl filled
    | cons picked rest =>
      exact ⟨picked, fun _ => by simp [preferring, found], .default picked rest unfit⟩

theorem picks_first (filled : candidates ≠ []) : first.Picks candidates (candidates.head filled) :=
  fun _ => by rw [Selector.first, List.head?_eq_some_head filled]

theorem picks_last (filled : candidates ≠ []) : last.Picks candidates (candidates.getLast filled) :=
  fun _ => by rw [Selector.last, List.getLast?_eq_some_getLast filled]

theorem BuiltIn.exists_picks (builtIn : BuiltIn selector) (filled : candidates ≠ []) :
    ∃ picked ∈ candidates, selector.Picks candidates picked := by
  cases builtIn with
  | first => exact ⟨_, List.head_mem filled, picks_first filled⟩
  | last => exact ⟨_, List.getLast_mem filled, picks_last filled⟩
  | byId id =>
    obtain ⟨picked, picks, chosen⟩ := exists_picks_preferring (·.id = id) filled
    exact ⟨picked, chosen.mem, picks⟩
  | byHint hint =>
    obtain ⟨picked, picks, chosen⟩ := exists_picks_preferring (·.hint = some hint) filled
    exact ⟨picked, chosen.mem, picks⟩

end

end Selector

namespace Event

def context? : Event → Option Context
  | .update context => some context
  | _ => none

def Filled (e : Event) : Prop := ∀ context ∈ e.context?, context.candidates ≠ []

theorem filled_update {context : Context} (filled : context.candidates ≠ []) :
    (Event.update context).Filled := by
  rintro _ ⟨⟩
  exact filled

end Event

namespace Source

section
variable {s : Source} {m : Moment}

theorem exists_accept {selector : Selector} (builtIn : selector.BuiltIn)
    {candidates : List Candidate} (filled : candidates ≠ []) (now : Int) :
    ∃ picked, selector.Picks candidates picked ∧ isCandidate candidates picked = true ∧
      ∀ earlier, accept now candidates (selector earlier candidates) = .ok picked := by
  obtain ⟨picked, listed, picks⟩ := builtIn.exists_picks filled
  exact ⟨picked, picks, isCandidate_iff_mem.mpr listed,
    fun earlier => accept_eq_ok_iff.mpr ⟨picks earlier, listed⟩⟩

theorem eq_error_of_brought (builtIn : s.setup.selector.BuiltIn) {e : Event} {v : Value}
    (filled : e.Filled) (brings : s.brought (m, e) = some (.error v)) : e = .error v := by
  cases e with
  | update context =>
    obtain ⟨picked, -, -, accepted⟩ := exists_accept builtIn (filled context rfl) m.wall
    simp [brought, select, accepted] at brings
  | error x =>
    cases brings
    rfl
  | _ => cases brings

end

section
variable {setup : Setup} (builtIn : setup.selector.BuiltIn) {h : History}
  (filled : ∀ o ∈ h, o.2.Filled)

include builtIn filled

theorem error_of_mem_failures {b : Moment × Value × Nat}
    (failed : b ∈ setup.source.collect failures h) : (b.1, .error b.2.1) ∈ h := by
  obtain ⟨before, ⟨m, e⟩, there, comes⟩ := exists_of_mem_collect failed
  obtain ⟨v, borne, rfl⟩ := by simpa [failures] using comes
  have brings := (borne?_eq_some_iff.mp borne).2
  have same : (setup.source.run before).setup = setup := setup_run setup before
  have client := eq_error_of_brought (by rwa [same]) (filled _ there) brings
  exact client ▸ there

theorem of_opened_error {f : Fault}
    (opened : (setup.source.run h).gate.opened = some (.error f)) :
    ∃ m v, (m, .error v) ∈ h ∧ f = setup.watchFault m.wall v ∨
      (m, .watchThrew v) ∈ h ∧ f = setup.startFault m.wall v := by
  rw [opened_run (consistent_source setup)] at opened
  change (setup.source.heard h).findSome? setup.verdict = _ at opened
  obtain ⟨⟨m, e⟩, heard, decided⟩ := List.exists_of_findSome?_eq_some opened
  have there := mem_of_mem_heard heard
  cases e with
  | update context =>
    obtain ⟨picked, -, -, accepted⟩ := exists_accept builtIn (filled _ there context rfl) m.wall
    simp [Setup.verdict, accepted] at decided
  | error v =>
    cases decided
    exact ⟨m, v, .inl ⟨there, rfl⟩⟩
  | watchThrew v =>
    cases decided
    exact ⟨m, v, .inr ⟨there, rfl⟩⟩
  | timerEnded =>
    obtain ⟨ms, -, ended⟩ := Option.map_eq_some_iff.mp decided
    cases ended
  | _ => cases decided

end

/-- The selectors of the library find what they look for, or else the first candidate. A source
that has one of them, as one without a choice has, takes every update with an SVID that comes
before its end; no selection fails, and every failure that it tells of is one that its client
brought. -/
theorem builtIn_selectors_never_fail :
    (∀ (candidates : List Candidate) (filled : candidates ≠ []),
      Selector.first.Picks candidates (candidates.head filled) ∧
      Selector.last.Picks candidates (candidates.getLast filled) ∧
      (∀ id, ∃ picked, (Selector.byId id).Picks candidates picked ∧
        Selector.FirstOr (·.id = id) candidates picked) ∧
      (∀ hint, ∃ picked, (Selector.byHint hint).Picks candidates picked ∧
        Selector.FirstOr (·.hint = some hint) candidates picked) ∧
      ∀ selector : Selector, selector.BuiltIn → ∀ earlier, ∃ picked,
        selector earlier candidates = .ok (some picked) ∧
          isCandidate candidates picked = true) ∧
    ({} : Options).selector.BuiltIn ∧
    ∀ (deps : Deps) (options : Options) (setup : Setup) (built : Option Endpoint.Address),
      Plan.make deps options = .start setup built → options.selector.BuiltIn → ∀ h : History,
      (∀ m context, context.candidates ≠ [] →
        (∀ f, ((setup.source.run h).select m context).2 ≠ .error f) ∧
        ((setup.source.run h).lifecycle = .init ∨ (setup.source.run h).lifecycle = .ready →
          ∃ picked, options.selector.Picks context.candidates picked ∧
            ((setup.source.run h).after (m, .update context)).lifecycle = .ready ∧
            ((setup.source.run h).after (m, .update context)).snapshot =
              some ⟨picked, context.bundles, (setup.source.run h).version + 1, m.reading⟩)) ∧
      ((∀ o ∈ h, o.2.Filled) →
        (∀ b ∈ setup.source.collect failures h, (b.1, .error b.2.1) ∈ h) ∧
        ∀ f, (setup.source.run h).gate.opened = some (.error f) →
          ∃ m v, (m, .error v) ∈ h ∧ f = setup.watchFault m.wall v ∨
            (m, .watchThrew v) ∈ h ∧ f = setup.startFault m.wall v) := by
  refine ⟨fun candidates filled => ⟨Selector.picks_first filled, Selector.picks_last filled,
    fun id => Selector.exists_picks_preferring _ filled,
    fun hint => Selector.exists_picks_preferring _ filled,
    fun selector builtIn earlier => ?_⟩, .first, ?_⟩
  · obtain ⟨picked, picks, listed, -⟩ := exists_accept builtIn filled 0
    exact ⟨picked, picks earlier, listed⟩
  intro deps options setup built plan builtIn h
  rw [← Plan.selector_of_make plan] at builtIn ⊢
  have steady : Consistent (setup.source.run h) := consistent_run setup h
  have same : (setup.source.run h).setup = setup := setup_run setup h
  refine ⟨fun m context filled => ?_, fun filled => ⟨fun b failed => ?_, fun f opened => ?_⟩⟩
  · obtain ⟨picked, picks, -, accepted⟩ := exists_accept builtIn filled m.wall
    have selects : ((setup.source.run h).select m context).2 = .ok picked := by
      rw [select, same]
      exact accepted _
    refine ⟨fun f refused => ?_, fun lives => ⟨picked, picks, ?_⟩⟩
    · rw [selects] at refused
      cases refused
    · have applied : (setup.source.run h).applied? (m, .update context) = some picked :=
        applied?_eq_some_iff.mpr ⟨lives, by rw [brought, selects]⟩
      obtain ⟨ready, _, ⟨⟩, current⟩ := after_of_applied steady applied
      have shown := snapshot_eq_current (consistent_after steady (m, .update context))
      exact ⟨ready, shown.trans current⟩
  · exact error_of_mem_failures builtIn filled failed
  · exact of_opened_error builtIn filled opened

theorem builtIn_selectors_never_fail_of_hint :
    let deps : Deps := { hasClient := true }
    let options : Options := { selector := .byHint "external" }
    let setup : Setup := { selector := .byHint "external" }
    Plan.make deps options = .start setup none ∧ options.selector.BuiltIn ∧
      Context.single.candidates ≠ [] ∧ ∃ picked, Context.single.candidates.head? = some picked ∧
        (setup.source.after (⟨1, 1⟩, .update .single)).snapshot = some ⟨picked, .empty, 1, 1⟩ := by
  intro deps options setup
  have plan : Plan.make deps options = .start setup none := rfl
  have builtIn : options.selector.BuiltIn := .byHint "external"
  have filled : Context.single.candidates ≠ [] := List.cons_ne_nil _ _
  obtain ⟨-, -, runs⟩ := builtIn_selectors_never_fail
  obtain ⟨-, served⟩ := (runs deps options setup none plan builtIn []).1 ⟨1, 1⟩ .single filled
  obtain ⟨picked, picks, -, shown⟩ := served (.inl rfl)
  cases picks []
  exact ⟨plan, builtIn, filled, _, rfl, shown⟩

end Source

end WorkloadIdentity.Watch
