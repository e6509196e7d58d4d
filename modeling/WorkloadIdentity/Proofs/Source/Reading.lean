import WorkloadIdentity.Proofs.Source.Serving
import WorkloadIdentity.Proofs.Source.Sink

/-! What the readers of a source learn over time. Two reads at one time agree, since there
is one snapshot to read from. Of two reads the later one sees a newer snapshot or the very
same; and from the moment at which the source is closed no read has an answer, whatever
the client goes on to deliver. -/

namespace WorkloadIdentity.Watch

open Spiffe

namespace Source

structure Coherent (s : Source) : Prop where
  served : ∀ c, s.snapshot? = .ok c → s.svid? = .ok c.picked.svid ∧
    ∀ d, (∀ b, s.bundle? d = .ok b ↔ c.bundles.get? d = some b) ∧
      (s.bundle? d = .error (.noBundle d) ↔
        ∀ b ∈ c.bundles.bundles, b.trustDomain.name ≠ d.name)
  unserved : ∀ l, s.snapshot? = .error l →
    l = .closed ∧ s.svid? = .error .closed ∧ ∀ d, s.bundle? d = .error .closed

structure Denies (s : Source) : Prop where
  closed : s.isClosed = true
  snapshot : s.snapshot? = .error .closed
  svid : s.svid? = .error .closed
  bundle : ∀ d, s.bundle? d = .error .closed

/-- What a source is like after it has served a snapshot: closed, or serving that one or a newer
one. -/
def Past (c : Snapshot) (s : Source) : Prop :=
  s.lifecycle = .closed
    ∨ s.lifecycle = .ready ∧ ∃ d, s.current = some d ∧ (d = c ∨ c.version < d.version)

section
variable {s t : Source} {m : Moment} {e : Event} {commands : List Command}

theorem coherent (s : Source) : Coherent s := by
  constructor
  case served =>
    intro c served
    refine ⟨by simp [svid?, served, Except.map], fun d => ?_⟩
    rw [← BundleSet.get?_eq_none_iff]
    simp only [bundle?, served, Except.bind]
    cases c.bundles.get? d <;> simp
  case unserved =>
    intro l unserved
    have closed : l = .closed := by
      unfold snapshot? at unserved
      split at unserved
      · cases unserved
      · cases unserved
        rfl
    rw [closed] at unserved
    exact ⟨closed, by simp [svid?, unserved, Except.map], by simp [bundle?, unserved, Except.bind]⟩

theorem denies_of_closed (closed : s.lifecycle = .closed) : Denies s := by
  have unserved : s.snapshot? = .error .closed := by simp [snapshot?, snapshot, isClosed, closed]
  obtain ⟨-, svid, bundle⟩ := (coherent s).unserved _ unserved
  exact ⟨by simp [isClosed, closed], unserved, svid, bundle⟩

theorem snapshot?_eq_ok_iff (h : Consistent s) {c : Snapshot} :
    s.snapshot? = .ok c ↔ s.current = some c := by
  rw [snapshot?, snapshot_eq_current h]
  cases s.current <;> simp

theorem past_change {c : Snapshot} (h : Consistent s) (past : Past c s)
    (change : Change s m e commands t) : Past c t := by
  rcases past with closed | ⟨serves, d, current, newer⟩
  · exact .inl (closed_change h closed change)
  have opened : s.gate.isOpen = true := by simp [Gate.isOpen, opened_of_ready h.lifecycle serves]
  have same : Past c s := .inr ⟨serves, d, current, newer⟩
  cases change with
  | applies context picked log lives =>
    refine .inr ⟨rfl, _, rfl, .inr ?_⟩
    have counted : s.version = d.version := by simp [version, current]
    simp only [counted]
    rcases newer with rfl | newer
    · exact Nat.lt_succ_self _
    · exact Nat.lt_succ_of_lt newer
  | fails _ v asked starts => simp [serves] at starts
  | closes => exact .inl rfl
  | misses v => simpa only [Past, settle_of_isOpen opened] using same
  | expires ms => simpa only [Past, settle_of_isOpen opened] using same
  | _ => exact same

theorem past_of_served {c : Snapshot} (h : Consistent s) (served : s.snapshot? = .ok c) :
    Past c s := by
  have current := (snapshot?_eq_ok_iff h).mp served
  exact .inr ⟨h.current.mp (by simp [current]), c, current, .inl rfl⟩

theorem served_after {c d : Snapshot} (h : Consistent s) (past : Past c s)
    (served : s.snapshot? = .ok d) : d = c ∨ c.version < d.version := by
  rcases past with closed | ⟨-, a, current, newer⟩
  · rw [(denies_of_closed closed).snapshot] at served
    cases served
  · rw [snapshot?_eq_ok_iff h, current, Option.some.injEq] at served
    exact served ▸ newer

end

theorem lifecycle_of_close {s : Source} (h : Consistent s) (held : s.isHandedOut = true)
    (m : Moment) : (s.after (m, .close)).lifecycle = .closed :=
  (closing_isSome_iff (consistent_after h _)).mp (called_of_handedOut held m)

/-- Reads at one time agree, a later read never sees an older snapshot, and once the source has been
closed, by a call or because its watch failed, there is nothing to read for ever. -/
theorem reads_are_coherent (setup : Setup) (h : History) :
    let s := setup.source.run h
    Coherent s ∧
    (∀ later c d, s.snapshot? = .ok c → (setup.source.run (h ++ later)).snapshot? = .ok d →
      c.version ≤ d.version ∧ (c.version = d.version → c = d)) ∧
    (s.isClosed = true → ∀ later, Denies (setup.source.run (h ++ later))) ∧
    (s.isHandedOut = true → ∀ m later,
      Denies (setup.source.run (h ++ (m, .close) :: later))) ∧
    ∀ o v asked, setup.policy = .close → s.lifecycle = .ready → Failure s o.1 o.2 v asked →
      ¬Cut s o.1 o.2 → ∀ later, Denies (setup.source.run (h ++ o :: later)) := by
  intro s
  have steady : Consistent s := consistent_run setup h
  have same : s.setup = setup := setup_run setup h
  have lasts {t : Source} (consistent : Consistent t) (closed : t.lifecycle = .closed)
      (later : History) : Denies (t.run later) :=
    denies_of_closed (run_keeps_of_change (P := fun s => s.lifecycle = .closed) closed_change
      consistent closed later)
  refine ⟨coherent s, ?_, ?_, ?_, ?_⟩
  · intro later c d first second
    rw [run_append] at second
    have past : Past c (s.run later) :=
      run_keeps_of_change past_change steady (past_of_served steady first) later
    have consistent : Consistent (s.run later) := run_append ▸ consistent_run setup (h ++ later)
    rcases served_after consistent past second with rfl | newer
    · exact ⟨Nat.le_refl _, fun _ => rfl⟩
    · exact ⟨Nat.le_of_lt newer, fun equal => absurd equal (Nat.ne_of_lt newer)⟩
  · intro closed later
    rw [run_append]
    exact lasts steady (by simpa [isClosed] using closed) later
  · intro held m later
    rw [run_append, run_cons]
    exact lasts (consistent_after steady _) (lifecycle_of_close steady held m) later
  · intro o v asked policy serves failure uncut later
    rw [run_append, run_cons]
    exact lasts (consistent_after steady o)
      (lifecycle_of_uncut steady (by rwa [same]) serves failure uncut) later

end Source

end WorkloadIdentity.Watch
