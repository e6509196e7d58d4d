import Mathlib.Data.List.Induction
import WorkloadIdentity.Proofs.Settings.Accepted

/-! Settings and where they come from. Whatever is given under a name, the last source that gives
anything wins, and the record of origins names that source. A name that was given and is
not accepted as that of a setting is told as unknown. -/

namespace WorkloadIdentity.Settings

def offer (values : Table Value) (key : String) : Option Value :=
  (Table.get? key values).filter fun v => !v.isAbsent

theorem offer_cons {e : String × Value} {rest : Table Value} (once : e.1 ∉ Table.keys rest)
    (k : String) : offer (e :: rest) k = (offer rest k).or (offer [e] k) := by
  obtain ⟨key, v⟩ := e
  by_cases same : key = k
  · have silent : Table.get? k rest = none := Table.get?_eq_none_iff.mpr (same ▸ once)
    simp [offer, Table.get?, same, silent]
  · simp [offer, Table.get?, same]

namespace Source

def gives? (s : Source) (key : String) : Option Value :=
  match s.loaded with
  | .error _ => none
  | .ok values => offer values key

/-- A source that loads, with every name once, and not that of the parent. -/
def Regular (s : Source) : Prop :=
  ∃ values, s.loaded = .ok values ∧ (Table.keys values).Nodup ∧
    Innate.parent.name ∉ Table.keys values

end Source

def Given (sources : List Source) (key : String) : Prop :=
  ∃ s ∈ sources, ∃ v, s.gives? key = some v

/-- A source gives the value, and no source behind it gives anything under the name. -/
def LastGives (sources : List Source) (key : String) (s : Source) (v : Value) : Prop :=
  ∃ front back, sources = front ++ s :: back ∧ s.gives? key = some v ∧ ¬Given back key

def winner? (key : String) : List Source → Option (String × Value)
  | [] => none
  | s :: rest => (winner? key rest).or ((s.gives? key).map fun v => (s.name, v))

section
variable {s t : Source} {sources rest : List Source} {key name : String} {v : Value}

theorem given_cons : Given (s :: rest) key ↔ (∃ v, s.gives? key = some v) ∨ Given rest key := by
  simp only [Given, List.mem_cons, exists_eq_or_imp]

theorem lastGives_cons : LastGives (t :: rest) key s v ↔
    LastGives rest key s v ∨ s = t ∧ t.gives? key = some v ∧ ¬Given rest key := by
  constructor
  · rintro ⟨front, back, whole, gives, silent⟩
    cases front with
    | nil =>
      obtain ⟨rfl, rfl⟩ := List.cons.inj whole
      exact .inr ⟨rfl, gives, silent⟩
    | cons _ front =>
      obtain ⟨-, rfl⟩ := List.cons.inj whole
      exact .inl ⟨front, back, rfl, gives, silent⟩
  · rintro (⟨front, back, rfl, gives, silent⟩ | ⟨rfl, gives, silent⟩)
    · exact ⟨t :: front, back, rfl, gives, silent⟩
    · exact ⟨[], rest, rfl, gives, silent⟩

theorem winner?_eq_none_iff : winner? key sources = none ↔ ¬Given sources key := by
  induction sources with
  | nil => simp [winner?, Given]
  | cons s rest ih =>
    simp only [winner?, Option.or_eq_none_iff, Option.map_eq_none_iff, ih, given_cons, not_or,
      ← Option.ne_none_iff_exists', Ne, Decidable.not_not]
    exact and_comm

theorem winner?_eq_some_iff :
    winner? key sources = some (name, v) ↔ ∃ s, s.name = name ∧ LastGives sources key s v := by
  induction sources with
  | nil => simp [winner?, LastGives]
  | cons t rest ih =>
    simp only [winner?, Option.or_eq_some_iff, ih, winner?_eq_none_iff, lastGives_cons,
      Option.map_eq_some_iff, Prod.mk.injEq, and_or_left, exists_or]
    refine or_congr_right ⟨?_, ?_⟩
    · rintro ⟨silent, _, gives, named, rfl⟩
      exact ⟨t, named, rfl, gives, silent⟩
    · rintro ⟨_, named, rfl, gives, silent⟩
      exact ⟨silent, v, gives, named, rfl⟩

end

namespace Merged

/-- One record becomes another by what is given: its values and its origins change under the same
names, and its parent stays. -/
structure Becomes (given : String → Option (String × Value)) (m m' : Merged) : Prop where
  parent : m'.parent = m.parent
  values : ∀ k, m'.values.get? k = ((given k).map Prod.snd).or (m.values.get? k)
  provenance : ∀ k, m'.provenance.get? k = ((given k).map Prod.fst).or (m.provenance.get? k)
  ordered : m.values.Ordered → m'.values.Ordered

section
variable {given later : String → Option (String × Value)} {m m' m'' : Merged}

theorem Becomes.refl (m : Merged) : Becomes (fun _ => none) m m :=
  ⟨rfl, fun _ => rfl, fun _ => rfl, id⟩

theorem Becomes.trans (first : Becomes given m m') (second : Becomes later m' m'') :
    Becomes (fun k => (later k).or (given k)) m m'' where
  parent := second.parent.trans first.parent
  values k := by rw [second.values, first.values, Option.map_or, Option.or_assoc]
  provenance k := by rw [second.provenance, first.provenance, Option.map_or, Option.or_assoc]
  ordered := second.ordered ∘ first.ordered

theorem putFrom_becomes (source : String) (m : Merged) {e : String × Value}
    (other : e.1 ≠ Innate.parent.name) :
    Becomes (fun k => (offer [e] k).map fun v => (source, v)) m (m.putFrom source e) := by
  obtain ⟨key, v⟩ := e
  by_cases absent : v.isAbsent = true
  · have silent (k : String) : offer [(key, v)] k = none := by
      by_cases same : key = k <;> simp [offer, Table.get?, same, absent]
    have kept : m.putFrom source (key, v) = m := if_pos absent
    simpa [silent, kept] using Becomes.refl m
  · rw [Bool.not_eq_true] at absent
    rw [putFrom_of_present source m absent other]
    have offered (k : String) : offer [(key, v)] k = if key = k then some v else none := by
      by_cases same : key = k <;> simp [offer, Table.get?, same, absent]
    refine ⟨rfl, fun k => ?_, fun k => ?_, Table.ordered_put key v⟩
    all_goals
      by_cases same : key = k
      · subst same
        simp [offered, Table.get?_put_self]
      · simp [offered, same, Table.get?_put_of_ne (Ne.symm same)]

theorem add_becomes (source : String) (m : Merged) {values : Table Value}
    (once : (Table.keys values).Nodup)
    (orphan : Innate.parent.name ∉ Table.keys values) :
    Becomes (fun k => (offer values k).map fun v => (source, v)) m (m.add source values) := by
  induction values generalizing m with
  | nil => exact Becomes.refl m
  | cons e rest ih =>
    simp only [Table.keys, List.map_cons, List.nodup_cons, List.mem_cons, not_or] at once orphan
    have added : Becomes _ m (m.add source (e :: rest)) :=
      (putFrom_becomes source m (Ne.symm orphan.1)).trans
        (ih (m.putFrom source e) once.2 orphan.2)
    simpa only [offer_cons once.1, Option.map_or] using added

theorem addAll_becomes (m : Merged) {sources : List Source} (regular : ∀ s ∈ sources, s.Regular) :
    ∃ m', m.addAll sources = .ok m' ∧ Becomes (fun k => winner? k sources) m m' := by
  induction sources generalizing m with
  | nil => exact ⟨m, rfl, Becomes.refl m⟩
  | cons s rest ih =>
    rw [List.forall_mem_cons] at regular
    obtain ⟨⟨values, loaded, once, orphan⟩, later⟩ := regular
    obtain ⟨m', merged, becomes⟩ := ih (m.add s.name values) later
    refine ⟨m', by simpa only [addAll, loaded] using merged, ?_⟩
    have offered (k : String) : s.gives? k = offer values k := by simp only [Source.gives?, loaded]
    simpa only [winner?, offered] using (add_becomes s.name m once orphan).trans becomes

end

end Merged

/-- Settings that account for everything: each tells the source that gave it last, and a name that
was given is either that of a setting or unknown, and stands once. -/
structure Accounted (sources : List Source) (declared : List String) (l : Loaded) : Prop where
  given : ∀ k ∈ l.keys, ∀ s v, LastGives sources k s v → l.explain k = .named s.name
  default : ∀ k ∈ l.keys, ¬Given sources k → Innate.ofName? k = none →
    l.explain k = .named fromSchema
  once : (l.keys ++ l.unknownKeys).Nodup
  covered : ∀ k, Given sources k → k ∈ l.keys ∨ k ∈ l.unknownKeys
  unknown : ∀ k, k ∈ l.unknownKeys ↔ Given sources k ∧ k ∉ declared

section
variable {sources : List Source} {l : Loaded}

theorem nodup_eraseDups {α : Type} [BEq α] [LawfulBEq α] (xs : List α) : xs.eraseDups.Nodup := by
  induction xs using List.reverseRecOn with
  | nil => exact List.nodup_nil
  | append_singleton earlier x ih =>
    rw [List.eraseDups_append]
    by_cases known : x ∈ earlier
    · simpa [List.removeAll, known] using ih
    · have single : [x].eraseDups.Nodup := by simp [List.eraseDups_cons]
      have other : ∀ y ∈ earlier, y ≠ x := by
        rintro _ member rfl
        exact known member
      simpa [List.removeAll, known, List.nodup_append, ih] using ⟨single, other⟩

theorem Loaded.mem_unknownKeys_iff {k : String} :
    k ∈ l.unknownKeys ↔ k ∈ l.provided ∧ k ∉ l.keys := by
  simp [Loaded.unknownKeys]

theorem Loaded.nodup_keys_append_unknownKeys (once : l.keys.Nodup) :
    (l.keys ++ l.unknownKeys).Nodup := by
  refine List.nodup_append.mpr ⟨once, (nodup_eraseDups l.provided).filter _, ?_⟩
  rintro k known _ unknown rfl
  exact (Loaded.mem_unknownKeys_iff.mp unknown).2 known

theorem loadWith_of_merged (check : Check) {m : Merged}
    (merged : ({} : Merged).addAll sources = .ok m) :
    (∀ told, check m.values m.inherited = .error told →
      loadWith check sources = .error (.invalid told (sources.map Source.name))) ∧
    ∀ data, check m.values m.inherited = .ok data →
      loadWith check sources = .ok ⟨data, m.provenance, m.values.keys⟩ := by
  constructor
  · intro told refused
    simp only [loadWith, merged, refused]
  · intro data accepted
    simp only [loadWith, merged, accepted]

end

/-- Whatever the schema is, it is handed what the sources gave last; and what it accepts of that
is accounted for. -/
theorem load_accounts_for_names (sources : List Source) (regular : ∀ s ∈ sources, s.Regular) :
    ∃ given : Table Value, given.keys.Nodup ∧
      (∀ k v, given.get? k = some v ↔ ∃ s, LastGives sources k s v) ∧
      ∀ declared check, KeepsDeclared declared check →
        (∀ told, check given [] = .error told →
          loadWith check sources = .error (.invalid told (sources.map Source.name))) ∧
        ∀ data, check given [] = .ok data →
          ∃ l, loadWith check sources = .ok l ∧ l.data = data ∧ Accounted sources declared l := by
  obtain ⟨m, merged, becomes⟩ := Merged.addAll_becomes {} regular
  have orphan : m.inherited = [] := by rw [Merged.inherited, becomes.parent]; rfl
  have values (k : String) (v : Value) :
      m.values.get? k = some v ↔ ∃ s, LastGives sources k s v := by
    simp only [becomes.values, Table.get?, Option.or_none, Option.map_eq_some_iff, Prod.exists,
      exists_eq_right, winner?_eq_some_iff]
    constructor
    · rintro ⟨_, s, -, last⟩
      exact ⟨s, last⟩
    · rintro ⟨s, last⟩
      exact ⟨s.name, s, rfl, last⟩
  have origin (k : String) : m.provenance.get? k = (winner? k sources).map Prod.fst := by
    simp only [becomes.provenance, Table.get?, Option.or_none]
  have provided (k : String) : k ∈ m.values.keys ↔ Given sources k := by
    rw [← not_iff_not, ← winner?_eq_none_iff, ← Table.get?_eq_none_iff, becomes.values]
    simp [Table.get?]
  refine ⟨m.values, (becomes.ordered Table.ordered_nil).nodup_keys, values, ?_⟩
  intro declared check keeps
  obtain ⟨refuses, loads⟩ := loadWith_of_merged check merged
  rw [orphan] at refuses loads
  refine ⟨refuses, fun data accepted => ⟨_, loads data accepted, rfl, ?_⟩⟩
  have known (k : String) (given : Given sources k) : k ∈ Table.keys data ↔ k ∈ declared :=
    ⟨keeps.within accepted k, keeps.kept accepted k ((provided k).mpr given)⟩
  have unknown (k : String) : k ∈ Loaded.unknownKeys ⟨data, m.provenance, m.values.keys⟩ ↔
      Given sources k ∧ k ∉ declared := by
    rw [Loaded.mem_unknownKeys_iff, provided]
    exact and_congr_right fun given => not_congr (known k given)
  exact {
    given := fun k _ s v last => Loaded.explain_of_given (by
      rw [origin, winner?_eq_some_iff.mpr ⟨s, rfl, last⟩, Option.map_some])
    default := fun k _ free other => Loaded.explain_of_not_given (by
      rw [origin, winner?_eq_none_iff.mpr free, Option.map_none]) other
    once := Loaded.nodup_keys_append_unknownKeys (keeps.once accepted)
    covered := fun k given => by
      rw [unknown, Loaded.keys, known k given]
      by_cases declares : k ∈ declared
      · exact .inl declares
      · exact .inr ⟨given, declares⟩
    unknown := unknown }

theorem load_accounts_for_names_of_overlap :
    let file : Source := ⟨"file", .ok [("LEVEL", .text "debug"), ("TOKEN", .text "t")]⟩
    let environment : Source := ⟨"env", .ok [("LEVEL", .text "info"), ("TOKEN", .absent)]⟩
    let fs : List Field :=
      [⟨"LEVEL", .text, .required⟩, ⟨"REGION", .text, .default (.text "eu")⟩]
    let check : Check := fun given inherited => (Schema.fields fs).check given inherited
    (∀ s ∈ [file, environment], s.Regular) ∧ KeepsDeclared ["LEVEL", "REGION"] check ∧
      ∃ l, loadWith check [file, environment] = .ok l ∧
        Accounted [file, environment] ["LEVEL", "REGION"] l := by
  intro file environment fs check
  have regular : ∀ s ∈ [file, environment], s.Regular := by
    simp only [List.forall_mem_cons, List.not_mem_nil, false_implies, implies_true, and_true]
    exact ⟨⟨_, rfl, by decide, by decide⟩, ⟨_, rfl, by decide, by decide⟩⟩
  have keeps : KeepsDeclared ["LEVEL", "REGION"] check := Schema.keepsDeclared_fields fs
  have accepted : ∃ l, loadWith check [file, environment] = .ok l := ⟨_, rfl⟩
  obtain ⟨given, -, -, schemas⟩ := load_accounts_for_names [file, environment] regular
  obtain ⟨refuses, loads⟩ := schemas _ check keeps
  refine ⟨regular, keeps, ?_⟩
  cases checked : check given [] with
  | error told =>
    obtain ⟨l, loaded⟩ := accepted
    rw [refuses told checked] at loaded
    cases loaded
  | ok data =>
    obtain ⟨l, loaded, -, accounted⟩ := loads data checked
    exact ⟨l, loaded, accounted⟩

end WorkloadIdentity.Settings
