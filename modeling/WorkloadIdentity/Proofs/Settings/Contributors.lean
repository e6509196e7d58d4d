import Mathlib.Data.List.Nodup
import WorkloadIdentity.Proofs.Settings.Provenance

/-! The sources that settings tell of. They are told in the order of the settings: a source stands
where the first setting stands that it decides. So the order of the sources shows only where they
decide their first settings in that order. A setting under an innate name that no source gives is
told of with something that names no source. -/

namespace WorkloadIdentity.Settings

section
variable {α : Type} {xs ys : List α} {a b : α}

theorem pair_sublist_append {front back : List α} (first : a ∈ front) (second : b ∈ back) :
    [a, b].Sublist (front ++ back) :=
  (List.singleton_sublist.mpr first).append (List.singleton_sublist.mpr second)

theorem pair_sublist_or_swap (other : a ≠ b) (here : a ∈ xs) (there : b ∈ xs) :
    [a, b].Sublist xs ∨ [b, a].Sublist xs := by
  obtain ⟨front, back, rfl⟩ := List.append_of_mem here
  rcases List.mem_append.mp there with before | behind
  · exact .inr (pair_sublist_append before List.mem_cons_self)
  · have behind : b ∈ back := (List.mem_cons.mp behind).resolve_left (Ne.symm other)
    exact .inl (List.append_cons .. ▸ pair_sublist_append (by simp) behind)

theorem not_pair_sublist_swap (once : xs.Nodup) (ordered : [a, b].Sublist xs) :
    ¬[b, a].Sublist xs := by
  intro swapped
  obtain ⟨front, back, rfl, first, second⟩ := List.cons_sublist_iff.mp ordered
  obtain ⟨front', back', same, first', second'⟩ := List.cons_sublist_iff.mp swapped
  rw [List.singleton_sublist] at second second'
  have apart := (List.nodup_append.mp once).2.2
  rcases List.append_eq_append_iff.mp same with ⟨mid, rfl, rfl⟩ | ⟨mid, rfl, rfl⟩
  · exact apart a first a (List.mem_append_right mid second') rfl
  · exact apart b (List.mem_append_left mid first') b second rfl

theorem sublist_iff_pairs (once : xs.Nodup) (once' : ys.Nodup) (part : ys ⊆ xs) :
    ys.Sublist xs ↔ ∀ a b, [a, b].Sublist xs → a ∈ ys → b ∈ ys → [a, b].Sublist ys := by
  classical
  constructor
  · intro ordered a b pair here there
    have other : a ≠ b := by simpa using once.sublist pair
    rcases pair_sublist_or_swap other here there with same | swapped
    · exact same
    · exact absurd (swapped.trans ordered) (not_pair_sublist_swap once pair)
  · intro pairs
    have perm : ys.Perm (xs.filter (· ∈ ys)) := by
      refine (List.perm_ext_iff_of_nodup once' (once.filter _)).mpr fun a => ?_
      simpa using @part a
    have same : ys = xs.filter (· ∈ ys) := by
      have sorted : ys.Pairwise fun a b => [a, b].Sublist ys :=
        List.pairwise_iff_forall_sublist.mpr id
      refine List.Perm.eq_of_pairwise (fun a b _ _ ordered swapped => ?_) sorted ?_ perm
      · exact absurd swapped (not_pair_sublist_swap once' ordered)
      · refine List.pairwise_iff_forall_sublist.mpr fun {a b} pair => ?_
        have kept : ∀ c ∈ [a, b], c ∈ ys := fun c member => by
          simpa using (List.mem_filter.mp (pair.mem member)).2
        exact pairs a b (pair.trans List.filter_sublist) (kept a (by simp)) (kept b (by simp))
    exact same ▸ List.filter_sublist

variable [BEq α] [LawfulBEq α]

theorem eraseDups_append_cons {front : List α} (new : a ∉ front) (back : List α) :
    ∃ later, (front ++ a :: back).eraseDups = front.eraseDups ++ a :: later := by
  have kept : (a :: back).removeAll front = a :: back.removeAll front := by
    simp [List.removeAll, new]
  exact ⟨_, by rw [List.eraseDups_append, kept, List.eraseDups_cons]⟩

/-- Where only the first of equals is kept, a member stands in front of another if it comes
first. -/
theorem pair_sublist_eraseDups_iff (other : a ≠ b) (here : a ∈ xs) (there : b ∈ xs) :
    [a, b].Sublist xs.eraseDups ↔
      ∃ front back, xs = front ++ a :: back ∧ a ∉ front ∧ b ∉ front := by
  constructor
  · intro ordered
    have once := nodup_eraseDups xs
    obtain ⟨front, back, rfl, new⟩ := List.eq_append_cons_of_mem here
    obtain ⟨later, whole⟩ := eraseDups_append_cons new back
    refine ⟨front, back, rfl, new, fun early => not_pair_sublist_swap once ordered ?_⟩
    rw [whole]
    exact pair_sublist_append (List.mem_eraseDups.mpr early) List.mem_cons_self
  · rintro ⟨front, back, rfl, new, newer⟩
    obtain ⟨later, whole⟩ := eraseDups_append_cons new back
    have behind : b ∈ later := by
      have member : b ∈ (front ++ a :: back).eraseDups := List.mem_eraseDups.mpr there
      rw [whole] at member
      simpa [newer, other.symm] using member
    rw [whole]
    exact ((List.singleton_sublist.mpr behind).cons_cons a).trans (List.sublist_append_right _ _)

end

def Source.Single (s : Source) : Prop :=
  ∀ values, s.loaded = .ok values → (Table.keys values).Nodup

/-- The final value of a setting is that of the source. Under the name of the parent no origin is
kept. -/
def Decides (sources : List Source) (key : String) (s : Source) : Prop :=
  key ≠ Innate.parent.name ∧ ∃ v, LastGives sources key s v

def credit? (key : String) (sources : List Source) : Option String :=
  if key = Innate.parent.name then none else (winner? key sources).map Prod.fst

section
variable {sources : List Source} {key name : String} {s : Source}

theorem credit?_eq_some_iff :
    credit? key sources = some name ↔ ∃ s, Decides sources key s ∧ s.name = name := by
  by_cases parent : key = Innate.parent.name
  · simp [credit?, Decides, parent]
  · rw [credit?, if_neg parent, Option.map_eq_some_iff]
    constructor
    · rintro ⟨⟨_, v⟩, won, rfl⟩
      obtain ⟨s, named, gives⟩ := winner?_eq_some_iff.mp won
      exact ⟨s, ⟨parent, v, gives⟩, named⟩
    · rintro ⟨s, ⟨-, v, gives⟩, named⟩
      exact ⟨(name, v), winner?_eq_some_iff.mpr ⟨s, named, gives⟩, rfl⟩

theorem credit?_eq_none_iff :
    credit? key sources = none ↔ key = Innate.parent.name ∨ ¬Given sources key := by
  by_cases parent : key = Innate.parent.name
  · simp [credit?, parent]
  · simp [credit?, parent, winner?_eq_none_iff]

theorem Decides.mem (decides : Decides sources key s) : s ∈ sources := by
  obtain ⟨-, v, front, back, rfl, -⟩ := decides
  simp

end

namespace Merged

theorem provenance_withParent (m : Merged) (v : Value) :
    (m.withParent v).provenance = m.provenance := by
  cases v <;> rfl

theorem provenance_putFrom_parent (source : String) (m : Merged) {e : String × Value}
    (parent : e.1 = Innate.parent.name) : (m.putFrom source e).provenance = m.provenance := by
  unfold putFrom
  split
  · rfl
  · rw [if_neg (not_not.mpr parent)]
    split
    · exact provenance_withParent m e.2
    · rfl

theorem provenance_putFrom (source : String) (m : Merged) (e : String × Value) {k : String}
    (other : k ≠ Innate.parent.name) :
    (m.putFrom source e).provenance.get? k =
      ((offer [e] k).map fun _ => source).or (m.provenance.get? k) := by
  by_cases parent : e.1 = Innate.parent.name
  · have silent : offer [e] k = none := by
      simp [offer, Table.get?, parent, Ne.symm other]
    rw [provenance_putFrom_parent source m parent, silent, Option.map_none, Option.none_or]
  · rw [(putFrom_becomes source m parent).provenance, Option.map_map]
    rfl

theorem provenance_add_parent (source : String) (m : Merged) (values : Table Value) :
    (m.add source values).provenance.get? Innate.parent.name =
      m.provenance.get? Innate.parent.name := by
  induction values generalizing m with
  | nil => rfl
  | cons e rest ih =>
    rw [add, List.foldl_cons, ← add, ih]
    by_cases parent : e.1 = Innate.parent.name
    · rw [provenance_putFrom_parent source m parent]
    · have silent : offer [e] Innate.parent.name = none := by
        simp [offer, Table.get?, parent]
      simp [(putFrom_becomes source m parent).provenance, silent]

theorem provenance_add (source : String) (m : Merged) {values : Table Value}
    (once : (Table.keys values).Nodup) {k : String} (other : k ≠ Innate.parent.name) :
    (m.add source values).provenance.get? k =
      ((offer values k).map fun _ => source).or (m.provenance.get? k) := by
  induction values generalizing m with
  | nil => rfl
  | cons e rest ih =>
    simp only [Table.keys, List.map_cons, List.nodup_cons] at once
    rw [add, List.foldl_cons, ← add, ih (m.putFrom source e) once.2,
      provenance_putFrom source m e other, offer_cons once.1, Option.map_or, Option.or_assoc]

theorem provenance_addAll {sources : List Source} (single : ∀ s ∈ sources, s.Single)
    {m m' : Merged} (merged : m.addAll sources = .ok m') (k : String) :
    m'.provenance.get? k = (credit? k sources).or (m.provenance.get? k) := by
  induction sources generalizing m with
  | nil =>
    cases merged
    simp [credit?, winner?]
  | cons s rest ih =>
    rw [List.forall_mem_cons] at single
    simp only [addAll] at merged
    cases loaded : s.loaded with
    | error p => simp [loaded] at merged
    | ok values =>
      rw [loaded] at merged
      rw [ih single.2 merged]
      by_cases parent : k = Innate.parent.name
      · simp [credit?, parent, provenance_add_parent]
      · rw [provenance_add s.name m (single.1 values loaded) parent]
        simp only [credit?, if_neg parent, winner?, Source.gives?, loaded, Option.map_or,
          Option.or_assoc, Option.map_map, Function.comp_def]

end Merged

theorem provenance_of_loadWith {check : Check} {sources : List Source} {l : Loaded}
    (single : ∀ s ∈ sources, s.Single) (loaded : loadWith check sources = .ok l) (k : String) :
    l.provenance.get? k = credit? k sources := by
  unfold loadWith at loaded
  cases merged : ({} : Merged).addAll sources with
  | error r => simp [merged] at loaded
  | ok m =>
    simp only [merged] at loaded
    split at loaded
    · cases loaded
    · cases loaded
      simpa [Table.get?] using Merged.provenance_addAll single merged k

def Origin.source? (o : Origin) : Option String := o.name?.filter (· ≠ fromSchema)

theorem Origin.source?_eq_some_iff {o : Origin} {name : String} :
    o.source? = some name ↔ o = .named name ∧ name ≠ fromSchema := by
  cases o with
  | named source =>
    simp only [source?, name?, Option.filter_eq_some_iff, Option.some.injEq, named.injEq,
      decide_eq_true_eq]
  | innate i => simp [source?, name?]

namespace Loaded

def contributors (l : Loaded) : List String := l.sourcesUsed.filterMap Origin.source?

theorem mem_sourcesUsed_iff {l : Loaded} {o : Origin} :
    o ∈ l.sourcesUsed ↔ ∃ k ∈ l.keys, l.explain k = o := by
  rw [sourcesUsed, List.mem_eraseDups, List.mem_map]

theorem mem_contributors_iff {l : Loaded} {name : String} :
    name ∈ l.contributors ↔ name ≠ fromSchema ∧ .named name ∈ l.sourcesUsed := by
  simp only [contributors, List.mem_filterMap, Origin.source?_eq_some_iff]
  constructor
  · rintro ⟨_, member, rfl, own⟩
    exact ⟨own, member⟩
  · rintro ⟨own, member⟩
    exact ⟨_, member, rfl, own⟩

theorem nodup_sourcesUsed (l : Loaded) : l.sourcesUsed.Nodup := nodup_eraseDups _

theorem nodup_contributors (l : Loaded) : l.contributors.Nodup := by
  refine List.Nodup.filterMap (fun a b name told told' => ?_) l.nodup_sourcesUsed
  rw [(Origin.source?_eq_some_iff.mp told).1, (Origin.source?_eq_some_iff.mp told').1]

theorem pair_sublist_contributors_iff {l : Loaded} {a b : String} (other : a ≠ b)
    (here : a ∈ l.contributors) (there : b ∈ l.contributors) :
    [a, b].Sublist l.contributors ↔ [Origin.named a, .named b].Sublist l.sourcesUsed := by
  obtain ⟨own, used⟩ := mem_contributors_iff.mp here
  obtain ⟨own', used'⟩ := mem_contributors_iff.mp there
  have kept {a b : String} (own : a ≠ fromSchema) (own' : b ≠ fromSchema)
      (pair : [Origin.named a, .named b].Sublist l.sourcesUsed) :
      [a, b].Sublist l.contributors := by
    have told : [Origin.named a, .named b].filterMap Origin.source? = [a, b] := by
      rw [List.filterMap_cons_some (Origin.source?_eq_some_iff.mpr ⟨rfl, own⟩),
        List.filterMap_cons_some (Origin.source?_eq_some_iff.mpr ⟨rfl, own'⟩), List.filterMap_nil]
    exact told ▸ pair.filterMap Origin.source?
  refine ⟨fun ordered => ?_, kept own own'⟩
  rcases pair_sublist_or_swap (by simpa using other) used used' with same | swapped
  · exact same
  · exact absurd (kept own' own swapped) (not_pair_sublist_swap l.nodup_contributors ordered)

end Loaded

/-- Of two sources the first decides a setting in front of all that the second decides. -/
def DecidesFirst (sources : List Source) (keys : List String) (s t : Source) : Prop :=
  ∃ front k back, keys = front ++ k :: back ∧ Decides sources k s ∧
    ∀ j ∈ front, ¬Decides sources j s ∧ ¬Decides sources j t

section
variable {check : Check} {sources : List Source} {l : Loaded}
  (single : ∀ s ∈ sources, s.Single) (distinct : (sources.map Source.name).Nodup)
  (loaded : loadWith check sources = .ok l)

include single loaded

theorem explain_eq_innate_iff {k : String} {i : Innate} :
    l.explain k = .innate i ↔ k = i.name ∧ (i = .parent ∨ ¬Given sources k) := by
  have origin := provenance_of_loadWith single loaded k
  have parent : k = i.name → (k = Innate.parent.name ↔ i = .parent) := by
    rintro rfl
    refine ⟨fun same => ?_, fun same => same ▸ rfl⟩
    simpa [Innate.ofName?_name] using congrArg Innate.ofName? same
  constructor
  · intro told
    unfold Loaded.explain at told
    split at told
    · cases told
    · cases told
    · rename_i free innate
      cases told
      have named := (Innate.name_of_ofName? innate).symm
      rw [origin, credit?_eq_none_iff, parent named] at free
      exact ⟨named, free⟩
  · rintro ⟨named, free⟩
    have silent : l.provenance.get? k = none := by
      rwa [origin, credit?_eq_none_iff, parent named]
    have innate : Innate.ofName? k = some i := named ▸ Innate.ofName?_name i
    simp only [Loaded.explain, silent, innate]

theorem explain_eq_named_iff {k name : String} (own : name ≠ fromSchema) :
    l.explain k = .named name ↔ ∃ s, Decides sources k s ∧ s.name = name := by
  rw [← credit?_eq_some_iff, ← provenance_of_loadWith single loaded k]
  unfold Loaded.explain
  cases l.provenance.get? k with
  | some source => simp
  | none => cases Innate.ofName? k <;> simp [Ne.symm own]

theorem mem_contributors_iff_decides {name : String} :
    name ∈ l.contributors ↔
      name ≠ fromSchema ∧ ∃ s, s.name = name ∧ ∃ k ∈ l.keys, Decides sources k s := by
  rw [Loaded.mem_contributors_iff, Loaded.mem_sourcesUsed_iff]
  refine and_congr_right fun own => ?_
  constructor
  · rintro ⟨k, setting, told⟩
    obtain ⟨s, decides, named⟩ := (explain_eq_named_iff single loaded own).mp told
    exact ⟨s, named, k, setting, decides⟩
  · rintro ⟨s, named, k, setting, decides⟩
    exact ⟨k, setting, (explain_eq_named_iff single loaded own).mpr ⟨s, decides, named⟩⟩

include distinct

theorem explain_eq_name_iff {k : String} {s : Source} (member : s ∈ sources)
    (own : s.name ≠ fromSchema) : l.explain k = .named s.name ↔ Decides sources k s := by
  rw [explain_eq_named_iff single loaded own]
  refine ⟨?_, fun decides => ⟨s, decides, rfl⟩⟩
  rintro ⟨t, decides, named⟩
  exact List.inj_on_of_nodup_map distinct decides.mem member named ▸ decides

theorem pair_sublist_contributors_iff_decidesFirst {s t : Source} (other : s ≠ t)
    (first : s ∈ sources) (second : t ∈ sources)
    (here : s.name ∈ l.contributors) (there : t.name ∈ l.contributors) :
    [s.name, t.name].Sublist l.contributors ↔ DecidesFirst sources l.keys s t := by
  have other : s.name ≠ t.name := fun named =>
    other (List.inj_on_of_nodup_map distinct first second named)
  obtain ⟨own, used⟩ := Loaded.mem_contributors_iff.mp here
  obtain ⟨own', used'⟩ := Loaded.mem_contributors_iff.mp there
  have told (k : String) := explain_eq_name_iff single distinct loaded (k := k) first own
  have told' (k : String) := explain_eq_name_iff single distinct loaded (k := k) second own'
  rw [Loaded.pair_sublist_contributors_iff other here there, Loaded.sourcesUsed,
    pair_sublist_eraseDups_iff (by simpa using other) (List.mem_eraseDups.mp used)
      (List.mem_eraseDups.mp used')]
  constructor
  · rintro ⟨front, back, whole, new, newer⟩
    obtain ⟨keys, rest, split, rfl, later⟩ := List.map_eq_append_iff.mp whole
    obtain ⟨k, keys', rfl, decides, -⟩ := List.map_eq_cons_iff.mp later
    refine ⟨keys, k, keys', split, (told k).mp decides, fun j early => ⟨?_, ?_⟩⟩
    · rw [← told]
      exact fun same => new (List.mem_map.mpr ⟨j, early, same⟩)
    · rw [← told']
      exact fun same => newer (List.mem_map.mpr ⟨j, early, same⟩)
  · rintro ⟨front, k, back, split, decides, early⟩
    refine ⟨front.map l.explain, back.map l.explain, ?_, ?_, ?_⟩
    · rw [split, List.map_append, List.map_cons, (told k).mpr decides]
    · rintro member
      obtain ⟨j, inFront, same⟩ := List.mem_map.mp member
      exact (early j inFront).1 ((told j).mp same)
    · rintro member
      obtain ⟨j, inFront, same⟩ := List.mem_map.mp member
      exact (early j inFront).2 ((told' j).mp same)

theorem contributors_sublist_iff :
    l.contributors.Sublist (sources.map Source.name) ↔
      ∀ s t, [s, t].Sublist sources → s.name ∈ l.contributors → t.name ∈ l.contributors →
        DecidesFirst sources l.keys s t := by
  have part : l.contributors ⊆ sources.map Source.name := by
    intro name member
    obtain ⟨-, s, rfl, k, -, decides⟩ := (mem_contributors_iff_decides single loaded).mp member
    exact List.mem_map_of_mem decides.mem
  rw [sublist_iff_pairs distinct l.nodup_contributors part]
  constructor
  · intro pairs s t pair here there
    have other : s ≠ t := by simpa using (distinct.of_map _).sublist pair
    refine (pair_sublist_contributors_iff_decidesFirst single distinct loaded other
      (pair.mem (by simp)) (pair.mem (by simp)) here there).mp ?_
    exact pairs _ _ (pair.map Source.name) here there
  · intro first a b pair here there
    obtain ⟨both, within, named⟩ := List.sublist_map_iff.mp pair
    obtain ⟨s, one, rfl, rfl, last⟩ := List.map_eq_cons_iff.mp named.symm
    obtain ⟨t, more, rfl, rfl, two⟩ := List.map_eq_cons_iff.mp last
    obtain rfl := List.map_eq_nil_iff.mp two
    have other : s ≠ t := by simpa using (distinct.of_map _).sublist within
    exact (pair_sublist_contributors_iff_decidesFirst single distinct loaded other
      (within.mem (by simp)) (within.mem (by simp)) here there).mpr (first s t within here there)

/-- Each source that decides a setting is told once, and no other. They are told in the order of
the sources where, of any two of them, the earlier source is the first to decide a setting. -/
theorem sources_follow_settings :
    l.sourcesUsed.Nodup ∧
    (∀ i, .innate i ∈ l.sourcesUsed ↔
      i.name ∈ l.keys ∧ (i = .parent ∨ ¬Given sources i.name)) ∧
    (∀ name, name ∈ l.contributors ↔
      name ≠ fromSchema ∧ ∃ s, s.name = name ∧ ∃ k ∈ l.keys, Decides sources k s) ∧
    (l.contributors.Sublist (sources.map Source.name) ↔
      ∀ s t, [s, t].Sublist sources → s.name ∈ l.contributors → t.name ∈ l.contributors →
        DecidesFirst sources l.keys s t) := by
  refine ⟨l.nodup_sourcesUsed, fun i => ?_, fun name => mem_contributors_iff_decides single loaded,
    contributors_sublist_iff single distinct loaded⟩
  rw [Loaded.mem_sourcesUsed_iff]
  constructor
  · rintro ⟨k, setting, told⟩
    obtain ⟨rfl, free⟩ := (explain_eq_innate_iff single loaded).mp told
    exact ⟨setting, free⟩
  · rintro ⟨setting, free⟩
    exact ⟨i.name, setting, (explain_eq_innate_iff single loaded).mpr ⟨rfl, free⟩⟩

end

theorem sources_follow_settings_of_crossing :
    let first : Source := ⟨"first", .ok [("REGION", .text "eu")]⟩
    let second : Source := ⟨"second", .ok [("LEVEL", .text "info")]⟩
    let schema : Schema := .fields [⟨"LEVEL", .text, .required⟩, ⟨"REGION", .text, .required⟩]
    ∃ l, load schema [first, second] = .ok l ∧ (∀ s ∈ [first, second], s.Single) ∧
      ([first, second].map Source.name).Nodup ∧ l.sourcesUsed.Nodup ∧
      (∀ name, name ∈ l.contributors ↔ name ≠ fromSchema ∧
        ∃ s, s.name = name ∧ ∃ k ∈ l.keys, Decides [first, second] k s) ∧
      ¬DecidesFirst [first, second] l.keys first second := by
  intro first second schema
  have single : ∀ s ∈ [first, second], s.Single := by
    simp only [List.forall_mem_cons, List.not_mem_nil, false_implies, implies_true, and_true]
    constructor
    · rintro _ ⟨⟩
      decide
    · rintro _ ⟨⟩
      decide
  have distinct : ([first, second].map Source.name).Nodup := by decide
  obtain ⟨l, loaded, told⟩ : ∃ l, load schema [first, second] = .ok l ∧
      l.contributors = ["second", "first"] := ⟨_, rfl, by decide +kernel⟩
  obtain ⟨once, -, members, ordered⟩ := sources_follow_settings single distinct loaded
  refine ⟨l, loaded, single, distinct, once, members, fun decides => ?_⟩
  have apart : ¬l.contributors.Sublist ([first, second].map Source.name) := by
    rw [told]
    decide
  refine apart (ordered.mpr fun s t pair _ _ => ?_)
  obtain ⟨rfl, rfl⟩ : s = first ∧ t = second := by
    simpa using pair.eq_of_length rfl
  exact decides

theorem later_source_is_told_first :
    let first : Source := ⟨"first", .ok [("REGION", .text "eu")]⟩
    let second : Source := ⟨"second", .ok [("LEVEL", .text "info")]⟩
    let schema : Schema := .fields [⟨"LEVEL", .text, .required⟩, ⟨"REGION", .text, .required⟩]
    ∃ l, load schema [first, second] = .ok l ∧
      l.sourcesUsed = [.named "second", .named "first"] ∧
      ¬l.contributors.Sublist ([first, second].map Source.name) := by
  refine ⟨_, rfl, by decide +kernel, by decide +kernel⟩

end WorkloadIdentity.Settings
