import WorkloadIdentity.Log.Printer

/-! What a printed entry says under a name. The tables that an entry is made of lie over one
another: the context of the first printer, the context of each child on the way, and the data of
the entry. The last of them that says something under a name decides, and one that only names it
decides nothing. -/

namespace WorkloadIdentity.Log

/-- What a table says under a name. A value that is absent says nothing. -/
def said? (key : String) (t : Table Value) : Option Value :=
  (Table.get? key t).filter fun v => !v.isAbsent

def lastSaid? (key : String) (layers : List (Table Value)) : Option Value :=
  (layers.filterMap (said? key)).getLast?

@[simp] theorem lastSaid?_nil (key : String) : lastSaid? key [] = none := rfl

theorem lastSaid?_cons (key : String) (t : Table Value) (layers : List (Table Value)) :
    lastSaid? key (t :: layers) = (lastSaid? key layers).or (said? key t) := by
  unfold lastSaid?
  cases h : said? key t with
  | none => rw [List.filterMap_cons_none h, Option.or_none]
  | some v => rw [List.filterMap_cons_some h, List.getLast?_cons, Option.or_some]

theorem lastSaid?_append (key : String) (front back : List (Table Value)) :
    lastSaid? key (front ++ back) = (lastSaid? key back).or (lastSaid? key front) := by
  simp [lastSaid?, List.filterMap_append, List.getLast?_append]

theorem lastSaid?_singleton (key : String) (t : Table Value) :
    lastSaid? key [t] = said? key t := by
  rw [lastSaid?_cons, lastSaid?_nil, Option.none_or]

theorem said?_cons (key k : String) (v : Value) (rest : Table Value) :
    said? key ((k, v) :: rest) =
      if k = key then (if v.isAbsent then none else some v) else said? key rest := by
  by_cases same : k = key
  · cases blank : v.isAbsent <;> simp [said?, Table.get?, same, Option.filter, blank]
  · simp [said?, Table.get?, same]

theorem ordered_defined {t : Table Value} (order : t.Ordered) : (defined t).Ordered :=
  order.filter _

theorem get?_defined {key : String} (free : key ≠ Innate.parent.name) {t : Table Value}
    (once : (Table.keys t).Nodup) : Table.get? key (defined t) = said? key t := by
  induction t with
  | nil => rfl
  | cons e rest ih =>
    obtain ⟨k, v⟩ := e
    obtain ⟨new, once⟩ := List.nodup_cons.mp once
    rw [said?_cons]
    by_cases same : k = key
    · subst same
      have silent : Table.get? k rest = none := Table.get?_eq_none_iff.mpr new
      rw [if_pos rfl]
      cases blank : v.isAbsent with
      | true =>
        have dropped : defined ((k, v) :: rest) = defined rest := by simp [defined, blank]
        rw [dropped, ih once, said?, silent]
        rfl
      | false =>
        have kept : defined ((k, v) :: rest) = (k, v) :: defined rest := by
          simp [defined, blank, free]
        rw [kept, Table.get?, if_pos rfl]
        rfl
    · rw [get?_defined_cons_of_ne same, if_neg same, ih once]

namespace Entry

variable {e : Entry} {key : String}

theorem get?_freeData_of_mem (own : key ∈ ownNames) : Table.get? key e.freeData = none := by
  refine Table.get?_eq_none_iff.mpr fun member => ?_
  obtain ⟨m, kept, rfl⟩ := List.mem_map.mp member
  have free := (List.mem_filter.mp kept).2
  simp only [Bool.not_eq_true', List.contains_eq_mem, decide_eq_false_iff_not] at free
  exact free own

theorem get?_freeData (free : key ∉ ownNames) (other : key ≠ Innate.parent.name)
    (order : Table.Ordered (e.data.getD [])) :
    Table.get? key e.freeData = said? key (e.data.getD []) := by
  rw [freeData, Table.get?_filter_key (fun k => !ownNames.contains k) (by simpa using free),
    get?_defined other order.nodup_keys]

theorem ordered_freeData (order : Table.Ordered (e.data.getD [])) : e.freeData.Ordered :=
  (ordered_defined order).filter _

theorem get?_own_of_free (free : key ∉ ownNames) : Table.get? key e.own = none :=
  Table.get?_eq_none_iff.mpr free

theorem ordered_own : Table.Ordered e.own := by
  change ownNames.Pairwise fun k l => k ≠ l ∧ Table.before l k = false
  decide

end Entry

namespace Printer

def descend (p : Printer) (contexts : List (Table Value)) : Printer := contexts.foldl child p

section
variable {p : Printer} {key : String}

theorem descend_cons (context : Table Value) (rest : List (Table Value)) :
    p.descend (context :: rest) = (p.child context).descend rest :=
  rfl

@[simp] theorem descend_threshold (contexts : List (Table Value)) :
    (p.descend contexts).threshold = p.threshold := by
  induction contexts generalizing p with
  | nil => rfl
  | cons c rest ih => exact ih

@[simp] theorem descend_pretty (contexts : List (Table Value)) :
    (p.descend contexts).pretty = p.pretty := by
  induction contexts generalizing p with
  | nil => rfl
  | cons c rest ih => exact ih

theorem get?_child (free : key ≠ Innate.parent.name) {context : Table Value}
    (order : context.Ordered) :
    Table.get? key (p.child context).context =
      (said? key context).or (Table.get? key p.context) := by
  rw [child, Table.get?_merge (ordered_defined order).nodup_keys,
    get?_defined free order.nodup_keys]

theorem get?_descend (free : key ≠ Innate.parent.name) {contexts : List (Table Value)}
    (order : ∀ t ∈ contexts, t.Ordered) :
    Table.get? key (p.descend contexts).context =
      (lastSaid? key contexts).or (Table.get? key p.context) := by
  induction contexts generalizing p with
  | nil => rfl
  | cons c rest ih =>
    obtain ⟨first, later⟩ := List.forall_mem_cons.mp order
    rw [descend_cons, ih later, get?_child free first, lastSaid?_cons, Option.or_assoc]

theorem ordered_descend (order : p.context.Ordered) (contexts : List (Table Value)) :
    (p.descend contexts).context.Ordered := by
  induction contexts generalizing p with
  | nil => exact order
  | cons c rest ih => exact ih (Table.ordered_merge order _)

/-- A member of an entry: the data say it, or else the context, or else it is its own. -/
theorem get?_members (context : p.context.Ordered) {e : Entry}
    (data : Table.Ordered (e.data.getD [])) (key : String) :
    Table.get? key (p.members e) =
      (Table.get? key e.freeData).or ((Table.get? key p.context).or (Table.get? key e.own)) := by
  rw [members, Table.get?_merge (Entry.ordered_freeData data).nodup_keys,
    Table.get?_merge context.nodup_keys]

theorem payload_eq (p : Printer) (e : Entry) : p.payload e =
    match Table.get? "err" (p.members e) with
    | some v => Table.put "err" (Level.value true (v.report e.loggedAt defaultCauseLimit))
        (p.members e)
    | none => p.members e :=
  rfl

theorem get?_payload_of_ne (other : key ≠ "err") (e : Entry) :
    Table.get? key (p.payload e) = Table.get? key (p.members e) := by
  rw [payload_eq]
  split
  · exact Table.get?_put_of_ne other _ _
  · rfl

theorem get?_payload_err (e : Entry) :
    Table.get? "err" (p.payload e) = (Table.get? "err" (p.members e)).map fun v =>
      Level.value true (v.report e.loggedAt defaultCauseLimit) := by
  rw [payload_eq]
  split
  · rename_i v found
    rw [Table.get?_put_self, found]
    rfl
  · rename_i silent
    rw [silent]
    rfl

theorem ordered_members (p : Printer) (e : Entry) : (p.members e).Ordered :=
  Table.ordered_merge (Table.ordered_merge Entry.ordered_own _) _

theorem ordered_payload (p : Printer) (e : Entry) : (p.payload e).Ordered := by
  rw [payload_eq]
  split
  · exact Table.ordered_put _ _ (p.ordered_members e)
  · exact p.ordered_members e

end

section
variable {threshold : Option Severity} {pretty : Bool} {c : Table Value} {cs : List (Table Value)}
  {e : Entry} {key : String}

theorem get?_context (free : key ≠ Innate.parent.name) (order : ∀ t ∈ c :: cs, t.Ordered) :
    Table.get? key ((make threshold pretty c).descend cs).context = lastSaid? key (c :: cs) := by
  obtain ⟨first, later⟩ := List.forall_mem_cons.mp order
  rw [get?_descend free later, make, get?_defined free first.nodup_keys, lastSaid?_cons]

theorem ordered_context (order : ∀ t ∈ c :: cs, t.Ordered) :
    ((make threshold pretty c).descend cs).context.Ordered :=
  ordered_descend (ordered_defined (order c (List.mem_cons_self ..))) cs

theorem get?_members_of_free (own : key ∉ ownNames) (free : key ≠ Innate.parent.name)
    (order : ∀ t ∈ c :: cs, t.Ordered) (data : Table.Ordered (e.data.getD [])) :
    Table.get? key (((make threshold pretty c).descend cs).members e) =
      lastSaid? key (c :: cs ++ [e.data.getD []]) := by
  rw [get?_members (ordered_context order) data, Entry.get?_freeData own free data,
    get?_context free order, Entry.get?_own_of_free own, Option.or_none, lastSaid?_append,
    lastSaid?_singleton]

theorem get?_members_of_own (own : key ∈ ownNames) (order : ∀ t ∈ c :: cs, t.Ordered)
    (data : Table.Ordered (e.data.getD [])) :
    Table.get? key (((make threshold pretty c).descend cs).members e) =
      (lastSaid? key (c :: cs)).or (Table.get? key e.own) := by
  have free : key ≠ Innate.parent.name := by
    rintro rfl
    exact absurd own (by decide)
  rw [get?_members (ordered_context order) data, Entry.get?_freeData_of_mem own,
    get?_context free order, Option.none_or]

end

end Printer

end WorkloadIdentity.Log
