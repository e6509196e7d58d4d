import WorkloadIdentity.Proofs.Log.Layers

/-! Printers in memory. A program keeps records that can be written in place, and each printer keeps
one of them as its context. It strips what it is handed into a record that it has just made, and
writes into no other, so that no printer changes once there is one. -/

namespace WorkloadIdentity.Log

/-- A printer that has its context in a record. -/
structure Holder where
  threshold : Option Severity
  pretty : Bool
  record : Nat

/-- The records and the printers that there are so far. -/
structure Desk where
  records : List (Table Value) := []
  holders : List Holder := []

namespace Desk

def read (d : Desk) (i : Nat) : Table Value := d.records[i]?.getD []

def add (d : Desk) (t : Table Value) : Desk × Nat :=
  ({ d with records := d.records ++ [t] }, d.records.length)

def alter (d : Desk) (i : Nat) (f : Table Value → Table Value) : Desk :=
  { d with records := d.records.set i (f (d.read i)) }

/-- Sets a member of a record. Under the name of the parent that sets the parent. -/
def assign (d : Desk) (i : Nat) (m : String × Value) : Desk :=
  if m.1 = Innate.parent.name then d else d.alter i (Table.put m.1 m.2)

/-- A new record with those members of another that are not absent. -/
def strip (d : Desk) (i : Nat) : Desk × Nat :=
  let (made, o) := d.add []
  ((d.read i).foldl (fun made m => if m.2.isAbsent then made else made.assign o m) made, o)

def spread (d : Desk) (front : Table Value) (places : List Nat) : Desk × Nat :=
  d.add (places.foldl (fun t i => Table.merge t (d.read i)) front)

def place (d : Desk) (h : Holder) : Desk := { d with holders := d.holders ++ [h] }

def install (d : Desk) (threshold : Option Severity) (pretty : Bool) (i : Nat) : Desk :=
  let (d, record) := d.strip i
  d.place { threshold, pretty, record }

def derive (d : Desk) (h : Holder) (i : Nat) : Desk :=
  let (d, further) := d.strip i
  let (d, both) := d.spread [] [h.record, further]
  d.install h.threshold h.pretty both

structure Call where
  severity : Severity
  message : String
  data : Option Nat := none
  calledAt : Int

def Call.entry (c : Call) (d : Desk) : Entry where
  severity := c.severity
  message := c.message
  data := c.data.map d.read
  loggedAt := c.calledAt

def tell (d : Desk) (now : Int) (payload : Nat) : Desk :=
  match Table.get? "err" (d.read payload) with
  | some v =>
    if v.isAbsent then d
    else d.assign payload ("err", Level.value true (v.report now defaultCauseLimit))
  | none => d

def write (d : Desk) (h : Holder) (c : Call) : Desk × Nat :=
  let e := c.entry d
  let (d, free) := match c.data with
    | some i => d.strip i
    | none => d.add []
  let d := ownNames.foldl (fun d key => d.alter free (Table.erase key)) d
  let (d, payload) := d.spread e.own [h.record, free]
  (d.tell e.loggedAt payload, payload)

def leave (d : Desk) (payload : Nat) : Desk × Nat :=
  let (made, rest) :=
    d.add ((d.read payload).filter fun m => !ownNames.contains m.1 && m.1 ≠ "err")
  match Table.get? "err" (d.read payload) with
  | some v => (made.assign rest ("err", withoutStack v), rest)
  | none => (made, rest)

def log (d : Desk) (h : Holder) (c : Call) : Desk × Option Nat :=
  if c.severity.passes h.threshold then
    let (d, payload) := d.write h c
    (if h.pretty then (d.leave payload).1 else d, some payload)
  else (d, none)

/-- What can be done at a desk. A printer that is not there does nothing. -/
inductive Action where
  | hold (entries : List (String × Value))
  | make (threshold : Option Severity) (pretty : Bool) (i : Nat)
  | child (l i : Nat)
  | log (l : Nat) (c : Call)

def perform (d : Desk) : Action → Desk
  | .hold entries => (d.add (Table.ofList entries)).1
  | .make threshold pretty i => d.install threshold pretty i
  | .child l i =>
    match d.holders[l]? with
    | some h => d.derive h i
    | none => d
  | .log l c =>
    match d.holders[l]? with
    | some h => (d.log h c).1
    | none => d

def run (d : Desk) (actions : List Action) : Desk := actions.foldl perform d

def logged? (d : Desk) (l : Nat) (c : Call) : Option (Table Value) :=
  d.holders[l]?.bind fun h =>
    let (d, payload) := d.log h c
    payload.map d.read

section
variable (d : Desk)

@[simp] theorem add_snd (t : Table Value) : (d.add t).2 = d.records.length := rfl

theorem lt_length_add (t : Table Value) : d.records.length < (d.add t).1.records.length := by
  simp [add]

theorem read_add (t : Table Value) : (d.add t).1.read d.records.length = t := by
  simp [add, read]

theorem alter_add (t : Table Value) (f : Table Value → Table Value) :
    (d.add t).1.alter d.records.length f = (d.add (f t)).1 := by
  rw [alter, read_add]
  simp [add]

theorem assign_add (t : Table Value) {m : String × Value} (free : m.1 ≠ Innate.parent.name) :
    (d.add t).1.assign d.records.length m = (d.add (Table.put m.1 m.2 t)).1 := by
  rw [assign, if_neg free, alter_add]

theorem foldl_assign_add (t fields : Table Value) :
    fields.foldl (fun made m =>
        if m.2.isAbsent then made else made.assign d.records.length m) (d.add t).1 =
      (d.add (Table.merge t (defined fields))).1 := by
  induction fields generalizing t with
  | nil => rfl
  | cons m rest ih =>
    rw [List.foldl_cons]
    cases blank : m.2.isAbsent with
    | true =>
      have dropped : defined (m :: rest) = defined rest := by simp [defined, blank]
      rw [if_pos rfl, ih, dropped]
    | false =>
      rw [if_neg Bool.false_ne_true]
      by_cases parent : m.1 = Innate.parent.name
      · have dropped : defined (m :: rest) = defined rest := by simp [defined, parent]
        rw [assign, if_pos parent, ih, dropped]
      · have kept : defined (m :: rest) = m :: defined rest := by simp [defined, blank, parent]
        rw [assign_add _ _ parent, ih, kept, Table.merge_cons]

theorem strip_eq (i : Nat) : d.strip i = d.add (Table.ofList (defined (d.read i))) :=
  Prod.ext (d.foldl_assign_add [] (d.read i)) rfl

theorem foldl_erase_add (names : List String) (t : Table Value) :
    names.foldl (fun made key => made.alter d.records.length (Table.erase key)) (d.add t).1 =
      (d.add (t.filter fun m => !names.contains m.1)).1 := by
  induction names generalizing t with
  | nil =>
    have all : t.filter (fun m => !([] : List String).contains m.1) = t :=
      List.filter_eq_self.mpr fun m member => rfl
    rw [all, List.foldl_nil]
  | cons key rest ih =>
    rw [List.foldl_cons, alter_add, ih, Table.erase, List.filter_filter]
    congr 3
    funext m
    simp [Bool.and_comm]

end

def printer (d : Desk) (h : Holder) : Printer where
  threshold := h.threshold
  pretty := h.pretty
  context := d.read h.record

def printers (d : Desk) : List Printer := d.holders.map d.printer

def Settled (t : Table Value) : Prop := ∀ m ∈ t, m.2.isAbsent = false ∧ m.1 ≠ Innate.parent.name

theorem settled_defined (t : Table Value) : Settled (defined t) := by
  intro m member
  simpa [Bool.and_eq_true] using (List.mem_filter.mp member).2

theorem defined_of_settled {t : Table Value} (settled : Settled t) : defined t = t :=
  List.filter_eq_self.mpr fun m member => by simp [settled m member]

theorem settled_merge {base later : Table Value} (first : Settled base) (last : Settled later) :
    Settled (Table.merge base later) :=
  fun m member => (Table.mem_merge member).elim (first m) (last m)

/-- Records have their members in order, and a printer keeps one in which nothing is absent. -/
structure Sound (d : Desk) : Prop where
  ordered : ∀ t ∈ d.records, t.Ordered
  held : ∀ h ∈ d.holders, h.record < d.records.length
  settled : ∀ h ∈ d.holders, Settled (d.read h.record)

structure Extends (d d' : Desk) : Prop where
  records : d.records <+: d'.records
  holders : d.holders <+: d'.holders

theorem Extends.refl (d : Desk) : Extends d d := ⟨List.prefix_rfl, List.prefix_rfl⟩

theorem Extends.trans {d d' d'' : Desk} (first : Extends d d') (second : Extends d' d'') :
    Extends d d'' :=
  ⟨first.records.trans second.records, first.holders.trans second.holders⟩

theorem Extends.read_eq {d d' : Desk} (more : Extends d d') {i : Nat}
    (there : i < d.records.length) : d'.read i = d.read i := by
  obtain ⟨rest, same⟩ := more.records
  rw [read, read, ← same, List.getElem?_append_left there]

section
variable {d : Desk}

theorem extends_add (t : Table Value) : Extends d (d.add t).1 :=
  ⟨List.prefix_append _ _, List.prefix_rfl⟩

theorem Sound.ordered_read (sound : d.Sound) (i : Nat) : (d.read i).Ordered := by
  unfold read
  cases found : d.records[i]? with
  | none => exact Table.ordered_nil
  | some t => exact sound.ordered t (List.mem_of_getElem? found)

theorem Sound.add (sound : d.Sound) {t : Table Value} (order : t.Ordered) : (d.add t).1.Sound where
  ordered := by
    intro u member
    rcases List.mem_append.mp member with there | last
    · exact sound.ordered u there
    · exact List.mem_singleton.mp last ▸ order
  held h member := Nat.lt_of_lt_of_le (sound.held h member) (extends_add t).records.length_le
  settled h member := by
    rw [(extends_add t).read_eq (sound.held h member)]
    exact sound.settled h member

/-- A sound desk that has more records than another, and the same printers. -/
structure Filed (d d' : Desk) : Prop where
  sound : d'.Sound
  more : Extends d d'
  printers : d'.printers = d.printers

theorem Sound.filed (sound : d.Sound) : Filed d d := ⟨sound, .refl d, rfl⟩

theorem Filed.add {d d' : Desk} (filed : Filed d d') {t : Table Value} (order : t.Ordered) :
    Filed d (d'.add t).1 where
  sound := filed.sound.add order
  more := filed.more.trans (extends_add t)
  printers := by
    refine Eq.trans (List.map_congr_left fun h member => ?_) filed.printers
    rw [printer, (extends_add t).read_eq (filed.sound.held h member), ← printer]

theorem Sound.place (sound : d.Sound) {h : Holder} (held : h.record < d.records.length)
    (settled : Settled (d.read h.record)) : (d.place h).Sound where
  ordered := sound.ordered
  held g member := by
    rcases List.mem_append.mp member with there | last
    · exact sound.held g there
    · exact List.mem_singleton.mp last ▸ held
  settled g member := by
    rcases List.mem_append.mp member with there | last
    · exact sound.settled g there
    · exact List.mem_singleton.mp last ▸ settled

theorem printers_place (d : Desk) (h : Holder) :
    (d.place h).printers = d.printers ++ [d.printer h] :=
  List.map_append

theorem extends_place (h : Holder) : Extends d (d.place h) :=
  ⟨List.prefix_rfl, List.prefix_append _ _⟩

theorem Sound.strip_eq (sound : d.Sound) (i : Nat) : d.strip i = d.add (defined (d.read i)) := by
  rw [Desk.strip_eq, Table.ofList_of_ordered (ordered_defined (sound.ordered_read i))]

theorem Sound.install_eq (sound : d.Sound) (threshold : Option Severity) (pretty : Bool) (i : Nat) :
    d.install threshold pretty i =
      (d.add (defined (d.read i))).1.place { threshold, pretty, record := d.records.length } := by
  rw [install, sound.strip_eq]
  rfl

theorem Sound.install (sound : d.Sound) (threshold : Option Severity) (pretty : Bool) (i : Nat) :
    (d.install threshold pretty i).Sound := by
  rw [sound.install_eq]
  refine (sound.add (ordered_defined (sound.ordered_read i))).place (d.lt_length_add _) ?_
  rw [d.read_add]
  exact settled_defined _

theorem extends_install (sound : d.Sound) (threshold : Option Severity) (pretty : Bool) (i : Nat) :
    Extends d (d.install threshold pretty i) := by
  rw [sound.install_eq]
  exact (extends_add _).trans (extends_place _)

theorem Sound.printers_install (sound : d.Sound) (threshold : Option Severity) (pretty : Bool)
    (i : Nat) : (d.install threshold pretty i).printers =
      d.printers ++ [Printer.make threshold pretty (d.read i)] := by
  have filed := sound.filed.add (ordered_defined (sound.ordered_read i))
  rw [sound.install_eq, printers_place, filed.printers, printer, d.read_add]
  rfl

theorem Sound.derive_eq (sound : d.Sound) {h : Holder} (member : h ∈ d.holders) (i : Nat) :
    d.derive h i =
      let further := (d.add (defined (d.read i))).1
      (further.add (Table.merge (d.read h.record) (defined (d.read i)))).1.install h.threshold
        h.pretty further.records.length := by
  have context : Table.merge [] (d.read h.record) = d.read h.record :=
    Table.ofList_of_ordered (sound.ordered_read _)
  rw [derive, sound.strip_eq]
  simp only [spread, List.foldl_cons, List.foldl_nil, add_snd]
  rw [d.read_add, (extends_add _).read_eq (sound.held h member), context]

theorem Sound.filed_derive (sound : d.Sound) (h : Holder) (i : Nat) :
    Filed d ((d.add (defined (d.read i))).1.add
      (Table.merge (d.read h.record) (defined (d.read i)))).1 :=
  (sound.filed.add (ordered_defined (sound.ordered_read i))).add
    (Table.ordered_merge (sound.ordered_read h.record) _)

theorem Sound.derive (sound : d.Sound) {h : Holder} (member : h ∈ d.holders) (i : Nat) :
    (d.derive h i).Sound := by
  rw [sound.derive_eq member]
  exact (sound.filed_derive h i).sound.install _ _ _

theorem extends_derive (sound : d.Sound) {h : Holder} (member : h ∈ d.holders) (i : Nat) :
    Extends d (d.derive h i) := by
  have filed := sound.filed_derive h i
  rw [sound.derive_eq member]
  exact filed.more.trans (extends_install filed.sound _ _ _)

theorem Sound.printers_derive (sound : d.Sound) {h : Holder} (member : h ∈ d.holders) (i : Nat) :
    (d.derive h i).printers = d.printers ++ [(d.printer h).child (d.read i)] := by
  have filed := sound.filed_derive h i
  have both := settled_merge (sound.settled h member) (settled_defined (d.read i))
  rw [sound.derive_eq member, filed.sound.printers_install, filed.printers, Desk.read_add,
    Printer.make, defined_of_settled both]
  rfl

theorem isAbsent_of_get?_members {p : Printer} (context : Settled p.context) {e : Entry}
    {key : String} {v : Value} (found : Table.get? key (p.members e) = some v) :
    v.isAbsent = false := by
  rcases Table.mem_merge (Table.mem_of_get? found) with earlier | data
  · rcases Table.mem_merge earlier with own | bound
    · simp only [Entry.own, List.mem_cons, List.not_mem_nil, or_false, Prod.mk.injEq] at own
      rcases own with ⟨-, rfl⟩ | ⟨-, rfl⟩ | ⟨-, rfl⟩ <;> rfl
    · exact (context _ bound).1
  · exact (settled_defined _ _ (List.mem_filter.mp data).1).1

theorem Sound.data_eq (sound : d.Sound) (c : Call) :
    (match c.data with
      | some i => d.strip i
      | none => d.add []) = d.add (defined ((c.entry d).data.getD [])) := by
  unfold Call.entry
  cases c.data with
  | none => rfl
  | some i => exact sound.strip_eq i

theorem Sound.spread_eq (sound : d.Sound) {h : Holder} (member : h ∈ d.holders) (e : Entry) :
    (d.add e.freeData).1.spread e.own [h.record, d.records.length] =
      (d.add e.freeData).1.add ((d.printer h).members e) := by
  rw [spread, List.foldl_cons, List.foldl_cons, List.foldl_nil, d.read_add,
    (extends_add _).read_eq (sound.held h member)]
  rfl

theorem tell_add {p : Printer} (context : Settled p.context) (e : Entry) :
    (d.add (p.members e)).1.tell e.loggedAt d.records.length = (d.add (p.payload e)).1 := by
  rw [tell, d.read_add, Printer.payload_eq]
  cases found : Table.get? "err" (p.members e) with
  | none => rfl
  | some v =>
    have there := isAbsent_of_get?_members context found
    have free : "err" ≠ Innate.parent.name := by decide
    simp only [there, Bool.false_eq_true, if_false]
    exact d.assign_add _ free

theorem Sound.write_eq (sound : d.Sound) {h : Holder} (member : h ∈ d.holders) (c : Call) :
    d.write h c = (d.add (c.entry d).freeData).1.add ((d.printer h).payload (c.entry d)) := by
  have erased := d.foldl_erase_add ownNames (defined ((c.entry d).data.getD []))
  rw [← Entry.freeData] at erased
  rw [write, sound.data_eq]
  simp only [add_snd, erased, sound.spread_eq member]
  exact Prod.ext (tell_add (p := d.printer h) (sound.settled h member) (c.entry d)) rfl

theorem leave_eq (payload : Nat) : d.leave payload = d.add (remainder (d.read payload)) := by
  have free : "err" ≠ Innate.parent.name := by decide
  unfold leave remainder
  cases Table.get? "err" (d.read payload) with
  | none => rfl
  | some v => exact Prod.ext (d.assign_add _ (m := ("err", withoutStack v)) free) rfl

theorem ordered_remainder {payload : Table Value} (order : payload.Ordered) :
    (remainder payload).Ordered := by
  unfold remainder
  cases Table.get? "err" payload with
  | none => exact order.filter _
  | some v => exact Table.ordered_put _ _ (order.filter _)

theorem Call.ordered_data (c : Call) (sound : d.Sound) :
    Table.Ordered ((c.entry d).data.getD []) := by
  unfold Call.entry
  cases c.data with
  | none => exact Table.ordered_nil
  | some i => exact sound.ordered_read i

theorem Sound.filed_log (sound : d.Sound) {h : Holder} (member : h ∈ d.holders) (c : Call) :
    Filed d (d.log h c).1 := by
  have free := sound.filed.add (Entry.ordered_freeData (c.ordered_data sound))
  have written := free.add ((d.printer h).ordered_payload (c.entry d))
  rw [log, sound.write_eq member]
  cases c.severity.passes h.threshold with
  | false => exact sound.filed
  | true =>
    cases style : h.pretty with
    | false => simpa [style] using written
    | true =>
      simp only [if_true, leave_eq]
      exact written.add (ordered_remainder (written.sound.ordered_read _))

theorem Sound.read_log (sound : d.Sound) {h : Holder} (member : h ∈ d.holders) (c : Call) :
    (d.log h c).2.map (d.log h c).1.read =
      if c.severity.passes h.threshold then some ((d.printer h).payload (c.entry d)) else none := by
  rw [log, sound.write_eq member]
  cases c.severity.passes h.threshold with
  | false => rfl
  | true =>
    have made := (d.add (c.entry d).freeData).1.read_add ((d.printer h).payload (c.entry d))
    simp only [if_true, leave_eq, Option.map_some]
    cases h.pretty with
    | false => exact congrArg some made
    | true => exact congrArg some (((extends_add _).read_eq (Desk.lt_length_add _ _)).trans made)

theorem Sound.perform (sound : d.Sound) (a : Action) : (d.perform a).Sound := by
  cases a with
  | hold entries => exact sound.add (Table.ordered_ofList entries)
  | make threshold pretty i => exact sound.install threshold pretty i
  | child l i =>
    rw [Desk.perform]
    split
    · rename_i h found
      exact sound.derive (List.mem_of_getElem? found) i
    · exact sound
  | log l c =>
    rw [Desk.perform]
    split
    · rename_i h found
      exact (sound.filed_log (List.mem_of_getElem? found) c).sound
    · exact sound

theorem extends_perform (sound : d.Sound) (a : Action) : Extends d (d.perform a) := by
  cases a with
  | hold entries => exact extends_add _
  | make threshold pretty i => exact extends_install sound threshold pretty i
  | child l i =>
    rw [Desk.perform]
    split
    · rename_i h found
      exact extends_derive sound (List.mem_of_getElem? found) i
    · exact .refl d
  | log l c =>
    rw [Desk.perform]
    split
    · rename_i h found
      exact (sound.filed_log (List.mem_of_getElem? found) c).more
    · exact .refl d

theorem Sound.run (sound : d.Sound) (actions : List Action) : (d.run actions).Sound := by
  induction actions generalizing d with
  | nil => exact sound
  | cons a rest ih => exact ih (sound.perform a)

theorem extends_run (sound : d.Sound) (actions : List Action) : Extends d (d.run actions) := by
  induction actions generalizing d with
  | nil => exact .refl d
  | cons a rest ih => exact (extends_perform sound a).trans (ih (sound.perform a))

theorem sound_empty : Sound {} where
  ordered := by rintro t ⟨⟩
  held := by rintro h ⟨⟩
  settled := by rintro h ⟨⟩

theorem getElem?_printers (l : Nat) : d.printers[l]? = d.holders[l]?.map d.printer :=
  List.getElem?_map ..

theorem Sound.logged?_eq (sound : d.Sound) (l : Nat) (c : Call) :
    d.logged? l c = d.printers[l]?.bind fun p =>
      if c.severity.passes p.threshold then some (p.payload (c.entry d)) else none := by
  rw [logged?, getElem?_printers]
  cases found : d.holders[l]? with
  | none => rfl
  | some h => exact sound.read_log (List.mem_of_getElem? found) c

/-- No action changes a printer. -/
theorem Sound.printers_run (sound : d.Sound) (actions : List Action) :
    d.printers <+: (d.run actions).printers := by
  have more := extends_run sound actions
  obtain ⟨rest, same⟩ := more.holders
  refine ⟨rest.map (d.run actions).printer, ?_⟩
  rw [printers, printers, ← same, List.map_append]
  congr 1
  refine List.map_congr_left fun h member => ?_
  rw [printer, printer, more.read_eq (sound.held h member)]

theorem Extends.entry_eq {d' : Desk} (more : Extends d d') {c : Call}
    (there : ∀ i ∈ c.data, i < d.records.length) : c.entry d' = c.entry d := by
  unfold Call.entry
  congr 1
  cases h : c.data with
  | none => rfl
  | some i => exact congrArg some (more.read_eq (there i h))

theorem Sound.logged?_run (sound : d.Sound) (actions : List Action) {l : Nat}
    (printer : l < d.printers.length) {c : Call} (data : ∀ i ∈ c.data, i < d.records.length) :
    (d.run actions).logged? l c = d.logged? l c := by
  obtain ⟨rest, same⟩ := sound.printers_run actions
  rw [(sound.run actions).logged?_eq, sound.logged?_eq, (extends_run sound actions).entry_eq data,
    ← same, List.getElem?_append_left printer]

end

end Desk

namespace Printer

/-- Under a free name an entry holds what the last of its layers says that says something: the
contexts on the way to its printer, and its data. A fault is told as a report. What has been done in
memory before, and is done later, changes no printer: one is made of the record that it is
handed, a child of its parent's context and then of its own, and what an entry holds is the
same after any actions with any printers. -/
theorem last_layer_wins (threshold : Option Severity) (pretty : Bool) (c : Table Value)
    (cs : List (Table Value)) (e : Entry) (order : ∀ t ∈ c :: cs, t.Ordered)
    (data : Table.Ordered (e.data.getD [])) :
    let p := (make threshold pretty c).descend cs
    let layers := c :: cs ++ [e.data.getD []]
    (∀ key ∉ ownNames, key ≠ Innate.parent.name → key ≠ "err" →
      Table.get? key (p.payload e) = lastSaid? key layers) ∧
    Table.get? "err" (p.payload e) = (lastSaid? "err" layers).map (fun v =>
      Level.value true (v.report e.loggedAt defaultCauseLimit)) ∧
    ∀ actions : List Desk.Action,
      let d := ({} : Desk).run actions
      (∀ threshold pretty i, (d.perform (.make threshold pretty i)).printers =
        d.printers ++ [make threshold pretty (d.read i)]) ∧
      (∀ l i q, d.printers[l]? = some q →
        (d.perform (.child l i)).printers = d.printers ++ [q.child (d.read i)]) ∧
      (∀ l call q, d.printers[l]? = some q → call.severity.passes q.threshold = true →
        d.logged? l call = some (q.payload (call.entry d))) ∧
      ∀ later l call, l < d.printers.length → (∀ i ∈ call.data, i < d.records.length) →
        (d.run later).logged? l call = d.logged? l call := by
  intro p layers
  refine ⟨fun key own free other => ?_, ?_, fun actions => ?_⟩
  · rw [get?_payload_of_ne other, get?_members_of_free own free order data]
  · rw [get?_payload_err, get?_members_of_free (by decide) (by decide) order data]
  · intro d
    have sound : d.Sound := Desk.sound_empty.run actions
    refine ⟨sound.printers_install, fun l i q found => ?_, fun l call q found high => ?_,
      fun later l call there known => sound.logged?_run later there known⟩
    · obtain ⟨h, held, rfl⟩ : ∃ h, d.holders[l]? = some h ∧ d.printer h = q := by
        rwa [Desk.getElem?_printers, Option.map_eq_some_iff] at found
      rw [Desk.perform, held]
      exact sound.printers_derive (List.mem_of_getElem? held) i
    · rw [sound.logged?_eq, found, Option.bind_some, if_pos high]

theorem last_layer_wins_of_absent :
    let p := (make (some .info) false [("module", .text "source")]).descend
      [[("module", .absent), ("env", .text "test")], [("module", .text "watch")]]
    let e : Entry := {
      severity := .info, message := "hello", loggedAt := 0,
      data := some [("env", .absent), ("version", .null)] }
    Table.get? "module" (p.payload e) = some (.text "watch") ∧
      Table.get? "env" (p.payload e) = some (.text "test") ∧
      Table.get? "version" (p.payload e) = some .null ∧ Table.get? "err" (p.payload e) = none := by
  intro p e
  have order : ∀ t ∈ ([[("module", .text "source")], [("module", .absent), ("env", .text "test")],
      [("module", .text "watch")]] : List (Table Value)), t.Ordered := by
    simp [Table.Ordered, Table.keys]
    decide
  have data : Table.Ordered (e.data.getD []) := by
    simp [e, Table.Ordered, Table.keys]
    decide
  obtain ⟨free, err, -⟩ := last_layer_wins (some .info) false _ [[("module", .absent),
    ("env", .text "test")], [("module", .text "watch")]] e order data
  exact ⟨free "module" (by decide) (by decide) (by decide),
    free "env" (by decide) (by decide) (by decide),
    free "version" (by decide) (by decide) (by decide), err⟩

end Printer

end WorkloadIdentity.Log
