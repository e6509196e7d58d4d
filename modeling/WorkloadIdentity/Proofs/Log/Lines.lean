import WorkloadIdentity.Proofs.Json.ReadBack
import WorkloadIdentity.Proofs.Log.Layers

/-! Every entry that is severe enough has a text, whatever it holds. What cannot be written as
JSON is replaced by an object that says so, and a pretty text needs no more than the texts of
the members that an entry has by itself. -/

namespace WorkloadIdentity.Log

theorem exists_jsonText (now : Int) (payload : Table Value) :
    ∃ members, jsonText now payload = (Json.object members).render := by
  unfold jsonText
  rw [Value.json?]
  cases Value.fieldsJson now payload with
  | error u => exact ⟨_, rfl⟩
  | ok members => exact ⟨members, rfl⟩

theorem read?_jsonText (now : Int) (payload : Table Value) :
    ∃ members, Json.read? (jsonText now payload) = some (.object members) := by
  obtain ⟨members, same⟩ := exists_jsonText now payload
  exact ⟨_, by rw [same, Json.read?_render, Json.reread]⟩

theorem printable_jsonText (now : Int) (payload : Table Value) :
    Json.Printable (jsonText now payload).toList := by
  obtain ⟨members, same⟩ := exists_jsonText now payload
  rw [same, Json.render, String.toList_ofList]
  exact Json.printable_chars _

theorem exists_headline? (now : Int) {payload : Table Value}
    (shown : ∀ key ∈ ownNames, (partText? key payload).isSome) :
    ∃ s, headline? now payload = some s := by
  obtain ⟨time, written⟩ := Option.isSome_iff_exists.mp (shown "timestamp" (by decide))
  obtain ⟨level, named⟩ := Option.isSome_iff_exists.mp (shown "level" (by decide))
  obtain ⟨message, worded⟩ := Option.isSome_iff_exists.mp (shown "message" (by decide))
  unfold headline?
  rw [written, named, worded]
  exact ⟨_, rfl⟩

namespace Printer

/-- A context does not name a member that an entry has by itself. -/
def Free (context : Table Value) : Prop := ∀ key ∈ ownNames, key ∉ Table.keys context

theorem free_defined {context : Table Value} (free : Free context) : Free (defined context) :=
  fun key own member => free key own ((Table.keys_filter_sublist _ context).subset member)

theorem free_descend {p : Printer} (free : Free p.context) {contexts : List (Table Value)}
    (later : ∀ t ∈ contexts, Free t) : Free (p.descend contexts).context := by
  induction contexts generalizing p with
  | nil => exact free
  | cons c rest ih =>
    obtain ⟨first, later⟩ := List.forall_mem_cons.mp later
    refine ih (fun key own member => ?_) later
    rcases (Table.mem_keys_merge _ _).mp member with there | there
    · exact free key own there
    · exact free_defined first key own there

theorem get?_payload_of_free {p : Printer} (free : Free p.context) (e : Entry) {key : String}
    (own : key ∈ ownNames) : Table.get? key (p.payload e) = Table.get? key e.own := by
  have other : key ≠ "err" := by
    rintro rfl
    exact absurd own (by decide)
  have silent : key ∉ Table.keys e.freeData :=
    Table.get?_eq_none_iff.mp (Entry.get?_freeData_of_mem own)
  rw [get?_payload_of_ne other, members, Table.get?_merge_of_not_mem _ silent,
    Table.get?_merge_of_not_mem _ (free key own)]

theorem exists_text? {p : Printer} (free : p.pretty = true → Free p.context) (e : Entry) :
    ∃ s, p.text? e = some s := by
  unfold text?
  cases style : p.pretty with
  | false => exact ⟨_, rfl⟩
  | true =>
    have shown : ∀ key ∈ ownNames, (partText? key (p.payload e)).isSome := by
      intro key own
      rw [partText?, get?_payload_of_free (free style) e own]
      revert key
      simp [ownNames, Entry.own, Table.get?, Value.display?]
    obtain ⟨headline, found⟩ := exists_headline? e.loggedAt shown
    exact ⟨_, by rw [if_pos rfl, prettyText?, found]; rfl⟩

/-- Printing does not fail over what it is to print. An entry that is severe enough is printed once,
in the place of its severity, any other is not, and without pretty printing it is one line that is
read as an object. -/
theorem every_entry_is_printed (threshold : Option Severity) (pretty : Bool) (c : Table Value)
    (cs : List (Table Value)) (e : Entry) (free : pretty = true → ∀ t ∈ c :: cs, Free t) :
    let p := (make threshold pretty c).descend cs
    (e.severity.passes threshold = false → p.print? e = .ok none) ∧
    (e.severity.passes threshold = true → ∃ s, p.print? e = .ok (some (e.severity.channel, s)) ∧
      (pretty = false → Json.Printable s.toList ∧
        ∃ members, Json.read? s = some (.object members))) := by
  intro p
  have limit : p.threshold = threshold := descend_threshold cs
  have style : p.pretty = pretty := descend_pretty cs
  refine ⟨fun low => by rw [print?, limit, low]; rfl, fun high => ?_⟩
  have named : p.pretty = true → Free p.context := by
    intro lines
    obtain ⟨first, later⟩ := List.forall_mem_cons.mp (free (style ▸ lines))
    exact free_descend (free_defined first) later
  obtain ⟨s, written⟩ := exists_text? named e
  refine ⟨s, by rw [print?, limit, if_pos high, written], fun plain => ?_⟩
  obtain rfl : jsonText e.loggedAt (p.payload e) = s := by
    rw [text?_of_not_pretty (style.trans plain)] at written
    exact Option.some.inj written
  exact ⟨printable_jsonText _ _, read?_jsonText _ _⟩

theorem every_entry_is_printed_of_circle :
    let p := (make (some .info) true [("module", .text "source")]).descend
      [[("loop", .record [("self", .back 0)])]]
    let e : Entry := {
      severity := .fatal, message := "watch error", loggedAt := 0,
      data := some [("level", .integer 1),
        ("err", .fault (.foreign { kind := "Error", message := "lost" } (.back 0)))] }
    ∃ s, p.print? e = .ok (some (.error, s)) := by
  intro p e
  have free : ∀ t ∈ [[("module", .text "source")], [("loop", .record [("self", .back 0)])]],
      Free t := by
    simp [Free, ownNames, Table.keys]
  obtain ⟨s, printed, -⟩ := (every_entry_is_printed (some .info) true _ _ e fun _ => free).2 rfl
  exact ⟨s, printed⟩

end Printer

end WorkloadIdentity.Log
