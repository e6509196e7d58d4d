import WorkloadIdentity.Proofs.Log.Lines

/-! The members that an entry has by itself, in its text. No data take their place, since data are
not free to name them, but a context is: what the last context says under such a name stands there,
and is what a reader finds. -/

namespace WorkloadIdentity

namespace Json

theorem keys_rereadMembers (ms : List (String × Json)) :
    Table.keys (rereadMembers ms) = Table.keys ms := by
  induction ms with
  | nil => rfl
  | cons m rest ih => exact congrArg (m.1 :: ·) ih

theorem get?_rereadMembers (key : String) (ms : List (String × Json)) :
    Table.get? key (rereadMembers ms) = (Table.get? key ms).map reread := by
  induction ms with
  | nil => rfl
  | cons m rest ih =>
    obtain ⟨k, j⟩ := m
    by_cases same : k = key
    · simp [rereadMembers, Table.get?, same]
    · simpa [rereadMembers, Table.get?, same] using ih

theorem reread_eq_text {j : Json} {s : String} : j.reread = .text s ↔ j = .text s := by
  cases j with
  | number x =>
    rw [reread]
    cases number? (numberChars x) <;> simp
  | _ => simp [reread]

end Json

theorem Level.json_ne_text (report : List (Level (Table Json))) (s : String) :
    Level.json report ≠ .text s := by
  unfold json
  match report with
  | [] => rintro ⟨⟩
  | [l] => rintro ⟨⟩
  | l :: m :: rest => rintro ⟨⟩

theorem exists_of_map_ok {ε α β : Type} {x : Except ε α} {f : α → β} {b : β}
    (mapped : x.map f = .ok b) : ∃ a, x = .ok a ∧ f a = b := by
  cases x with
  | error u => cases mapped
  | ok a => exact ⟨a, rfl, Except.ok.inj mapped⟩

theorem Fault.json_ne_text (now : Int) (f : Fault) (s : String) : f.json now ≠ .ok (.text s) := by
  intro written
  cases f with
  | foreign h cause =>
    rw [json] at written
    cases written
  | application h standing context cause =>
    rw [json] at written
    obtain ⟨report, -, told⟩ := exists_of_map_ok written
    exact Level.json_ne_text report s told

namespace Value

theorem json?_eq_text (now : Int) {v : Value} {s : String} :
    v.json? now = .ok (some (.text s)) ↔ v = .text s := by
  constructor
  · intro written
    cases v with
    | text t =>
      rw [json?] at written
      cases written
      rfl
    | list items =>
      rw [json?] at written
      obtain ⟨js, -, told⟩ := exists_of_map_ok written
      cases told
    | record fields =>
      rw [json?] at written
      obtain ⟨js, -, told⟩ := exists_of_map_ok written
      cases told
    | fault f =>
      rw [json?] at written
      obtain ⟨j, told, same⟩ := exists_of_map_ok written
      cases same
      exact absurd told (f.json_ne_text now s)
    | _ =>
      rw [json?] at written
      cases written
  · rintro rfl
    rfl

variable {now : Int}

theorem fieldsJson_cons {k : String} {v : Value} {rest : List (String × Value)} {ms : Table Json}
    (written : fieldsJson now ((k, v) :: rest) = .ok ms) :
    ∃ j later, v.json? now = .ok j ∧ fieldsJson now rest = .ok later ∧
      ms = (j.map (k, ·)).toList ++ later := by
  rw [fieldsJson] at written
  split at written
  · cases written
  · rename_i missing
    exact ⟨none, ms, missing, written, rfl⟩
  · rename_i j found
    obtain ⟨later, behind, same⟩ := exists_of_map_ok written
    exact ⟨some j, later, found, behind, same.symm⟩

theorem keys_fieldsJson {fields : List (String × Value)} {ms : Table Json}
    (written : fieldsJson now fields = .ok ms) : (Table.keys ms).Sublist (Table.keys fields) := by
  induction fields generalizing ms with
  | nil =>
    obtain rfl : [] = ms := Except.ok.inj written
    exact .slnil
  | cons m rest ih =>
    obtain ⟨k, v⟩ := m
    obtain ⟨j, later, -, behind, rfl⟩ := fieldsJson_cons written
    cases j with
    | none => exact (ih behind).cons k
    | some j => exact (ih behind).cons_cons k

theorem get?_fieldsJson {fields : List (String × Value)} {ms : Table Json}
    (written : fieldsJson now fields = .ok ms) (once : (Table.keys fields).Nodup) {key : String}
    {v : Value} (found : Table.get? key fields = some v) :
    v.json? now = .ok (Table.get? key ms) := by
  induction fields generalizing ms with
  | nil => cases found
  | cons m rest ih =>
    obtain ⟨k, w⟩ := m
    obtain ⟨new, once⟩ := List.nodup_cons.mp once
    obtain ⟨j, later, first, behind, rfl⟩ := fieldsJson_cons written
    by_cases same : k = key
    · subst same
      obtain rfl : w = v := by simpa [Table.get?] using found
      have silent : Table.get? k later = none :=
        Table.get?_eq_none_iff.mpr fun there => new ((keys_fieldsJson behind).subset there)
      rw [first]
      cases j <;> simp [Table.get?, silent]
    · have found : Table.get? key rest = some v := by simpa [Table.get?, same] using found
      rw [ih behind once found]
      cases j <;> simp [Table.get?, same]

end Value

namespace Log

theorem read?_jsonText_of_written {now : Int} {payload : Table Value} {j : Json}
    (written : (Value.record payload).json? now = .ok (some j))
    (once : (Table.keys payload).Nodup) :
    ∃ members, Json.read? (jsonText now payload) = some (.object members) ∧
      ∀ key v s, Table.get? key payload = some v →
        (Table.get? key members = some (.text s) ↔ v = .text s) := by
  obtain ⟨ms, fields, same⟩ : ∃ ms, Value.fieldsJson now payload = .ok ms ∧ Json.object ms = j := by
    rw [Value.json?] at written
    obtain ⟨ms, fields, same⟩ := exists_of_map_ok written
    exact ⟨ms, fields, Option.some.inj same⟩
  subst same
  refine ⟨Table.ofList (Json.rereadMembers ms), ?_, fun key v s found => ?_⟩
  · rw [jsonText, written, ← Json.reread, ← Json.read?_render]
  · have names : (Table.keys (Json.rereadMembers ms)).Nodup := by
      rw [Json.keys_rereadMembers]
      exact once.sublist (Value.keys_fieldsJson fields)
    rw [Table.get?_ofList names, Json.get?_rereadMembers, ← Value.json?_eq_text now,
      Value.get?_fieldsJson fields once found]
    simp [Json.reread_eq_text]

theorem mem_ownNames_of_mem_own {e : Entry} {key : String} {v : Value} (own : (key, v) ∈ e.own) :
    key ∈ ownNames :=
  List.mem_map_of_mem (f := Prod.fst) own

theorem get?_own_of_mem {e : Entry} {key : String} {v : Value} (own : (key, v) ∈ e.own) :
    Table.get? key e.own = some v := by
  simp only [Entry.own, List.mem_cons, List.not_mem_nil, or_false, Prod.mk.injEq] at own
  rcases own with ⟨rfl, rfl⟩ | ⟨rfl, rfl⟩ | ⟨rfl, rfl⟩ <;> rfl

namespace Printer

/-- What stands in an entry in the place of a member of its own. -/
def overlaid (contexts : List (Table Value)) (key : String) (own : Value) : Value :=
  (lastSaid? key contexts).getD own

theorem overlaid_eq_own_iff {contexts : List (Table Value)} {key : String} {own : Value} :
    overlaid contexts key own = own ↔ ∀ v, lastSaid? key contexts = some v → v = own := by
  unfold overlaid
  cases lastSaid? key contexts <;> simp

section
variable {threshold : Option Severity} {pretty : Bool} {c : Table Value} {cs : List (Table Value)}
  {e : Entry}

theorem get?_payload_of_own (order : ∀ t ∈ c :: cs, t.Ordered)
    (data : Table.Ordered (e.data.getD [])) {key : String} {own : Value}
    (member : (key, own) ∈ e.own) :
    Table.get? key (((make threshold pretty c).descend cs).payload e) =
      some (overlaid (c :: cs) key own) := by
  have named := mem_ownNames_of_mem_own member
  have other : key ≠ "err" := by
    rintro rfl
    exact absurd named (by decide)
  rw [get?_payload_of_ne other, get?_members_of_own named order data, get?_own_of_mem member,
    overlaid]
  cases lastSaid? key (c :: cs) <;> rfl

end

theorem exists_prettyText? (now : Int) (payload : Table Value) :
    ∃ tail, prettyText? now payload =
      (partText? "timestamp" payload).bind fun time => (partText? "level" payload).bind fun level =>
        (partText? "message" payload).map fun message =>
          time ++ " " ++ Text.upper level ++ " " ++ message ++ tail := by
  let stack := stackOf (Table.get? "err" payload)
  let rest := remainder payload
  refine ⟨(if rest.isEmpty then "" else " " ++ jsonText now rest) ++
    (if stack = "" then "" else "\n" ++ indented stack), ?_⟩
  unfold prettyText? headline?
  cases partText? "timestamp" payload with
  | none => rfl
  | some time =>
    cases partText? "level" payload with
    | none => rfl
    | some level =>
      cases partText? "message" payload with
      | none => rfl
      | some message =>
        by_cases bare : stack = ""
        · simp [stack, rest, bare, String.append_assoc]
        · simp [stack, rest, bare, String.append_assoc]

/-- A member of its own stands in an entry unless the last context that says something under its
name says something else. The data of the entry have no part in it. A line that holds JSON is
read as an object with these members, and a pretty text begins with them. -/
theorem contexts_replace_own_members (threshold : Option Severity) (pretty : Bool)
    (c : Table Value) (cs : List (Table Value)) (e : Entry) (order : ∀ t ∈ c :: cs, t.Ordered)
    (data : Table.Ordered (e.data.getD [])) :
    let p := (make threshold pretty c).descend cs
    (∀ key own, (key, own) ∈ e.own →
      Table.get? key (p.payload e) = some (overlaid (c :: cs) key own)) ∧
    (pretty = false → ∀ j, (Value.record (p.payload e)).json? e.loggedAt = .ok (some j) →
      ∃ s members, p.text? e = some s ∧ Json.read? s = some (.object members) ∧
        ∀ key s, (key, .text s) ∈ e.own → (Table.get? key members = some (.text s) ↔
          ∀ v, lastSaid? key (c :: cs) = some v → v = .text s)) ∧
    (pretty = true → ∃ tail, p.text? e =
      let shown key own := (overlaid (c :: cs) key (.text own)).display?
      (shown "timestamp" (Clock.instantText e.loggedAt)).bind fun time =>
        (shown "level" e.severity.name).bind fun level =>
          (shown "message" e.message).map fun message =>
            time ++ " " ++ Text.upper level ++ " " ++ message ++ tail) := by
  intro p
  have stands {key : String} {own : Value} (member : (key, own) ∈ e.own) :
      Table.get? key (p.payload e) = some (overlaid (c :: cs) key own) :=
    get?_payload_of_own order data member
  refine ⟨fun key own => stands, fun plain j written => ?_, fun lines => ?_⟩
  · obtain ⟨members, read, found⟩ :=
      read?_jsonText_of_written written (p.ordered_payload e).nodup_keys
    have style : p.pretty = false := (descend_pretty cs).trans plain
    refine ⟨_, members, text?_of_not_pretty style e, read, fun key s member => ?_⟩
    rw [found key _ s (stands member), overlaid_eq_own_iff]
  · have style : p.pretty = true := (descend_pretty cs).trans lines
    obtain ⟨tail, written⟩ := exists_prettyText? e.loggedAt (p.payload e)
    refine ⟨tail, ?_⟩
    have first : ("timestamp", .text (Clock.instantText e.loggedAt)) ∈ e.own := by simp [Entry.own]
    have second : ("level", .text e.severity.name) ∈ e.own := by simp [Entry.own]
    have third : ("message", .text e.message) ∈ e.own := by simp [Entry.own]
    rw [text?, if_pos style, written]
    simp only [partText?, stands first, stands second, stands third, Option.getD_some]

theorem contexts_replace_own_members_of_level :
    let p := (make (some .trace) false [("module", .text "source")]).descend
      [[("level", .text "fatal")]]
    let e : Entry := {
      severity := .info, message := "kept", loggedAt := 0,
      data := some [("level", .text "debug"), ("message", .text "replaced")] }
    Table.get? "level" (p.payload e) = some (.text "fatal") ∧
      Table.get? "message" (p.payload e) = some (.text "kept") := by
  intro p e
  have order : ∀ t ∈ ([[("module", .text "source")], [("level", .text "fatal")]] :
      List (Table Value)), t.Ordered := by
    simp [Table.Ordered, Table.keys]
  have data : Table.Ordered (e.data.getD []) := by
    simp [e, Table.Ordered, Table.keys]
    decide
  obtain ⟨stands, -, -⟩ :=
    contexts_replace_own_members (some .trace) false _ [[("level", .text "fatal")]] e order data
  exact ⟨stands "level" (.text "info") (by simp [e, Entry.own, Severity.name]),
    stands "message" (.text "kept") (by simp [e, Entry.own])⟩

/-- A context forges the level of an entry. -/
theorem context_forges_level :
    ((make (some .trace) false []).child [("level", .text "fatal")]).print?
        { severity := .info, message := "kept", loggedAt := 1705314600000 } =
      .ok (some (.info, "\x7b\"timestamp\":\"2024-01-15T10:30:00.000Z\",\"level\":\"fatal\"," ++
        "\"message\":\"kept\"\x7d")) := by
  rfl

end Printer

end Log

end WorkloadIdentity
