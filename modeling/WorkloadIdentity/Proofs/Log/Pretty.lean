import WorkloadIdentity.Proofs.Fault.Causes
import WorkloadIdentity.Proofs.Log.OwnMembers
import WorkloadIdentity.Proofs.Text.Lines

/-! The lines of a pretty text. The data of an entry stand on the first line, as JSON, which has no
end of a line, and a stack stands below it, each of its lines behind two blanks. What is shown as
the time, the level and the message stands as it is: an end of a line in it ends the first line. -/

namespace WorkloadIdentity

namespace Clock

theorem isDigit_of_mem_padded {width n : Nat} {c : Char} (member : c ∈ padded width n) :
    c.isDigit := by
  rcases List.mem_append.mp member with zero | digit
  · obtain ⟨-, rfl⟩ := List.mem_replicate.mp zero
    rfl
  · exact Nat.isDigit_of_mem_toDigits (by decide) (by decide) digit

theorem newline_not_mem_padded (width n : Nat) : '\n' ∉ padded width n :=
  fun member => absurd (isDigit_of_mem_padded member) (by decide)

theorem newline_not_mem_instantText (ms : Int) : '\n' ∉ (instantText ms).toList := by
  have year (y : Int) : '\n' ∉ yearText y := by
    unfold yearText
    split
    · exact newline_not_mem_padded 4 _
    · split <;> simp [newline_not_mem_padded]
  simp [instantText, year, newline_not_mem_padded]

end Clock

namespace Log

def stackLines (stack : String) : List String :=
  if stack = "" then [] else (stack.splitOn "\n").map fun l => "  " ++ l

theorem splitOn_indented (stack : String) :
    (indented stack).splitOn "\n" = (stack.splitOn "\n").map fun l => "  " ++ l := by
  have filled : (stack.splitOn "\n").map (fun l => "  " ++ l) ≠ [] := by
    rw [Text.splitOn_newline]
    simp
  refine Text.splitOn_newline_intercalate filled fun l member => ?_
  rw [Text.splitOn_newline, List.map_map, List.mem_map] at member
  obtain ⟨line, inside, rfl⟩ := member
  simpa using Text.not_mem_of_mem_splitOn inside

def ownStack : Value → String
  | .fault f => f.heading.stack
  | _ => ""

theorem stackOf_report (now : Int) (v : Value) (causes : Nat) :
    stackOf (some (Level.value true (v.report now causes))) = ownStack v := by
  have facts : Table.get? "stack" (v.facts now) = none := by
    rw [← Level.members_level]
    rfl
  have between (cause : Option Value) :
      Table.get? "stack" (cause.toList.map fun c => ("cause", c)) = none := by
    cases cause <;> rfl
  rw [Value.value_report, Site.told_eq, stackOf, Value.toldWith, Table.get?_append,
    Table.get?_append, facts, between, Option.none_or, Option.none_or]
  cases v with
  | fault f =>
    by_cases bare : f.heading.stack = ""
    · simp [Value.stackFact, ownStack, bare, Table.get?]
    · simp [Value.stackFact, ownStack, bare, Table.get?]
  | _ => rfl

def remainderText (now : Int) (payload : Table Value) : String :=
  if (remainder payload).isEmpty then "" else " " ++ jsonText now (remainder payload)

theorem newline_not_mem_remainderText (now : Int) (payload : Table Value) :
    '\n' ∉ (remainderText now payload).toList := by
  unfold remainderText
  split
  · simp
  · have printable := printable_jsonText now (remainder payload)
    have inner : '\n' ∉ (jsonText now (remainder payload)).toList :=
      fun member => printable '\n' member (by decide)
    simpa using inner

theorem of_prettyText? {now : Int} {payload : Table Value} {s : String}
    (written : prettyText? now payload = some s) :
    ∃ time level message, partText? "timestamp" payload = some time ∧
      partText? "level" payload = some level ∧ partText? "message" payload = some message ∧
      s.splitOn "\n" =
        (time ++ " " ++ Text.upper level ++ " " ++ message ++
          remainderText now payload).splitOn "\n" ++
          stackLines (stackOf (Table.get? "err" payload)) := by
  obtain ⟨headline, first, rfl⟩ := Option.map_eq_some_iff.mp written
  unfold headline? at first
  split at first
  · rename_i time level message told named worded
    cases first
    refine ⟨time, level, message, told, named, worded, ?_⟩
    unfold stackLines
    dsimp only
    split
    · rw [List.append_nil]
      rfl
    · rw [Text.splitOn_append_newline, splitOn_indented]
      rfl
  · cases first

/-- How the text of an entry begins where nothing takes the place of its time and its level. -/
def Entry.opening (e : Entry) : String :=
  Clock.instantText e.loggedAt ++ " " ++ Text.upper e.severity.name ++ " "

theorem Entry.newline_not_mem_opening (e : Entry) : '\n' ∉ e.opening.toList := by
  have level : '\n' ∉ (Text.upper e.severity.name).toList := by
    cases e.severity <;> decide +kernel
  simp [opening, Clock.newline_not_mem_instantText, level]

/-- A text that is that of one entry: it is one line that begins as the entry does, and below it
the lines of the stack. -/
def IsOneEntry (e : Entry) (stack s : String) : Prop :=
  ∃ line, s.splitOn "\n" = line :: stackLines stack ∧ e.opening.toList <+: line.toList

theorem isOneEntry_iff {e : Entry} {stack s headline : String}
    (lines : s.splitOn "\n" = headline.splitOn "\n" ++ stackLines stack) :
    IsOneEntry e stack s ↔ '\n' ∉ headline.toList ∧ e.opening.toList <+: headline.toList := by
  have single (line : String) :
      s.splitOn "\n" = line :: stackLines stack ↔ headline.splitOn "\n" = [line] := by
    rw [lines, ← List.singleton_append, List.append_left_inj]
  simp only [IsOneEntry, single, Text.splitOn_newline_eq_singleton_iff]
  constructor
  · rintro ⟨_, ⟨whole, rfl⟩, begins⟩
    exact ⟨whole, begins⟩
  · rintro ⟨whole, begins⟩
    exact ⟨headline, ⟨whole, rfl⟩, begins⟩

namespace Printer

theorem lastSaid?_of_free {contexts : List (Table Value)} (free : ∀ t ∈ contexts, Free t)
    {key : String} (own : key ∈ ownNames) : lastSaid? key contexts = none := by
  induction contexts with
  | nil => rfl
  | cons t rest ih =>
    obtain ⟨first, later⟩ := List.forall_mem_cons.mp free
    rw [lastSaid?_cons, ih later, said?, Table.get?_eq_none_iff.mpr (first key own)]
    rfl

def toldStack (contexts : List (Table Value)) (e : Entry) : String :=
  ((lastSaid? "err" (contexts ++ [e.data.getD []])).map ownStack).getD ""

/-- What a pretty text shows in front of the data of an entry: the time, the level and the message,
or what takes their place. -/
def front? (contexts : List (Table Value)) (e : Entry) : Option String :=
  let shown key own := (overlaid contexts key (.text own)).display?
  (shown "timestamp" (Clock.instantText e.loggedAt)).bind fun time =>
    (shown "level" e.severity.name).bind fun level =>
      (shown "message" e.message).map fun message =>
        time ++ " " ++ Text.upper level ++ " " ++ message

theorem front?_of_free {contexts : List (Table Value)} (free : ∀ t ∈ contexts, Free t) (e : Entry) :
    front? contexts e = some (e.opening ++ e.message) := by
  have own {key : String} (mine : key ∈ ownNames) (text : String) :
      (overlaid contexts key (.text text)).display? = some text := by
    rw [overlaid, lastSaid?_of_free free mine, Option.getD_none, Value.display?]
  simp only [front?, own (by decide : "timestamp" ∈ ownNames), own (by decide : "level" ∈ ownNames),
    own (by decide : "message" ∈ ownNames), Option.bind_some, Option.map_some]
  rfl

section
variable {threshold : Option Severity} {c : Table Value} {cs : List (Table Value)} {e : Entry}
  (order : ∀ t ∈ c :: cs, t.Ordered) (data : Table.Ordered (e.data.getD []))

include order data

theorem stackOf_payload :
    stackOf (Table.get? "err" (((make threshold true c).descend cs).payload e)) =
      toldStack (c :: cs) e := by
  rw [get?_payload_err, get?_members_of_free (by decide) (by decide) order data, toldStack]
  cases lastSaid? "err" (c :: cs ++ [e.data.getD []]) with
  | none => rfl
  | some v => exact stackOf_report e.loggedAt v defaultCauseLimit

theorem splitOn_text? {s : String}
    (written : ((make threshold true c).descend cs).text? e = some s) :
    ∃ front tail, front? (c :: cs) e = some front ∧ '\n' ∉ tail.toList ∧
      s.splitOn "\n" = (front ++ tail).splitOn "\n" ++ stackLines (toldStack (c :: cs) e) := by
  have shown {key own : String} (mine : (key, .text own) ∈ e.own) :
      partText? key (((make threshold true c).descend cs).payload e) =
        (overlaid (c :: cs) key (.text own)).display? := by
    rw [partText?, get?_payload_of_own order data mine, Option.getD_some]
  have style : ((make threshold true c).descend cs).pretty = true := descend_pretty cs
  rw [text?, if_pos style] at written
  obtain ⟨time, level, message, told, named, worded, lines⟩ := of_prettyText? written
  rw [shown (List.mem_cons_self ..)] at told
  rw [shown (List.mem_cons_of_mem _ (List.mem_cons_self ..))] at named
  rw [shown (List.mem_cons_of_mem _ (List.mem_cons_of_mem _ (List.mem_cons_self ..)))] at worded
  rw [stackOf_payload order data] at lines
  refine ⟨_, _, ?_, newline_not_mem_remainderText e.loggedAt _, lines⟩
  simp only [front?, told, named, worded, Option.bind_some, Option.map_some]

end

/-- A pretty text begins with the time, the level and the message as they are shown. What stands
behind them adds no line, and the last lines are those of the stack. So the text is that of one
entry where what is shown in front is one line and begins as the entry does; where no context names
a member that an entry has by itself, this is up to the message alone. -/
theorem pretty_text_is_one_entry_iff (threshold : Option Severity) (c : Table Value)
    (cs : List (Table Value)) (e : Entry) (order : ∀ t ∈ c :: cs, t.Ordered)
    (data : Table.Ordered (e.data.getD [])) :
    let p := (make threshold true c).descend cs
    let stack := toldStack (c :: cs) e
    (∀ s, p.text? e = some s → ∃ front tail, front? (c :: cs) e = some front ∧ '\n' ∉ tail.toList ∧
      s.splitOn "\n" = (front ++ tail).splitOn "\n" ++ stackLines stack ∧
      (IsOneEntry e stack s ↔
        '\n' ∉ front.toList ∧ e.opening.toList <+: (front ++ tail).toList)) ∧
    ((∀ t ∈ c :: cs, Free t) →
      ∃ s, p.text? e = some s ∧ (IsOneEntry e stack s ↔ '\n' ∉ e.message.toList)) := by
  intro p stack
  have one {s front tail : String} (single : '\n' ∉ tail.toList)
      (lines : s.splitOn "\n" = (front ++ tail).splitOn "\n" ++ stackLines stack) :
      IsOneEntry e stack s ↔ '\n' ∉ front.toList ∧ e.opening.toList <+: (front ++ tail).toList := by
    rw [isOneEntry_iff lines, String.toList_append, List.mem_append, or_iff_left single]
  constructor
  · intro s written
    obtain ⟨front, tail, shown, single, lines⟩ := splitOn_text? order data written
    exact ⟨front, tail, shown, single, lines, one single lines⟩
  · intro free
    obtain ⟨first, later⟩ := List.forall_mem_cons.mp free
    have named : Free p.context :=
      free_descend (p := make threshold true c) (free_defined first) later
    obtain ⟨s, written⟩ := exists_text? (fun _ => named) e
    obtain ⟨front, tail, shown, single, lines⟩ := splitOn_text? order data written
    obtain rfl : e.opening ++ e.message = front :=
      Option.some.inj ((front?_of_free free e).symm.trans shown)
    refine ⟨s, written, ?_⟩
    rw [one single lines, String.toList_append, List.mem_append,
      or_iff_right e.newline_not_mem_opening]
    exact and_iff_left ⟨_, by rw [String.append_assoc, String.toList_append]⟩

theorem pretty_text_is_one_entry_iff_of_stack :
    let p := (make (some .trace) true [("module", .text "source")]).descend
      [[("attempt", .text "2\n")]]
    let e : Entry := {
      severity := .warn, message := "watch error", loggedAt := 0,
      data := some [("err", .fault (.foreign
        { kind := "Error", message := "lost", stack := "Error: lost\n    at read" } .absent))] }
    ∃ s, p.text? e = some s ∧ IsOneEntry e "Error: lost\n    at read" s := by
  intro p e
  have order : ∀ t ∈ ([[("module", .text "source")], [("attempt", .text "2\n")]] :
      List (Table Value)), t.Ordered := by
    simp [Table.Ordered, Table.keys]
  have data : Table.Ordered (e.data.getD []) := by simp [e, Table.Ordered, Table.keys]
  have free : ∀ t ∈ ([[("module", .text "source")], [("attempt", .text "2\n")]] :
      List (Table Value)), Free t := by
    simp [Free, ownNames, Table.keys]
  obtain ⟨-, single⟩ := pretty_text_is_one_entry_iff (some .trace) _ _ e order data
  obtain ⟨s, written, one⟩ := single free
  exact ⟨s, written, one.mpr (by decide)⟩

/-- A message that goes on behind an end of a line forges an entry. -/
theorem message_forges_entry :
    let p := make (some .info) true []
    let e : Entry := {
      severity := .info, message := "kept\n2024-01-15T10:30:00.000Z FATAL forged",
      loggedAt := 1705314600000 }
    let forged : Entry := { severity := .fatal, message := "forged", loggedAt := 1705314600000 }
    ∃ s, p.text? e = some s ∧ p.text? forged = some "2024-01-15T10:30:00.000Z FATAL forged" ∧
      s.splitOn "\n" =
        ["2024-01-15T10:30:00.000Z INFO kept", "2024-01-15T10:30:00.000Z FATAL forged"] ∧
      ¬IsOneEntry e "" s := by
  intro p e forged
  have written : p.text? e =
      some "2024-01-15T10:30:00.000Z INFO kept\n2024-01-15T10:30:00.000Z FATAL forged" := by
    decide +kernel
  refine ⟨_, written, by decide +kernel, ?_⟩
  rw [IsOneEntry, Text.splitOn_newline]
  have lines :
      ("2024-01-15T10:30:00.000Z INFO kept\n2024-01-15T10:30:00.000Z FATAL forged".toList.splitOn
        '\n').map String.ofList =
          ["2024-01-15T10:30:00.000Z INFO kept", "2024-01-15T10:30:00.000Z FATAL forged"] := by
    decide +kernel
  refine ⟨lines, ?_⟩
  rintro ⟨line, single, -⟩
  rw [lines] at single
  cases single

end Printer

end Log

end WorkloadIdentity
