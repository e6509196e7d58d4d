import WorkloadIdentity.Fault.Written

/-! What a report tells of a thrown value: the value, its cause, the cause of that one and so on, to
a limit. A cause can be a fault that the value is behind, so that the causes go round for ever and
only the limit ends the report. The report is one and the same with the plain recursion along the
causes, which has the limit for its measure. -/

namespace WorkloadIdentity

/-- A thrown value or a cause, and the faults that it is behind, the nearest first. -/
structure Site where
  value : Value
  above : List Fault := []

def Value.site? (stack : List Fault) : Value → Option Site
  | .absent => none
  | .back k =>
    match stack.drop k with
    | [] => none
    | f :: above => some { value := .fault f, above := above }
  | v => some { value := v, above := stack }

namespace Site

def cause? (s : Site) : Option Site :=
  match s.value with
  | .fault f => f.cause.site? (f :: s.above)
  | _ => none

def behind? : Nat → Site → Option Site
  | 0, s => some s
  | i + 1, s => s.cause?.bind (behind? i)

theorem behind?_add (i j : Nat) (s : Site) :
    behind? (i + j) s = (behind? i s).bind (behind? j) := by
  induction i generalizing s with
  | zero => simp [behind?]
  | succ i ih =>
    rw [Nat.succ_add]
    cases caused : s.cause? with
    | none => simp [behind?, caused]
    | some c => simpa [behind?, caused] using ih c

theorem behind?_succ (i : Nat) (s : Site) : behind? (i + 1) s = (behind? i s).bind cause? := by
  rw [behind?_add]
  congr
  funext c
  cases caused : c.cause? <;> simp [behind?, caused]

end Site

/-- The `i`-th cause behind a thrown value, which is itself the first. -/
def Value.behind? (v : Value) (i : Nat) : Option Site := Site.behind? i { value := v }

theorem Value.behind?_succ {v : Value} {i : Nat} {s : Site} (reached : v.behind? i = some s) :
    v.behind? (i + 1) = s.cause? := by
  rw [Value.behind?, Site.behind?_succ, ← Value.behind?, reached, Option.bind_some]

mutual

/-- A fault and the faults behind it, as far as each of them is new. -/
def Fault.descent : Fault → List Fault
  | .foreign h cause => .foreign h cause :: cause.descent
  | .application h s context cause => .application h s context cause :: cause.descent

def Value.descent : Value → List Fault
  | .fault f => f.descent
  | _ => []

end

mutual

/-- What the last of these faults has for a cause, which is no new fault. -/
def Fault.ground : Fault → Value
  | .foreign _ cause => cause.ground
  | .application _ _ _ cause => cause.ground

def Value.ground : Value → Value
  | .fault f => f.ground
  | v => v

end

namespace Fault

def level (now : Int) : Fault → Level (Table Value)
  | .foreign h _ => .foreign now h
  | .application h s context _ => .application h s context

theorem descent_eq (f : Fault) : f.descent = f :: f.cause.descent := by
  cases f <;> rfl

theorem ground_eq (f : Fault) : f.ground = f.cause.ground := by
  cases f <;> rfl

theorem levels_eq (now : Int) (f : Fault) :
    f.levels now = f.level now :: f.cause.causeLevels now := by
  cases f <;> rfl

theorem causeBack_eq (f : Fault) : f.causeBack = f.cause.causeBack := by
  cases f <;> rfl

theorem sizeOf_lt_of_cause {f g : Fault} (caused : f.cause = .fault g) : sizeOf g < sizeOf f := by
  cases f with
  | foreign h cause =>
    cases caused
    simp only [foreign.sizeOf_spec, Value.fault.sizeOf_spec]
    omega
  | application h s context cause =>
    cases caused
    simp only [application.sizeOf_spec, Value.fault.sizeOf_spec]
    omega

/-- What is to be shown of a fault may be taken for granted of a cause that is told anew. -/
theorem induction_on_cause {holds : Fault → Prop}
    (step : ∀ f, (∀ g, f.cause = .fault g → holds g) → holds f) (f : Fault) : holds f := by
  induction size : sizeOf f using Nat.strongRecOn generalizing f with
  | ind n ih =>
    exact step f fun g caused => ih (sizeOf g) (size ▸ sizeOf_lt_of_cause caused) g rfl

theorem cause_cases (f : Fault) :
    (∃ g, f.cause = .fault g) ∨ f.cause.descent = [] ∧ f.cause = f.ground := by
  rw [ground_eq]
  cases f.cause with
  | fault g => exact .inl ⟨g, rfl⟩
  | _ => exact .inr ⟨rfl, rfl⟩

theorem ground_ne_fault (f g : Fault) : f.ground ≠ .fault g := by
  induction f using induction_on_cause with
  | step f ih =>
    rcases f.cause_cases with ⟨c, caused⟩ | ⟨bare, grounded⟩
    · rw [ground_eq, caused]
      exact ih c caused
    · rw [← grounded]
      intro caused
      rw [caused, Value.descent, descent_eq] at bare
      cases bare

theorem levels_eq_append (now : Int) (f : Fault) :
    f.levels now = f.descent.map (level now) ++ f.ground.causeLevels now := by
  induction f using induction_on_cause with
  | step f ih =>
    rw [levels_eq, descent_eq]
    rcases f.cause_cases with ⟨g, caused⟩ | ⟨bare, grounded⟩
    · rw [ground_eq, caused]
      exact congrArg _ (ih g caused)
    · rw [bare, ← grounded]
      rfl

theorem causeBack_eq_ground (f : Fault) : f.causeBack = f.ground.causeBack := by
  induction f using induction_on_cause with
  | step f ih =>
    rw [causeBack_eq]
    rcases f.cause_cases with ⟨g, caused⟩ | ⟨-, grounded⟩
    · rw [ground_eq, caused]
      exact ih g caused
    · rw [grounded]

theorem behind?_of_descent {f g : Fault} {front rest : List Fault} (above : List Fault)
    (split : f.descent = front ++ g :: rest) :
    Site.behind? front.length { value := .fault f, above := above } =
      some { value := .fault g, above := front.reverse ++ above } := by
  induction f using induction_on_cause generalizing front above with
  | step f ih =>
    rw [descent_eq] at split
    cases front with
    | nil =>
      obtain ⟨rfl, -⟩ := List.cons.inj split
      rfl
    | cons h front =>
      obtain ⟨rfl, later⟩ := List.cons.inj split
      rcases f.cause_cases with ⟨c, caused⟩ | ⟨bare, -⟩
      · have next : c.descent = front ++ g :: rest := by simpa [caused, Value.descent] using later
        simpa [Site.behind?, Site.cause?, caused, Value.site?] using ih c caused (f :: above) next
      · simp [bare] at later

theorem cause_of_descent {f g : Fault} {front : List Fault} (split : f.descent = front ++ [g]) :
    g.cause = f.ground := by
  induction f using induction_on_cause generalizing front with
  | step f ih =>
    rw [descent_eq] at split
    rcases f.cause_cases with ⟨c, caused⟩ | ⟨bare, grounded⟩
    · rw [ground_eq, caused]
      cases front with
      | nil => simp [caused, Value.descent, c.descent_eq] at split
      | cons h front =>
        have next : c.descent = front ++ [g] := by
          simpa [caused, Value.descent] using (List.cons.inj split).2
        exact ih c caused next
    · cases front with
      | nil => rw [← (List.cons.inj split).1, grounded]
      | cons h front => simp [bare] at split

end Fault

def Value.level (now : Int) : Value → Level (Table Value)
  | .fault f => f.level now
  | v => .ofValue now v

theorem Site.cause?_of_fault (f : Fault) (above : List Fault) :
    Site.cause? { value := .fault f, above := above } = f.cause.site? (f :: above) :=
  rfl

theorem Site.behind?_eq_none {i j : Nat} {s : Site} (ended : behind? i s = none) (later : i ≤ j) :
    behind? j s = none := by
  obtain ⟨k, rfl⟩ := Nat.exists_eq_add_of_le later
  rw [behind?_add, ended, Option.bind_none]

theorem Site.behind?_round {start round : Nat} {s : Site} (positive : 0 < round)
    (back : behind? (start + round) s = behind? start s) (j : Nat) :
    behind? (start + j) s = behind? (start + j % round) s := by
  induction j using Nat.strongRecOn with
  | ind j ih =>
    rcases Nat.lt_or_ge j round with within | beyond
    · rw [Nat.mod_eq_of_lt within]
    · calc behind? (start + j) s
          = behind? ((start + round) + (j - round)) s := by congr 1; omega
        _ = (behind? start s).bind (behind? (j - round)) := by rw [behind?_add, back]
        _ = behind? (start + (j - round)) s := (behind?_add _ _ _).symm
        _ = behind? (start + (j - round) % round) s := ih _ (by omega)
        _ = behind? (start + j % round) s := by rw [← Nat.mod_eq_sub_mod beyond]

namespace Fault

variable (now : Int) (f : Fault)

theorem behind?_of_lt {i : Nat} (below : i < f.descent.length) :
    (Site.behind? i { value := .fault f }).map (·.value.level now) =
      some (f.descent[i].level now) := by
  have split : f.descent = f.descent.take i ++ f.descent[i] :: f.descent.drop (i + 1) := by simp
  have reached := behind?_of_descent [] split
  rw [List.length_take, Nat.min_eq_left (Nat.le_of_lt below)] at reached
  rw [reached]
  rfl

theorem behind?_length : Site.behind? f.descent.length { value := .fault f } =
    f.ground.site? f.descent.reverse := by
  have filled : f.descent ≠ [] := by simp [descent_eq]
  obtain ⟨front, g, split⟩ := (List.eq_nil_or_concat f.descent).resolve_left filled
  rw [List.concat_eq_append] at split
  have last := behind?_of_descent [] split
  rw [split, List.length_append, List.length_singleton, Site.behind?_succ, last, Option.bind_some,
    Site.cause?_of_fault, cause_of_descent split, List.append_nil, List.reverse_append,
    List.reverse_singleton, List.singleton_append]

theorem levels_chain :
    (f.chain now).levels = f.descent.map (level now) ++ f.ground.causeLevels now :=
  f.levels_eq_append now

theorem back_chain : (f.chain now).back = f.ground.causeBack := f.causeBack_eq_ground

theorem level?_chain_of_lt {i : Nat} (below : i < f.descent.length) :
    (f.chain now).level? i = some (f.descent[i].level now) := by
  have covered : i < (f.chain now).levels.length := by
    rw [levels_chain, List.length_append, List.length_map]
    omega
  rw [Chain.level?, if_pos covered, levels_chain,
    List.getElem?_append_left (by simpa using below), List.getElem?_map,
    List.getElem?_eq_getElem below, Option.map_some]

theorem level?_chain_of_back {i k : Nat} (turned : f.ground = .back k)
    (inside : k < f.descent.length) (beyond : f.descent.length ≤ i) :
    (f.chain now).level? i =
      (Site.behind? i { value := .fault f }).map (·.value.level now) := by
  obtain ⟨front, g, rest, split, counted⟩ :
      ∃ front g rest, f.descent = front ++ g :: rest ∧ rest.length = k := by
    refine ⟨f.descent.take (f.descent.length - (k + 1)),
      f.descent[f.descent.length - (k + 1)], f.descent.drop (f.descent.length - (k + 1) + 1),
      by simp, ?_⟩
    rw [List.length_drop]
    omega
  have length : f.descent.length = front.length + (k + 1) := by
    rw [split, List.length_append, List.length_cons, counted]
  have back : Site.behind? (front.length + (k + 1)) { value := .fault f } =
      Site.behind? front.length { value := .fault f } := by
    have above : f.descent.reverse.drop k = g :: front.reverse := by
      rw [split, List.reverse_append, List.reverse_cons, List.append_assoc,
        List.drop_left' (by simpa using counted)]
      rfl
    rw [← length, behind?_length, turned, Value.site?, above, behind?_of_descent [] split,
      List.append_nil]
  obtain ⟨j, rfl⟩ := Nat.exists_eq_add_of_le (show front.length ≤ i by omega)
  have within : front.length + j % (k + 1) < f.descent.length := by
    have bounded : j % (k + 1) < k + 1 := Nat.mod_lt j (Nat.succ_pos k)
    omega
  have told : (f.chain now).levels = f.descent.map (level now) := by
    rw [levels_chain, turned, Value.causeLevels, List.append_nil]
  rw [Site.behind?_round (Nat.succ_pos k) back, behind?_of_lt now f within, Chain.level?, told,
    List.length_map, if_neg (by omega), back_chain, turned]
  simp only [Value.causeBack]
  rw [if_pos inside, length, Nat.add_sub_cancel, Nat.add_sub_cancel_left, List.getElem?_map,
    List.getElem?_eq_getElem within, Option.map_some]

end Fault

/-- Behind the last fault that is told anew there is nothing, one of the faults before it, or a
value that is no fault, which has a level and no cause. -/
theorem Value.ground_cases (now : Int) (stack : List Fault) {v : Value}
    (settled : ∀ f, v ≠ .fault f) :
    (v.site? stack = none ∧ v.causeLevels now = [] ∧ ∀ k, v.causeBack = some k → stack.length ≤ k) ∨
    (∃ k < stack.length, v = .back k) ∨
    (v.site? stack = some { value := v, above := stack } ∧ v.causeLevels now = [v.level now] ∧
      v.causeBack = none ∧ Site.cause? { value := v, above := stack } = none) := by
  cases v with
  | absent => exact .inl ⟨rfl, rfl, nofun⟩
  | back k =>
    rcases Nat.lt_or_ge k stack.length with inside | outside
    · exact .inr (.inl ⟨k, inside, rfl⟩)
    · refine .inl ⟨?_, rfl, fun j same => Option.some.inj same ▸ outside⟩
      rw [Value.site?, List.drop_of_length_le outside]
  | fault f => exact absurd rfl (settled f)
  | _ => exact .inr (.inr ⟨rfl, rfl, rfl, rfl⟩)

/-- The chain that is computed of a value holds what is told of its causes, level by level. -/
theorem Value.level?_chain (now : Int) (v : Value) (i : Nat) :
    (v.chain now).level? i = (v.behind? i).map (·.value.level now) := by
  cases v with
  | fault f =>
    rcases Nat.lt_or_ge i f.descent.length with below | beyond
    · rw [Value.behind?, f.behind?_of_lt now below]
      exact f.level?_chain_of_lt now below
    · have placed := f.behind?_length
      have told := f.levels_chain now
      rcases Value.ground_cases now f.descent.reverse f.ground_ne_fault with
        ⟨nowhere, bare, outside⟩ | ⟨k, inside, turned⟩ | ⟨there, one, once, last⟩
      · rw [nowhere] at placed
        rw [bare, List.append_nil] at told
        rw [Value.behind?, Site.behind?_eq_none placed beyond, Value.chain, Chain.level?, told,
          List.length_map, if_neg (by omega), f.back_chain]
        cases back : f.ground.causeBack with
        | none => rfl
        | some k =>
          have short := outside k back
          rw [List.length_reverse] at short
          exact if_neg (by omega)
      · exact f.level?_chain_of_back now turned (by simpa using inside) beyond
      · rw [there] at placed
        rw [one] at told
        rw [Value.behind?, Value.chain, Chain.level?, told, List.length_append, List.length_map,
          List.length_singleton]
        rcases Nat.eq_or_lt_of_le beyond with rfl | after
        · rw [if_pos (by omega), placed, List.getElem?_append_right (by simp)]
          simp
        · have ended : Site.behind? (f.descent.length + 1) { value := .fault f } = none := by
            rw [Site.behind?_succ, placed, Option.bind_some, last]
          rw [if_neg (by omega), f.back_chain, once, Site.behind?_eq_none ended after]
          rfl
  | _ =>
    cases i <;> rfl

/-- What is to be told of a value by itself: an application fault as it stands, another fault as
unknown and not operational, and any other value as one that was thrown though it is no fault. -/
def Value.facts (now : Int) : Value → Table Value
  | .fault (.application h s context _) =>
    [("name", .text h.name), ("code", .text s.code), ("message", .text h.message),
      ("context", .record context), ("isRetryable", .bool s.retryable),
      ("isOperational", .bool s.operational),
      ("timestamp", .text (Clock.instantText s.raisedAt))]
  | .fault (.foreign h _) => unknown h.name h.message []
  | .text s => unknown "NonErrorThrown" s []
  | v => unknown "NonErrorThrown" "Unknown error" [("value", v)]
where
  unknown (name message : String) (context : Table Value) : Table Value :=
    [("name", .text name), ("code", .text "unknown"), ("message", .text message),
      ("context", .record context), ("isRetryable", .bool false), ("isOperational", .bool false),
      ("timestamp", .text (Clock.instantText now))]

def Value.stackFact (withStacks : Bool) : Value → Table Value
  | .fault f =>
    if withStacks = true ∧ f.heading.stack ≠ "" then [("stack", .text f.heading.stack)] else []
  | _ => []

def Value.toldWith (now : Int) (withStacks : Bool) (cause : Option Value) (v : Value) :
    Table Value :=
  v.facts now ++ cause.toList.map (fun c => ("cause", c)) ++ v.stackFact withStacks

def Site.told (now : Int) (withStacks : Bool) : Nat → Site → Value
  | 0, s => .record (s.value.toldWith now withStacks none)
  | n + 1, s => .record (s.value.toldWith now withStacks (s.cause?.map (told now withStacks n)))

def Site.causeTold (now : Int) (withStacks : Bool) : Nat → Site → Option Value
  | 0, _ => none
  | n + 1, s => s.cause?.map (told now withStacks n)

/-- The members of the level that stands so many causes down in what is told. -/
def Value.told? : Nat → Value → Option (Table Value)
  | 0, .record fields => some fields
  | i + 1, .record fields => (Table.get? "cause" fields).bind (told? i)
  | _, _ => none

def Value.cut : Nat → Value → Value
  | 0, .record fields => .record (Table.erase "cause" fields)
  | i + 1, .record fields =>
    .record (fields.map fun e => if e.1 = "cause" then (e.1, e.2.cut i) else e)
  | _, v => v

section
variable {now : Int} {withStacks : Bool}

theorem Level.members_level (v : Value) :
    Level.members .text .bool .record (v.level now) = v.facts now := by
  cases v with
  | fault f => cases f <;> rfl
  | _ => rfl

theorem Level.trailer_level (now : Int) (v : Value) :
    Level.nest.trailer .text withStacks (v.level now) = v.stackFact withStacks := by
  cases v with
  | fault f =>
    have same : (f.level now).stack = f.heading.stack := by cases f <;> rfl
    simp [Value.stackFact, nest.trailer, Value.level, same]
  | _ => simp [Value.stackFact, nest.trailer, Value.level, ofValue, thrown]

theorem Level.value_singleton (v : Value) :
    Level.value withStacks [v.level now] = .record (v.toldWith now withStacks none) := by
  rw [Value.toldWith, ← members_level, ← trailer_level now]
  simp [Level.value, nest]

theorem Level.value_cons (v : Value) {report : List (Level (Table Value))} (more : report ≠ []) :
    Level.value withStacks (v.level now :: report) =
      .record (v.toldWith now withStacks (some (Level.value withStacks report))) := by
  obtain ⟨l, rest, rfl⟩ := List.exists_cons_of_ne_nil more
  rw [Value.toldWith, ← members_level, ← trailer_level now]
  simp [Level.value, nest]

theorem Value.value_walk_chain (v : Value) (n : Nat) {i : Nat} {s : Site}
    (reached : v.behind? i = some s) :
    Level.value withStacks ((v.chain now).walk (n + 1) i) = s.told now withStacks n := by
  induction n generalizing i s with
  | zero =>
    simp only [Chain.walk, v.level?_chain, reached, Option.map_some]
    exact Level.value_singleton s.value
  | succ n ih =>
    have next := v.behind?_succ reached
    rw [Chain.walk, v.level?_chain, reached, Option.map_some, Site.told]
    dsimp only
    cases caused : s.cause? with
    | none =>
      rw [Chain.walk, v.level?_chain, next, caused, Option.map_none, Option.map_none]
      exact Level.value_singleton s.value
    | some c =>
      have filled : (v.chain now).walk (n + 1) (i + 1) ≠ [] := by
        simp [Chain.walk, v.level?_chain, next, caused]
      rw [Level.value_cons s.value filled, ih (next.trans caused), Option.map_some]

/-- The report of a value is the recursion along its causes, with the limit for its measure. -/
theorem Value.value_report (v : Value) (causes : Nat) :
    Level.value withStacks (v.report now causes) = Site.told now withStacks causes { value := v } :=
  v.value_walk_chain causes rfl

theorem Value.cause_not_mem_keys_facts (v : Value) : "cause" ∉ (v.facts now).keys := by
  have named : (v.facts now).keys =
      ["name", "code", "message", "context", "isRetryable", "isOperational", "timestamp"] := by
    cases v with
    | fault f => cases f <;> rfl
    | _ => rfl
  rw [named]
  decide

theorem Value.cause_not_mem_keys_stackFact (v : Value) :
    "cause" ∉ (v.stackFact withStacks).keys := by
  cases v with
  | fault f =>
    simp only [stackFact]
    split <;> simp [Table.keys]
  | _ => simp [stackFact, Table.keys]

theorem Value.get?_cause_toldWith (v : Value) (cause : Option Value) :
    Table.get? "cause" (v.toldWith now withStacks cause) = cause := by
  rw [toldWith, Table.get?_append, Table.get?_append,
    Table.get?_eq_none_iff.mpr v.cause_not_mem_keys_facts,
    Table.get?_eq_none_iff.mpr v.cause_not_mem_keys_stackFact]
  cases cause <;> rfl

theorem Value.cut_zero_toldWith (v : Value) (cause : Option Value) :
    (Value.record (v.toldWith now withStacks cause)).cut 0 =
      .record (v.toldWith now withStacks none) := by
  have dropped : Table.erase "cause" (cause.toList.map fun c => ("cause", c)) = [] := by
    cases cause <;> rfl
  rw [cut, toldWith, toldWith, Table.erase_append, Table.erase_append, dropped,
    Table.erase_of_not_mem v.cause_not_mem_keys_facts,
    Table.erase_of_not_mem v.cause_not_mem_keys_stackFact]
  rfl

theorem Value.cut_succ_toldWith (v : Value) (cause : Option Value) (i : Nat) :
    (Value.record (v.toldWith now withStacks cause)).cut (i + 1) =
      .record (v.toldWith now withStacks (cause.map (cut i))) := by
  have kept : ∀ t : Table Value, "cause" ∉ t.keys →
      (t.map fun e => if e.1 = "cause" then (e.1, e.2.cut i) else e) = t := by
    intro t absent
    refine (List.map_congr_left fun e member => if_neg fun same => absent ?_).trans (List.map_id t)
    exact same ▸ List.mem_map_of_mem member
  rw [cut, toldWith, toldWith, List.map_append, List.map_append,
    kept _ v.cause_not_mem_keys_facts, kept _ v.cause_not_mem_keys_stackFact]
  cases cause <;> rfl

theorem Site.told_eq (s : Site) (n : Nat) :
    s.told now withStacks n =
      .record (s.value.toldWith now withStacks (s.causeTold now withStacks n)) := by
  cases n <;> rfl

theorem Site.cut_told (s : Site) {n more : Nat} (within : n ≤ more) :
    (s.told now withStacks more).cut n = s.told now withStacks n := by
  induction n generalizing s more with
  | zero => rw [told_eq, Value.cut_zero_toldWith, told]
  | succ n ih =>
    cases more with
    | zero => omega
    | succ more =>
      have behind : (s.cause?.map (told now withStacks more)).map (Value.cut n) =
          s.cause?.map (told now withStacks n) := by
        cases s.cause? with
        | none => rfl
        | some c => exact congrArg some (ih c (by omega))
      rw [told, Value.cut_succ_toldWith, told, behind]

theorem Site.told?_told (s : Site) (n i : Nat) :
    (s.told now withStacks n).told? i =
      if i ≤ n then (s.behind? i).map fun c =>
        c.value.toldWith now withStacks (c.causeTold now withStacks (n - i))
      else none := by
  induction i generalizing s n with
  | zero =>
    rw [told_eq, Value.told?, if_pos (Nat.zero_le n), behind?, Option.map_some, Nat.sub_zero]
  | succ i ih =>
    rw [told_eq, Value.told?, Value.get?_cause_toldWith, behind?]
    cases n with
    | zero => simp [causeTold]
    | succ n =>
      rw [causeTold]
      cases s.cause? with
      | none => simp
      | some c => simpa using ih c n

end

/-- What a limit asks for: ten causes where there is none, and otherwise as many as its number. -/
def Value.AsksFor (limit : Value) (causes : Nat) : Prop :=
  (limit = .absent ∧ causes = 10) ∨
    ∃ x, limit = .number x ∧ Number.isInteger x = true ∧ Number.truncate? x = some (causes : Int)

theorem causeLimitOf?_of_asksFor {limit : Value} {causes : Nat} (asked : limit.AsksFor causes) :
    causeLimitOf? limit = .ok (some causes) := by
  rcases asked with ⟨rfl, rfl⟩ | ⟨x, rfl, whole, same⟩
  · rfl
  · have finite := whole
    simp only [Number.isInteger, Bool.if_false_left, Bool.and_eq_true, Bool.not_eq_true',
      decide_eq_false_iff_not, Bool.or_eq_true, not_or] at finite
    simp only [causeLimitOf?, Value.asNumber?, causeLimit?]
    rw [if_neg finite.1.1, if_neg finite.1.2, Number.naturalsBelow_of_natural whole same]

/-- For every thrown value and every limit there is a report. It has a level for the value and for
each cause behind it, down to the limit and no further, however long the causes go on: where they
end after `n`, the less of `n` and the limit. The level of each is what is to be told of it by
itself, with its stack where stacks are asked for, and what is no fault has no cause. The report for
a lower limit is the one for a higher limit, cut at the innermost level. -/
theorem Value.report_follows_causes (now : Int) (withStacks : Bool) (v : Value) {limit : Value}
    {causes : Nat} (asked : limit.AsksFor causes) :
    ∃ report, (causeLimitOf? limit).map (v.chain now).report? = .ok (some report) ∧
      let out := Level.value withStacks report
      (∀ i, (out.told? i).isSome ↔ i ≤ causes ∧ (v.behind? i).isSome) ∧
      (∀ n, (v.behind? n).isSome → v.behind? (n + 1) = none →
        ∀ i, (out.told? i).isSome ↔ i ≤ min n causes) ∧
      (∀ i s, i ≤ causes → v.behind? i = some s → ∃ cause : Option Value,
        out.told? i = some (s.value.toldWith now withStacks cause) ∧
          (cause.isSome ↔ i < causes ∧ (v.behind? (i + 1)).isSome)) ∧
      (∀ i s, v.behind? i = some s → (∀ f, s.value ≠ .fault f) → v.behind? (i + 1) = none) ∧
      ∀ more, causes ≤ more →
        (Level.value withStacks (v.report now more)).cut causes = out := by
  refine ⟨v.report now causes, by rw [causeLimitOf?_of_asksFor asked]; rfl, ?_⟩
  intro out
  have told : out = Site.told now withStacks causes { value := v } := v.value_report causes
  have levels : ∀ i, (out.told? i).isSome ↔ i ≤ causes ∧ (v.behind? i).isSome := by
    intro i
    rw [told, Site.told?_told]
    by_cases within : i ≤ causes <;> simp [within, Value.behind?]
  refine ⟨levels, fun n last ended i => ?_, fun i s within reached => ?_,
    fun i s reached bare => ?_, fun more within => ?_⟩
  · have reached : (v.behind? i).isSome ↔ i ≤ n := by
      refine ⟨fun there => Nat.le_of_not_lt fun beyond => ?_, fun within => ?_⟩
      · simp [Value.behind?, Site.behind?_eq_none ended beyond] at there
      · refine Option.isSome_iff_ne_none.mpr fun missing => ?_
        simp [Value.behind?, Site.behind?_eq_none missing within] at last
    rw [levels, reached, Nat.le_min, and_comm]
  · refine ⟨s.causeTold now withStacks (causes - i), ?_, ?_⟩
    · rw [told, Site.told?_told, if_pos within, ← Value.behind?, reached, Option.map_some]
    · rw [v.behind?_succ reached]
      cases rest : causes - i with
      | zero => simp [Site.causeTold, show ¬i < causes by omega]
      | succ n => simp [Site.causeTold, show i < causes by omega]
  · rw [v.behind?_succ reached]
    cases thrown : s.value with
    | fault f => exact absurd thrown (bare f)
    | _ => rw [Site.cause?, thrown]
  · rw [told, v.value_report more, Site.cut_told _ within]

theorem Value.report_follows_causes_of_circle :
    let v : Value := .fault (.application { kind := "BaseError", message := "down" }
      { code := "connection", raisedAt := 0 } [] (.back 0))
    (Value.number 2).AsksFor 2 ∧
      ∃ report, (causeLimitOf? (.number 2)).map (v.chain 1).report? = .ok (some report) ∧
        ((Level.value true report).told? 2).isSome ∧
        (Level.value true report).told? 3 = none := by
  intro v
  have asked : (Value.number 2).AsksFor 2 :=
    .inr ⟨2, rfl, by decide +kernel, by decide +kernel⟩
  obtain ⟨report, written, levels, -⟩ := report_follows_causes 1 true v asked
  refine ⟨asked, report, written, (levels 2).mpr ⟨Nat.le_refl 2, rfl⟩, ?_⟩
  exact Option.not_isSome_iff_eq_none.mp fun told => absurd ((levels 3).mp told).1 (by decide)

/-- A cause that is blank is a cause all the same. -/
example : ((Value.fault (.foreign { kind := "Error", message := "" } .null)).behind? 1).isSome :=
  rfl

end WorkloadIdentity
