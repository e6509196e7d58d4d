/-! Tables from text keys to values, in the order a reader sees them.
A key that is the canonical text of an index stands before every other key, the
indices ascending; all other keys keep the order in which they were first put,
and a key that is put again keeps its place. A table is its list of entries, so
that it can stand inside a recursive type. -/

namespace WorkloadIdentity

abbrev Table (α : Type) := List (String × α)

namespace Table

variable {α β : Type}

/-- The index that a key spells: decimal digits without a leading zero, below `2 ^ 32 - 1`. -/
def index? (key : String) : Option Nat :=
  match key.toList with
  | [] => none
  | '0' :: rest => if rest.isEmpty then some 0 else none
  | digits =>
    if digits.all Char.isDigit then
      let n := digits.foldl (fun n c => 10 * n + (c.toNat - '0'.toNat)) 0
      if n < Nat.pow 2 32 - 1 then some n else none
    else none

def before (key other : String) : Bool :=
  match index? key, index? other with
  | some i, some j => i < j
  | some _, none => true
  | none, _ => false

theorem before_trans {a b c : String} (hab : before a b = true) (hbc : before b c = true) :
    before a c = true := by
  unfold before at *
  cases ha : index? a <;> cases hb : index? b <;> cases hc : index? c <;> simp_all
  omega

theorem before_self (key : String) : before key key = false := by
  unfold before
  cases index? key <;> simp

def put (key : String) (a : α) : Table α → Table α
  | [] => [(key, a)]
  | (k, b) :: rest =>
    if k = key then (key, a) :: rest
    else if before key k then (key, a) :: (k, b) :: rest
    else (k, b) :: put key a rest

def get? (key : String) : Table α → Option α
  | [] => none
  | (k, a) :: rest => if k = key then some a else get? key rest

theorem get?_append (key : String) (t later : Table α) :
    get? key (t ++ later) = (get? key t).or (get? key later) := by
  induction t with
  | nil => rfl
  | cons e rest ih =>
    obtain ⟨k, a⟩ := e
    by_cases same : k = key
    · simp [get?, same]
    · simpa [get?, same] using ih

theorem get?_put_self (key : String) (a : α) (t : Table α) : get? key (put key a t) = some a := by
  induction t with
  | nil => simp [put, get?]
  | cons e rest ih =>
    obtain ⟨k, b⟩ := e
    simp only [put]
    split
    · simp [get?]
    · split
      · simp [get?]
      · rename_i h _
        simp [get?, h, ih]

theorem get?_put_of_ne {key other : String} (h : other ≠ key) (a : α) (t : Table α) :
    get? other (put key a t) = get? other t := by
  have h' : key ≠ other := fun e => h e.symm
  induction t with
  | nil => simp [put, get?, h']
  | cons e rest ih =>
    obtain ⟨k, b⟩ := e
    simp only [put]
    split
    · rename_i hk
      simp [get?, hk, h']
    · split
      · simp [get?, h']
      · simp only [get?, ih]

def erase (key : String) (t : Table α) : Table α := t.filter fun e => e.1 ≠ key

theorem get?_erase_self (key : String) (t : Table α) : get? key (erase key t) = none := by
  induction t with
  | nil => rfl
  | cons e rest ih =>
    by_cases h : e.1 = key
    · simpa [erase, h] using ih
    · simpa [erase, h, get?] using ih

theorem get?_filter_key (keep : String → Bool) {key : String} (kept : keep key = true)
    (t : Table α) : get? key (t.filter fun e => keep e.1) = get? key t := by
  induction t with
  | nil => rfl
  | cons e rest ih =>
    obtain ⟨k, a⟩ := e
    cases here : keep k with
    | true => simp only [List.filter_cons, here, if_true, get?, ih]
    | false =>
      have other : k ≠ key := by
        rintro rfl
        exact absurd kept (by simp [here])
      simpa [here, get?, other] using ih

theorem get?_erase_of_ne {key other : String} (h : other ≠ key) (t : Table α) :
    get? other (erase key t) = get? other t :=
  get?_filter_key (fun k => k ≠ key) (decide_eq_true h) t

theorem erase_append (key : String) (t later : Table α) :
    erase key (t ++ later) = erase key t ++ erase key later :=
  List.filter_append t later

def keys (t : Table α) : List String := t.map Prod.fst

theorem keys_filter_sublist (p : String × α → Bool) (t : Table α) :
    (keys (t.filter p)).Sublist (keys t) :=
  List.filter_sublist.map Prod.fst

theorem erase_of_not_mem {key : String} {t : Table α} (absent : key ∉ keys t) :
    erase key t = t := by
  refine List.filter_eq_self.mpr fun e member => decide_eq_true fun same => absent ?_
  exact same ▸ List.mem_map_of_mem member

theorem get?_eq_none_iff {key : String} {t : Table α} : get? key t = none ↔ key ∉ keys t := by
  induction t with
  | nil => simp [get?, keys]
  | cons e rest ih =>
    obtain ⟨k, a⟩ := e
    by_cases same : k = key
    · simp [get?, keys, same]
    · simpa [get?, keys, same, Ne.symm same] using ih

theorem mem_of_get? {key : String} {a : α} {t : Table α} (found : get? key t = some a) :
    (key, a) ∈ t := by
  induction t with
  | nil => cases found
  | cons e rest ih =>
    obtain ⟨k, b⟩ := e
    by_cases same : k = key
    · obtain rfl : b = a := by simpa [get?, same] using found
      exact same ▸ List.mem_cons_self ..
    · exact List.mem_cons_of_mem _ (ih (by simpa [get?, same] using found))

theorem mem_keys_iff {key : String} {t : Table α} : key ∈ keys t ↔ ∃ a, get? key t = some a := by
  rw [← Option.ne_none_iff_exists', Ne, get?_eq_none_iff, Decidable.not_not]

/-- Entries of `later` are put one after the other, so they win. -/
def merge (base later : Table α) : Table α := later.foldl (fun t e => put e.1 e.2 t) base

def ofList (entries : List (String × α)) : Table α := merge [] entries

@[simp] theorem merge_nil (base : Table α) : merge base [] = base := rfl

@[simp] theorem merge_cons (base : Table α) (e : String × α) (rest : Table α) :
    merge base (e :: rest) = merge (put e.1 e.2 base) rest := rfl

theorem mem_keys_put {k key : String} (a : α) (t : Table α) :
    k ∈ keys (put key a t) ↔ k = key ∨ k ∈ keys t := by
  induction t with
  | nil => simp [put, keys]
  | cons e rest ih =>
    obtain ⟨k', b⟩ := e
    simp only [keys, List.map_cons, List.mem_cons] at ih ⊢
    simp only [put]
    split
    · rename_i hk
      simp [hk]
    · split
      · simp
      · simp only [List.map_cons, List.mem_cons, ih]
        constructor
        · rintro (h | h | h) <;> simp [h]
        · rintro (h | h | h) <;> simp [h]

theorem mem_keys_merge {k : String} (base later : Table α) :
    k ∈ keys (merge base later) ↔ k ∈ keys base ∨ k ∈ keys later := by
  induction later generalizing base with
  | nil => simp [keys]
  | cons e rest ih =>
    rw [merge_cons, ih, mem_keys_put]
    simp only [keys, List.map_cons, List.mem_cons]
    constructor
    · rintro ((h | h) | h) <;> simp [h]
    · rintro (h | h | h) <;> simp [h]

theorem mem_put {e : String × α} {key : String} {a : α} {t : Table α} (member : e ∈ put key a t) :
    e = (key, a) ∨ e ∈ t := by
  induction t with
  | nil => simpa [put] using member
  | cons f rest ih =>
    obtain ⟨k, b⟩ := f
    simp only [put] at member
    split at member
    · exact (List.mem_cons.mp member).imp id (List.mem_cons_of_mem _)
    · split at member
      · exact List.mem_cons.mp member
      · rcases List.mem_cons.mp member with rfl | later
        · exact .inr (List.mem_cons_self ..)
        · exact (ih later).imp id (List.mem_cons_of_mem _)

theorem mem_merge {e : String × α} {base later : Table α} (member : e ∈ merge base later) :
    e ∈ base ∨ e ∈ later := by
  induction later generalizing base with
  | nil => exact .inl member
  | cons f rest ih =>
    rcases ih member with first | last
    · rcases mem_put first with rfl | there
      · exact .inr (List.mem_cons_self ..)
      · exact .inl there
    · exact .inr (List.mem_cons_of_mem f last)

/-- Every key stands once, and no key behind one that it comes before. -/
def Ordered (t : Table α) : Prop :=
  (keys t).Pairwise fun k l => k ≠ l ∧ before l k = false

theorem Ordered.nodup_keys {t : Table α} (h : Ordered t) : (keys t).Nodup := h.imp And.left

theorem Ordered.filter {t : Table α} (h : Ordered t) (p : String × α → Bool) :
    Ordered (t.filter p) :=
  h.sublist (keys_filter_sublist p t)

theorem ordered_nil : Ordered ([] : Table α) := List.Pairwise.nil

theorem ordered_put (key : String) (a : α) {t : Table α} (h : Ordered t) :
    Ordered (put key a t) := by
  induction t with
  | nil => simp [Ordered, put, keys]
  | cons e rest ih =>
    obtain ⟨k, b⟩ := e
    obtain ⟨hk, hrest⟩ := List.pairwise_cons.mp h
    simp only [put]
    split
    · rename_i e
      subst e
      exact h
    · rename_i ne
      split
      · rename_i hb
        refine List.pairwise_cons.mpr ⟨fun l hl => ?_, h⟩
        rcases List.mem_cons.mp hl with e | hl
        · have e : l = k := e
          refine ⟨fun he => ne (by rw [← e, ← he]), ?_⟩
          cases hback : before l key with
          | false => rfl
          | true =>
            have loop := before_trans hb (e ▸ hback)
            rw [before_self] at loop
            simp at loop
        · obtain ⟨-, hl'⟩ := hk l hl
          refine ⟨fun e => ?_, ?_⟩
          · rw [← e, hb] at hl'
            simp at hl'
          · cases hback : before l key with
            | false => rfl
            | true =>
              rw [before_trans hback hb] at hl'
              simp at hl'
      · rename_i hb
        refine List.pairwise_cons.mpr ⟨fun l hl => ?_, ih hrest⟩
        rcases (mem_keys_put a rest).mp hl with rfl | hl
        · exact ⟨ne, by simpa using hb⟩
        · exact hk l hl

theorem ordered_merge {base : Table α} (h : Ordered base) (later : Table α) :
    Ordered (merge base later) := by
  induction later generalizing base with
  | nil => exact h
  | cons e rest ih => exact ih (ordered_put e.1 e.2 h)

theorem ordered_ofList (entries : List (String × α)) : Ordered (ofList entries) :=
  ordered_merge ordered_nil entries

theorem put_eq_append {key : String} (a : α) {t : Table α}
    (behind : ∀ k ∈ keys t, k ≠ key ∧ before key k = false) : put key a t = t ++ [(key, a)] := by
  induction t with
  | nil => rfl
  | cons e rest ih =>
    obtain ⟨k, b⟩ := e
    obtain ⟨other, after⟩ := behind k (List.mem_cons_self ..)
    rw [put, if_neg other, if_neg (by simp [after]),
      ih fun l member => behind l (List.mem_cons_of_mem k member), List.cons_append]

theorem merge_eq_append {base later : Table α} (h : Ordered (base ++ later)) :
    merge base later = base ++ later := by
  induction later generalizing base with
  | nil => rw [merge_nil, List.append_nil]
  | cons e rest ih =>
    obtain ⟨k, a⟩ := e
    have behind : ∀ l ∈ keys base, l ≠ k ∧ before k l = false := by
      intro l member
      rw [Ordered, keys, List.map_append, List.pairwise_append] at h
      exact h.2.2 l member k (List.mem_cons_self ..)
    rw [← List.singleton_append, ← List.append_assoc] at h ⊢
    rw [List.singleton_append, merge_cons, put_eq_append a behind, ih h]

theorem ofList_of_ordered {t : Table α} (h : Ordered t) : ofList t = t := merge_eq_append h

theorem get?_merge_of_not_mem {key : String} (base : Table α) {later : Table α}
    (h : key ∉ keys later) : get? key (merge base later) = get? key base := by
  induction later generalizing base with
  | nil => rfl
  | cons e rest ih =>
    simp only [keys, List.map_cons, List.mem_cons, not_or] at h
    rw [merge_cons, ih _ h.2, get?_put_of_ne h.1]

theorem get?_merge {later : Table α} (once : (keys later).Nodup) (key : String) (base : Table α) :
    get? key (merge base later) = (get? key later).or (get? key base) := by
  induction later generalizing base with
  | nil => rfl
  | cons e rest ih =>
    obtain ⟨k, a⟩ := e
    simp only [keys, List.map_cons, List.nodup_cons] at once
    rw [merge_cons, ih once.2]
    by_cases same : k = key
    · subst same
      have silent : get? k rest = none := get?_eq_none_iff.mpr once.1
      simp [get?, silent, get?_put_self]
    · simp [get?, same, get?_put_of_ne (Ne.symm same)]

theorem get?_ofList {entries : List (String × α)} (once : (keys entries).Nodup) (key : String) :
    get? key (ofList entries) = get? key entries := by
  rw [ofList, get?_merge once, get?, Option.or_none]

end Table

end WorkloadIdentity
