import WorkloadIdentity.Number.Written
import WorkloadIdentity.Text.Utf8

/-! Percent-encoding. A percent sign and two hexadecimal digits stand for a byte; the
bytes of a run must be the UTF-8 of whole characters. Nothing else is decoded, and a
percent sign that begins no byte makes the text malformed. -/

namespace WorkloadIdentity.Endpoint.Percent

inductive Piece where
  | plain (c : Char)
  | byte (b : Nat)

def pieces? : List Char → Option (List Piece)
  | [] => some []
  | '%' :: a :: b :: rest =>
    match Number.digitValue? 16 a, Number.digitValue? 16 b with
    | some hi, some lo => (pieces? rest).map (.byte (16 * hi + lo) :: ·)
    | _, _ => none
  | c :: rest => if c = '%' then none else (pieces? rest).map (.plain c :: ·)

def join? : Option Text.Utf8.Pending → List Piece → Option (List Char)
  | none, [] => some []
  | some _, [] => none
  | none, .plain c :: rest => (join? none rest).map (c :: ·)
  | some _, .plain _ :: _ => none
  | none, .byte b :: rest =>
    match Text.Utf8.first? b with
    | some (.done c) => (join? none rest).map (c :: ·)
    | some (.more p) => join? (some p) rest
    | none => none
  | some p, .byte b :: rest =>
    match p.next? b with
    | some (.done c) => (join? none rest).map (c :: ·)
    | some (.more q) => join? (some q) rest
    | none => none

def decode? (s : List Char) : Option (List Char) := (pieces? s).bind (join? none)

theorem decode?_of_not_mem {s : List Char} (h : '%' ∉ s) : decode? s = some s := by
  have hp : pieces? s = some (s.map .plain) := by
    induction s with
    | nil => rfl
    | cons c rest ih =>
      have hc : c ≠ '%' := fun e => h (by simp [e])
      have hr : '%' ∉ rest := fun m => h (List.mem_cons_of_mem _ m)
      rw [pieces?.eq_3 _ _ (by rintro a b r e; exact fun _ => hc (by simp_all))]
      simp [hc, ih hr]
  have hj : join? none (s.map .plain) = some s := by
    clear h hp
    induction s with
    | nil => rfl
    | cons c rest ih => simp [join?, ih]
  simp [decode?, hp, hj]

end WorkloadIdentity.Endpoint.Percent
