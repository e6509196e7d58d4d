import WorkloadIdentity.Log.Severity
import WorkloadIdentity.Value

/-! What a logger is asked to write. `loggedAt` counts milliseconds. -/

namespace WorkloadIdentity.Log

structure Entry where
  severity : Severity
  message : String
  data : Option (Table Value) := none
  loggedAt : Int

/-- A value that is absent says nothing, so it replaces nothing, and a parent is no member. -/
def defined (t : Table Value) : Table Value :=
  t.filter fun e => !e.2.isAbsent && e.1 ≠ Innate.parent.name

theorem get?_defined_cons_of_ne {key k : String} (h : k ≠ key) (v : Value) (t : Table Value) :
    Table.get? key (defined ((k, v) :: t)) = Table.get? key (defined t) := by
  unfold defined
  cases hv : v.isAbsent <;> by_cases hk : k = Innate.parent.name
  all_goals simp [Table.get?, hv, hk, h]

end WorkloadIdentity.Log
