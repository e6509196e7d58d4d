import WorkloadIdentity.Number.Written

/-! Bytes as pairs of hexadecimal digits. -/

namespace WorkloadIdentity.Text.Hex

def digit (n : Nat) : Char :=
  if n < 10 then Char.ofNat ('0'.toNat + n) else Char.ofNat ('a'.toNat + n - 10)

def ofByte (b : UInt8) : List Char := [digit (b.toNat / 16), digit (b.toNat % 16)]

def ofBytes (bytes : List UInt8) : String := String.ofList (bytes.flatMap ofByte)

def pairs : List Char → List UInt8
  | a :: b :: rest => ((Number.ofDigits? 16 [a, b]).getD 0).toUInt8 :: pairs rest
  | _ => []

def bytes (s : String) : List UInt8 := pairs s.toList

end WorkloadIdentity.Text.Hex
