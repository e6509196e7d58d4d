/-! UTF-8, one byte at a time. A character that has begun owes bytes, each within a
range; the range of the second byte rules out overlong forms, surrogates and
everything above the last code point. Bytes that cannot be read become U+FFFD, one
for each longest run that could still have begun a character. -/

namespace WorkloadIdentity.Text.Utf8

structure Pending where
  value : Nat
  owed : Nat
  low : Nat
  high : Nat
  deriving DecidableEq

inductive Progress where
  | done (c : Char)
  | more (p : Pending)

def first? (b : Nat) : Option Progress :=
  if b ≤ 0x7f then some (.done (Char.ofNat b))
  else if 0xc2 ≤ b ∧ b ≤ 0xdf then some (.more ⟨b - 0xc0, 0, 0x80, 0xbf⟩)
  else if b = 0xe0 then some (.more ⟨0, 1, 0xa0, 0xbf⟩)
  else if b = 0xed then some (.more ⟨0xd, 1, 0x80, 0x9f⟩)
  else if 0xe1 ≤ b ∧ b ≤ 0xef then some (.more ⟨b - 0xe0, 1, 0x80, 0xbf⟩)
  else if b = 0xf0 then some (.more ⟨0, 2, 0x90, 0xbf⟩)
  else if 0xf1 ≤ b ∧ b ≤ 0xf3 then some (.more ⟨b - 0xf0, 2, 0x80, 0xbf⟩)
  else if b = 0xf4 then some (.more ⟨4, 2, 0x80, 0x8f⟩)
  else none

/-- A byte of a character that has begun; `owed` counts the bytes after this one. -/
def Pending.next? (p : Pending) (b : Nat) : Option Progress :=
  if p.low ≤ b ∧ b ≤ p.high then
    let value := p.value * 0x40 + (b - 0x80)
    match p.owed with
    | 0 => some (.done (Char.ofNat value))
    | n + 1 => some (.more ⟨value, n, 0x80, 0xbf⟩)
  else none

def replacement : Char := '\ufffd'

def begin (b : Nat) : List Char × Option Pending :=
  match first? b with
  | some (.done c) => ([c], none)
  | some (.more p) => ([], some p)
  | none => ([replacement], none)

def advance (pending : Option Pending) (b : Nat) : List Char × Option Pending :=
  match pending with
  | none => begin b
  | some p =>
    match p.next? b with
    | some (.done c) => ([c], none)
    | some (.more q) => ([], some q)
    | none => (replacement :: (begin b).1, (begin b).2)

def decodeFrom : Option Pending → List UInt8 → List Char
  | none, [] => []
  | some _, [] => [replacement]
  | pending, b :: rest =>
    (advance pending b.toNat).1 ++ decodeFrom (advance pending b.toNat).2 rest

def decode (bytes : List UInt8) : String := String.ofList (decodeFrom none bytes)

end WorkloadIdentity.Text.Utf8
