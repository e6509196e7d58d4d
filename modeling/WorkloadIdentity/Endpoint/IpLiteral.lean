import WorkloadIdentity.Number.Written

/-! IP addresses as text. An IPv4 address is four decimal numbers up to 255 without
leading zeros. An IPv6 address is eight groups of up to four hexadecimal digits; two
colons stand for at least one group of zeros, and the last two groups may be given
as an IPv4 address. The canonical text of an IPv6 address replaces the first longest
run of at least two zero groups by two colons. -/

namespace WorkloadIdentity.Endpoint

namespace Ipv4

def part? (s : List Char) : Option Nat :=
  if 1 < s.length ∧ s.head? = some '0' then none
  else (Number.ofDigits? 10 s).bind fun n => if n ≤ 255 then some n else none

theorem part?_le {s : List Char} {n : Nat} (h : part? s = some n) : n ≤ 255 := by
  unfold part? at h
  split at h
  · simp at h
  · obtain ⟨k, -, hk⟩ := Option.bind_eq_some_iff.mp h
    split at hk
    · rename_i hle
      exact (Option.some.inj hk) ▸ hle
    · simp at hk

def parse? (s : List Char) : Option (List Nat) :=
  match s.splitOn '.' with
  | [a, b, c, d] =>
    match part? a, part? b, part? c, part? d with
    | some a, some b, some c, some d => some [a, b, c, d]
    | _, _, _, _ => none
  | _ => none

end Ipv4

namespace Ipv6

def group? (s : List Char) : Option Nat :=
  if s.length ≤ 4 then Number.ofDigits? 16 s else none

def groups? : List (List Char) → Option (List Nat)
  | [] => some []
  | [last] =>
    match group? last with
    | some g => some [g]
    | none =>
      match Ipv4.parse? last with
      | some [a, b, c, d] => some [256 * a + b, 256 * c + d]
      | _ => none
  | s :: rest =>
    match group? s with
    | some g => (groups? rest).map (g :: ·)
    | none => none

def side? (s : List Char) : Option (List Nat) :=
  if s = [] then some [] else groups? (s.splitOn ':')

/-- The text in front of the first two colons in a row, and the text behind them. -/
def gap? : List Char → Option (List Char × List Char)
  | ':' :: ':' :: rest => some ([], rest)
  | c :: rest => (gap? rest).map fun (front, back) => (c :: front, back)
  | [] => none

def front? (s : List Char) : Option (List Nat) :=
  if s = [] then some [] else (s.splitOn ':').mapM group?

def parse? (s : List Char) : Option (List Nat) :=
  match gap? s with
  | none => (groups? (s.splitOn ':')).bind fun gs => if gs.length = 8 then some gs else none
  | some (front, back) =>
    match front? front, side? back with
    | some f, some b =>
      if f.length + b.length ≤ 7 then
        some (f ++ List.replicate (8 - (f.length + b.length)) 0 ++ b)
      else none
    | _, _ => none

def zeroRun (gs : List Nat) : Nat := (gs.takeWhile (· = 0)).length

/-- The first longest run of zero groups: where it starts, and its length. -/
def longestRun : List Nat → Nat × Nat
  | [] => (0, 0)
  | g :: rest =>
    let here := zeroRun (g :: rest)
    let (start, length) := longestRun rest
    if length ≤ here then (0, here) else (start + 1, length)

def hexText (g : Nat) : List Char := Nat.toDigits 16 g

def joined (gs : List Nat) : List Char := [':'].intercalate (gs.map hexText)

def text (gs : List Nat) : List Char :=
  let (start, length) := longestRun gs
  if 2 ≤ length then joined (gs.take start) ++ ':' :: ':' :: joined (gs.drop (start + length))
  else joined gs

def isZoneChar (c : Char) : Bool :=
  c.isDigit || ('a' ≤ c && c ≤ 'z') || ('A' ≤ c && c ≤ 'Z') || c = '-' || c = '.' || c = ':'

end Ipv6

inductive IpVersion where
  | v4
  | v6
  deriving DecidableEq, Repr

/-- An IPv6 address may carry a zone behind a percent sign. -/
def isIpv6 (s : List Char) : Bool :=
  let zone := (s.dropWhile (· ≠ '%')).drop 1
  (Ipv6.parse? (s.takeWhile (· ≠ '%'))).isSome
    && (!s.contains '%' || (zone ≠ [] && zone.all Ipv6.isZoneChar))

def ipVersion? (s : List Char) : Option IpVersion :=
  if (Ipv4.parse? s).isSome then some .v4
  else if isIpv6 s then some .v6
  else none

end WorkloadIdentity.Endpoint
