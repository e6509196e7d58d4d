import WorkloadIdentity.Endpoint.IpLiteral
import WorkloadIdentity.Text.Utf8

/-! Hosts of URIs. Between brackets stands an IPv6 address, which is kept in canonical
text. Any other host of a scheme without rules of its own is opaque: it is kept as it
is and only some characters are refused. A host of a web scheme is a domain; one whose
last label is a number must be an IPv4 address. -/

namespace WorkloadIdentity.Endpoint.Host

def forbidden : List Char :=
  ['\x00', '\t', '\n', '\r', ' ', '#', '/', ':', '<', '>', '?', '@', '[', '\\', ']', '^', '|']

def isForbidden (c : Char) : Bool := forbidden.contains c

def bracketed? (s : List Char) : Option (List Char) :=
  match s with
  | '[' :: rest =>
    if rest.getLast? = some ']' then
      (Ipv6.parse? rest.dropLast).map fun gs => '[' :: Ipv6.text gs ++ [']']
    else none
  | _ => none

def verbatim? (s : List Char) : Option (List Char) :=
  if s.head? = some '[' then bracketed? s
  else if s.any isForbidden then none
  else some s

def isForbiddenInDomain (c : Char) : Bool :=
  isForbidden c || c < ' ' || c = '%' || c = '\x7f'

/-- Percent-encoded bytes are read, an incomplete encoding stands for itself. -/
def unescape : List Char → List UInt8
  | [] => []
  | '%' :: a :: b :: rest =>
    match Number.digitValue? 16 a, Number.digitValue? 16 b with
    | some hi, some lo => (16 * hi + lo).toUInt8 :: unescape rest
    | _, _ => '%'.toUInt8 :: unescape (a :: b :: rest)
  | c :: rest => String.utf8EncodeChar c ++ unescape rest

/-- A number of an IPv4 address of a web host: decimal, octal after `0`, hexadecimal after `0x`. -/
def looseNumber? : List Char → Option Nat
  | [] => none
  | ['0'] => some 0
  | '0' :: c :: rest =>
    if c = 'x' ∨ c = 'X' then if rest = [] then some 0 else Number.ofDigits? 16 rest
    else Number.ofDigits? 8 (c :: rest)
  | s => Number.ofDigits? 10 s

def labels (s : List Char) : List (List Char) :=
  let parts := s.splitOn '.'
  if 1 < parts.length ∧ parts.getLast? = some [] then parts.dropLast else parts

def endsInNumber (s : List Char) : Bool :=
  match (labels s).getLast? with
  | none => false
  | some last => (last ≠ [] && last.all Char.isDigit) || (looseNumber? last).isSome

/-- Every number but the last is a byte; the last one fills the bytes that are left. -/
def isLooseIpv4 (s : List Char) : Bool :=
  match (labels s).mapM looseNumber? with
  | none => false
  | some ns =>
    ns.length ≤ 4 && ns.dropLast.all (· ≤ 255)
      && (match ns.getLast? with
        | some n => n < Nat.pow 256 (5 - ns.length)
        | none => false)

def isDomain (s : List Char) : Bool :=
  if s.head? = some '[' then (bracketed? s).isSome
  else
    let name := Text.Utf8.decodeFrom none (unescape s)
    name ≠ [] && !name.any isForbiddenInDomain && (!endsInNumber name || isLooseIpv4 name)

end WorkloadIdentity.Endpoint.Host
