import WorkloadIdentity.Json.Basic

/-! Reading JSON text.
A member that is named twice keeps its first place and its last value. A number
is rounded to the nearest double. The reader is handed a bound on the nesting
depth, which `Json.read?` takes from the length of the text. -/

namespace WorkloadIdentity.Json

def isSpace (c : Char) : Bool := c = ' ' || c = '\t' || c = '\n' || c = '\r'

def skip (s : List Char) : List Char := s.dropWhile isSpace

def hex4? : List Char → Option (Nat × List Char)
  | a :: b :: c :: d :: rest => (Number.ofDigits? 16 [a, b, c, d]).map (·, rest)
  | _ => none

/-- The character of a unit that stands for itself; half of a pair alone becomes U+FFFD. -/
def unitChar (n : Nat) : Char := if 0xd800 ≤ n ∧ n < 0xe000 then '\ufffd' else Char.ofNat n

def escaped? : List Char → Option (Char × List Char)
  | '"' :: r => some ('"', r)
  | '\\' :: r => some ('\\', r)
  | '/' :: r => some ('/', r)
  | 'b' :: r => some ('\x08', r)
  | 'f' :: r => some ('\x0c', r)
  | 'n' :: r => some ('\n', r)
  | 'r' :: r => some ('\r', r)
  | 't' :: r => some ('\t', r)
  | 'u' :: r =>
    (hex4? r).bind fun (hi, r) =>
      let alone := some (unitChar hi, r)
      if 0xd800 ≤ hi ∧ hi < 0xdc00 then
        match r with
        | '\\' :: 'u' :: r' =>
          match hex4? r' with
          | some (lo, r'') =>
            if 0xdc00 ≤ lo ∧ lo < 0xe000 then
              some (Char.ofNat (0x10000 + (hi - 0xd800) * 0x400 + (lo - 0xdc00)), r'')
            else alone
          | none => alone
        | _ => alone
      else alone
  | _ => none

/-- The rest of a string whose opening quote has been read, at most `fuel` characters of it. -/
def string? : Nat → List Char → Option (List Char × List Char)
  | 0, _ => none
  | fuel + 1, s =>
    match s with
    | '"' :: r => some ([], r)
    | '\\' :: r =>
      (escaped? r).bind fun (c, r) => (string? fuel r).map fun (cs, r) => (c :: cs, r)
    | c :: r => if c < ' ' then none else (string? fuel r).map fun (cs, r) => (c :: cs, r)
    | [] => none

def isNumberChar (c : Char) : Bool :=
  c.isDigit || c = '-' || c = '+' || c = '.' || c = 'e' || c = 'E'

def number? (s : List Char) : Option Float :=
  let (negative, s) := match s with
    | '-' :: r => (true, r)
    | r => (false, r)
  let whole := s.takeWhile Char.isDigit
  let rest := s.dropWhile Char.isDigit
  let wellFormed := match whole with
    | [] => false
    | '0' :: _ :: _ => false
    | _ => match rest with
      | '.' :: c :: _ => c.isDigit
      | '.' :: [] => false
      | _ => true
  if wellFormed then
    (Number.unsigned? s).map fun x => if negative then -x else x
  else none

mutual

def value? : Nat → List Char → Option (Json × List Char)
  | 0, _ => none
  | fuel + 1, s =>
    match skip s with
    | 'n' :: 'u' :: 'l' :: 'l' :: r => some (.null, r)
    | 't' :: 'r' :: 'u' :: 'e' :: r => some (.bool true, r)
    | 'f' :: 'a' :: 'l' :: 's' :: 'e' :: r => some (.bool false, r)
    | '"' :: r => (string? (r.length + 1) r).map fun (cs, r) => (.text (String.ofList cs), r)
    | '[' :: r =>
      match skip r with
      | ']' :: r => some (.array [], r)
      | r => (items? fuel r).map fun (js, r) => (.array js, r)
    | '\x7b' :: r =>
      match skip r with
      | '\x7d' :: r => some (.object [], r)
      | r => (members? fuel r []).map fun (ms, r) => (.object ms, r)
    | r => (number? (r.takeWhile isNumberChar)).map fun x => (.number x, r.dropWhile isNumberChar)

def items? : Nat → List Char → Option (List Json × List Char)
  | 0, _ => none
  | fuel + 1, s =>
    (value? fuel s).bind fun (j, r) =>
      match skip r with
      | ']' :: r => some ([j], r)
      | ',' :: r => (items? fuel r).map fun (js, r) => (j :: js, r)
      | _ => none

def members? : Nat → List Char → Table Json → Option (Table Json × List Char)
  | 0, _, _ => none
  | fuel + 1, s, done =>
    match skip s with
    | '"' :: r =>
      (string? (r.length + 1) r).bind fun (k, r) =>
        match skip r with
        | ':' :: r =>
          (value? fuel r).bind fun (j, r) =>
            let done := Table.put (String.ofList k) j done
            match skip r with
            | '\x7d' :: r => some (done, r)
            | ',' :: r => members? fuel r done
            | _ => none
        | _ => none
    | _ => none

end

def read? (s : String) : Option Json :=
  let cs := s.toList
  (value? (2 * cs.length + 2) cs).bind fun (j, r) => if (skip r).isEmpty then some j else none

end WorkloadIdentity.Json
