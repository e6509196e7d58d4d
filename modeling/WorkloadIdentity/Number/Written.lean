import WorkloadIdentity.Number.Shortest
import WorkloadIdentity.Text.Blank

/-! How a number is written and read in text.
The shortest digits are laid out with a point while the value is neither very
large nor very small, and with an exponent outside that range. Reading takes the
same notations back, and also radix notations and surrounding blanks. -/

namespace WorkloadIdentity.Number

/-- Where the decimal point may stand before an exponent takes over: at most `wide` places to the
right of the first digit's left edge, at most `deep` zeros after the point. -/
structure Layout where
  wide : Int
  deep : Int

def layout : Layout := ⟨21, -6⟩

def decimalDigits (n : Nat) : List Char := Nat.toDigits 10 n

/-- Digits without trailing zeros, and the place of the point counted from their left edge. -/
def Decimal.significant (d : Decimal) : List Char × Int :=
  let all := decimalDigits d.coefficient
  ((all.reverse.dropWhile (· = '0')).reverse, all.length + d.exponent)

def zeros (n : Int) : List Char := List.replicate n.toNat '0'

def exponentMark (e : Int) : List Char :=
  'e' :: (if e < 0 then '-' else '+') :: decimalDigits e.natAbs

def Layout.place (l : Layout) (digits : List Char) (point : Int) : List Char :=
  if 0 < point ∧ point ≤ l.wide then
    if (digits.length : Int) ≤ point then digits ++ zeros (point - digits.length)
    else digits.take point.toNat ++ '.' :: digits.drop point.toNat
  else if l.deep < point ∧ point ≤ 0 then '0' :: '.' :: zeros (-point) ++ digits
  else match digits with
    | [d] => d :: exponentMark (point - 1)
    | d :: rest => d :: '.' :: rest ++ exponentMark (point - 1)
    | [] => []

def chars (x : Float) : List Char :=
  if x.isNaN then "NaN".toList
  else if x.isInf then (if x < 0 then "-Infinity" else "Infinity").toList
  else
    let p := parts x
    if p.significand = 0 then ['0']
    else
      let s := (shortest p.significand p.exponent).significant
      (if p.negative then ['-'] else []) ++ layout.place s.1 s.2

def text (x : Float) : String := String.ofList (chars x)

def naturalText (n : Nat) : String := String.ofList (decimalDigits n)

def integerText (n : Int) : String :=
  if n < 0 then String.ofList ('-' :: decimalDigits n.natAbs) else naturalText n.natAbs

def nan : Float := Float.ofBits 0x7ff8000000000000

def infinity : Float := Float.ofBits 0x7ff0000000000000

def digitValue? (radix : Nat) (c : Char) : Option Nat :=
  let v :=
    if c.isDigit then c.toNat - '0'.toNat
    else if 'a' ≤ c ∧ c ≤ 'z' then c.toNat - 'a'.toNat + 10
    else if 'A' ≤ c ∧ c ≤ 'Z' then c.toNat - 'A'.toNat + 10
    else radix
  if v < radix then some v else none

def ofDigits? (radix : Nat) (s : List Char) : Option Nat :=
  if s.isEmpty then none
  else s.foldl (fun n c => n.bind fun n => (digitValue? radix c).map (radix * n + ·)) (some 0)

def value10 (s : List Char) : Nat := (ofDigits? 10 s).getD 0

def exponent? : List Char → Option Int
  | [] => some 0
  | c :: rest =>
    if c = 'e' ∨ c = 'E' then
      match rest with
      | '-' :: digits => (ofDigits? 10 digits).map fun n => -(n : Int)
      | '+' :: digits => (ofDigits? 10 digits).map fun n => (n : Int)
      | digits => (ofDigits? 10 digits).map fun n => (n : Int)
    else none

def unsigned? (s : List Char) : Option Float :=
  if s = "Infinity".toList then some infinity
  else
    let whole := s.takeWhile Char.isDigit
    let rest := s.dropWhile Char.isDigit
    let (fraction, rest) := match rest with
      | '.' :: r => (r.takeWhile Char.isDigit, r.dropWhile Char.isDigit)
      | r => ([], r)
    if whole.isEmpty && fraction.isEmpty then none
    else (exponent? rest).map fun e => ofDecimal (value10 (whole ++ fraction)) (e - fraction.length)

def trimmed? : List Char → Option Float
  | [] => some 0
  | '0' :: c :: digits =>
    if c = 'x' ∨ c = 'X' then (ofDigits? 16 digits).map (nearest · 1)
    else if c = 'o' ∨ c = 'O' then (ofDigits? 8 digits).map (nearest · 1)
    else if c = 'b' ∨ c = 'B' then (ofDigits? 2 digits).map (nearest · 1)
    else unsigned? ('0' :: c :: digits)
  | '-' :: rest => (unsigned? rest).map (-·)
  | '+' :: rest => unsigned? rest
  | s => unsigned? s

/-- Reads a text as a number, blanks around it ignored; the empty text is zero and anything that
is no number is `nan`. -/
def ofText (s : String) : Float := (trimmed? (Text.trim s.toList)).getD nan

end WorkloadIdentity.Number
