import WorkloadIdentity.Text.Hex

/-! A text as it is shown inside a message: between quotes it does not hold, if there are
such quotes, with its control characters spelled out, so that it takes one line. -/

namespace WorkloadIdentity.Text.Quoted

def hasHole : List Char → Bool
  | '$' :: '\x7b' :: _ => true
  | _ :: rest => hasHole rest
  | [] => false

/-- Single quotes are the first choice, double quotes the second, back quotes the third. -/
def quote (s : List Char) : Char :=
  if !s.contains '\'' then '\''
  else if !s.contains '"' then '"'
  else if !s.contains '\x60' && !hasHole s then '\x60'
  else '\''

def upperHex (n : Nat) : Char := (Hex.digit n).toUpper

def isControl (c : Char) : Bool := c < ' ' || (c.toNat > 0x7e && c.toNat < 0xa0)

def escape (quote c : Char) : List Char :=
  if c = '\\' then ['\\', '\\']
  else if c = '\'' ∧ quote = '\'' then ['\\', '\'']
  else if c = '\x08' then ['\\', 'b']
  else if c = '\t' then ['\\', 't']
  else if c = '\n' then ['\\', 'n']
  else if c = '\x0c' then ['\\', 'f']
  else if c = '\r' then ['\\', 'r']
  else if isControl c then ['\\', 'x', upperHex (c.toNat / 16), upperHex (c.toNat % 16)]
  else [c]

def chars (s : List Char) : List Char :=
  let q := quote s
  q :: s.flatMap (escape q) ++ [q]

def text (s : String) : String := String.ofList (chars s.toList)

end WorkloadIdentity.Text.Quoted
