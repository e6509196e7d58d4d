import WorkloadIdentity.Table
import WorkloadIdentity.Number.Written

/-! JSON values and their text.
Members of an object keep table order. Text is written without spaces: inside a
string a quote, a backslash and the characters below the space are escaped, the
short escapes where there are any, and everything else stands for itself. -/

namespace WorkloadIdentity

inductive Json where
  | null
  | bool (b : Bool)
  | number (x : Float)
  | text (s : String)
  | array (items : List Json)
  | object (members : List (String × Json))

instance : Inhabited Json := ⟨.null⟩

namespace Json

def hexDigit (n : Nat) : Char := (Nat.toDigits 16 n).headD '0'

def escape (c : Char) : List Char :=
  if c = '"' then ['\\', '"']
  else if c = '\\' then ['\\', '\\']
  else if c = '\x08' then ['\\', 'b']
  else if c = '\t' then ['\\', 't']
  else if c = '\n' then ['\\', 'n']
  else if c = '\x0c' then ['\\', 'f']
  else if c = '\r' then ['\\', 'r']
  else if c < ' ' then ['\\', 'u', '0', '0', hexDigit (c.toNat / 16), hexDigit (c.toNat % 16)]
  else [c]

def quoted (s : List Char) : List Char := '"' :: s.flatMap escape ++ ['"']

def numberChars (x : Float) : List Char :=
  if x.isNaN || x.isInf then "null".toList else Number.chars x

mutual

def chars : Json → List Char
  | .null => "null".toList
  | .bool b => (if b then "true" else "false").toList
  | .number x => numberChars x
  | .text s => quoted s.toList
  | .array items => '[' :: itemChars items
  | .object members => '\x7b' :: memberChars members

def itemChars : List Json → List Char
  | [] => [']']
  | [j] => j.chars ++ [']']
  | j :: rest => j.chars ++ ',' :: itemChars rest

def memberChars : List (String × Json) → List Char
  | [] => ['\x7d']
  | [(k, j)] => quoted k.toList ++ ':' :: j.chars ++ ['\x7d']
  | (k, j) :: rest => quoted k.toList ++ ':' :: j.chars ++ ',' :: memberChars rest

end

def render (j : Json) : String := String.ofList j.chars

end Json

end WorkloadIdentity
