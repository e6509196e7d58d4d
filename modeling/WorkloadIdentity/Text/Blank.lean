/-! White space and line ends of text that people write: settings files and numbers.
The set is larger than that of ASCII: it has the Unicode space separators, the two
Unicode line separators and the byte order mark. -/

namespace WorkloadIdentity.Text

def isLineEnd (c : Char) : Bool :=
  c = '\n' || c = '\r' || c = '\u2028' || c = '\u2029'

def isBlank (c : Char) : Bool :=
  ('\t' ≤ c && c ≤ '\r') || c = ' ' || c = '\u00a0' || c = '\u1680'
    || ('\u2000' ≤ c && c ≤ '\u200a') || c = '\u2028' || c = '\u2029'
    || c = '\u202f' || c = '\u205f' || c = '\u3000' || c = '\ufeff'

def trimLeft (s : List Char) : List Char := s.dropWhile isBlank

def trimRight (s : List Char) : List Char := (s.reverse.dropWhile isBlank).reverse

def trim (s : List Char) : List Char := trimRight (trimLeft s)

end WorkloadIdentity.Text
