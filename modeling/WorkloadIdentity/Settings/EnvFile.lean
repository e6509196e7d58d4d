import WorkloadIdentity.Text.Pattern
import WorkloadIdentity.Table

/-! Files of environment variables: one `NAME=value` a line, with an optional `export`, and
`NAME: value` for the same. A value may stand in quotes of three kinds, and then it
may hold line ends and `#`; elsewhere `#` begins a comment. Text that is no assignment is
skipped, and of two values for a name the later counts. Nothing is put in for
variables that a value mentions. -/

namespace WorkloadIdentity.Settings.EnvFile

open Text

def isNameChar (c : Char) : Bool := c.isAlphanum || c = '_' || c = '.' || c = '-'

def blanks : Pattern := .many (.one isBlank)

def quoted (q : Char) : Pattern :=
  .seq [blanks, .one (· = q),
    .many (.either (.both (.one (· = '\\')) (.one (· = q))) (.one (· ≠ q))), .one (· = q)]

def plain : Pattern := .oneOrMore (.one fun c => c ≠ '#' && c ≠ '\r' && c ≠ '\n')

def value : Pattern := .anyOf (quoted '\'') [quoted '"', quoted (Char.ofNat 0x60), plain]

def comment : Pattern := .both (.one (· = '#')) (.many (.one fun c => !isLineEnd c))

/-- Between a name and its value: an equals sign, or a colon with a blank after it. -/
def separator : Pattern :=
  .either (.seq [blanks, .one (· = '='), .few (.one isBlank)])
    (.seq [.one (· = ':'), .one isBlank, .few (.one isBlank)])

def assignment : Pattern :=
  .seq [.lineStart, blanks, .optional (.both (.text "export") (.oneOrMore (.one isBlank))),
    .group 1 (.oneOrMore (.one isNameChar)), separator, .optional (.group 2 value), blanks,
    .optional comment, .lineEnd]

def isQuote (c : Char) : Bool := c = '\'' || c = '"' || c.toNat = 0x60

def enclosed : Pattern :=
  .seq [.lineStart, .group 1 (.one isQuote), .group 2 (.many (.one fun _ => true)), .again 1,
    .lineEnd]

def unquote (s : List Char) : List Char := enclosed.replace (fun m => (m.group? 2).getD []) s

/-- In double quotes a backslash with `n` or `r` is a line end. -/
def expand (s : List Char) : List Char :=
  (Pattern.text "\\r").replace (fun _ => ['\r']) ((Pattern.text "\\n").replace (fun _ => ['\n']) s)

def meaning (written : List Char) : List Char :=
  let s := trim written
  if s.head? = some '"' then expand (unquote s) else unquote s

def unixLines : List Char → List Char
  | [] => []
  | '\r' :: '\n' :: rest => '\n' :: unixLines rest
  | c :: rest => (if c = '\r' then '\n' else c) :: unixLines rest

def entry (m : Match) : String × String :=
  (String.ofList ((m.group? 1).getD []), String.ofList (meaning ((m.group? 2).getD [])))

def parse (content : String) : Table String :=
  Table.ofList ((assignment.occurrences (unixLines content.toList)).map entry)

end WorkloadIdentity.Settings.EnvFile
