import WorkloadIdentity.Text.Quoted

/-! Trees of files, and what can stand in the way of reading one. A path is resolved
against a directory before anything is read: parts that are empty or `.` change
nothing and `..` goes up, whatever is there. A directory exists when something is in
it or when it is said to exist. -/

namespace WorkloadIdentity.Settings

inductive Stored where
  | file (bytes : List UInt8)
  | directory

abbrev FileTree := List (List String × Stored)

abbrev Path := List String

namespace Path

def enter (p : Path) (part : String) : Path :=
  if part = "" ∨ part = "." then p
  else if part = ".." then p.dropLast
  else p ++ [part]

def resolve (base : Path) (path : String) : Path :=
  (path.splitOn "/").foldl enter (if path.startsWith "/" then [] else base)

def text (p : Path) : String := "/" ++ "/".intercalate p

end Path

inductive ReadProblem where
  | unnamable
  | missing
  | directory
  | notDirectory
  | nameTooLong
  deriving DecidableEq, Repr

namespace ReadProblem

def code : ReadProblem → String
  | .unnamable => "ERR_INVALID_ARG_VALUE"
  | .missing => "ENOENT"
  | .directory => "EISDIR"
  | .notDirectory => "ENOTDIR"
  | .nameTooLong => "ENAMETOOLONG"

def kind : ReadProblem → String
  | .unnamable => "TypeError"
  | _ => "Error"

def shown (path : String) : String :=
  let quoted := Text.Quoted.chars path.toList
  String.ofList (if quoted.length > 128 then quoted.take 128 ++ "...".toList else quoted)

def message (path : String) (p : ReadProblem) : String :=
  match p with
  | .unnamable => "The argument 'path' must be a string, Uint8Array, or URL without null bytes."
      ++ " Received " ++ shown path
  | .missing => p.code ++ ": no such file or directory, open '" ++ path ++ "'"
  | .directory => p.code ++ ": illegal operation on a directory, read"
  | .notDirectory => p.code ++ ": not a directory, open '" ++ path ++ "'"
  | .nameTooLong => p.code ++ ": name too long, open '" ++ path ++ "'"

end ReadProblem

namespace FileTree

def longestPart : Nat := 255

def longestPath : Nat := 4095

def lookup (t : FileTree) (p : Path) : Option Stored :=
  match t.find? (·.1 = p) with
  | some e => some e.2
  | none => if p.isEmpty || t.any (fun e => p.isPrefixOf e.1) then some .directory else none

def readFrom (t : FileTree) (p : Path) : List String → Except ReadProblem (List UInt8)
  | [] =>
    match t.lookup p with
    | some (.file bytes) => .ok bytes
    | some .directory => .error .directory
    | none => .error .missing
  | part :: rest =>
    match t.lookup p with
    | some (.file _) => .error .notDirectory
    | none => .error .missing
    | some .directory =>
      if longestPart < part.utf8ByteSize then .error .nameTooLong else t.readFrom (p ++ [part]) rest

/-- No file has a name with the character zero in it. -/
def read (t : FileTree) (p : Path) : Except ReadProblem (List UInt8) :=
  if p.any fun part => part.toList.contains '\x00' then .error .unnamable
  else if longestPath < p.text.utf8ByteSize then .error .nameTooLong else t.readFrom [] p

end FileTree

end WorkloadIdentity.Settings
