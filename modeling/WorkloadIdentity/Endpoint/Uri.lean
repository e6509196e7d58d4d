import WorkloadIdentity.Endpoint.Host

/-! Absolute URIs. Blanks and control characters around the text are dropped, and tabs
and line ends anywhere in it. A scheme without rules of its own may be followed by an
authority behind two slashes; a path that begins with a slash is a list of segments in
which dots are resolved, and any other path is opaque. Web schemes always have an
authority and take a backslash for a slash. -/

namespace WorkloadIdentity.Endpoint

structure Uri where
  scheme : String
  user : List Char := []
  password : List Char := []
  host : List Char := []
  port : Option Nat := none
  path : List Char := []
  query : List Char := []
  fragment : List Char := []

namespace Uri

def isIgnored (c : Char) : Bool := c = '\t' || c = '\n' || c = '\r'

def isOuter (c : Char) : Bool := c ≤ ' '

def clean (s : List Char) : List Char :=
  (((s.dropWhile isOuter).reverse.dropWhile isOuter).reverse).filter fun c => !isIgnored c

def isSchemeStart (c : Char) : Bool := ('a' ≤ c && c ≤ 'z') || ('A' ≤ c && c ≤ 'Z')

def isSchemeChar (c : Char) : Bool :=
  isSchemeStart c || c.isDigit || c = '+' || c = '-' || c = '.'

def scheme? (s : List Char) : Option (String × List Char) :=
  let name := s.takeWhile isSchemeChar
  match name, s.dropWhile isSchemeChar with
  | first :: _, ':' :: rest =>
    if isSchemeStart first then some (String.ofList (name.map Char.toLower), rest) else none
  | _, _ => none

/-- The fragment behind the first number sign, then the query behind the first question mark. -/
def tails (s : List Char) : List Char × List Char × List Char :=
  let front := s.takeWhile (· ≠ '#')
  (front.takeWhile (· ≠ '?'), (front.dropWhile (· ≠ '?')).drop 1, (s.dropWhile (· ≠ '#')).drop 1)

def isDot (s : List Char) : Bool :=
  let s := s.map Char.toLower
  s = ['.'] || s = "%2e".toList

def isDoubleDot (s : List Char) : Bool :=
  let s := s.map Char.toLower
  s = "..".toList || s = ".%2e".toList || s = "%2e.".toList || s = "%2e%2e".toList

/-- The segments of a path with dots resolved: a single dot is dropped, two dots drop the segment
before them, and either leaves an empty segment when it is the last. -/
def resolve : List (List Char) → List (List Char) → List (List Char)
  | done, [] => done
  | done, [last] =>
    if isDoubleDot last then done.dropLast ++ [[]]
    else if isDot last then done ++ [[]]
    else done ++ [last]
  | done, s :: rest =>
    if isDoubleDot s then resolve done.dropLast rest
    else if isDot s then resolve done rest
    else resolve (done ++ [s]) rest

def normalPath (s : List Char) : List Char :=
  (resolve [] ((s.drop 1).splitOn '/')).flatMap fun segment => '/' :: segment

/-- Everything before the last at sign is the user, up to the first colon, and the password. -/
def userInfo (s : List Char) : Option (List Char × List Char) × List Char :=
  if s.contains '@' then
    let host := (s.reverse.takeWhile (· ≠ '@')).reverse
    let info := s.take (s.length - host.length - 1)
    (some (info.takeWhile (· ≠ ':'), (info.dropWhile (· ≠ ':')).drop 1), host)
  else (none, s)

def splitHost : Bool → List Char → List Char × Option (List Char)
  | _, [] => ([], none)
  | inside, c :: rest =>
    if c = ':' ∧ inside = false then ([], some rest)
    else
      let inside := if c = '[' then true else if c = ']' then false else inside
      let (host, port) := splitHost inside rest
      (c :: host, port)

/-- Digits up to 65535; nothing behind the colon is no port. -/
def port? (s : List Char) : Option (Option Nat) :=
  if s = [] then some none
  else if s.all Char.isDigit then
    (Number.ofDigits? 10 s).bind fun n => if n ≤ 65535 then some (some n) else none
  else none

structure Authority where
  user : List Char
  password : List Char
  host : List Char
  port : Option Nat

/-- A port, or a user before it, needs a host. -/
def authority? (readHost : List Char → Option (List Char)) (s : List Char) : Option Authority :=
  let (info, rest) := userInfo s
  let (name, port) := splitHost false rest
  if name = [] ∧ (port.isSome ∨ info.isSome) then none
  else
    let (user, password) := info.getD ([], [])
    match readHost name, port? (port.getD []) with
    | some host, some port => some ⟨user, password, host, port⟩
    | _, _ => none

def ofParts (scheme : String) (a : Authority) (path query fragment : List Char) : Uri :=
  { scheme := scheme, user := a.user, password := a.password, host := a.host, port := a.port
    path := path, query := query, fragment := fragment }

def general? (scheme : String) (rest : List Char) : Option Uri :=
  let (front, query, fragment) := tails rest
  match front with
  | '/' :: '/' :: s =>
    (authority? Host.verbatim? (s.takeWhile (· ≠ '/'))).map fun a =>
      let path := s.dropWhile (· ≠ '/')
      ofParts scheme a (if path = [] then [] else normalPath path) query fragment
  | '/' :: _ =>
    some { scheme := scheme, path := normalPath front, query := query, fragment := fragment }
  | _ => some { scheme := scheme, path := front, query := query, fragment := fragment }

def isSlash (c : Char) : Bool := c = '/' || c = '\\'

def webHost? (s : List Char) : Option (List Char) := if Host.isDomain s then some s else none

def web? (scheme : String) (rest : List Char) : Option Uri :=
  let (front, query, fragment) := tails rest
  let s := front.dropWhile isSlash
  (authority? webHost? (s.takeWhile (!isSlash ·))).map fun a =>
    ofParts scheme a (s.dropWhile (!isSlash ·)) query fragment

def isDrive : List Char → Bool
  | [c, '|'] => isSchemeStart c
  | [c, ':'] => isSchemeStart c
  | _ => false

def file? (rest : List Char) : Option Uri :=
  let (front, query, fragment) := tails rest
  let plain (host path : List Char) : Uri :=
    { scheme := "file", host := host, path := path, query := query, fragment := fragment }
  match front with
  | a :: b :: s =>
    if isSlash a && isSlash b then
      let host := s.takeWhile (!isSlash ·)
      if host = [] || isDrive host then some (plain [] s)
      else (webHost? host).map fun h => plain h (s.dropWhile (!isSlash ·))
    else some (plain [] front)
  | _ => some (plain [] front)

def webSchemes : List String := ["http", "https", "ws", "wss", "ftp"]

def parse? (text : String) : Option Uri :=
  (scheme? (clean text.toList)).bind fun (scheme, rest) =>
    if webSchemes.contains scheme then web? scheme rest
    else if scheme = "file" then file? rest
    else general? scheme rest

end Uri

end WorkloadIdentity.Endpoint
