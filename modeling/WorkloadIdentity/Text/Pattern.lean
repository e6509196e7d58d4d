import WorkloadIdentity.Text.Blank

/-! Patterns over text and the matcher that tries their ways in order. Of two ways the
left one is tried first, `many` prefers to go on and `few` prefers to stop; a way that
leads nowhere later is given up for the next. Every round of a repetition takes at
least one character, so the characters that are left bound the rounds. -/

namespace WorkloadIdentity.Text

/-- Where a match stands: the character before it, the text after it, and how much is passed. -/
structure Place where
  before : Option Char := none
  rest : List Char
  passed : Nat := 0

inductive Pattern where
  | nothing
  | one (fits : Char → Bool)
  | lineStart
  | lineEnd
  | both (p q : Pattern)
  | either (p q : Pattern)
  | many (p : Pattern)
  | few (p : Pattern)
  | group (i : Nat) (p : Pattern)
  | again (i : Nat)

/-- A stretch of text: the text from its first character on, and how many it has. -/
structure Stretch where
  start : List Char
  size : Nat

def Stretch.chars (s : Stretch) : List Char := s.start.take s.size

structure Match where
  place : Place
  groups : List (Nat × Stretch) := []

namespace Match

def group? (m : Match) (i : Nat) : Option (List Char) := (m.groups.lookup i).map Stretch.chars

def rest (m : Match) : List Char := m.place.rest

end Match

/-- Tries what is left to match. -/
abbrev Continue := Match → Option Match

def eatOne (fits : Char → Bool) (m : Match) : Option Match :=
  match m.place.rest with
  | c :: rest =>
    if fits c then some { m with place := ⟨some c, rest, m.place.passed + 1⟩ } else none
  | [] => none

def eatText : List Char → Match → Option Match
  | [], m => some m
  | c :: text, m => (eatOne (· = c) m).bind (eatText text)

def startsLine : Option Char → Bool
  | none => true
  | some c => isLineEnd c

def endsLine : List Char → Bool
  | [] => true
  | c :: _ => isLineEnd c

/-- At most `n` rounds, each of which has to take something. -/
def repeatedly (greedy : Bool) (round : Match → Continue → Option Match) :
    Nat → Match → Continue → Option Match
  | 0, m, k => k m
  | n + 1, m, k =>
    let goOn := round m fun m' =>
      if m.place.passed < m'.place.passed then repeatedly greedy round n m' k else none
    if greedy then goOn <|> k m else k m <|> goOn

namespace Pattern

def attempt : Pattern → Match → Continue → Option Match
  | nothing, m, k => k m
  | one fits, m, k => (eatOne fits m).bind k
  | lineStart, m, k => if startsLine m.place.before then k m else none
  | lineEnd, m, k => if endsLine m.rest then k m else none
  | both p q, m, k => p.attempt m fun m' => q.attempt m' k
  | either p q, m, k => p.attempt m k <|> q.attempt m k
  | many p, m, k => repeatedly true p.attempt m.rest.length m k
  | few p, m, k => repeatedly false p.attempt m.rest.length m k
  | group i p, m, k =>
    p.attempt m fun m' =>
      k { m' with groups := (i, ⟨m.rest, m'.place.passed - m.place.passed⟩) :: m'.groups }
  | again i, m, k => (eatText ((m.group? i).getD []) m).bind k

def optional (p : Pattern) : Pattern := either p nothing

def oneOrMore (p : Pattern) : Pattern := both p (many p)

def text (s : String) : Pattern := s.toList.foldr (fun c p => both (one (· = c)) p) nothing

def seq (ps : List Pattern) : Pattern := ps.foldr both nothing

def anyOf (p : Pattern) (ps : List Pattern) : Pattern := ps.foldl either p

def find? (p : Pattern) : Option Char → Nat → List Char → Option (List Char × Match)
  | before, n, [] => (p.attempt { place := ⟨before, [], n⟩ } some).map ([], ·)
  | before, n, c :: rest =>
    match p.attempt { place := ⟨before, c :: rest, n⟩ } some with
    | some m => some ([], m)
    | none => (p.find? (some c) (n + 1) rest).map fun (skipped, m) => (c :: skipped, m)

def cuts (p : Pattern) : Nat → Place → List (List Char × Match) × List Char
  | 0, place => ([], place.rest)
  | n + 1, place =>
    match p.find? place.before place.passed place.rest with
    | none => ([], place.rest)
    | some (skipped, m) =>
      if place.passed < m.place.passed then
        let (more, rest) := p.cuts n m.place
        ((skipped, m) :: more, rest)
      else ([], place.rest)

def occurrences (p : Pattern) (s : List Char) : List Match :=
  (p.cuts s.length { rest := s }).1.map Prod.snd

def replace (p : Pattern) (f : Match → List Char) (s : List Char) : List Char :=
  let (found, rest) := p.cuts s.length { rest := s }
  found.flatMap (fun e => e.1 ++ f e.2) ++ rest

end Pattern

end WorkloadIdentity.Text
