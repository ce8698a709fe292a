import LicenseHeaders.Text.Basic

/-!
# File name patterns

A pattern is a text with wildcards: `?` stands for one character, `*` for any
text, a class in brackets for one character of a set or, after `!`, outside of
it.  `**` has to be a whole path component; it stands for nothing, for any
text that ends with `/`, or for all of the remaining text.  A backslash is an
ordinary character.

A pattern is read once into parts.  Matching then consumes the text from the
left and tries the shortest choice of each wildcard first.  When a part that
needs a character finds none left, every longer choice would find none either,
so the whole match fails at once (`Outcome.exhausted`).
-/

namespace LicenseHeaders

namespace Pattern

/-- A part of a class: one character or a range. -/
structure Span where
  first : Char
  last : Char
  deriving DecidableEq, Repr

/-- A part of a pattern. -/
inductive Part where
  | literal (c : Char)
  | anyOne
  | oneOf (spans : List Span)
  | noneOf (spans : List Span)
  | anyText
  | anyComponents
  deriving DecidableEq, Repr

/-- What is wrong with a pattern. -/
inductive Flaw where
  | openClass
  | tooManyStars
  | partialComponent
  deriving DecidableEq, Repr

def Flaw.message : Flaw → String
  | .openClass => "invalid range pattern"
  | .tooManyStars => "wildcards are either regular `*` or recursive `**`"
  | .partialComponent => "recursive wildcards must form a single path component"

/-- A flaw at a position, counted in characters from zero. -/
structure Fault where
  position : Nat
  flaw : Flaw
  deriving DecidableEq, Repr

def Fault.message (fault : Fault) : String :=
  s!"Pattern syntax error near position {fault.position}: {fault.flaw.message}"

/-- The spans of a class: three characters with `-` in the middle make a range,
every other character stands for itself. -/
def spans : Text → List Span
  | a :: '-' :: b :: rest => ⟨a, b⟩ :: spans rest
  | a :: rest => ⟨a, a⟩ :: spans rest
  | [] => []

/-- Splits what follows the first character of a class at the closing bracket.
The first character of a class is never the closing one. -/
def classBody? : Text → Option Text
  | first :: rest =>
    if ']' ∈ rest then some (first :: rest.takeWhile (· ≠ ']')) else none
  | [] => none

/-- The class after an opening bracket, with the number of characters it takes
up to and including the closing bracket. -/
def class? : Text → Option (Part × Nat)
  | '!' :: rest => (classBody? rest).map fun body => (.noneOf (spans body), body.length + 2)
  | rest => (classBody? rest).map fun body => (.oneOf (spans body), body.length + 1)

/-- Reads the parts of a pattern from a position on.  `before` is the character
in front, and `skip` characters belong to a part already read. -/
def partsFrom (position : Nat) (before : Option Char) :
    Nat → Text → Except Fault (List Part)
  | _, [] => .ok []
  | skip + 1, c :: rest => partsFrom (position + 1) (some c) skip rest
  | 0, c :: rest =>
    let next := fun skip => partsFrom (position + 1) (some c) skip rest
    match c with
    | '?' => return .anyOne :: (← next 0)
    | '*' =>
      match (rest.takeWhile (· = '*')).length with
      | 0 => return .anyText :: (← next 0)
      | 1 =>
        if before = none ∨ before = some '/' then
          match rest.drop 1 with
          | [] => return .anyComponents :: (← next 1)
          | '/' :: _ => return .anyComponents :: (← next 2)
          | _ => .error ⟨position + 2, .partialComponent⟩
        else .error ⟨position - 1, .partialComponent⟩
      | _ => .error ⟨position + 2, .tooManyStars⟩
    | '[' =>
      match class? rest with
      | some (part, length) => return part :: (← next length)
      | none => .error ⟨position, .openClass⟩
    | c => return .literal c :: (← next 0)

end Pattern

/-- A pattern that has been read. -/
structure Pattern where
  text : Text
  parts : List Pattern.Part
  deriving DecidableEq, Repr

namespace Pattern

/-- Reads a pattern. -/
def read (text : Text) : Except Fault Pattern :=
  (partsFrom 0 none 0 text).map fun parts => ⟨text, parts⟩

/-- How far an attempt to match came. -/
inductive Outcome where
  | matched
  | mismatch
  /-- A part needs a character and the text has ended. -/
  | exhausted
  deriving DecidableEq, Repr

/-- Tries all the ends of a wildcard for any text, the shortest first. -/
def scan (attempt : Text → Outcome) : Text → Outcome
  | [] => attempt []
  | c :: rest =>
    match attempt (c :: rest) with
    | .mismatch => scan attempt rest
    | outcome => outcome

/-- Tries the ends of a wildcard for components: here if a component starts
here, then after each `/`, then at the end of the text. -/
def scanComponents (attempt : Text → Outcome) (atStart : Bool) : Text → Outcome
  | [] => attempt []
  | c :: rest =>
    match if atStart then attempt (c :: rest) else .mismatch with
    | .mismatch => scanComponents attempt (c = '/') rest
    | outcome => outcome

def Span.contains (span : Span) (c : Char) : Bool :=
  span.first ≤ c && c ≤ span.last

/-- Whether a part that stands for one character accepts it. -/
def Part.accepts (c : Char) : Part → Bool
  | .literal d => c = d
  | .anyOne => true
  | .oneOf spans => spans.any (·.contains c)
  | .noneOf spans => !spans.any (·.contains c)
  | .anyText => false
  | .anyComponents => false

/-- Matches parts against a text. -/
def attempt : List Part → Text → Outcome
  | [], t => if t = [] then .matched else .mismatch
  | .anyText :: parts, t => scan (attempt parts) t
  | .anyComponents :: parts, t => scanComponents (attempt parts) true t
  | _ :: _, [] => .exhausted
  | part :: parts, c :: rest => if part.accepts c then attempt parts rest else .mismatch

/-- Whether a text matches a pattern. -/
def accepts (p : Pattern) (t : Text) : Bool :=
  attempt p.parts t = .matched

end Pattern

end LicenseHeaders
