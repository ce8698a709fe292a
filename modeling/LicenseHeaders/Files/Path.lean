import LicenseHeaders.Text.Basic

/-!
# Paths

A path is kept as the text it was given as, because that text is what messages
and reports show.  What it means is a list of components: empty pieces and
inner `.` pieces carry no meaning, while a leading `.`, every `..` and the
leading `/` do.  Two paths are the same place on paper when their components
agree, and they are ordered component by component.
-/

namespace LicenseHeaders

/-- The name of an entry in a directory. -/
abbrev Name := Text

/-- A path as it was written. -/
structure Path where
  text : Text
  deriving DecidableEq, Repr, Inhabited

namespace Path

/-- What one piece of a path stands for. -/
inductive Component where
  | root
  | here
  | up
  | name (n : Name)
  deriving DecidableEq, Repr

def ofString (s : String) : Path := ⟨s.toList⟩

/-- The path as it is shown. -/
def display (p : Path) : String := String.ofList p.text

def isAbsolute (p : Path) : Bool := p.text.head? = some '/'

/-- Pieces that name nothing. -/
def isIdle (piece : Text) : Bool := piece = [] || piece = ['.']

/-- What stands before the ordinary pieces: the root, or a leading `.`. -/
def opening (p : Path) : List Component :=
  match p.text with
  | '/' :: _ => [.root]
  | ['.'] => [.here]
  | '.' :: '/' :: _ => [.here]
  | _ => []

/-- The pieces after the opening, idle ones included. -/
def pieces (p : Path) : List Text :=
  Text.splitOn '/' (p.text.drop p.opening.length)

def Component.ofPiece (piece : Text) : Component :=
  if piece = ['.', '.'] then .up else .name piece

/-- The components of a path. -/
def components (p : Path) : List Component :=
  p.opening ++ (p.pieces.filter fun piece => !isIdle piece).map Component.ofPiece

/-- The text of a component. -/
def Component.piece : Component → Text
  | .root => []
  | .here => ['.']
  | .up => ['.', '.']
  | .name n => n

/-- The plain spelling of components. -/
def ofComponents : List Component → Path
  | .root :: rest => ⟨'/' :: Text.joinWith ['/'] (rest.map Component.piece)⟩
  | components => ⟨Text.joinWith ['/'] (components.map Component.piece)⟩

/-- The last component, if it is a name. -/
def fileName (p : Path) : Option Name :=
  match p.components.getLast? with
  | some (.name n) => some n
  | _ => none

/-- The last component if it is a name, and else the empty text. -/
def baseName (p : Path) : Name := p.fileName.getD []

/-- The path of an entry below a path. -/
def join (p : Path) (child : Text) : Path :=
  if child.head? = some '/' then ⟨child⟩
  else if p.text = [] ∨ p.text.getLast? = some '/' then ⟨p.text ++ child⟩
  else ⟨p.text ++ '/' :: child⟩

/-- The pieces after the first `count` pieces that are not idle. -/
def piecesAfter : Nat → List Text → List Text
  | 0, pieces => pieces
  | _ + 1, [] => []
  | count + 1, piece :: rest =>
    if isIdle piece then piecesAfter (count + 1) rest else piecesAfter count rest

/-- The text of pieces, without the idle ones at the end. -/
def textOfPieces (pieces : List Text) : Text :=
  Text.joinWith ['/'] (pieces.reverse.dropWhile isIdle).reverse

/-- What remains of a path below a base whose components it starts with.  The
inner spelling of the remainder is kept. -/
def stripBase? (base p : Path) : Option Path :=
  let count := base.components.length
  if base.components.isPrefixOf p.components then
    if count = 0 then some ⟨p.text.take p.opening.length ++ textOfPieces p.pieces⟩
    else some ⟨textOfPieces ((piecesAfter (count - p.opening.length) p.pieces).dropWhile isIdle)⟩
  else none

/-- The place of a component in the order of components: root, `.`, `..`, and
names by their characters. -/
def Component.rank : Component → List Nat
  | .root => [0]
  | .here => [1]
  | .up => [2]
  | .name n => 3 :: n.map Char.toNat

/-- Paths in the order of their components. -/
def notAfter (p q : Path) : Bool :=
  !List.lex (q.components.map Component.rank) (p.components.map Component.rank) fun a b =>
    List.lex a b

end Path

end LicenseHeaders
