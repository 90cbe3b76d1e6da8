import Conform.Json.Quoted

/-!
Paths to the nodes of a document: a root, then a step for each member and item on the way. A plain
key follows a point; any other key stands in brackets, quoted as in JSON, and an index in
brackets.
-/

namespace Conform

/-- One step down. -/
inductive Step where
  | key (k : String)
  | index (i : Int)
  deriving DecidableEq, Repr

namespace Path

/-- The path of a whole document. -/
def root : String := "$"

def isFirst (c : Char) : Bool := c.isAlpha || c = '_'

def isLater (c : Char) : Bool := c.isAlphanum || c = '_' || c = '-'

/-- The end of a plain key: nothing, or one line break. -/
def isEnd (cs : List Char) : Bool := cs.isEmpty || cs == ['\n']

/-- A key that needs no quotes: ASCII letters, digits, underscores and hyphens, no digit or hyphen
first, and maybe one line break at the end. -/
def isPlain (k : String) : Bool :=
  match k.toList with
  | [] => false
  | c :: r => isFirst c && isEnd (r.dropWhile isLater)

def child (path key : String) : String :=
  if isPlain key then path ++ "." ++ key
  else path ++ "[" ++ Json.quoted .unicode key ++ "]"

def item (path : String) (i : Int) : String := path ++ "[" ++ toString i ++ "]"

def down (path : String) : Step → String
  | .key k => child path k
  | .index i => item path i

/-- The paths after each of the steps. -/
def trail (path : String) : List Step → List String
  | [] => []
  | s :: r => down path s :: trail (down path s) r

end Path

end Conform
