import SharedHeap.Text.Pieces

/-!
Paths as texts. Slashes divide a path into segments. Empty segments and single dots lead nowhere
else, so a path has the same components with or without them, except that a dot at the very front
is a component of its own.
-/

namespace SharedHeap.Path

/-- The segments of a path, between its slashes. -/
def segments (path : String) : List String := (Text.pieces '/' path.toList).map String.ofList

def isAbsolute (path : String) : Bool := path.toList.head? == some '/'

/-- A segment that leads nowhere else. -/
def isIdle (segment : String) : Bool := segment == "" || segment == "."

inductive Component where
  | root
  | current
  | parent
  | name (s : String)
  deriving DecidableEq

def Component.ofSegment (segment : String) : Component :=
  if segment = ".." then parent else name segment

def Component.ofSegments : List String → List Component
  | [] => []
  | first :: rest =>
    let others := (rest.filter (!isIdle ·)).map ofSegment
    if first = "" then (if rest = [] then [] else root :: others)
    else if first = "." then current :: others
    else ofSegment first :: others

def components (path : String) : List Component := Component.ofSegments (segments path)

/-- The path of an entry of a directory. -/
def join (directory file : String) : String :=
  if directory.toList.getLast? = some '/' then directory ++ file else directory ++ "/" ++ file

/-- The directory that reversed segments lead to, without the idle ones at its end. -/
def directoryOf (absolute : Bool) (reversed : List String) : String :=
  match reversed.dropWhile isIdle with
  | [] => if absolute then "/" else "."
  | kept => "/".intercalate kept.reverse

/-- The directory and the name of the file that a path leads to. There is none if the path is empty
or ends at the root or with dots only. -/
def splitFile? (path : String) : Option (String × String) :=
  match (segments path).reverse.dropWhile isIdle with
  | [] => none
  | last :: before =>
    if last = ".." then none else some (directoryOf (isAbsolute path) before, last)

end SharedHeap.Path
