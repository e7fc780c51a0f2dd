import DiscVolume.Bytes
import DiscVolume.Ledger

/-! The directory tree that files are extracted to, and the paths into it. -/

namespace DiscVolume

namespace HostPath

def separator : Char := '/'

/-- Whether a path starts at the root. -/
def isAbsolute (path : String) : Bool := path.toList.head? = some separator

/-- A name inside a directory; a name that starts at the root is a path of its own. -/
def join (directory name : String) : String :=
  if isAbsolute name then name
  else if directory.isEmpty || directory.toList.getLast? = some separator then directory ++ name
  else directory ++ String.ofList [separator] ++ name

/-- Whether a name can be used as one component of a path. -/
def isSafeName (name : String) : Bool :=
  name ≠ "." && name ≠ ".." && !name.toList.contains separator && !name.toList.contains '\x00'

/-- The parts of a path between separators. -/
def components (path : String) : List String :=
  (path.toList.splitOn separator).map String.ofList

/-- The names that lead to where a component leads from some place. The way up from the place
where a path begins is kept as it is.
-/
def enter (place : List String) (component : String) : List String :=
  if component = "" ∨ component = "." then place
  else if component = ".." then
    if place.getLast?.getD ".." = ".." then place ++ [component] else place.dropLast
  else place ++ [component]

/-- The places that a path leads through, from the first component to the last. -/
def places (path : String) : List (List String) :=
  ((components path).scanl enter []).tail

/-- The place that a path leads to. -/
def place (path : String) : List String := (components path).foldl enter []

/-- Whether two paths lead to the same file, as far as their names tell. -/
def isSame (a b : String) : Bool := isAbsolute a = isAbsolute b && place a = place b

/-- Whether a place that a relative path leads to is below the place where the path begins. -/
def isBelow (place : List String) : Bool := place.head?.getD ".." ≠ ".."

/-- The written form of a place. -/
def ofPlace (place : List String) : String := String.intercalate (String.ofList [separator]) place

end HostPath

inductive HostNode where
  | directory
  | file (data : Bytes)
  deriving DecidableEq, Repr

/-- What there is below the current directory, by path. Paths that lead elsewhere make no
difference to it.
-/
abbrev HostTree := Ledger HostNode

namespace HostTree

/-- Makes the directories that a path leads through, unless they are there. -/
def makeDirectory (tree : HostTree) (path : String) : HostTree :=
  let make (tree : HostTree) (place : List String) : HostTree :=
    if !HostPath.isBelow place || (tree.get? (HostPath.ofPlace place)).isSome then tree
    else tree.put (HostPath.ofPlace place) .directory
  if HostPath.isAbsolute path then tree else (HostPath.places path).foldl make tree

/-- Writes a file in place of what it held before. -/
def writeFile (tree : HostTree) (path : String) (data : Bytes) : HostTree :=
  let place := HostPath.place path
  if HostPath.isAbsolute path || !HostPath.isBelow place then tree
  else tree.put (HostPath.ofPlace place) (.file data)

end HostTree

end DiscVolume
