import DiscVolume.Descriptor
import DiscVolume.Text.Quoted

/-! Files and directories as they are found on a volume. The root directory has no file
identifier and no parent; every other entry has both.
-/

namespace DiscVolume

inductive Entry where
  | root (record : FileEntry) (volumeName : String)
  | child (record : FileEntry) (identifier : FileIdentifier) (parent : Entry)
  deriving DecidableEq, Repr

namespace Entry

def record : Entry → FileEntry
  | root record _ | child record _ _ => record

/-- The identifier of the volume for the root, and the recorded name for all else. -/
def name : Entry → String
  | root _ volumeName => volumeName
  | child _ identifier _ => identifier.name

def parent? : Entry → Option Entry
  | root _ _ => none
  | child _ _ parent => some parent

def identifier? : Entry → Option FileIdentifier
  | root _ _ => none
  | child _ identifier _ => some identifier

def isRoot : Entry → Bool
  | root _ _ => true
  | child _ _ _ => false

/-- The names on the way from the root, joined by slashes. The root has the empty path. -/
def path : Entry → String
  | root _ _ => ""
  | child _ identifier (root _ _) => identifier.name
  | child _ identifier parent => parent.path ++ "/" ++ identifier.name

def isDirectory (entry : Entry) : Bool := entry.record.isDirectory

/-- The recorded number of bytes. -/
def size (entry : Entry) : Nat := entry.record.informationLength.toNat

def permissions (entry : Entry) : Permissions := entry.record.mode

/-- The bit of a mode that marks directories. -/
def directoryBit : Int := 0o40000

/-- The mode of nine bits, with a mark on directories. -/
def mode (entry : Entry) : Int :=
  if entry.isDirectory then Bits.or entry.permissions.toMode directoryBit
  else entry.permissions.toMode

def describe (entry : Entry) : String :=
  "FileInfo(path=" ++ Text.quoted entry.path ++ ", is_dir="
    ++ (if entry.isDirectory then "True" else "False") ++ ", size=" ++ toString entry.size ++ ")"

end Entry

end DiscVolume
