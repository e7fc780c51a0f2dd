import DiscVolume.Cursor

/-! Identifications of entities and of character sets (ECMA-167, Part 1, 7.2.1 and 7.4). -/

namespace DiscVolume

open Decoder

/-- Who or what defined the contents of a field. -/
structure EntityId where
  flags : UInt8
  identifier : Bytes
  suffix : Bytes
  deriving DecidableEq, Repr

namespace EntityId

/-- The number of bytes of an entity identifier. -/
def size : Nat := 32

def decode : Decoder EntityId := do
  require size
  let flags ← uint8
  let identifier ← take 23
  let suffix ← take 8
  return { flags, identifier, suffix }

/-- The identifier without its padding, as text. -/
def name (entity : EntityId) : String := Bytes.latin1 (Bytes.trimZeros entity.identifier)

instance : Advancing decode := by unfold decode; infer_instance

end EntityId

/-- A character set and what it is made of. -/
structure CharacterSet where
  type : UInt8
  information : Bytes
  deriving DecidableEq, Repr

namespace CharacterSet

def decode : Decoder CharacterSet := do
  require 64
  let type ← uint8
  let information ← take 63
  return { type, information }

instance : Advancing decode := by unfold decode; infer_instance

end CharacterSet

/-- An entity identifier and data in a form of that entity's own. -/
structure ImplementationUse where
  entity : EntityId
  data : Bytes
  deriving DecidableEq, Repr

namespace ImplementationUse

/-- (decode total) reads an area of a total size. The entity identifier is there even when the
size leaves no room for it.
-/
def decode (total : Int) : Decoder ImplementationUse := do
  let entity ← EntityId.decode
  let data ← take (total - EntityId.size).toNat
  return { entity, data }

instance (total : Int) : Advancing (decode total) := by unfold decode; infer_instance

end ImplementationUse

end DiscVolume
