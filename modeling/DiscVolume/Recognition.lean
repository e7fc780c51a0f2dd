import DiscVolume.Cursor.Fields
import DiscVolume.Text.Quoted

/-! The volume recognition sequence (ECMA-167, Part 2), which comes before the structures of the
volume and tells by its identifiers which standards the volume follows.
-/

namespace DiscVolume

/-- What all volume structures start with (ECMA-167, Part 2, 9.1). -/
structure StructureHeader where
  type : UInt8
  identifier : String
  version : UInt8
  deriving DecidableEq, Repr

namespace StructureHeader

def decode : Decoder StructureHeader := do
  Decoder.require 7
  let type ← Decoder.uint8
  let identifier ← Decoder.text 5
  let version ← Decoder.uint8
  return { type, identifier, version }

/-- Reads a header into a place that may hold one already; a place is filled only once. -/
def decodeOnce : Option StructureHeader → Decoder StructureHeader
  | some _ => throw (.internal .structureHeaderReadTwice)
  | none => decode

end StructureHeader

/-- The kinds of volume structure. -/
inductive StructureKind where
  | extendedArea
  | boot
  | compactDisc
  | nsr
  | terminal
  deriving DecidableEq, Repr

namespace StructureKind

/-- The identifier that ends the sequence. -/
def terminalIdentifier : String := "TEA01"

/-- The identifiers that announce the contents that are understood. -/
def nsrIdentifiers : List String := ["NSR02", "NSR03"]

/-- The kind that an identifier announces. -/
def ofIdentifier? (identifier : String) : Option StructureKind :=
  if identifier = "BEA01" then some .extendedArea
  else if identifier = "BOOT2" then some .boot
  else if identifier ∈ ["CD001", "CDW02"] then some .compactDisc
  else if identifier ∈ nsrIdentifiers then some .nsr
  else if identifier = terminalIdentifier then some .terminal
  else none

/-- The name of a kind in descriptions. -/
def label : StructureKind → String
  | .extendedArea => "CdromExtendedAreaVolumeDescriptor"
  | .boot => "CdromBootVolumeDescriptor"
  | .compactDisc => "CdromCdwVolumeDescriptor"
  | .nsr => "CdromNsrVolumeDescriptor"
  | .terminal => "CdromTerminalVolumeDescriptor"

end StructureKind

/-- One structure of the sequence. -/
structure VolumeStructure where
  header : StructureHeader
  kind : StructureKind
  deriving DecidableEq, Repr

namespace VolumeStructure

/-- The structure of a header, whose identifier must be a known one. -/
def ofHeader (header : StructureHeader) : Except Failure VolumeStructure :=
  match StructureKind.ofIdentifier? header.identifier with
  | some kind => .ok { header, kind }
  | none => .error (.malformed (.unknownStructure header.identifier))

def decode : Decoder VolumeStructure := do
  let header ← StructureHeader.decode
  Decoder.settle (ofHeader header)

def identifier (entry : VolumeStructure) : String := entry.header.identifier

/-- Whether a structure is the last of its sequence. -/
def endsSequence (entry : VolumeStructure) : Bool :=
  entry.identifier = StructureKind.terminalIdentifier

def describe (entry : VolumeStructure) : String :=
  entry.kind.label ++ "(" ++ Text.quoted entry.identifier ++ ")"

end VolumeStructure

namespace Recognition

/-- Whether a sequence has any of some identifiers. -/
def hasAnyIdentifier (identifiers : List String) (sequence : List VolumeStructure) : Bool :=
  sequence.any fun entry => entry.identifier ∈ identifiers

/-- The first structure with a type. -/
def findType? (type : Int) (sequence : List VolumeStructure) : Option VolumeStructure :=
  sequence.find? fun entry => (entry.header.type.toNat : Int) == type

/-- The first structure with an identifier. -/
def findIdentifier? (identifier : String) (sequence : List VolumeStructure)
    : Option VolumeStructure :=
  sequence.find? fun entry => entry.identifier == identifier

/-- The first structure with a type, which must be there. -/
def findType (type : Int) (sequence : List VolumeStructure) : Except Failure VolumeStructure :=
  match findType? type sequence with
  | some entry => .ok entry
  | none => .error (.malformed (.noStructureOfType type))

/-- The first structure with an identifier, which must be there. -/
def findIdentifier (identifier : String) (sequence : List VolumeStructure)
    : Except Failure VolumeStructure :=
  match findIdentifier? identifier sequence with
  | some entry => .ok entry
  | none => .error (.malformed (.noStructureNamed identifier))

end Recognition

end DiscVolume
