import DiscVolume.Bits
import DiscVolume.Text.Hex

/-! The permissions of a file entry (ECMA-167, Part 4, 14.9.5): three groups of five bits, from
the least significant bit those of others, the group and the owner. Within a group the bits allow
to execute, write, read, change attributes and delete.
-/

namespace DiscVolume

/-- A permission bitmap. Bits above the three groups are kept but mean nothing. -/
structure Permissions where
  bits : Int
  deriving DecidableEq, Repr

namespace Permissions

/-- Whom a group of permissions applies to. -/
inductive Class where
  | other
  | group
  | owner
  deriving DecidableEq, Repr

/-- The place of the lowest bit of a class. -/
def Class.place : Class → Nat
  | .other => 0
  | .group => 5
  | .owner => 10

/-- All bits of one class, before they are moved to its place. -/
def fullGroup : Int := 0x1f

/-- The bits of one class, in place. -/
def only (permissions : Permissions) (who : Class) : Permissions :=
  ⟨Bits.and permissions.bits (Bits.up fullGroup who.place)⟩

/-- Whether a class has all of some permissions. -/
def has (permissions : Permissions) (who : Class) (wanted : Int) : Bool :=
  Bits.and (Bits.down permissions.bits who.place) wanted == wanted

/-- Gives some permissions to a class. -/
def grant (permissions : Permissions) (who : Class) (given : Int) : Permissions :=
  ⟨Bits.or permissions.bits (Bits.up given who.place)⟩

/-- Takes some permissions from a class. -/
def revoke (permissions : Permissions) (who : Class) (taken : Int) : Permissions :=
  ⟨Bits.and permissions.bits (Bits.not (Bits.up taken who.place))⟩

/-- The bits that allow to read, write and execute. -/
def accessMask : Int := 0o7

/-- The bitmap of a mode of nine bits, three for each class. Other bits of the mode are dropped,
and nobody may change attributes or delete.
-/
def ofMode (mode : Int) : Permissions :=
  let kept := Bits.and mode 0o777
  let access (place : Nat) : Int := Bits.and (Bits.down kept place) accessMask
  ⟨Bits.or (Bits.or (access 0) (Bits.up (access 3) Class.group.place))
    (Bits.up (access 6) Class.owner.place)⟩

/-- The mode of nine bits of a bitmap. -/
def toMode (permissions : Permissions) : Int :=
  let access (who : Class) : Int := Bits.and (Bits.down permissions.bits who.place) accessMask
  Bits.or (Bits.or (access .other) (Bits.up (access .group) 3)) (Bits.up (access .owner) 6)

def describe (permissions : Permissions) : String :=
  "FileMode(0x" ++ Text.signedHex 4 permissions.bits ++ ")"

/-- A change to the permissions of one class. -/
inductive Edit where
  | grant (who : Class) (given : Int)
  | revoke (who : Class) (taken : Int)
  deriving DecidableEq, Repr

def apply (permissions : Permissions) : Edit → Permissions
  | .grant who given => permissions.grant who given
  | .revoke who taken => permissions.revoke who taken

/-- The permissions after a sequence of changes. -/
def applyAll (permissions : Permissions) (edits : List Edit) : Permissions :=
  edits.foldl apply permissions

end Permissions

end DiscVolume
