/-! Images that are blank but for a few pieces. -/

namespace DiscVolume

/-- Bytes that lie in an image from an offset on, a number of times one after the other. -/
structure Piece where
  offset : Nat
  data : ByteArray
  copies : Nat := 1

/-- An image of some size. Where pieces overlap, the later one counts; what lies past the end of
the image is cut off.
-/
structure SparseImage where
  size : Nat
  pieces : List Piece

namespace SparseImage

/-- Lays bytes over an image. -/
def lay (data : ByteArray) (image : ByteArray) (offset : Nat) : ByteArray :=
  data.copySlice 0 image offset (min data.size (image.size - offset))

/-- (layCopies data count image offset) lays bytes over an image a number of times. -/
def layCopies (data : ByteArray) : (count : Nat) → ByteArray → (offset : Nat) → ByteArray
  | 0, image, _ => image
  | count + 1, image, offset =>
      layCopies data count (lay data image offset) (offset + data.size)

def blank (size : Nat) : ByteArray := ⟨Array.replicate size 0⟩

/-- All bytes of an image. -/
def contents (image : SparseImage) : ByteArray :=
  image.pieces.foldl
    (fun laid piece => layCopies piece.data piece.copies laid piece.offset) (blank image.size)

end SparseImage

end DiscVolume
