import DiscVolume.Text.Utf16

/-! Everything that can go wrong while an image is read, by cause. The wording of each cause is
given once, in the message function of its type.
-/

namespace DiscVolume

/-- Data that ends before what should be in it. -/
inductive Truncation where
  /-- A cursor was asked for more bytes than its buffer has left. -/
  | buffer (wanted offset size : Nat)
  /-- A cursor was asked to look at two bytes that are not there. -/
  | lookAhead
  /-- A medium answered a request with another number of bytes. -/
  | medium (wanted offset : Int) (got : Nat)
  /-- The input of a copy delivered another number of bytes than the block asked for. -/
  | copy (wanted : Int) (got : Nat)
  deriving DecidableEq, Repr

def Truncation.message : Truncation → String
  | .buffer wanted offset size =>
      "unexpected end of data: wanted " ++ toString wanted ++ " bytes at offset "
        ++ toString offset ++ ", buffer is " ++ toString size ++ " bytes"
  | .lookAhead => "unexpected end of data"
  | .medium wanted offset got =>
      "unexpected end of data: wanted " ++ toString wanted ++ " bytes at offset "
        ++ toString offset ++ ", got " ++ toString got
  | .copy wanted got =>
      "unexpected end of data: wanted " ++ toString wanted ++ " bytes, got " ++ toString got

/-- What was being read when a medium reported a fault in what it holds. -/
inductive Activity where
  | opening
  | rootDirectory
  | directory
  deriving DecidableEq, Repr

/-- The words that introduce the fault. -/
def Activity.heading : Activity → String
  | .opening => ""
  | .rootDirectory => "unable to read UDF root directory: "
  | .directory => "unable to read UDF directory: "

/-- Contents that make an image invalid or unsupported. -/
inductive Defect where
  | dstringLength (length size : Nat)
  | dstringCompression (compression : UInt8)
  | identifierEncoding (encoding : UInt8)
  | identifierText (fault : Text.Utf16.Fault)
  | tagReserved
  | tagChecksum
  | tagVersion
  | tagCrc
  | tagMismatch (expected actual : Int)
  | tagMismatchAtSector (expected actual : Int) (sector : Nat)
  | unknownTag (tag : Int)
  | noDescriptor (tag : Int)
  | partitionMapType (type : UInt8)
  | partitionMapLength (length : UInt8)
  | blockSize (supported : Nat)
  | allocationType (type : Nat)
  | unknownStructure (identifier : String)
  | noStructureOfType (type : Int)
  | noStructureNamed (identifier : String)
  | unsupportedFormat
  | reportedByMedium (activity : Activity) (report : String)
  deriving DecidableEq, Repr

def Defect.message : Defect → String
  | .dstringLength length size =>
      "dstring length " ++ toString length ++ " does not fit in a field of " ++ toString size
        ++ " bytes"
  | .dstringCompression compression =>
      "expecting character length to be 8 bit long, compression ID was "
        ++ toString compression.toNat
  | .identifierEncoding encoding =>
      "unsupported string encoding type " ++ toString encoding.toNat
  | .identifierText fault => "undecodable file identifier: " ++ fault.message
  | .tagReserved => "Reserved data not 0!"
  | .tagChecksum => "Tag checksum does not match!"
  | .tagVersion => "Tag version not 2 or 3"
  | .tagCrc => "Tag CRC does not match!"
  | .tagMismatch expected actual =>
      "expected descriptor with tag ID " ++ toString expected ++ " but was " ++ toString actual
  | .tagMismatchAtSector expected actual sector =>
      "expected descriptor with tag ID " ++ toString expected ++ " but was " ++ toString actual
        ++ " at sector " ++ toString sector
  | .unknownTag tag => "unexpected tag identifier " ++ toString tag
  | .noDescriptor tag => "descriptor with ID " ++ toString tag ++ " does not exist in sequence"
  | .partitionMapType type => "unsupported partition map type " ++ toString type.toNat
  | .partitionMapLength length =>
      "expected partition map 1 to be 6 bytes long but was " ++ toString length.toNat
  | .blockSize supported => "Volume Descriptor block size is not " ++ toString supported
  | .allocationType type => "unsupported allocation descriptor type " ++ toString type
  | .unknownStructure identifier => "unrecognized file system '" ++ identifier ++ "'"
  | .noStructureOfType type =>
      "CDROM descriptor with type " ++ toString type ++ " does not exist in sequence"
  | .noStructureNamed identifier =>
      "CDROM descriptor with identifier " ++ identifier ++ " does not exist in sequence"
  | .unsupportedFormat => "unsupported image format"
  | .reportedByMedium activity report => activity.heading ++ report

/-- A request that the state of a reader or stream, or the kind of an entry, rules out. -/
inductive Misuse where
  | alreadyOpen
  | notOpen
  | textFile
  | notAFile (name : String)
  | notADirectory (name : String)
  | noSuchPath (path : String)
  | closedStream
  | fractionalOffset
  | negativeOffset
  | offsetBeforeStart
  | unknownOrigin
  deriving DecidableEq, Repr

def Misuse.message : Misuse → String
  | .alreadyOpen => "This object already has an image; either close it or create a new object"
  | .notOpen => "This object is not initialized; call either open() or open_fp() first"
  | .textFile => "The file to open must be in binary mode (add \"b\" to the open flags)"
  | .notAFile name => "entry " ++ name ++ " is not a file"
  | .notADirectory name => "entry " ++ name ++ " is not a directory"
  | .noSuchPath path => "Could not find path " ++ path
  | .closedStream => "I/O operation on closed file."
  | .fractionalOffset => "an integer is required"
  | .negativeOffset => "Invalid offset value (must be positive)"
  | .offsetBeforeStart => "Invalid offset value (cannot seek before start of file)"
  | .unknownOrigin => "Invalid value for whence (options are 0, 1, and 2)"

/-- A request that no reading of an image makes. -/
inductive InternalError where
  | negativeRead
  | tagReadTwice
  | structureHeaderReadTwice
  | emptyBlock
  deriving DecidableEq, Repr

def InternalError.message : InternalError → String
  | .negativeRead => "Cannot read a negative number of bytes"
  | .tagReadTwice => "UDF Tag already initialized"
  | .structureHeaderReadTwice => "CDROM Volume Descriptor Header already initialized"
  | .emptyBlock => "Cannot copy in blocks of no bytes"

/-- A compound layout that no buffer can hold. -/
inductive LayoutError where
  | tooLong
  deriving DecidableEq, Repr

def LayoutError.message : LayoutError → String
  | .tooLong => "total struct size too long"

/-- The kinds of fault that a medium can report about itself. -/
inductive FaultKind where
  | badValue
  | badIndex
  | badLayout
  | overflow
  | truncated
  | malformed
  | misused
  | internal
  /-- A kind that means nothing to a reader, with its name. -/
  | other (name : String)
  deriving DecidableEq, Repr

/-- Whether a fault concerns the data held, rather than the medium that holds it. A medium may
pass its own verdict on the image, to which nothing is added.
-/
def FaultKind.concernsData : FaultKind → Bool
  | .badValue | .badIndex | .badLayout => true
  | .overflow | .truncated | .malformed | .misused | .internal | .other _ => false

/-- A fault that comes from the medium and not from the contents of the image. -/
inductive MediumFault where
  | closedFile
  | negativeSeek (offset : Int)
  /-- An offset is outside the range of file offsets. -/
  | offsetTooLarge
  /-- A number of bytes is outside the range of sizes. -/
  | countTooLarge
  | reported (kind : FaultKind) (text : String)
  deriving DecidableEq, Repr

def MediumFault.kind : MediumFault → FaultKind
  | .closedFile | .negativeSeek _ => .badValue
  | .offsetTooLarge | .countTooLarge => .overflow
  | .reported kind _ => kind

def MediumFault.message : MediumFault → String
  | .closedFile => "I/O operation on closed file."
  | .negativeSeek offset => "negative seek value " ++ toString offset
  | .offsetTooLarge => "Python int too large to convert to C ssize_t"
  | .countTooLarge => "cannot fit 'int' into an index-sized integer"
  | .reported _ text => text

/-- Why a read failed. -/
inductive Failure where
  | truncated (truncation : Truncation)
  | malformed (defect : Defect)
  | misused (misuse : Misuse)
  | internal (error : InternalError)
  | layout (error : LayoutError)
  | medium (fault : MediumFault)
  deriving DecidableEq, Repr

def Failure.message : Failure → String
  | .truncated truncation => truncation.message
  | .malformed defect => defect.message
  | .misused misuse => misuse.message
  | .internal error => error.message
  | .layout error => error.message
  | .medium fault => fault.message

/-- The kind of a failure, in the terms in which a medium reports its own. -/
def Failure.kind : Failure → FaultKind
  | .truncated _ => .truncated
  | .malformed _ => .malformed
  | .misused _ => .misused
  | .internal _ => .internal
  | .layout _ => .badLayout
  | .medium fault => fault.kind

/-- Whether a failure is a verdict on the image: it ends too early or its contents are wrong. -/
def Failure.condemnsImage : Failure → Bool
  | .truncated _ | .malformed _ => true
  | .misused _ | .internal _ | .layout _ | .medium _ => false

end DiscVolume
