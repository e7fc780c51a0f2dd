import DiscVolume.Barrier
import DiscVolume.Barrier.Call
import DiscVolume.Barrier.Session
import DiscVolume.Binary64
import DiscVolume.Bits
import DiscVolume.Bytes
import DiscVolume.Calendar
import DiscVolume.Checksum
import DiscVolume.Copy
import DiscVolume.Cursor
import DiscVolume.Cursor.Fields
import DiscVolume.Cursor.Request
import DiscVolume.Descriptor
import DiscVolume.Descriptor.Entity
import DiscVolume.Descriptor.Extent
import DiscVolume.Descriptor.FileEntry
import DiscVolume.Descriptor.FileIdentifier
import DiscVolume.Descriptor.FileSet
import DiscVolume.Descriptor.Kind
import DiscVolume.Descriptor.Partition
import DiscVolume.Descriptor.Tag
import DiscVolume.Descriptor.Volume
import DiscVolume.Directory
import DiscVolume.Entry
import DiscVolume.Extraction
import DiscVolume.Extraction.Host
import DiscVolume.Extraction.Options
import DiscVolume.Failure
import DiscVolume.FileStream
import DiscVolume.Layout
import DiscVolume.Ledger
import DiscVolume.LockTable
import DiscVolume.LockTable.Line
import DiscVolume.Main
import DiscVolume.Medium
import DiscVolume.Medium.Flawed
import DiscVolume.Medium.Sparse
import DiscVolume.Medium.Windowed
import DiscVolume.Permissions
import DiscVolume.Reader
import DiscVolume.Recognition
import DiscVolume.Seconds
import DiscVolume.Sector
import DiscVolume.Survey
import DiscVolume.Text.Hex
import DiscVolume.Text.HexDump
import DiscVolume.Text.Printable
import DiscVolume.Text.Quoted
import DiscVolume.Text.Utf16
import DiscVolume.Volume
import DiscVolume.Proofs.Barrier.Interleaving
import DiscVolume.Proofs.Barrier.Turns
import DiscVolume.Proofs.Barrier.ExactlyOnce
import DiscVolume.Proofs.Barrier.Nesting
import DiscVolume.Proofs.Checksum.Bursts
import DiscVolume.Proofs.Cursor.Steps
import DiscVolume.Proofs.Descriptor.Corruption
import DiscVolume.Proofs.Cursor.Reading
import DiscVolume.Proofs.Directory.Spelling
import DiscVolume.Proofs.Directory.Traversal
import DiscVolume.Proofs.FileStream.Playback
import DiscVolume.Proofs.LockTable.Exclusion
import DiscVolume.Proofs.Volume.FileContents
import DiscVolume.Proofs.Medium.Answers
import DiscVolume.Proofs.Volume.Sequences
import DiscVolume.Proofs.Volume.Recognized
import DiscVolume.Proofs.Volume.Acceptance
import DiscVolume.Proofs.Cursor.Verdicts
import DiscVolume.Proofs.Descriptor.Verdicts
import DiscVolume.Proofs.Medium.Verdicts
import DiscVolume.Proofs.Volume.Verdicts
import DiscVolume.Proofs.FileStream.Verdicts
import DiscVolume.Proofs.Reader.Verdicts
import DiscVolume.Proofs.Cursor.Guards
import DiscVolume.Proofs.Barrier.History
import DiscVolume.Proofs.Barrier.Agreement
import DiscVolume.Proofs.Barrier.Collection
import DiscVolume.Proofs.Barrier.Rest
import DiscVolume.Proofs.Barrier.Independence
import DiscVolume.Proofs.Barrier.Remnants
import DiscVolume.Proofs.Barrier.Balance
import DiscVolume.Proofs.Medium.Steady
import DiscVolume.Proofs.Directory.Children
import DiscVolume.Proofs.Directory.Siblings
import DiscVolume.Proofs.Extraction.Paths
import DiscVolume.Proofs.Extraction.Steps
import DiscVolume.Proofs.Extraction.Confinement
import DiscVolume.Proofs.Extraction.Drives
import DiscVolume.Proofs.Extraction.Levels
import DiscVolume.Proofs.Extraction.Tree
import DiscVolume.Proofs.Extraction.Leavings
import DiscVolume.Proofs.Extraction.Walk
import DiscVolume.Proofs.FileStream.Copying
import DiscVolume.Proofs.Extraction.Copying
import DiscVolume.Proofs.Extraction.Recorded
import DiscVolume.Proofs.Extraction.Ending
import DiscVolume.Proofs.Extraction.Order
import DiscVolume.Proofs.Extraction.Completeness
import DiscVolume.Proofs.Reader.Lifecycle
import DiscVolume.Proofs.Reader.Lookup
import DiscVolume.Proofs.Reader.Failures
import DiscVolume.Proofs.Reader.Stepwise
import DiscVolume.Proofs.Cursor.Confined
import DiscVolume.Proofs.Directory.Reach
import DiscVolume.Proofs.Directory.Slack
import DiscVolume.Proofs.Descriptor.Dispatch
import DiscVolume.Proofs.Calendar
import DiscVolume.Proofs.Cursor.Text
import DiscVolume.Proofs.Cursor.Templates
import DiscVolume.Proofs.Descriptor.Fields
import DiscVolume.Proofs.Descriptor.Sealing
import DiscVolume.Proofs.Descriptor.Layouts
import DiscVolume.Proofs.Descriptor.Encoding
import DiscVolume.Proofs.Descriptor.FileEntries
import DiscVolume.Proofs.Text.Utf16
import DiscVolume.Proofs.Directory.Recordings
import DiscVolume.Proofs.Medium.Alike
import DiscVolume.Proofs.Volume.Alike
import DiscVolume.Proofs.FileStream.Alike
import DiscVolume.Proofs.Reader.Alike
import DiscVolume.Proofs.Reader.Sources
import DiscVolume.Proofs.Reader.Interleaving
import DiscVolume.Proofs.Checksum.Bitwise
import DiscVolume.Proofs.Checksum.Remainder
import DiscVolume.Proofs.Barrier.Idle
import DiscVolume.Proofs.Medium.Metered
import DiscVolume.Proofs.Volume.Scans
import DiscVolume.Proofs.Volume.Bounds
import DiscVolume.Proofs.Descriptor.WellFormed
import DiscVolume.Proofs.Cursor.Relocation
import DiscVolume.Proofs.Descriptor.Relocation
import DiscVolume.Proofs.Cursor.Spans
import DiscVolume.Proofs.Descriptor.Sizes
import DiscVolume.Proofs.Descriptor.KindBlind
import DiscVolume.Proofs.Medium.Exchanges
import DiscVolume.Proofs.FileStream.Portions
import DiscVolume.Proofs.FileStream.Keeping
import DiscVolume.Proofs.FileStream.Attempts
import DiscVolume.Proofs.FileStream.Lines
import DiscVolume.Proofs.Cursor.Characters
import DiscVolume.Proofs.Barrier.Creation
import DiscVolume.Proofs.Barrier.Removal
import DiscVolume.Proofs.Extraction.Rehearsal
import DiscVolume.Proofs.Calendar.DayNumbers
import DiscVolume.Proofs.Calendar.Instants
import DiscVolume.Proofs.Cursor.Dstrings
import DiscVolume.Proofs.Cursor.Timestamps
import DiscVolume.Proofs.Copying
import DiscVolume.Proofs.Permissions.Bitwise
import DiscVolume.Proofs.Permissions.Modes
import DiscVolume.Proofs.Permissions.Edits
import DiscVolume.Proofs.Cursor.Formats
import DiscVolume.Proofs.Cursor.Uses
import DiscVolume.Proofs.Cursor.Progress
import DiscVolume.Proofs.Cursor.Exhaustion
import DiscVolume.Proofs.Cursor.Slots
import DiscVolume.Proofs.Cursor.Compounds
import DiscVolume.Proofs.Reader.Failures
