import DiscVolume.Copy
import DiscVolume.Extraction.Host
import DiscVolume.Extraction.Options
import DiscVolume.Medium.Windowed
import DiscVolume.Volume

/-! Extraction of all files of an image, breadth first from the root directory. Every step tells
what it does to the host and which entries are left to visit; nothing is remembered of the
entries visited before, so the steps do not end on an image whose directories form a circle.
An extracted file may take the place of the image, which is then read on as far as that goes.
-/

namespace DiscVolume.Extraction

/-- Progress of a reader, in the order in which it was told. -/
abbrev Notes := List Note

/-- The image file in use, and what its readers have told so far. -/
structure Drive where
  image : WindowedFile
  notes : Notes := []

namespace Drive

/-- A source over an image of some capacity that keeps the notes of its readers. -/
def source (capacity : Nat) : Source Drive :=
  { (WindowedFile.source capacity).within Drive.image fun image drive => { drive with image } with
    note := fun note drive => { drive with notes := drive.notes ++ [note] } }

end Drive

/-- What extracting does to the host. -/
inductive Effect where
  | say (line : String)
  | warn (line : String)
  | makeDirectory (path : String)
  | writeFile (path : String) (data : Bytes)
  deriving DecidableEq, Repr

/-- An entry to visit and the path that it is extracted to. -/
structure Visit where
  entry : Entry
  path : String

/-- What a visit does, the visits that it leads to, and the drive after it. -/
structure Visited where
  effects : List Effect
  outcome : Except Failure (List Visit)
  drive : Drive

inductive Stage where
  | walking (volume : Volume Drive) (drive : Drive) (queue : List Visit)
  | finished (status : Nat)

/-- The lines that the notes of a reader are logged in. -/
def logged (options : Options) (notes : Notes) : List Effect :=
  match options.level with
  | .debug => notes.map fun note => .warn ("DEBUG pyvcdkit.udfreader: " ++ note.message)
  | .info | .warning | .error => []

/-- The outcome of a reading step, what it logs, and the drive after it. -/
def observe (options : Options) (step : Access Drive α) (drive : Drive)
    : Except Failure α × List Effect × Drive :=
  match step { drive with notes := [] } with
  | .ok value drive => (.ok value, logged options drive.notes, drive)
  | .error failure drive => (.error failure, logged options drive.notes, drive)

/-- The blocks in which files are copied. -/
def blockSize : Int := 8192

/-- The visits to those entries of a directory whose names can be used. -/
def visitsTo (here : Visit) (children : List Entry) : List Visit :=
  (children.filter fun child => HostPath.isSafeName child.name).map fun child =>
    ⟨child, HostPath.join here.path child.name⟩

/-- A warning about every entry of a directory whose name cannot be used. -/
def warningsAbout (here : Visit) (children : List Entry) : List Effect :=
  (children.filter fun child => !HostPath.isSafeName child.name).map fun child =>
    .warn ("Skipping unsafe name " ++ Text.quoted child.name ++ " in /" ++ here.entry.path)

/-- Visits a directory, which leads to visits to its entries. -/
def visitDirectory (options : Options) (volume : Volume Drive) (drive : Drive) (here : Visit)
    : Visited :=
  let made := if options.listsOnly then [] else [Effect.makeDirectory here.path]
  match observe options (volume.readDirectory here.entry) drive with
  | (.ok children, log, drive) =>
      ⟨made ++ log ++ warningsAbout here children, .ok (visitsTo here children), drive⟩
  | (.error failure, log, drive) => ⟨made ++ log, .error failure, drive⟩

/-- Copies what a stream plays to a file. What was copied before a failure stays written. -/
def copyOut (options : Options) (stream : FileStream Drive) (drive : Drive) (path : String)
    : Visited :=
  let isImage := HostPath.isSame path options.image
  let change (edit : WindowedFile → WindowedFile) (drive : Drive) : Drive :=
    if isImage then { drive with image := edit drive.image } else drive
  let copied := copyBlocks (fun count => FileStream.read (some count))
    (fun data (stream, drive) => (stream, change (WindowedFile.append data) drive))
    blockSize stream.contents.length.toNat (stream, change WindowedFile.clear drive)
  { effects := [.writeFile path copied.written]
    outcome :=
      match copied.failure with
      | some failure => .error failure
      | none => .ok []
    drive := copied.input.2 }

/-- Visits a file. -/
def visitFile (options : Options) (volume : Volume Drive) (drive : Drive) (here : Visit)
    : Visited :=
  if options.listsOnly then ⟨[], .ok [], drive⟩
  else
    match volume.openFile here.entry with
    | .error failure => ⟨[], .error failure, drive⟩
    | .ok stream => copyOut options stream drive here.path

/-- Prints the path of an entry and extracts it. -/
def visit (options : Options) (volume : Volume Drive) (drive : Drive) (here : Visit) : Visited :=
  let visited :=
    if here.entry.isDirectory then visitDirectory options volume drive here
    else visitFile options volume drive here
  { visited with effects := .say ("/" ++ here.entry.path) :: visited.effects }

/-- Reports that extracting cannot go on. -/
def giveUp (options : Options) (doing report : String) : List Effect × Stage :=
  ([.warn ("Could not " ++ doing ++ " " ++ options.image ++ ": " ++ report)], .finished 1)

/-- Visits the first entry of the queue. -/
def advance (options : Options) : Stage → List Effect × Stage
  | .finished status => ([], .finished status)
  | .walking _ _ [] => ([], .finished 0)
  | .walking volume drive (here :: queue) =>
      match visit options volume drive here with
      -- New visits go to the end, so entries come in the order of their depth.
      | ⟨effects, .ok visits, drive⟩ => (effects, .walking volume drive (queue ++ visits))
      | ⟨effects, .error failure, _⟩ =>
          let (report, stage) := giveUp options "read" failure.message
          (effects ++ report, stage)

/-- What is found where the image should be. -/
inductive ImageAt where
  | contents (data : ByteArray)
  | noFile
  | unreadable (report : String)

/-- Opens the root directory of an open volume. -/
def enterRoot (options : Options) (volume : Volume Drive) (drive : Drive) : List Effect × Stage :=
  match observe options volume.root drive with
  | (.ok root, log, drive) => (log, .walking volume drive [⟨root, options.destination⟩])
  | (.error failure, log, _) =>
      let (report, stage) := giveUp options "read" failure.message
      (log ++ report, stage)

/-- Opens the image. -/
def start (options : Options) (image : ImageAt) : List Effect × Stage :=
  let opening := Effect.say ("Opening " ++ options.image)
  match image with
  | .noFile =>
      let (report, stage) := giveUp options "open"
        ("[Errno 2] No such file or directory: " ++ Text.quoted options.image)
      (opening :: report, stage)
  | .unreadable reason =>
      let (report, stage) := giveUp options "open" reason
      (opening :: report, stage)
  | .contents data =>
      let supply := Supply.file (.declared "rb") (Drive.source data.size)
      match observe options (Volume.ofSupply supply) { image := { contents := data } } with
      | (.error failure, log, _) =>
          let (report, stage) := giveUp options "open" failure.message
          (opening :: log ++ report, stage)
      | (.ok volume, log, drive) =>
          let (effects, stage) := enterRoot options volume drive
          (opening :: log ++ effects, stage)

/-- (proceed options limit stage) takes steps until extracting is finished, at most a number of
them. The status is that of the program.
-/
def proceed (options : Options) : (limit : Nat) → Stage → List Effect × Option Nat
  | _, .finished status => ([], some status)
  | 0, .walking .. => ([], none)
  | limit + 1, .walking volume drive queue =>
      let (effects, stage) := advance options (.walking volume drive queue)
      let (others, status) := proceed options limit stage
      (effects ++ others, status)

/-- (run options image limit) is all that extracting does in at most a number of visits. -/
def run (options : Options) (image : ImageAt) (limit : Nat) : List Effect × Option Nat :=
  let (effects, stage) := start options image
  let (others, status) := proceed options limit stage
  (effects ++ others, status)

namespace Effect

/-- The lines that effects print. -/
def output (effects : List Effect) : List String :=
  effects.filterMap fun effect =>
    match effect with
    | say line => some line
    | warn _ | makeDirectory _ | writeFile _ _ => none

/-- The lines that effects print as warnings. -/
def warnings (effects : List Effect) : List String :=
  effects.filterMap fun effect =>
    match effect with
    | warn line => some line
    | say _ | makeDirectory _ | writeFile _ _ => none

/-- What an effect does to a tree of files. -/
def apply (tree : HostTree) : Effect → HostTree
  | say _ | warn _ => tree
  | makeDirectory path => tree.makeDirectory path
  | writeFile path data => tree.writeFile path data

/-- The files and directories that effects leave behind where there were none. -/
def tree (effects : List Effect) : HostTree := effects.foldl apply .empty

end Effect

end DiscVolume.Extraction
