import DiscVolume.Extraction

/-! The extraction tool: lists or extracts the files of an image. -/

namespace DiscVolume.Extraction

/-- Carries out an effect. -/
def Effect.carryOut : Effect → IO Unit
  | say line => IO.println line
  | warn line => IO.eprintln line
  | makeDirectory path => IO.FS.createDirAll path
  | writeFile path data => IO.FS.writeBinFile path ⟨data.toArray⟩

/-- Looks for the image. -/
def findImage (path : String) : IO ImageAt := do
  try
    return .contents (← IO.FS.readBinFile path)
  catch
    | .noFileOrDirectory .. => return .noFile
    | other => return .unreadable (toString other)

/-- Goes on until extracting is finished. -/
partial def finish (options : Options) (stage : Stage) : IO UInt32 := do
  match stage with
  | .finished status => return status.toUInt32
  | .walking .. => do
      let (effects, next) := advance options stage
      effects.forM Effect.carryOut
      finish options next

/-- The name under which the tool presents itself. -/
def programName : String := "disc-extract"

end DiscVolume.Extraction

open DiscVolume.Extraction

def main (arguments : List String) : IO UInt32 := do
  match Options.ofArguments arguments with
  | .error fault => do
      (Options.usage programName).forM IO.eprintln
      IO.eprintln (programName ++ ": error: " ++ fault.message)
      return 2
  | .ok .help => do
      (Options.help programName).forM IO.println
      return 0
  | .ok (.extract options) => do
      let (effects, stage) := start options (← findImage options.image)
      effects.forM Effect.carryOut
      finish options stage
