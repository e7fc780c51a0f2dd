import DiscVolume.Volume

/-! A survey of a volume: its entries breadth first from the root, with the contents of files. -/

namespace DiscVolume

/-- What was found out about an entry. -/
inductive Finding where
  | directory (entry : Entry)
  | unreadable (entry : Entry) (failure : Failure)
  | file (entry : Entry) (contents : Except Failure Bytes)

namespace Volume

/-- All contents of a file. -/
def readFile (volume : Volume σ) (entry : Entry) : Access σ Bytes := do
  let stream ← Access.settle (volume.openFile entry)
  fun medium =>
    match FileStream.readAll (stream, medium) with
    | .ok data after => .ok data after.2
    | .error failure after => .error failure after.2

/-- The outcome of a step as a value. -/
def attempt (step : Access σ α) : Access σ (Except Failure α) := fun medium =>
  match step medium with
  | .ok value after => .ok (.ok value) after
  | .error failure after => .ok (.error failure) after

/-- (surveyFrom queue limit) looks at the entries of a queue until a limit is reached; the
entries of directories join the end of the queue.
-/
def surveyFrom (volume : Volume σ) : List Entry → (limit : Nat) → Access σ (List Finding)
  | [], _ | _, 0 => pure []
  | entry :: queue, limit + 1 =>
      if entry.isDirectory then do
        match ← attempt (volume.readDirectory entry) with
        | .ok entries => do
            let findings ← volume.surveyFrom (queue ++ entries) limit
            return .directory entry :: findings
        | .error failure => do
            let findings ← volume.surveyFrom queue limit
            return .unreadable entry failure :: findings
      else do
        let contents ← attempt (volume.readFile entry)
        let findings ← volume.surveyFrom queue limit
        return .file entry contents :: findings

/-- At most a number of entries, from the root on. -/
def survey (volume : Volume σ) (limit : Nat) : Access σ (List Finding) := do
  let root ← volume.root
  volume.surveyFrom [root] limit

end Volume

end DiscVolume
