import DiscVolume.Reader

/-! A visit to a reader: it is asked for one thing after another, and so are the streams that it has
opened, whatever has failed before. All of them share the medium.
-/

namespace DiscVolume

/-- A reader, the streams that it has opened so far, and the medium behind them. -/
structure Visit (σ : Type) where
  reader : Reader σ := {}
  streams : List (FileStream σ) := []
  medium : σ

namespace Visit

/-- What can be asked for. A stream is asked by its place among those that were opened. -/
inductive Call (σ : Type) where
  | openImage (supply : Supply σ)
  | close
  | root
  | readDirectory (parent : Entry)
  | openFile (entry : Entry)
  | lookup (path : String)
  | absoluteSector (block : Int)
  | absoluteOffset (block : Int)
  | play (place : Nat) (request : FileStream.Request)

inductive Answer where
  | nothing
  | entry (value : Entry)
  | entries (values : List Entry)
  | stream (place : Nat)
  | number (value : Int)
  | reply (value : FileStream.Reply)

/-- A step on the reader alone. -/
def onReader (step : Using σ α) : Access (Visit σ) α := fun visit =>
  match step (visit.reader, visit.medium) with
  | .ok value after => .ok value { visit with reader := after.1, medium := after.2 }
  | .error failure after => .error failure { visit with reader := after.1, medium := after.2 }

/-- Puts a stream behind those that were opened before, and answers with its place. -/
def keep (stream : FileStream σ) : Access (Visit σ) Nat := fun visit =>
  .ok visit.streams.length { visit with streams := visit.streams ++ [stream] }

/-- A step on the stream at a place. Where there is no stream there is nothing to ask. -/
def onStream (place : Nat) (step : Playing σ FileStream.Reply) : Access (Visit σ) Answer :=
  fun visit =>
    match visit.streams[place]? with
    | none => .ok .nothing visit
    | some stream =>
        match step (stream, visit.medium) with
        | .ok reply after =>
            .ok (.reply reply)
              { visit with streams := visit.streams.set place after.1, medium := after.2 }
        | .error failure after =>
            .error failure
              { visit with streams := visit.streams.set place after.1, medium := after.2 }

def perform : Call σ → Access (Visit σ) Answer
  | .openImage supply => do
      onReader (Reader.openImage supply)
      return .nothing
  | .close => do
      onReader Reader.close
      return .nothing
  | .root => do return .entry (← onReader Reader.root)
  | .readDirectory parent => do return .entries (← onReader (Reader.readDirectory parent))
  | .openFile entry => do
      let stream ← onReader (Reader.openFile entry)
      return .stream (← keep stream)
  | .lookup path => do return .entry (← onReader (Reader.lookup path))
  | .absoluteSector block => do return .number (← onReader (Reader.absoluteSector block))
  | .absoluteOffset block => do return .number (← onReader (Reader.absoluteOffset block))
  | .play place request => onStream place (FileStream.perform request)

/-- The visit after a call, whether or not it has failed. -/
def after (visit : Visit σ) (call : Call σ) : Visit σ :=
  match perform call visit with
  | .ok _ next => next
  | .error _ next => next

/-- The visit after one call and another. -/
def reached (visit : Visit σ) (calls : List (Call σ)) : Visit σ := calls.foldl after visit

end Visit

end DiscVolume
