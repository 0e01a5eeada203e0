import LiveRuns.EventStream.Frame
import LiveRuns.Failure

/-!
Cutting an event stream into frames, chunk by chunk.

The decoder takes the stream one byte at a time.  Every end of a line becomes one line feed: a
carriage return counts as one, and a line feed right after it is dropped, even if a chunk ends
between the two.  Two line feeds in a row end a frame.  What is held back is therefore always the
unfinished frame alone, and a chunk that leaves more of it than the limit fails.
-/

namespace LiveRuns.EventStream

def defaultLimit : Nat := 1048576

/-- The bytes of the unfinished frame, last first, and whether the last byte taken was a carriage
return. -/
structure Decoder where
  held : List UInt8 := []
  afterCr : Bool := false
deriving DecidableEq, Repr

namespace Decoder

def pending (d : Decoder) : Nat := d.held.length

/-- Hold one byte, or cut a frame if it is the second of two line feeds. -/
def hold (d : Decoder) (b : UInt8) (afterCr : Bool) : Decoder × Option Frame :=
  match d.held with
  | last :: held =>
    if b = lf ∧ last = lf then (⟨[], afterCr⟩, Frame.ofBytes (b :: last :: held).reverse)
    else (⟨b :: last :: held, afterCr⟩, none)
  | [] => (⟨[b], afterCr⟩, none)

def step (d : Decoder) (b : UInt8) : Decoder × Option Frame :=
  if b = lf ∧ d.afterCr then ({ d with afterCr := false }, none)
  else if b = cr then d.hold lf true
  else d.hold b false

/-- Take bytes one after the other; the frames are gathered last first. -/
def run (frames : List Frame) (d : Decoder) : List UInt8 → Decoder × List Frame
  | [] => (d, frames.reverse)
  | b :: bytes =>
    let (d, frame) := d.step b
    run (frame.toList ++ frames) d bytes

def tooLong (limit : Nat) : Failure :=
  .stream ("SSE frame exceeds " ++ toString limit ++ " bytes without a terminator")

/-- Take one chunk.  If the unfinished frame is then longer than the limit, it is dropped and the
chunk fails; whether the last byte was a carriage return is remembered all the same. -/
def push (limit : Nat) (d : Decoder) (chunk : List UInt8) :
    Decoder × Except Failure (List Frame) :=
  let (d, frames) := d.run [] chunk
  if limit < d.pending then ({ d with held := [] }, .error (tooLong limit))
  else (d, .ok frames)

end Decoder

/-! ## Streams of chunks -/

/-- What a stream of chunks amounts to: its frames, and the failure that ended it, if one did. -/
structure Frames where
  frames : List Frame
  failure : Option Failure

/-- The frames of a stream of chunks.  The first chunk that could not be received or was too long
ends it. -/
def framesFrom (limit : Nat) (d : Decoder) : List (Except String (List UInt8)) → Frames
  | [] => ⟨[], none⟩
  | .error detail :: _ => ⟨[], some (.stream detail)⟩
  | .ok chunk :: chunks =>
    match d.push limit chunk with
    | (_, .error failure) => ⟨[], some failure⟩
    | (d, .ok frames) =>
      let rest := framesFrom limit d chunks
      { rest with frames := frames ++ rest.frames }

def framesOf (limit : Nat) (chunks : List (Except String (List UInt8))) : Frames :=
  framesFrom limit {} chunks

end LiveRuns.EventStream
