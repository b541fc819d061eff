/-
  Floodgate/Gzip/Codec.lean
  =========================
  **Encoders of deflate streams.**  A codec makes encoders of a level; an encoder takes
  data piece by piece, may give some of the stream after each piece, and gives the
  rest of it at the end.  What is written around the stream does not depend on the
  codec.

  Encoders do not fail.  One that is used as it should be takes all the data that it is
  given and comes to its end, so what would be done about one that reports an error or
  gets stuck is left out: here, where members are written, and in the stage.
-/
import Floodgate.Http.Headers

namespace Floodgate.Gzip

open Http (Bytes)

/-- Deflate encoders, as they are if none ever fails. -/
structure Codec where
  Encoder : Type
  fresh : Nat → Encoder
  /-- Takes data; gives the part of the stream that is settled now. -/
  write : Encoder → Bytes → Bytes × Encoder
  finish : Encoder → Bytes

namespace Codec

variable (c : Codec)

/-- Writes pieces of data one after the other; gives what came out and the encoder. -/
def writes : c.Encoder → List Bytes → Bytes × c.Encoder
  | e, [] => ([], e)
  | e, piece :: rest =>
    let first := c.write e piece
    let others := writes first.2 rest
    (first.1 ++ others.1, others.2)

def encode (level : Nat) (pieces : List Bytes) : Bytes :=
  let written := c.writes (c.fresh level) pieces
  written.1 ++ c.finish written.2

end Codec

end Floodgate.Gzip
