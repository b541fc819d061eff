/-
  Floodgate/Pipeline/Encoded.lean
  ===============================
  **Bodies encoded on the way.**  An encoded body reads the body inside it and gives a
  gzip member instead: what is settled at first, then what is settled after each piece
  of data, at the end the rest of the member, and after that the trailers.  When the
  inner body fails the member breaks off without its end.  That it would break off as
  well if its encoder failed, in the middle or at the end, is left out: encoders do not.
-/
import Floodgate.Gzip.Stream
import Floodgate.Pipeline.Service

namespace Floodgate

open Gzip (Codec Stream)
open Http (Bytes Frame Headers Pull SizeHint)

/-- A body that is encoded while it is read; `ε` is the encoder and `β` the body inside. -/
inductive Encoded (ε β : Type) where
  /-- The body inside has not been read to its end.  `ready` is settled and not yet given,
      `sent` is the number of bytes given. -/
  | flowing (ready : Option Bytes) (stream : Stream ε) (sent : Nat) (source : β)
  /-- The member has been given, or has broken off. -/
  | spent (trailers : Option Headers)

namespace Encoded

variable {π : Type} (c : Codec) (S : Service π)

/-- The beginning of a member whose first data has been read already. -/
def start (level : Nat) (first : Bytes) (source : S.Body) : Encoded c.Encoder S.Body :=
  let written := (Stream.start c level).write c first
  .flowing (some (Gzip.header ++ written.1)) written.2 0 source

inductive Reading (ε β : Type) where
  | pending (stream : Stream ε) (source : β)
  | chunk (bytes : Bytes) (stream : Stream ε) (source : β)
  | failed (f : Failure)
  | ended (stream : Stream ε) (trailers : Option Headers)

/-- Reads the inner body until a part of the member is settled; `fuel` bounds the frames. -/
def read : Nat → Stream c.Encoder → S.Body → S.State →
    Step S.State (Reading c.Encoder S.Body)
  | 0, stream, source, s => ⟨.pending stream source, s, []⟩
  | fuel + 1, stream, source, s =>
    let pulled := S.pull source s
    match pulled.value with
    | .pending rest => ⟨.pending stream rest, pulled.state, pulled.happened⟩
    | .frame (.data bytes) rest =>
      let written := stream.write c bytes
      if written.1.isEmpty then
        (read fuel written.2 rest pulled.state).after pulled.happened
      else ⟨.chunk written.1 written.2 rest, pulled.state, pulled.happened⟩
    | .frame (.trailers fields) _ => ⟨.ended stream (some fields), pulled.state, pulled.happened⟩
    | .failed f _ => ⟨.failed f, pulled.state, pulled.happened⟩
    | .ended _ => ⟨.ended stream none, pulled.state, pulled.happened⟩

/-- A finished member: bytes of data and of the member. -/
structure Finished where
  bytesIn : Nat
  bytesOut : Nat
deriving DecidableEq, Repr

/-- The next frame, and the member that it finishes, if it does.  All data is encoded and every
    member finished; what an encoder that fails would do to the body is left out. -/
def pull (b : Encoded c.Encoder S.Body) (s : S.State) :
    Step S.State (Pull (Encoded c.Encoder S.Body) × Option Finished) :=
  match b with
  | .spent none => ⟨(.ended (.spent none), none), s, []⟩
  | .spent (some fields) => ⟨(.frame (.trailers fields) (.spent none), none), s, []⟩
  | .flowing (some bytes) stream sent source =>
    ⟨(.frame (.data bytes) (.flowing none stream (sent + bytes.length) source), none), s, []⟩
  | .flowing none stream sent source =>
    let reading := read c S (S.size source + 1) stream source s
    let value : Pull (Encoded c.Encoder S.Body) × Option Finished := match reading.value with
      | .pending stream source => (.pending (.flowing none stream sent source), none)
      | .chunk bytes stream source =>
        (.frame (.data bytes) (.flowing none stream (sent + bytes.length) source), none)
      | .failed f => (.failed f (.spent none), none)
      | .ended stream trailers =>
        let rest := stream.finish c
        (.frame (.data rest) (.spent trailers), some ⟨stream.length, sent + rest.length⟩)
    ⟨value, reading.state, reading.happened⟩

def ended {ε β : Type} : Encoded ε β → Bool
  | .spent none => true
  | _ => false

/-- Frames to come, at most: the end of the member and the trailers beside those of the
    inner body. -/
def size {ε β : Type} (inner : β → Nat) : Encoded ε β → Nat
  | .spent none => 0
  | .spent (some _) => 1
  | .flowing none _ _ source => inner source + 2
  | .flowing (some _) _ _ source => inner source + 3

/-- How many frames a reading leaves of the inner body, compared with `n`. -/
def Reading.Shrinks (n : Nat) : Reading c.Encoder S.Body → Prop
  | .pending _ source => S.size source ≤ n
  | .chunk _ _ source => S.size source < n
  | .failed _ => True
  | .ended .. => True

theorem read_shrinks (fuel : Nat) (stream : Stream c.Encoder) (source : S.Body) (s : S.State)
    (n : Nat) (h : S.size source ≤ n) :
    (read c S fuel stream source s).value.Shrinks c S n := by
  induction fuel generalizing stream source s with
  | zero => exact h
  | succ fuel ih =>
    have hp := S.pull_shrinks source s
    cases hv : (S.pull source s).value with
    | pending rest =>
      rw [hv] at hp
      simp only [read, hv]
      exact Nat.le_trans hp h
    | frame f rest =>
      rw [hv] at hp
      have hr : S.size rest < n := Nat.lt_of_lt_of_le hp h
      cases f with
      | data bytes =>
        by_cases he : (stream.write c bytes).1.isEmpty
        · simp only [read, hv, he, if_true, Step.after]
          exact ih _ rest _ (Nat.le_of_lt hr)
        · simp only [read, hv, he]
          exact hr
      | trailers fields =>
        simp only [read, hv]
        trivial
    | failed f rest =>
      simp only [read, hv]
      trivial
    | ended rest =>
      simp only [read, hv]
      trivial

theorem pull_shrinks (b : Encoded c.Encoder S.Body) (s : S.State) :
    (pull c S b s).value.1.Shrinks (size S.size) (size S.size b) := by
  cases b with
  | spent trailers =>
    cases trailers with
    | none => trivial
    | some fields => simp [pull, Pull.Shrinks, size]
  | flowing ready stream sent source =>
    cases ready with
    | some bytes => simp [pull, Pull.Shrinks, size]
    | none =>
      have hr := read_shrinks c S (S.size source + 1) stream source s (S.size source)
        (Nat.le_refl _)
      cases hv : (read c S (S.size source + 1) stream source s).value with
      | pending stream' source' =>
        rw [hv] at hr
        simp only [pull, hv]
        exact Nat.add_le_add_right hr 2
      | chunk bytes stream' source' =>
        rw [hv] at hr
        simp only [pull, hv]
        exact Nat.add_lt_add_right hr 2
      | failed f => simp [pull, hv, Pull.Shrinks, size]
      | ended stream' trailers =>
        cases trailers with
        | none => simp [pull, hv, Pull.Shrinks, size]
        | some fields => simp [pull, hv, Pull.Shrinks, size]

end Encoded

end Floodgate
