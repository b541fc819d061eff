/-
  Floodgate/Proofs/Gzip/Pieces.lean
  =================================
  **A member that is written piece by piece.**  A stream gives the header first, then what
  is settled after each piece of data, and at the end what is left of the deflate stream,
  the checksum and the length.  Put together this is one member of all the data
  (`parts_member`), and pieces without data leave no trace in it.
-/
import Floodgate.Gzip.Stream

namespace Floodgate.Gzip

open Http (Bytes)

/-- The pieces that have any data. -/
def filled (pieces : List Bytes) : List Bytes := pieces.filter fun piece => !piece.isEmpty

theorem flatten_filled (pieces : List Bytes) : (filled pieces).flatten = pieces.flatten :=
  List.flatten_filter_not_isEmpty

theorem filled_cons (piece : Bytes) (pieces : List Bytes) :
    filled (piece :: pieces) = if piece.isEmpty then filled pieces else piece :: filled pieces := by
  cases h : piece.isEmpty <;> simp [filled, h]

/-- The checksum of data and its length, as they stand at the end of a member. -/
def ending (data : Bytes) : Bytes :=
  littleEndian (checksum data) ++ littleEndian (UInt32.ofNat data.length)

/-- The member of data that an encoder is given in pieces. -/
def Codec.member (c : Codec) (level : Nat) (pieces : List Bytes) : Bytes :=
  header ++ c.encode level pieces ++ ending pieces.flatten

namespace Stream

variable (c : Codec)

/-- What is settled after each of some pieces of data, and the stream after all of them. -/
def parts (s : Stream c.Encoder) : List Bytes → List Bytes × Stream c.Encoder
  | [] => ([], s)
  | piece :: pieces =>
    let written := s.write c piece
    let others := parts written.2 pieces
    (written.1 :: others.1, others.2)

variable {c} (s : Stream c.Encoder) (pieces : List Bytes)

theorem parts_writes :
    ((s.parts c pieces).1.flatten, (s.parts c pieces).2.encoder) =
      c.writes s.encoder (filled pieces) := by
  induction pieces generalizing s with
  | nil => rfl
  | cons piece pieces ih =>
    have hrest := ih (s.write c piece).2
    simp only [parts, List.flatten_cons, filled_cons]
    by_cases hempty : piece.isEmpty
    · simp only [write, hempty, if_true] at hrest ⊢
      exact hrest
    · simp only [write, hempty, Bool.false_eq_true, if_false, Codec.writes] at hrest ⊢
      rw [← hrest]

theorem parts_checksum :
    (s.parts c pieces).2.checksum = s.checksum.update pieces.flatten := by
  induction pieces generalizing s with
  | nil => rfl
  | cons piece pieces ih =>
    simp only [parts, List.flatten_cons, Checksum.update_append]
    exact ih (s.write c piece).2

theorem parts_length : (s.parts c pieces).2.length = s.length + pieces.flatten.length := by
  induction pieces generalizing s with
  | nil => rfl
  | cons piece pieces ih =>
    simp only [parts, List.flatten_cons, List.length_append, ← Nat.add_assoc]
    exact ih (s.write c piece).2

/-- The stream has taken in these pieces of data, and this was settled meanwhile. -/
def Takes (s : Stream c.Encoder) (pieces : List Bytes) (out : Bytes) (s' : Stream c.Encoder) :
    Prop :=
  (s.parts c pieces).1.flatten = out ∧ (s.parts c pieces).2 = s'

theorem takes_nil : s.Takes [] [] s := ⟨rfl, rfl⟩

theorem takes_write (piece : Bytes) : s.Takes [piece] (s.write c piece).1 (s.write c piece).2 :=
  ⟨List.append_nil _, rfl⟩

variable {s pieces} {s' s'' : Stream c.Encoder} {more : List Bytes} {out out' : Bytes}

theorem Takes.append (h : s.Takes pieces out s') (h' : s'.Takes more out' s'') :
    s.Takes (pieces ++ more) (out ++ out') s'' := by
  induction pieces generalizing s out with
  | nil =>
    obtain ⟨rfl, rfl⟩ := h
    exact h'
  | cons piece pieces ih =>
    obtain ⟨rfl, rfl⟩ := h
    obtain ⟨hout, hstream⟩ := ih ⟨rfl, rfl⟩
    refine ⟨?_, hstream⟩
    simp only [parts, List.cons_append, List.flatten_cons, List.append_assoc] at hout ⊢
    rw [hout]

/-- **What a stream gives is one member of all the data.** -/
theorem parts_member (c : Codec) (level : Nat) (pieces : List Bytes) :
    let written := (start c level).parts c pieces
    header ++ written.1.flatten ++ written.2.finish c = c.member level (filled pieces) := by
  intro written
  have hwrites : (written.1.flatten, written.2.encoder) = c.writes (c.fresh level) (filled pieces) :=
    parts_writes (start c level) pieces
  have hchecksum : written.2.checksum.value = Gzip.checksum pieces.flatten :=
    congrArg Checksum.value (parts_checksum (start c level) pieces)
  have hlength : written.2.length = pieces.flatten.length :=
    (parts_length (start c level) pieces).trans (Nat.zero_add _)
  simp only [finish, trailer, Codec.member, Codec.encode, ending, flatten_filled, hchecksum,
    hlength, ← hwrites, List.append_assoc]

/-- What was settled of a member is what the encoder gave for the pieces that have data. -/
theorem Takes.writes {level : Nat} (h : (start c level).Takes pieces out s') :
    (c.writes (c.fresh level) (filled pieces)).1 = out := by
  rw [← h.1]
  exact congrArg Prod.fst (parts_writes (start c level) pieces).symm

/-- A stream that is finished has given a member of all that it took in. -/
theorem Takes.member {level : Nat} (h : (start c level).Takes pieces out s') :
    header ++ out ++ s'.finish c = c.member level (filled pieces) ∧
      s'.length = pieces.flatten.length := by
  obtain ⟨rfl, rfl⟩ := h
  exact ⟨parts_member c level pieces, (parts_length _ pieces).trans (Nat.zero_add _)⟩

end Stream

end Floodgate.Gzip
