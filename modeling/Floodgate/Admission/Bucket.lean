/-
  Floodgate/Admission/Bucket.lean
  ===============================
  **Token buckets.**  A bucket holds up to `burst` tokens and gains `rate` of them in
  a second.  A request takes one token; without a whole token it is refused and told
  how long the missing part takes to come in.  Tokens are counted in any type of
  numbers, so that the bucket can be run in floating point and reasoned about in
  exact arithmetic.
-/
import Floodgate.Number.Quantity

namespace Floodgate

structure Bucket (α : Type) where
  tokens : α
  refilledAt : Instant
  seenAt : Instant
deriving DecidableEq, Repr

namespace Bucket

variable {α : Type} [Quantity α]

def full (burst : α) (now : Instant) : Bucket α := ⟨burst, now, now⟩

/-- The tokens at an instant: what came in since the last refill is added, up to `burst`. -/
def tokensAt (b : Bucket α) (now : Instant) (rate burst : α) : α :=
  Quantity.lesser (b.tokens + Quantity.seconds (now - b.refilledAt) * rate) burst

/-- The time until a whole token is there. -/
def wait (tokens rate : α) : Duration :=
  Quantity.toDuration ((Quantity.ofNat 1 - tokens) / rate)

/-- Takes a token, or answers how long until there is one. -/
def take (b : Bucket α) (now : Instant) (rate burst : α) : Except Duration Unit × Bucket α :=
  let tokens := b.tokensAt now rate burst
  if Quantity.atLeast tokens (Quantity.ofNat 1) then
    (.ok (), ⟨tokens - Quantity.ofNat 1, now, now⟩)
  else (.error (wait tokens rate), ⟨tokens, now, now⟩)

end Bucket

end Floodgate
