import SealedMail.Codec.Basic

/-!
# Points in time

Milliseconds since the start of 1970.
-/

namespace SealedMail

structure Timestamp where
  millis : UInt64
  deriving DecidableEq, Repr

namespace Timestamp

instance : Codec Timestamp := .via inferInstance millis mk

/-- Milliseconds from `earlier` to `t`, zero if `t` comes first. -/
def since (t earlier : Timestamp) : UInt64 :=
  if earlier.millis ≤ t.millis then t.millis - earlier.millis else 0

theorem toNat_since (t earlier : Timestamp) :
    (t.since earlier).toNat = t.millis.toNat - earlier.millis.toNat := by
  unfold since
  split
  · rename_i h
    exact UInt64.toNat_sub_of_le _ _ h
  · rename_i h
    have : t.millis.toNat < earlier.millis.toNat := by
      simpa [UInt64.le_iff_toNat_le] using h
    simp
    omega

/-- Whether more than `ttl` milliseconds lie between `created` and `now`. -/
def isExpired (created now : Timestamp) (ttl : UInt64) : Bool := ttl < now.since created

end Timestamp

/-- Seconds as milliseconds, as far as 64 bits go. -/
def millisOfSeconds (seconds : UInt64) : UInt64 :=
  if seconds.toNat * 1000 < UInt64.size then seconds * 1000 else 18446744073709551615

/-- Fifteen days. -/
def defaultTtlMillis : UInt64 := 15 * 24 * 60 * 60 * 1000

end SealedMail
