/-!
# Instants and durations

Instants are milliseconds since the epoch and durations are milliseconds, both 64-bit words. A sum
that does not fit stays at the last instant there is: it never wraps into the past.

* `toNat_after` : the sum as a number. `le_after` : time added never goes back.
-/

namespace Correlator

abbrev Millis := UInt64

namespace Millis

/-- The instant `duration` after `instant`, or the last one. -/
def after (instant duration : Millis) : Millis :=
  .ofNat (min (instant.toNat + duration.toNat) (UInt64.size - 1))

@[simp] theorem toNat_after (instant duration : Millis) :
    (after instant duration).toNat =
      min (instant.toNat + duration.toNat) (UInt64.size - 1) := by
  rw [after, UInt64.toNat_ofNat', UInt64.size]
  omega

theorem le_after (instant duration : Millis) : instant ≤ after instant duration := by
  rw [UInt64.le_iff_toNat_le, toNat_after, UInt64.size]
  have := instant.toNat_lt
  omega

end Millis

end Correlator
