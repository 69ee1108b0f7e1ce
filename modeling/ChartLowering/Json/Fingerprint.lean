import ChartLowering.Json.Writer
import ChartLowering.Sha256

/-
  Fingerprints of values.

  A fingerprint is the digest of the canonical text, so it does not depend on the order of keys.
-/

namespace ChartLowering.Json

def fingerprint (j : Json) : String :=
  Sha256.digest (canonicalText j).toUTF8.toList

theorem fingerprint_eq_of_sorted_eq {a b : Json} (h : sorted a = sorted b) :
    fingerprint a = fingerprint b := by
  simp [fingerprint, canonicalText, h]

end ChartLowering.Json
