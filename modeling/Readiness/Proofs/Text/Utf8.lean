import Readiness.Text.Utf8

/-!
# Text — the bytes of a text

Bytes that were made of a text are read as that text, strictly and lossily.
-/

namespace Readiness.Text.Utf8

theorem fromUTF8?_toUTF8 (s : String) : String.fromUTF8? s.toUTF8 = some s := by
  rw [String.fromUTF8?, dif_pos (show s.toUTF8.IsValidUTF8 from s.isValidUTF8)]
  rfl

/-- Bytes that are read as a text are the ones it is written as. -/
theorem eq_toUTF8 {bytes : ByteArray} {s : String} (h : String.fromUTF8? bytes = some s) :
    bytes = s.toUTF8 := by
  rw [String.fromUTF8?] at h
  split at h
  · cases h
    rfl
  · cases h

theorem lossy_toUTF8 (s : String) : lossy s.toUTF8 = s := by
  rw [lossy, fromUTF8?_toUTF8]

end Readiness.Text.Utf8
