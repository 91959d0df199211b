import Readiness.Proofs.Text.Cutting
import Readiness.Text.Blank

/-!
# Text — what searching finds

* `hasStart_iff`: a start is found just where a text goes on from it.
* `contains_iff`: a needle is found just where it is a run of the text's characters.
* `contains_trim`: trimming loses no needle that begins and ends with a character that is no blank.
-/

namespace Readiness.Text

theorem startsWith_iff {p cs : List Char} : startsWith p cs = true ↔ p <+: cs := by
  rw [startsWith, Option.isSome_iff_exists]
  constructor
  · rintro ⟨r, h⟩
    exact ⟨r, (dropStart?_eq_some.mp h).symm⟩
  · rintro ⟨r, rfl⟩
    exact ⟨r, dropStart?_eq_some.mpr rfl⟩

theorem hasStart_iff {s p : String} : hasStart s p = true ↔ ∃ rest, s = p ++ rest := by
  rw [hasStart, startsWith_iff]
  constructor
  · rintro ⟨r, hr⟩
    exact ⟨String.ofList r, String.toList_inj.mp (by simpa using hr.symm)⟩
  · rintro ⟨rest, rfl⟩
    exact ⟨rest.toList, String.toList_append.symm⟩

theorem includes_iff {p cs : List Char} : includes p cs = true ↔ p <:+: cs := by
  induction cs with
  | nil => simp [includes]
  | cons c cs ih => simp [includes, startsWith_iff, ih, List.infix_cons_iff]

/-- A needle is found just where it is a run of the text's characters. -/
theorem contains_iff {hay needle : String} :
    contains hay needle = true ↔ needle.toList <:+: hay.toList := includes_iff

/-! ### Trimming -/

section Trimming

variable {p : Char → Bool}

theorem infix_dropWhile {n cs : List Char} (hn : n.head?.any (!p ·) = true) :
    n <:+: cs.dropWhile p ↔ n <:+: cs := by
  induction cs with
  | nil => rfl
  | cons c cs ih =>
      by_cases hc : p c = true
      · rw [List.dropWhile_cons_of_pos hc, ih, List.infix_cons_iff]
        refine ⟨.inr, fun h => h.resolve_left fun hp => ?_⟩
        -- a needle at the front would begin with the blank
        obtain ⟨r, hr⟩ := hp
        cases n with
        | nil => cases hn
        | cons d n =>
            obtain rfl : d = c := (List.cons.inj hr).1
            simp [hc] at hn
      · rw [List.dropWhile_cons_of_neg hc]

/-- Trimming loses no needle whose ends are kept. -/
theorem infix_trimBy {n cs : List Char} (hf : n.head?.any (!p ·) = true)
    (hl : n.getLast?.any (!p ·) = true) : n <:+: trimBy p cs ↔ n <:+: cs := by
  have hr : n.reverse.head?.any (!p ·) = true := by rw [List.head?_reverse]; exact hl
  calc n <:+: trimBy p cs
      ↔ n.reverse <:+: (cs.dropWhile p).reverse.dropWhile p := by
        rw [trimBy, ← List.reverse_infix, List.reverse_reverse]
    _ ↔ n.reverse <:+: (cs.dropWhile p).reverse := infix_dropWhile hr
    _ ↔ n <:+: cs := by rw [List.reverse_infix, infix_dropWhile hf]

end Trimming

/-- Trimming loses no needle that begins and ends with a character that is no blank. -/
theorem contains_trim {s needle : String} (hf : needle.toList.head?.any (!isBlank ·) = true)
    (hl : needle.toList.getLast?.any (!isBlank ·) = true) :
    contains (trim s) needle = contains s needle := by
  rw [Bool.eq_iff_iff, contains_iff, contains_iff, trim, String.toList_ofList]
  exact infix_trimBy hf hl

end Readiness.Text
