import Readiness.Document.Reading

/-!
# Document — values that can be kept

* `Document.nesting`: how many lists and tables of a value stand inside each other.
* `Reading.sound_ofDocument`: a value is kept where so many may.
* `Reading.wellFormed_of_sound`: what can be kept can be skipped.
-/

namespace Readiness

namespace Document

mutual
/-- How many lists and tables stand inside each other. -/
def nesting : Document → Nat
  | .list xs => nestingItems xs + 1
  | .table ms => nestingMembers ms + 1
  | _ => 0

def nestingItems : List Document → Nat
  | [] => 0
  | x :: xs => max x.nesting (nestingItems xs)

def nestingMembers : List (String × Document) → Nat
  | [] => 0
  | (_, v) :: ms => max v.nesting (nestingMembers ms)
end

theorem nesting_le_of_mem {m : String × Document} {ms : List (String × Document)} (h : m ∈ ms) :
    m.2.nesting ≤ nestingMembers ms := by
  induction ms with
  | nil => cases h
  | cons n ms ih =>
      obtain ⟨k, v⟩ := n
      rw [nestingMembers]
      rcases List.mem_cons.mp h with rfl | h
      · exact Nat.le_max_left _ _
      · exact Nat.le_trans (ih h) (Nat.le_max_right _ _)

end Document

namespace Reading

theorem ofMembers_eq_map (ms : List (String × Document)) :
    ofMembers ms = ms.map fun m => (m.1, ofDocument m.2) := by
  induction ms with
  | nil => rfl
  | cons m ms ih => rw [ofMembers, ih]; rfl

mutual
/-- A value is kept where so many lists and tables may stand inside each other as do in it. -/
theorem sound_ofDocument : ∀ (d : Document) {depth : Nat}, d.nesting ≤ depth →
    (ofDocument d).sound depth = true
  | .null, _, _ | .bool _, _, _ | .integer _, _, _ | .float _, _, _ | .text _, _, _ => rfl
  | .list xs, depth, h => by
      rw [Document.nesting] at h
      rw [ofDocument, sound, soundItems_ofItems xs (by omega)]
      simp only [Bool.true_and, Bool.and_true, bne_iff_ne]
      omega
  | .table ms, depth, h => by
      rw [Document.nesting] at h
      rw [ofDocument, sound, soundMembers_ofMembers ms (by omega)]
      simp only [Bool.true_and, Bool.and_true, bne_iff_ne]
      omega

theorem soundItems_ofItems : ∀ (xs : List Document) {depth : Nat},
    Document.nestingItems xs ≤ depth → soundItems depth (ofItems xs) = true
  | [], _, _ => rfl
  | x :: xs, depth, h => by
      rw [Document.nestingItems] at h
      rw [ofItems, soundItems, sound_ofDocument x (by omega), soundItems_ofItems xs (by omega)]
      rfl

theorem soundMembers_ofMembers : ∀ (ms : List (String × Document)) {depth : Nat},
    Document.nestingMembers ms ≤ depth → soundMembers depth (ofMembers ms) = true
  | [], _, _ => rfl
  | (k, v) :: ms, depth, h => by
      rw [Document.nestingMembers] at h
      rw [ofMembers, soundMembers, sound_ofDocument v (by omega),
        soundMembers_ofMembers ms (by omega)]
      rfl
end

mutual
/-- What can be kept can be skipped. -/
theorem wellFormed_of_sound : ∀ (r : Reading) {depth : Nat}, r.sound depth = true →
    r.wellFormed = true
  | .null, _, _ | .bool _, _, _ | .integer _, _, _ | .float _, _, _ | .text _, _, _ => rfl
  | .outOfRange, _, h | .broken, _, h => nomatch h
  | .list xs closed, depth, h => by
      rw [sound, Bool.and_eq_true, Bool.and_eq_true] at h
      rw [wellFormed, h.1.1, wellFormedItems_of_soundItems xs h.2]
      rfl
  | .table ms closed, depth, h => by
      rw [sound, Bool.and_eq_true, Bool.and_eq_true] at h
      rw [wellFormed, h.1.1, wellFormedMembers_of_soundMembers ms h.2]
      rfl

theorem wellFormedItems_of_soundItems : ∀ (xs : List Reading) {depth : Nat},
    soundItems depth xs = true → wellFormedItems xs = true
  | [], _, _ => rfl
  | x :: xs, depth, h => by
      rw [soundItems, Bool.and_eq_true] at h
      rw [wellFormedItems, wellFormed_of_sound x h.1, wellFormedItems_of_soundItems xs h.2]
      rfl

theorem wellFormedMembers_of_soundMembers : ∀ (ms : List (String × Reading)) {depth : Nat},
    soundMembers depth ms = true → wellFormedMembers ms = true
  | [], _, _ => rfl
  | (k, v) :: ms, depth, h => by
      rw [soundMembers, Bool.and_eq_true] at h
      rw [wellFormedMembers, wellFormed_of_sound v h.1, wellFormedMembers_of_soundMembers ms h.2]
      rfl
end

end Reading

end Readiness
