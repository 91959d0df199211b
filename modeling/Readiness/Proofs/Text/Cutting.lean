import Readiness.Text.Basic

/-!
# Text — what the cutting functions cut

* `dropStart?_eq_some`, `dropEnd?_eq_some`: a text is the known beginning or ending and the rest.
* `pieces_append_cons`: a separator cuts the text before it and the text after it apart.
* `split_eq_iff`: the pieces of a text are those that hold no separator and joined give the text.
-/

namespace Readiness.Text

/-! ### Known beginnings and endings -/

theorem dropStart?_eq_some {p cs r : List Char} : dropStart? p cs = some r ↔ cs = p ++ r := by
  induction p generalizing cs with
  | nil => simp [dropStart?]
  | cons c p ih =>
      cases cs with
      | nil => simp [dropStart?]
      | cons d cs =>
          by_cases h : c = d
          · subst h; simp [dropStart?, ih]
          · simp [dropStart?, h, Ne.symm h]

theorem dropEnd?_eq_some {p cs r : List Char} : dropEnd? p cs = some r ↔ cs = r ++ p := by
  have rev : ∀ q : List Char, cs.reverse = p.reverse ++ q ↔ cs = q.reverse ++ p := fun q => by
    rw [← List.reverse_inj, List.reverse_reverse, List.reverse_append, List.reverse_reverse]
  simp only [dropEnd?, Option.map_eq_some_iff, dropStart?_eq_some, rev]
  constructor
  · rintro ⟨q, rfl, rfl⟩; rfl
  · rintro rfl; exact ⟨r.reverse, by rw [List.reverse_reverse], List.reverse_reverse r⟩

theorem stripStart?_eq_some {s p r : String} : stripStart? s p = some r ↔ s = p ++ r := by
  simp only [stripStart?, Option.map_eq_some_iff, dropStart?_eq_some]
  constructor
  · rintro ⟨q, h, rfl⟩
    exact String.toList_inj.mp (by simpa using h)
  · rintro rfl
    exact ⟨r.toList, String.toList_append, String.ofList_toList⟩

theorem stripEnd?_eq_some {s p r : String} : stripEnd? s p = some r ↔ s = r ++ p := by
  simp only [stripEnd?, Option.map_eq_some_iff, dropEnd?_eq_some]
  constructor
  · rintro ⟨q, h, rfl⟩
    exact String.toList_inj.mp (by simpa using h)
  · rintro rfl
    exact ⟨r.toList, String.toList_append, String.ofList_toList⟩

/-- A text begins with a character if this is its first one. -/
theorem hasStart_singleton (s : String) (c : Char) :
    hasStart s (String.ofList [c]) = (s.toList.head? == some c) := by
  simp only [hasStart, startsWith, String.toList_ofList]
  cases s.toList with
  | nil => rfl
  | cons d cs => by_cases h : c = d <;> simp [dropStart?, h, Ne.symm]

/-! ### Pieces -/

theorem pieces_ne_nil (sep : Char) (cs : List Char) : pieces sep cs ≠ [] := by
  cases cs with
  | nil => simp [pieces]
  | cons c cs =>
      rw [pieces]
      split
      · simp
      · split <;> simp

theorem pieces_cons_self (sep : Char) (cs : List Char) :
    pieces sep (sep :: cs) = [] :: pieces sep cs := by
  rw [pieces]
  cases h : pieces sep cs with
  | nil => exact absurd h (pieces_ne_nil sep cs)
  | cons p ps => simp

/-- A separator cuts the text before it and the text after it apart. -/
theorem pieces_append_cons (sep : Char) (a b : List Char) :
    pieces sep (a ++ sep :: b) = pieces sep a ++ pieces sep b := by
  induction a with
  | nil => exact pieces_cons_self sep b
  | cons c a ih =>
      rw [List.cons_append, pieces, ih, pieces]
      cases h : pieces sep a with
      | nil => exact absurd h (pieces_ne_nil sep a)
      | cons p ps => by_cases hc : c = sep <;> simp [hc]

theorem pieces_of_not_mem {sep : Char} {cs : List Char} (h : sep ∉ cs) : pieces sep cs = [cs] := by
  induction cs with
  | nil => rfl
  | cons c cs ih =>
      simp only [List.mem_cons, not_or] at h
      rw [pieces, ih h.2]
      simp [Ne.symm h.1]

theorem split_of_not_mem {s : String} {sep : Char} (h : sep ∉ s.toList) : split s sep = [s] := by
  simp [split, pieces_of_not_mem h]

/-- A piece holds no separator. -/
theorem not_mem_of_mem_pieces {sep : Char} {cs p : List Char} (h : p ∈ pieces sep cs) :
    sep ∉ p := by
  induction cs generalizing p with
  | nil => simp [pieces] at h; simp [h]
  | cons c cs ih =>
      rw [pieces] at h
      cases hp : pieces sep cs with
      | nil => exact absurd hp (pieces_ne_nil sep cs)
      | cons q qs =>
          rw [hp] at ih h
          by_cases hc : c = sep
          · simp only [hc, if_true, List.mem_cons] at h
            rcases h with rfl | h
            · simp
            · exact ih (List.mem_cons.mpr h)
          · simp only [hc, if_false, List.mem_cons] at h
            rcases h with rfl | h
            · simp [Ne.symm hc, ih List.mem_cons_self]
            · exact ih (List.mem_cons_of_mem _ h)

/-- The characters of a piece are characters of the text. -/
theorem mem_of_mem_pieces {sep : Char} {cs p : List Char} (h : p ∈ pieces sep cs) :
    ∀ c ∈ p, c ∈ cs := by
  induction cs generalizing p with
  | nil => simp [pieces] at h; simp [h]
  | cons c cs ih =>
      rw [pieces] at h
      cases hp : pieces sep cs with
      | nil => exact absurd hp (pieces_ne_nil sep cs)
      | cons q qs =>
          have ih : ∀ p ∈ q :: qs, ∀ d ∈ p, d ∈ cs := fun p hq => ih (hp ▸ hq)
          rw [hp] at h
          by_cases hc : c = sep
          · simp only [hc, if_true, List.mem_cons] at h
            rcases h with rfl | h
            · simp
            · exact fun d hd => List.mem_cons_of_mem _ (ih p (List.mem_cons.mpr h) d hd)
          · simp only [hc, if_false, List.mem_cons] at h
            rcases h with rfl | h
            · intro d hd
              rcases List.mem_cons.mp hd with rfl | hd
              · exact List.mem_cons_self
              · exact List.mem_cons_of_mem _ (ih q List.mem_cons_self d hd)
            · exact fun d hd => List.mem_cons_of_mem _ (ih p (List.mem_cons_of_mem _ h) d hd)

theorem join_cons_cons (sep s t : String) (r : List String) :
    join sep (s :: t :: r) = s ++ sep ++ join sep (t :: r) := rfl

/-- Joining pieces that hold no separator and cutting again gives the pieces. -/
theorem split_join {sep : Char} {ps : List String} (hne : ps ≠ [])
    (h : ∀ p ∈ ps, sep ∉ p.toList) : split (join (String.ofList [sep]) ps) sep = ps := by
  induction ps with
  | nil => exact absurd rfl hne
  | cons p ps ih =>
      cases ps with
      | nil => exact split_of_not_mem (h p (by simp))
      | cons q qs =>
          have ih := ih (by simp) fun x hx => h x (List.mem_cons_of_mem _ hx)
          rw [split] at ih ⊢
          rw [join_cons_cons, String.toList_append, String.toList_append, String.toList_ofList,
            List.append_assoc, List.singleton_append, pieces_append_cons, List.map_append, ih,
            pieces_of_not_mem (h p (by simp))]
          simp

theorem join_append_cons (sep s t : String) (r : List String) :
    join sep ((s ++ t) :: r) = s ++ join sep (t :: r) := by
  cases r with
  | nil => rfl
  | cons u r =>
      rw [join_cons_cons, join_cons_cons, String.append_assoc, String.append_assoc,
        String.append_assoc]

theorem join_pieces (sep : Char) (cs : List Char) :
    join (String.ofList [sep]) ((pieces sep cs).map String.ofList) = String.ofList cs := by
  have hcons : ∀ (c : Char) l, String.ofList (c :: l) = String.ofList [c] ++ String.ofList l :=
    fun c l => (String.ofList_append : String.ofList ([c] ++ l) = _)
  induction cs with
  | nil => rfl
  | cons c cs ih =>
      rw [pieces, hcons c cs, ← ih]
      cases hp : pieces sep cs with
      | nil => exact absurd hp (pieces_ne_nil sep cs)
      | cons p ps =>
          dsimp only
          split
          · rename_i h
            rw [h, List.map_cons, List.map_cons, join_cons_cons, String.ofList_nil,
              String.empty_append]
          · rw [List.map_cons, hcons c p, join_append_cons]
            rfl

/-- Cutting a text and joining the pieces again gives the text. -/
theorem join_split (s : String) (sep : Char) : join (String.ofList [sep]) (split s sep) = s := by
  rw [split, join_pieces, String.ofList_toList]

/-- The pieces of a text are those that hold no separator and joined give the text. -/
theorem split_eq_iff {s : String} {sep : Char} {ps : List String} : split s sep = ps ↔
    ps ≠ [] ∧ (∀ p ∈ ps, sep ∉ p.toList) ∧ join (String.ofList [sep]) ps = s := by
  constructor
  · rintro rfl
    refine ⟨?_, fun p hp => ?_, join_split s sep⟩
    · rw [split, ne_eq, List.map_eq_nil_iff]
      exact pieces_ne_nil sep s.toList
    · obtain ⟨q, hq, rfl⟩ := List.mem_map.mp hp
      rw [String.toList_ofList]
      exact not_mem_of_mem_pieces hq
  · rintro ⟨hne, h, rfl⟩
    exact split_join hne h

theorem split_append (a b : String) (sep : Char) :
    split (a ++ String.ofList [sep] ++ b) sep = split a sep ++ split b sep := by
  simp [split, pieces_append_cons]

end Readiness.Text
