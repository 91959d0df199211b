import Readiness.Toml.Reader
import Readiness.Toml.Writer

/-!
# Toml — strings

A string is written in one of five forms, and each of them is read back.

* `readContent_escape`: one written character of a basic string.
* `readContent_line`, `readContent_bare`: the content of a string on one line.
* `readContent_lines`, `readContent_bareLines`: the content of a string on several lines, where up
  to two quotes in a row stand for themselves.
* `readString_quoteChars`: a string between its quotes.
-/

namespace Readiness.Toml

open Json (hexDigit?)

/-! ### Single characters -/

theorem hexDigit?_upperHex : ∀ n : Fin 16, hexDigit? (upperHex n) = some n.val := by decide

/-- The escape of a control character is read as the character. -/
theorem readScalar_upperHex {c : Char} (h : c.toNat < 0x80) (r : List Char) :
    readScalar 4 ('0' :: '0' :: upperHex (c.toNat / 16) :: upperHex (c.toNat % 16) :: r) =
      some (c, r) := by
  have h₁ := hexDigit?_upperHex ⟨c.toNat / 16, by omega⟩
  have h₂ := hexDigit?_upperHex ⟨c.toNat % 16, by omega⟩
  have h₀ : hexDigit? '0' = some 0 := by decide
  have hn : c.toNat / 16 * 16 + c.toNat % 16 = c.toNat := by omega
  have hv : c.toNat.isValidChar := c.valid
  simp [readScalar, h₀, h₁, h₂, hn, hv]

theorem lt_of_isControl {c : Char} (h : isControl c = true) : c.toNat < 0x80 := by
  simp only [isControl, Bool.or_eq_true, Bool.and_eq_true, decide_eq_true_eq, beq_iff_eq] at h
  rcases h with ⟨⟨h, -⟩, -⟩ | rfl
  · omega
  · decide

theorem isPrintable_of_not_isControl {c : Char} (h : isControl c = false) (hn : c ≠ '\n') :
    isPrintable c = true := by
  simp only [isControl, Bool.or_eq_false_iff, beq_eq_false_iff_ne] at h
  by_cases ht : c = '\t'
  · subst ht; decide
  · have hd : c.toNat ≠ 0x7F := fun hd => h.2 (Char.toNat_inj.mp hd)
    have hl : ¬ c.toNat < 0x20 := by simpa [ht, hn] using h.1
    simp only [isPrintable, Bool.or_eq_true, Bool.and_eq_true, decide_eq_true_eq, bne_iff_ne]
    exact .inr ⟨by omega, hd⟩

section Content

variable {q : Quoting} {c : Char} (fuel : Nat) (acc r : List Char)

/-- A character that can be printed stands for itself. -/
theorem readContent_plain (hq : c ≠ q.quote) (hb : ¬ (c = '\\' ∧ q.escapes = true))
    (hp : isPrintable c = true) :
    readContent (fuel + 1) q acc (c :: r) = readContent fuel q (c :: acc) r := by
  rw [readContent, if_neg hq, if_neg hb]
  simp only [hp, if_true, ite_self]

theorem readContent_newline (hq : '\n' ≠ q.quote) (hm : q.multiline = true) :
    readContent (fuel + 1) q acc ('\n' :: r) = readContent fuel q ('\n' :: acc) r := by
  rw [readContent, if_neg hq, if_neg (by simp), if_pos ⟨rfl, hm⟩]

/-- One written character of a basic string is read as that character. -/
theorem readContent_escape (c : Char) (m : Bool) :
    readContent (fuel + 1) ⟨'"', true, m⟩ acc (escape c ++ r) =
      readContent fuel ⟨'"', true, m⟩ (c :: acc) r := by
  rw [escape]
  by_cases h₁ : c = '\x08'
  · subst h₁; rfl
  by_cases h₂ : c = '\t'
  · subst h₂; rfl
  by_cases h₃ : c = '\n'
  · subst h₃; rfl
  by_cases h₄ : c = '\x0C'
  · subst h₄; rfl
  by_cases h₅ : c = '\r'
  · subst h₅; rfl
  by_cases h₆ : c = '"'
  · subst h₆; rfl
  by_cases h₇ : c = '\\'
  · subst h₇; rfl
  rw [if_neg h₁, if_neg h₂, if_neg h₃, if_neg h₄, if_neg h₅, if_neg h₆, if_neg h₇]
  by_cases h₈ : isControl c = true
  · rw [if_pos h₈]
    have hs := readScalar_upperHex (lt_of_isControl h₈) r
    simp only [List.cons_append, List.nil_append]
    rw [readContent, if_neg (by decide : ¬ '\\' = '"'), if_pos ⟨rfl, rfl⟩, readEscape, hs]
  · rw [if_neg h₈]
    exact readContent_plain fuel acc r h₆ (fun h => h₇ h.1)
      (isPrintable_of_not_isControl (eq_false_of_ne_true h₈) h₃)

end Content

/-! ### Content on one line -/

theorem readContent_line (cs : List Char) {fuel : Nat} (h : cs.length < fuel)
    (acc rest : List Char) :
    readContent fuel ⟨'"', true, false⟩ acc (escapeLine cs ++ '"' :: rest) =
      some (cs.reverse ++ acc, rest) := by
  induction cs generalizing fuel acc with
  | nil =>
      obtain ⟨fuel, rfl⟩ := Nat.exists_eq_add_one_of_ne_zero (Nat.ne_zero_of_lt h)
      rfl
  | cons c cs ih =>
      obtain ⟨fuel, rfl⟩ := Nat.exists_eq_add_one_of_ne_zero (Nat.ne_zero_of_lt h)
      rw [escapeLine, List.flatMap_cons, List.append_assoc, readContent_escape,
        ← escapeLine, ih (Nat.lt_of_succ_lt_succ h)]
      simp

theorem readContent_bare {cs : List Char} (hc : cs.any isControl = false) (hn : '\n' ∉ cs)
    (hq : '\'' ∉ cs) {fuel : Nat} (h : cs.length < fuel) (acc rest : List Char) :
    readContent fuel ⟨'\'', false, false⟩ acc (cs ++ '\'' :: rest) =
      some (cs.reverse ++ acc, rest) := by
  induction cs generalizing fuel acc with
  | nil =>
      obtain ⟨fuel, rfl⟩ := Nat.exists_eq_add_one_of_ne_zero (Nat.ne_zero_of_lt h)
      rfl
  | cons c cs ih =>
      obtain ⟨fuel, rfl⟩ := Nat.exists_eq_add_one_of_ne_zero (Nat.ne_zero_of_lt h)
      rw [List.any_cons, Bool.or_eq_false_iff] at hc
      rw [List.mem_cons, not_or] at hn hq
      rw [List.cons_append, readContent_plain _ _ _ (Ne.symm hq.1) (by simp)
        (isPrintable_of_not_isControl hc.1 (Ne.symm hn.1)),
        ih hc.2 hn.2 hq.2 (Nat.lt_of_succ_lt_succ h)]
      simp

/-! ### Content on several lines -/

/-- In front of the closing quotes up to two more are content; elsewhere they close nothing. -/
theorem closing_lines {q : Char} {e : Bool} {w rest : List Char}
    (hw : (w.takeWhile (· == q)).length ≤ 2) (hr : rest.head? ≠ some q) :
    closing ⟨q, e, true⟩ (w ++ q :: q :: q :: rest) =
      if w.all (· == q) then some (w.length, rest) else none := by
  have hrest : rest.takeWhile (· == q) = [] := by
    cases rest with
    | nil => rfl
    | cons c rest => rw [List.takeWhile_cons, if_neg]; simpa using hr
  unfold closing
  dsimp only
  rw [if_neg (by simp), List.takeWhile_append]
  by_cases ha : w.all (· == q) = true
  · have hall : w.takeWhile (· == q) = w := by
      rw [← List.append_nil w, List.takeWhile_append_of_pos (List.all_eq_true.mp ha)]; simp
    rw [hall] at hw ⊢
    have hlen : (w ++ [q, q, q]).length = w.length + 3 := by simp
    have hdrop : (w ++ q :: q :: q :: rest).drop (w.length + 3) = rest := by
      rw [List.drop_append]; simp
    have h₁ : ¬ w.length + 3 < 3 := by omega
    have h₂ : min (w.length + 3 - 3) 2 = w.length := by omega
    have h₃ : min (w.length + 3) 5 = w.length + 3 := by omega
    rw [Nat.add_sub_cancel] at h₂
    simp [hrest, ha, hlen, h₂, h₃, hdrop]
  · have hlt : (w.takeWhile (· == q)).length ≠ w.length := fun h =>
      ha (List.all_eq_true.mpr fun c hc => by
        rw [← (List.takeWhile_prefix (· == q)).eq_of_length h] at hc
        exact List.all_eq_true.mp List.all_takeWhile c hc)
    rw [if_neg hlt, if_neg ha, if_pos (by omega)]

/-- The text is all quotes. -/
theorem eq_replicate_of_all {w : List Char} {c : Char} (h : w.all (· == c) = true) :
    w = List.replicate w.length c :=
  List.eq_replicate_iff.mpr ⟨rfl, fun d hd => by simpa using List.all_eq_true.mp h d hd⟩

/-- No escape begins with a quote or the end of a line. -/
theorem escape_eq_cons (c : Char) :
    ∃ d ds, escape c = d :: ds ∧ d ≠ '"' ∧ d ≠ '\n' ∧ d ≠ '\r' := by
  unfold escape
  repeat' split
  all_goals first
    | exact ⟨_, _, rfl, by decide, by decide, by decide⟩
    | exact ⟨c, [], rfl, ‹_›, ‹_›, ‹_›⟩

theorem takeWhile_escapeLines (cs : List Char) {run : Nat} (h : run ≤ 2) :
    ((escapeLines run cs).takeWhile (· == '"')).length ≤ 2 - run := by
  induction cs generalizing run with
  | nil => simp [escapeLines]
  | cons c cs ih =>
      rw [escapeLines]
      split
      · split
        · simp
        · have := @ih (run + 1) (by omega)
          simp only [List.takeWhile_cons, beq_self_eq_true, if_true, List.length_cons]
          omega
      · rename_i hc
        split
        · simp
        · obtain ⟨d, ds, he, hd, -⟩ := escape_eq_cons c
          simp [he, hd]

/-- Quotes that need no escape are written as they are. -/
theorem escapeLines_of_all (cs : List Char) {run : Nat}
    (h : (escapeLines run cs).all (· == '"') = true) : escapeLines run cs = cs := by
  induction cs generalizing run with
  | nil => rfl
  | cons c cs ih =>
      rw [escapeLines] at h ⊢
      split
      · rename_i hc
        subst hc
        rw [if_pos rfl] at h
        split
        · rename_i hr
          simp [hr] at h
        · rename_i hr
          rw [if_neg hr, List.all_cons, Bool.and_eq_true] at h
          rw [ih h.2]
      · rename_i hc
        rw [if_neg hc] at h
        split
        · rename_i hn
          simp [hn] at h
        · rename_i hn
          obtain ⟨d, ds, he, hd, -⟩ := escape_eq_cons c
          simp [hn, he, hd] at h

theorem readContent_lines (cs : List Char) {run : Nat} (hrun : run ≤ 2) {fuel : Nat}
    (h : cs.length < fuel) (acc : List Char) {rest : List Char} (hr : rest.head? ≠ some '"') :
    readContent fuel ⟨'"', true, true⟩ acc (escapeLines run cs ++ '"' :: '"' :: '"' :: rest) =
      some (cs.reverse ++ acc, rest) := by
  induction cs generalizing run fuel acc with
  | nil =>
      obtain ⟨fuel, rfl⟩ := Nat.exists_eq_add_one_of_ne_zero (Nat.ne_zero_of_lt h)
      have hclose := closing_lines (e := true) (w := []) (by simp) hr
      rw [List.nil_append] at hclose
      rw [escapeLines, List.nil_append, readContent, if_pos rfl, hclose]
      rfl
  | cons c cs ih =>
      obtain ⟨fuel, rfl⟩ := Nat.exists_eq_add_one_of_ne_zero (Nat.ne_zero_of_lt h)
      have hlt := Nat.lt_of_succ_lt_succ h
      by_cases hc : c = '"'
      · subst hc
        by_cases h₂ : run = 2
        · -- the third quote in a row is escaped
          rw [escapeLines, if_pos rfl, if_pos h₂, List.cons_append, List.cons_append]
          exact (readContent_escape fuel acc _ '"' true).trans
            ((ih (Nat.zero_le 2) hlt ('"' :: acc)).trans (by simp))
        · have hclose := closing_lines (e := true)
            (Nat.le_trans (takeWhile_escapeLines ('"' :: cs) hrun) (Nat.sub_le 2 run)) hr
          have hall := @escapeLines_of_all ('"' :: cs) run
          have hw : escapeLines run ('"' :: cs) = '"' :: escapeLines (run + 1) cs := by
            rw [escapeLines, if_pos rfl, if_neg h₂]
          rw [hw] at hclose hall ⊢
          rw [List.cons_append] at hclose ⊢
          rw [readContent, if_pos rfl, hclose]
          split
          · rename_i ha
            split at ha
            · -- the quotes at the end come together
              rename_i hq
              cases ha
              have he := eq_replicate_of_all hq
              rw [hall hq] at he ⊢
              rw [he, List.reverse_replicate, List.length_replicate]
            · cases ha
          · exact (ih (by omega) hlt ('"' :: acc)).trans (by simp)
      · by_cases hn : c = '\n'
        · subst hn
          rw [escapeLines, if_neg hc, if_pos rfl, List.cons_append,
            readContent_newline _ _ _ (by decide) rfl, ih (Nat.zero_le 2) hlt]
          simp
        · rw [escapeLines, if_neg hc, if_neg hn, List.append_assoc, readContent_escape,
            ih (Nat.zero_le 2) hlt]
          simp

theorem le_longestRun (q : Char) (cs : List Char) (run : Nat) :
    run + (cs.takeWhile (· == q)).length ≤ longestRun q run cs := by
  induction cs generalizing run with
  | nil => simp [longestRun]
  | cons c cs ih =>
      rw [longestRun]
      split
      · rename_i hc
        have := ih (run + 1)
        simp only [hc, List.takeWhile_cons, beq_self_eq_true, if_true, List.length_cons]
        omega
      · rename_i hc
        rw [List.takeWhile_cons, if_neg (by simpa using hc)]
        exact Nat.le_max_left _ _

theorem longestRun_tail (q c : Char) (cs : List Char) (run : Nat) :
    longestRun q 0 cs ≤ longestRun q run (c :: cs) := by
  have mono : ∀ (cs : List Char) {m n : Nat}, m ≤ n → longestRun q m cs ≤ longestRun q n cs := by
    intro cs
    induction cs with
    | nil => exact id
    | cons d cs ih =>
        intro m n h
        rw [longestRun, longestRun]
        split
        · exact ih (by omega)
        · omega
  rw [longestRun]
  split
  · exact mono cs (Nat.zero_le _)
  · exact Nat.le_max_right _ _

theorem readContent_bareLines {cs : List Char} (hc : cs.any isControl = false)
    (hl : longestRun '\'' 0 cs ≤ 2) {fuel : Nat} (h : cs.length < fuel) (acc : List Char)
    {rest : List Char} (hr : rest.head? ≠ some '\'') :
    readContent fuel ⟨'\'', false, true⟩ acc (cs ++ '\'' :: '\'' :: '\'' :: rest) =
      some (cs.reverse ++ acc, rest) := by
  induction cs generalizing fuel acc with
  | nil =>
      obtain ⟨fuel, rfl⟩ := Nat.exists_eq_add_one_of_ne_zero (Nat.ne_zero_of_lt h)
      have hclose := closing_lines (e := false) (w := []) (by simp) hr
      rw [List.nil_append] at hclose
      rw [List.nil_append, readContent, if_pos rfl, hclose]
      rfl
  | cons c cs ih =>
      obtain ⟨fuel, rfl⟩ := Nat.exists_eq_add_one_of_ne_zero (Nat.ne_zero_of_lt h)
      have hlt := Nat.lt_of_succ_lt_succ h
      have hclose := closing_lines (e := false) (w := c :: cs)
        (Nat.le_trans (by simpa using le_longestRun '\'' (c :: cs) 0) hl) hr
      rw [List.any_cons, Bool.or_eq_false_iff] at hc
      have ih := ih hc.2 (Nat.le_trans (longestRun_tail '\'' c cs 0) hl) hlt (c :: acc)
      rw [List.cons_append] at hclose ⊢
      by_cases hq : c = '\''
      · subst hq
        rw [readContent, if_pos rfl, hclose]
        split
        · rename_i ha
          split at ha
          · rename_i hq
            cases ha
            rw [eq_replicate_of_all hq, List.reverse_replicate, List.length_replicate]
          · cases ha
        · exact ih.trans (by simp)
      · by_cases hn : c = '\n'
        · subst hn
          rw [readContent_newline _ _ _ (by decide) rfl, ih]
          simp
        · rw [readContent_plain _ _ _ hq (by simp) (isPrintable_of_not_isControl hc.1 hn), ih]
          simp

/-! ### Strings -/

theorem length_le_escapeLine (cs : List Char) : cs.length ≤ (escapeLine cs).length := by
  induction cs with
  | nil => exact Nat.le_refl 0
  | cons c cs ih =>
      obtain ⟨d, ds, he, -⟩ := escape_eq_cons c
      rw [escapeLine, List.flatMap_cons, ← escapeLine, he, List.length_append, List.length_cons,
        List.length_cons]
      omega

theorem length_le_escapeLines (cs : List Char) (run : Nat) :
    cs.length ≤ (escapeLines run cs).length := by
  induction cs generalizing run with
  | nil => exact Nat.le_refl 0
  | cons c cs ih =>
      obtain ⟨d, ds, he, -⟩ := escape_eq_cons c
      have h₀ := ih 0
      have h₁ := ih (run + 1)
      rw [escapeLines]
      split
      · split
        · simp only [List.length_cons]; omega
        · simp only [List.length_cons]; omega
      · split
        · simp only [List.length_cons]; omega
        · simp only [he, List.length_append, List.length_cons]; omega

theorem form_literal {cs : List Char} (h : form cs = .literal) :
    cs.any isControl = false ∧ '\n' ∉ cs ∧ '\'' ∉ cs := by
  unfold form at h
  dsimp only at h
  split at h
  · cases h
  · split at h
    · rename_i hl
      simpa [and_assoc] using hl
    · split at h
      · cases h
      · split at h <;> cases h

theorem form_literalLines {cs : List Char} (h : form cs = .literalLines) :
    cs.any isControl = false ∧ longestRun '\'' 0 cs ≤ 2 := by
  unfold form at h
  dsimp only at h
  split at h
  · cases h
  · split at h
    · cases h
    · split at h
      · cases h
      · split at h
        · rename_i hl
          simpa using hl
        · cases h

theorem readString_line {q : Char} (hq : q = '"' ∨ q = '\'') {r : List Char}
    (h : ∀ t, r ≠ q :: q :: t) : readString (q :: r) = readLineString (q :: r) := by
  rcases hq with rfl | rfl
  · unfold readString
    split
    · rename_i he; cases he; exact absurd rfl (h _)
    · rename_i he; cases he
    · rfl
  · unfold readString
    split
    · rename_i he; cases he
    · rename_i he; cases he; exact absurd rfl (h _)
    · rfl

/-- A basic string on one line. -/
theorem readString_basic (cs : List Char) {rest : List Char} (hd : rest.head? ≠ some '"') :
    readString ('"' :: escapeLine cs ++ ['"'] ++ rest) = some (String.ofList cs, rest) := by
  have hr : ('"' :: escapeLine cs ++ ['"'] ++ rest) = '"' :: (escapeLine cs ++ '"' :: rest) := by
    simp
  rw [hr, readString_line (.inl rfl), readLineString, readLineString.content,
    readContent_line cs (by have := length_le_escapeLine cs; simp; omega)]
  · simp
  · intro t ht
    cases cs with
    | nil => cases ht; exact hd rfl
    | cons c cs =>
        obtain ⟨d, ds, he, hne, -⟩ := escape_eq_cons c
        rw [escapeLine, List.flatMap_cons, he] at ht
        exact hne (List.cons.inj ht).1

/-- A literal string on one line. -/
theorem readString_literal {cs rest : List Char} (hc : cs.any isControl = false)
    (hn : '\n' ∉ cs) (hq : '\'' ∉ cs) (hs : rest.head? ≠ some '\'') :
    readString ('\'' :: cs ++ ['\''] ++ rest) = some (String.ofList cs, rest) := by
  have hr : ('\'' :: cs ++ ['\''] ++ rest) = '\'' :: (cs ++ '\'' :: rest) := by simp
  rw [hr, readString_line (.inr rfl), readLineString, readLineString.content,
    readContent_bare hc hn hq (by rw [List.length_append]; omega)]
  · simp
  · intro t ht
    cases cs with
    | nil => cases ht; exact hs rfl
    | cons c cs => exact hq ((List.cons.inj ht).1 ▸ List.mem_cons_self)

/-- What stands between the quotes of a string on several lines. -/
def opened (cs content : List Char) : List Char :=
  (if cs.contains '\n' then ['\n'] else []) ++ content

theorem dropNewline_opened {cs content : List Char}
    (h : '\n' ∉ cs → content.head? ≠ some '\n' ∧ content.head? ≠ some '\r') (hc : content ≠ []) :
    dropNewline (opened cs content) = content := by
  unfold opened
  split
  · rfl
  · rename_i hn
    obtain ⟨h₁, h₂⟩ := h (by simpa using hn)
    cases content with
    | nil => exact absurd rfl hc
    | cons d ds =>
        rw [List.nil_append]
        unfold dropNewline
        split
        · rename_i he; cases he; exact absurd rfl h₁
        · rename_i he; cases he; exact absurd rfl h₂
        · rfl

/-- A basic string on several lines. -/
theorem readString_basicLines (cs : List Char) {rest : List Char} (hd : rest.head? ≠ some '"') :
    readString ('"' :: '"' :: '"' ::
      opened cs (escapeLines 0 cs ++ '"' :: '"' :: '"' :: rest)) =
      some (String.ofList cs, rest) := by
  rw [readString, dropNewline_opened, readString.content,
    readContent_lines cs (Nat.zero_le 2) (by have := length_le_escapeLines cs 0; simp; omega) _ hd]
  · simp
  · intro hn
    cases cs with
    | nil => simp [escapeLines]
    | cons c cs =>
        rw [List.mem_cons, not_or] at hn
        rw [escapeLines]
        split
        · simp
        · obtain ⟨d, ds, he, -, h₁, h₂⟩ := escape_eq_cons c
          rw [if_neg (Ne.symm hn.1), he]
          simp [h₁, h₂]
  · simp

/-- A literal string on several lines. -/
theorem readString_literalLines {cs rest : List Char} (hc : cs.any isControl = false)
    (hl : longestRun '\'' 0 cs ≤ 2) (hs : rest.head? ≠ some '\'') :
    readString ('\'' :: '\'' :: '\'' ::
      opened cs (cs ++ '\'' :: '\'' :: '\'' :: rest)) = some (String.ofList cs, rest) := by
  rw [readString, dropNewline_opened, readString.content,
    readContent_bareLines hc hl (by rw [List.length_append]; omega) _ hs]
  · simp
  · intro hn
    cases cs with
    | nil => simp
    | cons c cs =>
        rw [List.any_cons, Bool.or_eq_false_iff] at hc
        rw [List.mem_cons, not_or] at hn
        refine ⟨by simpa using Ne.symm hn.1, ?_⟩
        rintro h
        obtain rfl : c = '\r' := by simpa using h
        exact absurd hc.1 (by decide)
  · simp

/-- A string between its quotes is read back, unless another quote follows. -/
theorem readString_quoteChars (cs : List Char) {rest : List Char} (hd : rest.head? ≠ some '"')
    (hs : rest.head? ≠ some '\'') :
    readString (quoteChars cs ++ rest) = some (String.ofList cs, rest) := by
  unfold quoteChars
  dsimp only
  have hlines (q : Char) (content : List Char) :
      q :: q :: q :: (if cs.contains '\n' then ['\n'] else []) ++ content ++ [q, q, q] ++ rest =
        q :: q :: q :: opened cs (content ++ q :: q :: q :: rest) := by simp [opened]
  split
  · exact readString_basic cs hd
  · rename_i h
    obtain ⟨hc, hn, hq⟩ := form_literal h
    exact readString_literal hc hn hq hs
  · rw [hlines]
    exact readString_basicLines cs hd
  · rename_i h
    obtain ⟨hc, hl⟩ := form_literalLines h
    rw [hlines]
    exact readString_literalLines hc hl hs
  · by_cases hn : cs.contains '\n' = true
    · rw [if_pos hn, hlines]
      exact readString_basicLines cs hd
    · rw [if_neg hn]
      exact readString_basic cs hd

end Readiness.Toml
