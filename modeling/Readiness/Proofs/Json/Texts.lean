import Readiness.Json.Reader
import Readiness.Json.Writer

/-!
# Json — tables of texts

A table whose values are all texts, written and read again.

* `readString_quote`: a string between its quotes is read back, whatever characters it has.
* `readInput_pretty`: so is a table of texts, with nothing left over.
-/

namespace Readiness.Json

/-- The input a string is. -/
def scan (s : String) : Input := s.toList.map some

theorem scan_append (s t : String) : scan (s ++ t) = scan s ++ scan t := by
  simp [scan, String.toList_append]

/-! ### Strings -/

theorem hexDigit?_hexDigit : ∀ n : Fin 16, hexDigit? (hexDigit n) = some n.val := by decide

theorem unit?_hexDigits {n : Nat} (h : n < 0x20) :
    unit? (some '0') (some '0') (some (hexDigit (n / 16))) (some (hexDigit (n % 16))) = some n := by
  have h₁ := hexDigit?_hexDigit ⟨n / 16, by omega⟩
  have h₂ := hexDigit?_hexDigit ⟨n % 16, by omega⟩
  have h₀ : hexDigit? '0' = some 0 := by decide
  simp only [unit?, Option.bind_eq_bind, Option.bind_some, h₀, h₁, h₂]
  exact congrArg some (by omega)

/-- A character that needs no escape stands for itself. -/
theorem readString_plain {c : Char} (hq : c ≠ '"') (hb : c ≠ '\\') (hc : ¬ c.toNat < 0x20)
    (s : Spelled) (rest : Input) :
    readString s (some c :: rest) = readString (s.push c) rest := by
  rw [readString]
  case x_1 => exact hq
  case x_2 => exact fun _ _ _ _ _ _ => hb
  case x_3 => exact fun _ _ _ => hb
  have hp : ¬ (decide (c.toNat < 0x20) || c == '\\') = true := by simp [hc, hb]
  rw [if_neg hp]

/-- One written character is read as that character. -/
theorem readString_escape (s : Spelled) (c : Char) (rest : Input) :
    readString s ((escape c).map some ++ rest) = readString (s.push c) rest := by
  rw [escape]
  by_cases h₁ : c = '"'
  · subst h₁; rfl
  by_cases h₂ : c = '\\'
  · subst h₂; rfl
  by_cases h₃ : c = '\n'
  · subst h₃; rfl
  by_cases h₄ : c = '\r'
  · subst h₄; rfl
  by_cases h₅ : c = '\t'
  · subst h₅; rfl
  by_cases h₆ : c = '\x08'
  · subst h₆; rfl
  by_cases h₇ : c = '\x0C'
  · subst h₇; rfl
  rw [if_neg h₁, if_neg h₂, if_neg h₃, if_neg h₄, if_neg h₅, if_neg h₆, if_neg h₇]
  by_cases h₈ : c.toNat < 0x20
  · rw [if_pos h₈]
    simp only [List.map_cons, List.map_nil, List.cons_append, List.nil_append]
    rw [readString, unit?_hexDigits h₈]
    have hs : ¬ (0xD800 ≤ c.toNat ∧ c.toNat < 0xDC00) := by omega
    have hl : ¬ (0xDC00 ≤ c.toNat ∧ c.toNat < 0xE000) := by omega
    simp only [Spelled.pushUnit, Bool.and_eq_true, decide_eq_true_eq, if_neg hs, if_neg hl,
      Char.ofNat_toNat]
  · rw [if_neg h₈]
    simp only [List.map_cons, List.map_nil, List.cons_append, List.nil_append]
    exact readString_plain h₁ h₂ h₈ s rest

/-- Written characters and the closing quote are read as these characters. -/
theorem readString_chars (cs : List Char) (s : Spelled) (hv : s.valid = true)
    (hh : s.high = none) (rest : Input) :
    readString s ((cs.flatMap escape).map some ++ some '"' :: rest) =
      some (some (String.ofList (s.chars.reverse ++ cs)), rest) := by
  induction cs generalizing s with
  | nil =>
      show readString s (some '"' :: rest) = _
      rw [readString, Spelled.text?]
      simp [hv, hh]
  | cons c cs ih =>
      rw [List.flatMap_cons, List.map_append, List.append_assoc, readString_escape,
        ih (s.push c) (by simp [Spelled.push, hv, hh]) rfl]
      simp [Spelled.push]

theorem scan_quote (s : String) :
    scan (quote s) = some '"' :: ((s.toList.flatMap escape).map some ++ [some '"']) := by
  simp [scan, quote, quoteChars]

/-- A string between its quotes is read back. -/
theorem readString_quote (s : String) (rest : Input) :
    readString {} ((s.toList.flatMap escape).map some ++ some '"' :: rest) =
      some (some s, rest) := by
  rw [readString_chars _ _ rfl rfl]
  simp

theorem readValue_quote (fuel : Nat) (s : String) (rest : Input) :
    readValue (fuel + 1) (some ' ' :: (scan (quote s) ++ rest)) = (.text (some s), some rest) := by
  have hs : skipBlanks (some ' ' :: (scan (quote s) ++ rest)) =
      some '"' :: ((s.toList.flatMap escape).map some ++ some '"' :: rest) := by
    rw [scan_quote]; simp [skipBlanks, isBlank]
  rw [readValue, hs]
  simp [readString_quote]

/-! ### Members -/

/-- Members whose values are texts. -/
def texts (ms : List (String × String)) : List (String × Document) :=
  ms.map fun m => (m.1, .text m.2)

/-- What they are read as. -/
def readings (ms : List (String × String)) : List (String × Reading) :=
  ms.map fun m => (m.1, .text (some m.2))

theorem skipBlanks_newline (level : Nat) (cs : Input) :
    skipBlanks (scan (newline level) ++ cs) = skipBlanks cs := by
  have hb : ∀ n : Nat, skipBlanks ((List.replicate n ' ').map some ++ cs) = skipBlanks cs := by
    intro n
    induction n with
    | zero => rfl
    | succ n ih => rw [List.replicate_succ, List.map_cons, List.cons_append]; exact ih
  have hn : scan (newline level) = some '\n' :: (List.replicate (2 * level) ' ').map some := by
    simp [scan, newline]
  rw [hn, List.cons_append]
  exact hb _

theorem skipBlanks_quote (s : String) (rest : Input) :
    skipBlanks (scan (quote s) ++ rest) = scan (quote s) ++ rest := by
  rw [scan_quote]; rfl

theorem scan_comma : scan "," = [some ','] := rfl

theorem scan_colon : scan ": " = [some ':', some ' '] := rfl

/-- A member, the members after it and the closing brace. -/
theorem readMembers_texts (level : Nat) (ms : List (String × String)) (k v : String)
    (rest : Input) (fuel : Nat) (hf : ms.length + 2 ≤ fuel) {cs : Input}
    (hcs : skipBlanks cs = scan (quote k) ++ (some ':' :: some ' ' :: (scan (quote v) ++
      (scan (prettyMembers (level + 1) (texts ms)) ++
        (scan (newline level) ++ some '\x7d' :: rest))))) :
    readMembers fuel cs = (readings ((k, v) :: ms), some rest) := by
  induction ms generalizing k v fuel cs with
  | nil =>
      obtain ⟨fuel, rfl⟩ : ∃ n, fuel = n + 2 := ⟨fuel - 2, by simp at hf; omega⟩
      have hn : scan (prettyMembers (level + 1) (texts [])) = [] := rfl
      rw [readMembers, hcs, scan_quote]
      simp only [List.cons_append, List.append_assoc, List.nil_append, readString_quote]
      rw [show ∀ r, skipBlanks (some ':' :: r) = some ':' :: r from fun r => rfl]
      simp only [readValue_quote, hn, List.nil_append, skipBlanks_newline]
      rfl
  | cons m ms ih =>
      obtain ⟨fuel, rfl⟩ : ∃ n, fuel = n + 2 := ⟨fuel - 2, by omega⟩
      have hm : scan (prettyMembers (level + 1) (texts (m :: ms))) =
          some ',' :: (scan (newline (level + 1)) ++ (scan (quote m.1) ++ (some ':' :: some ' ' ::
            (scan (quote m.2) ++ scan (prettyMembers (level + 1) (texts ms)))))) := by
        rw [texts, List.map_cons, prettyMembers, prettyAt]
        simp only [scan_append, scan_comma, scan_colon, List.append_assoc, List.cons_append,
          List.nil_append]
        rfl
      rw [readMembers, hcs, scan_quote]
      simp only [List.cons_append, List.append_assoc, List.nil_append, readString_quote]
      rw [show ∀ r, skipBlanks (some ':' :: r) = some ':' :: r from fun r => rfl]
      simp only [readValue_quote, hm, List.cons_append, List.append_assoc]
      rw [show ∀ r, skipBlanks (some ',' :: r) = some ',' :: r from fun r => rfl]
      simp only
      rw [ih m.1 m.2 (fuel + 1) (by simp at hf; omega)
        (by rw [skipBlanks_newline, skipBlanks_quote])]
      rfl

/-- An open brace before a string begins a table with members. -/
theorem readValue_open {fuel : Nat} {r r' : Input} (h : skipBlanks r = some '"' :: r') :
    readValue (fuel + 1) (some '\x7b' :: r) =
      (.table (readMembers fuel (some '"' :: r')).1 (readMembers fuel (some '"' :: r')).2.isSome,
        (readMembers fuel (some '"' :: r')).2) := by
  rw [readValue, show skipBlanks (some '\x7b' :: r) = some '\x7b' :: r from rfl]
  simp only [h]
  rfl

/-- A table of texts is read back from its text, and nothing is left over. -/
theorem readInput_pretty (m : String × String) (ms : List (String × String)) :
    readInput (scan (pretty (.table (texts (m :: ms))))) =
      (.table (readings (m :: ms)) true, true) := by
  have hp : scan (pretty (.table (texts (m :: ms)))) =
      some '\x7b' :: (scan (newline 1) ++ (scan (quote m.1) ++ (some ':' :: some ' ' ::
        (scan (quote m.2) ++ (scan (prettyMembers 1 (texts ms)) ++
          (scan (newline 0) ++ [some '\x7d'])))))) := by
    have hb : scan "\x7b" = [some '\x7b'] := rfl
    have he : scan "\x7d" = [some '\x7d'] := rfl
    rw [pretty, texts, List.map_cons, prettyAt, prettyAt]
    simp only [scan_append, scan_colon, hb, he, List.append_assoc, List.cons_append,
      List.nil_append]
    rfl
  have hl : ms.length ≤ (scan (prettyMembers 1 (texts ms))).length := by
    clear hp
    induction ms with
    | nil => exact Nat.zero_le _
    | cons m ms ih =>
        rw [texts, List.map_cons, prettyMembers]
        simp only [scan_append, List.length_append, List.length_cons]
        have : (scan ",").length = 1 := rfl
        rw [texts] at ih
        omega
  have hfuel : ∃ n, 2 * (scan (pretty (.table (texts (m :: ms))))).length + 2 = n + 1 ∧
      ms.length + 2 ≤ n := by
    refine ⟨_, rfl, ?_⟩
    rw [hp]
    simp only [List.length_cons, List.length_append]
    omega
  obtain ⟨n, hn, hle⟩ := hfuel
  have key := readMembers_texts 0 ms m.1 m.2 [] n hle (skipBlanks_quote m.1 _)
  rw [scan_quote m.1, List.cons_append, Nat.zero_add] at key
  rw [readInput, hn, hp, readValue_open (r := _ ++ _) (by
    rw [skipBlanks_newline, skipBlanks_quote, scan_quote m.1, List.cons_append]), key]
  rfl

end Readiness.Json
