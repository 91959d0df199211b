import Mathlib.Data.List.Forall2
import Readiness.Document.Basic
import Readiness.Proofs.Text.Cutting

/-!
# Document — what a dotted key leads to

A key is cut at its dots, and each segment is one step down: in a table the key of a member, in a
list the position of an item.  So one text can be a key in one place and a position in another.

* `Text.Numeral`, `Text.natural?_eq_some`: the texts that are read as numbers.
* `Document.Reaches`: the values below a value, by the steps that lead to them.
* `Document.Names`, `Document.child?_eq_some`: the steps that a segment can be.
* `Document.follow_eq_some`, `Document.lookup_resolves`: a key leads where its segments do.
-/

namespace Readiness

/-! ### Numerals -/

namespace Text

/-- The digits of a number, perhaps with zeros in front. -/
structure Digits (ds : List Char) (n : Nat) : Prop where
  ne_nil : ds ≠ []
  isDigit : ∀ c ∈ ds, c.isDigit = true
  value : Nat.ofDigitChars 10 ds 0 = n

/-- The text is the number: its digits, perhaps behind a plus sign. -/
def Numeral (cs : List Char) (n : Nat) : Prop := ∃ ds, (cs = ds ∨ cs = '+' :: ds) ∧ Digits ds n

theorem digits_toDigits (n : Nat) : Digits (Nat.toDigits 10 n) n where
  ne_nil := Nat.toDigits_ne_nil
  isDigit _ h := Nat.isDigit_of_mem_toDigits (by decide) (by decide) h
  value := Nat.ofDigitChars_ten_toDigits

theorem numeral_toString (n : Nat) : Numeral (toString n).toList n :=
  ⟨_, .inl (by rw [Nat.toString_eq_repr, Nat.toList_repr]), digits_toDigits n⟩

/-- The texts that are read as a number up to a bound are the numerals of that number. -/
theorem natural?_eq_some {max n : Nat} {cs : List Char} :
    natural? max cs = some n ↔ Numeral cs n ∧ n ≤ max := by
  have value : ∀ ds : List Char, ds.foldl (fun n c => n * 10 + (c.toNat - '0'.toNat)) 0 =
      Nat.ofDigitChars 10 ds 0 := fun ds => by
    simp only [Nat.ofDigitChars_eq_foldl, Nat.mul_comm]
  unfold natural?
  dsimp only
  generalize hds : (if cs.head? = some '+' then cs.tail else cs) = ds
  rw [value]
  constructor
  · intro h
    rw [Option.ite_none_left_eq_some, Option.ite_none_right_eq_some] at h
    obtain ⟨hd, hn, h⟩ := h
    obtain rfl := Option.some.inj h
    have hd : ds ≠ [] ∧ ∀ c ∈ ds, c.isDigit = true := by simpa using hd
    refine ⟨⟨ds, ?_, hd.1, hd.2, rfl⟩, hn⟩
    split at hds
    · rename_i hs
      exact .inr (hds ▸ (List.cons_head?_tail hs).symm)
    · exact .inl hds
  · rintro ⟨⟨es, hcs, hd⟩, hn⟩
    obtain rfl : ds = es := by
      rcases hcs with rfl | rfl
      · -- a digit is no sign
        rw [← hds, if_neg fun hs => ?_]
        have := hd.isDigit '+' (List.mem_of_mem_head? hs)
        simp at this
      · rw [← hds]
        rfl
    have hd' : ¬ (ds.isEmpty || !ds.all Char.isDigit) = true := by
      simpa using ⟨hd.ne_nil, hd.isDigit⟩
    rw [if_neg hd', hd.value, if_pos hn]

end Text

namespace Document

/-! ### The values below a value -/

/-- A step down from a value. -/
inductive Step where
  /-- To the member of a table with a key. -/
  | key (k : String)
  /-- To the item of a list at a position. -/
  | position (i : Nat)

/-- A step as it is written in a dotted key. -/
def Step.segment : Step → String
  | .key k => k
  | .position i => toString i

/-- The step leads from one value to the other. -/
inductive Down : Document → Step → Document → Prop where
  | member {ms : List (String × Document)} {k : String} {v : Document}
      (h : ms.lookup k = some v) : Down (.table ms) (.key k) v
  | item {xs : List Document} {i : Nat} {v : Document} (h : xs[i]? = some v) :
      Down (.list xs) (.position i) v

/-- The steps, one after the other, lead from one value to the other. -/
inductive Reaches : Document → List Step → Document → Prop where
  | here (d : Document) : Reaches d [] d
  | down {d v w : Document} {p : Step} {ps : List Step} (h : Down d p v) (t : Reaches v ps w) :
      Reaches d (p :: ps) w

/-- A segment can be the step: any text is a key, and a numeral is a position too. -/
inductive Names : String → Step → Prop where
  | key (k : String) : Names k (.key k)
  | position {s : String} {i : Nat} (h : Text.Numeral s.toList i) (hi : i < 2 ^ 64) :
      Names s (.position i)

/-! ### What a segment leads to -/

variable {d v w : Document} {key segment : String} {segments : List String} {steps : List Step}

theorem find?_key {α : Type} (ms : List (String × α)) (k : String) :
    (ms.find? fun m => m.1 == k).map (·.2) = ms.lookup k := by
  induction ms with
  | nil => rfl
  | cons m ms ih =>
      obtain ⟨l, a⟩ := m
      by_cases h : l = k
      · subst h; simp
      · have h' : (k == l) = false := by simpa using Ne.symm h
        rw [List.find?_cons_of_neg (by simpa using h), List.lookup_cons, h', ih]

theorem position?_eq_some {i : Nat} :
    position? segment.toList = some i ↔ Text.Numeral segment.toList i ∧ i < 2 ^ 64 := by
  rw [position?, Text.natural?_eq_some, positionMax]
  exact and_congr_right fun _ => by omega

/-- A segment leads where a step leads that it can be. -/
theorem child?_eq_some :
    d.child? segment = some v ↔ ∃ p, Names segment p ∧ Down d p v := by
  constructor
  · intro h
    cases d with
    | table ms => exact ⟨.key segment, .key segment, .member ((find?_key ms segment).symm.trans h)⟩
    | list xs =>
        obtain ⟨i, hi, hv⟩ := Option.bind_eq_some_iff.mp h
        obtain ⟨hn, hi⟩ := position?_eq_some.mp hi
        exact ⟨.position i, .position hn hi, .item hv⟩
    | null | bool | integer | float | text => cases h
  · rintro ⟨p, hn, hd⟩
    cases hd with
    | member h =>
        cases hn
        exact (find?_key _ _).trans h
    | item h =>
        cases hn with
        | position hn hi =>
            exact Option.bind_eq_some_iff.mpr ⟨_, position?_eq_some.mpr ⟨hn, hi⟩, h⟩

theorem follow_append (d : Document) (ss ts : List String) :
    d.follow (ss ++ ts) = (d.follow ss).bind fun w => w.follow ts := by
  induction ss generalizing d with
  | nil => rfl
  | cons s ss ih =>
      rw [List.cons_append, follow, follow, Option.bind_assoc]
      exact congrArg _ (funext ih)

/-- Segments lead where steps lead that they can be, each at its place. -/
theorem follow_eq_some : d.follow segments = some w ↔
    ∃ steps, List.Forall₂ Names segments steps ∧ Reaches d steps w := by
  induction segments generalizing d with
  | nil =>
      constructor
      · rintro ⟨⟩
        exact ⟨[], .nil, .here _⟩
      · rintro ⟨_, ⟨⟩, ⟨⟩⟩
        rfl
  | cons s ss ih =>
      rw [follow, Option.bind_eq_some_iff]
      simp only [child?_eq_some, ih]
      constructor
      · rintro ⟨v, ⟨p, hn, hd⟩, ps, hns, hr⟩
        exact ⟨p :: ps, .cons hn hns, .down hd hr⟩
      · rintro ⟨_, _ | ⟨hn, hns⟩, _ | ⟨hd, hr⟩⟩
        exact ⟨_, ⟨_, hn, hd⟩, _, hns, hr⟩

/-! ### Dotted keys -/

/-- The step can be written in a dotted key.  No list has so many items that a position could not
be. -/
def Step.Writable : Step → Prop
  | .key k => '.' ∉ k.toList
  | .position i => i < 2 ^ 64

theorem Step.Writable.names {p : Step} (h : p.Writable) : Names p.segment p := by
  cases p with
  | key k => exact .key k
  | position i => exact .position (Text.numeral_toString i) h

theorem Step.Writable.not_mem {p : Step} (h : p.Writable) : '.' ∉ p.segment.toList := by
  cases p with
  | key k => exact h
  | position i =>
      intro hm
      rw [segment, Nat.toString_eq_repr, Nat.toList_repr] at hm
      have := (Text.digits_toDigits i).isDigit '.' hm
      simp at this

theorem lookup_append (d : Document) (a b : String) :
    d.lookup (a ++ "." ++ b) = (d.lookup a).bind fun w => w.lookup b := by
  rw [lookup, show (".": String) = String.ofList ['.'] from rfl, Text.split_append, follow_append]
  rfl

/-- A key leads where its segments do, and these are the texts between its dots. -/
theorem lookup_eq_some : d.lookup key = some w ↔ ∃ segments steps,
    (segments ≠ [] ∧ (∀ s ∈ segments, '.' ∉ s.toList) ∧ Text.join "." segments = key) ∧
      List.Forall₂ Names segments steps ∧ Reaches d steps w := by
  rw [lookup, follow_eq_some]
  constructor
  · rintro ⟨steps, h⟩
    exact ⟨_, steps, Text.split_eq_iff.mp rfl, h⟩
  · rintro ⟨segments, steps, hk, h⟩
    rw [Text.split_eq_iff.mpr hk]
    exact ⟨steps, h⟩

/-- Every value below another is found under the steps that lead to it. -/
theorem lookup_of_reaches (h : Reaches d steps w) (hn : steps ≠ [])
    (hs : ∀ p ∈ steps, p.Writable) :
    d.lookup (Text.join "." (steps.map Step.segment)) = some w := by
  refine lookup_eq_some.mpr ⟨steps.map Step.segment, steps, ⟨?_, ?_, rfl⟩, ?_, h⟩
  · rwa [ne_eq, List.map_eq_nil_iff]
  · intro s hm
    obtain ⟨p, hp, rfl⟩ := List.mem_map.mp hm
    exact (hs p hp).not_mem
  · rw [List.forall₂_map_left_iff, List.forall₂_same]
    exact fun p hp => (hs p hp).names

/-- The value is neither a list nor a table. -/
def IsLeaf : Document → Prop
  | .list _ | .table _ => False
  | _ => True

theorem lookup_leaf (h : d.IsLeaf) (key : String) : d.lookup key = none := by
  rw [Option.eq_none_iff_forall_ne_some]
  intro w hw
  obtain ⟨segments, steps, ⟨hn, -, -⟩, hf, hr⟩ := lookup_eq_some.mp hw
  cases hr with
  | here => exact hn (List.forall₂_nil_right_iff.mp hf)
  | down hd _ => cases hd <;> exact h

/-- A dotted key leads to exactly what stands at its place in the document. -/
theorem lookup_resolves (d : Document) :
    (∀ a b, d.lookup (a ++ "." ++ b) = (d.lookup a).bind fun w => w.lookup b) ∧
    (∀ steps w, Reaches d steps w → steps ≠ [] → (∀ p ∈ steps, p.Writable) →
      d.lookup (Text.join "." (steps.map Step.segment)) = some w) ∧
    (∀ key w, d.lookup key = some w ↔ ∃ segments steps,
      (segments ≠ [] ∧ (∀ s ∈ segments, '.' ∉ s.toList) ∧ Text.join "." segments = key) ∧
        List.Forall₂ Names segments steps ∧ Reaches d steps w) ∧
    (d.IsLeaf → ∀ key, d.lookup key = none) :=
  ⟨lookup_append d, fun _ _ => lookup_of_reaches, fun _ _ => lookup_eq_some, lookup_leaf⟩

/-- A segment of digits is a key in one place and a position in the other, and the position may be
written with a sign and a zero in front. -/
theorem lookup_resolves_numerals :
    let d := table [("0", list [bool false, table [("b", text "x")]])]
    Reaches d [.key "0", .position 1, .key "b"] (text "x") ∧
      d.lookup "0.1.b" = some (text "x") ∧ d.lookup "0.+01.b" = some (text "x") ∧
      d.lookup "0.1.b.c" = none := by
  intro d
  obtain ⟨happend, hpath, hkey, -⟩ := lookup_resolves d
  have hr : Reaches d [.key "0", .position 1, .key "b"] (text "x") :=
    .down (.member rfl) (.down (.item rfl) (.down (.member rfl) (.here _)))
  have hx : d.lookup "0.1.b" = some (text "x") :=
    hpath _ _ hr (List.cons_ne_nil _ _) (by simp [Step.Writable])
  refine ⟨hr, hx, (hkey _ _).mpr ⟨["0", "+01", "b"], _, ?_, ?_, hr⟩, ?_⟩
  · exact ⟨List.cons_ne_nil _ _, by simp, by decide⟩
  · have hn : Text.Numeral "+01".toList 1 :=
      ⟨['0', '1'], .inr rfl, List.cons_ne_nil _ _, List.all_eq_true.mp rfl, rfl⟩
    exact .cons (.key _) (.cons (.position hn (by decide)) (.cons (.key _) .nil))
  · have ha : d.lookup ("0.1.b" ++ "." ++ "c") = _ := happend _ _
    rw [hx] at ha
    exact ha.trans ((lookup_resolves (text "x")).2.2.2 trivial "c")

end Document

end Readiness
