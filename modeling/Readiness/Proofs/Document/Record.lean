import Readiness.Document.Record

/-!
# Document — decoding records

* `bind_eq_ok`: what a decoder in several steps comes to.
* `Decoder.natural_le`: a number that is decoded is within its bound.
* `Decoder.items_map`: items that decode one by one.
* `Record.read_skipping`: a table is read whose members belong to fields that take them, in whatever
  order they stand and whatever stands beside them that is of no field; `Record.read_eq_ok` is the
  case that nothing does.
* `Reading.field?`, `Record.lookup_of_read`: a record that was read has the values of its fields
  from where they stand, in either of its forms.
-/

namespace Readiness

theorem bind_eq_ok {ε α β : Type} {x : Except ε α} {f : α → Except ε β} {b : β} :
    x >>= f = .ok b ↔ ∃ a, x = .ok a ∧ f a = .ok b := by
  cases x with
  | error e => simp [bind, Except.bind]
  | ok a => simp [bind, Except.bind]

namespace Decoder

/-- A number that is decoded is within its bound. -/
theorem natural_le {bound n : Nat} {r : Reading} (h : natural bound r = .ok n) : n ≤ bound := by
  unfold natural at h
  split at h
  · split at h
    · cases h
    · split at h
      · cases h
      · rename_i hb
        cases h
        exact Nat.not_lt.mp fun hlt => hb (.inr hlt)
  · cases h

theorem natural_eq_ok {bound n : Nat} (hn : n ≤ bound) (hb : bound < 2 ^ 64) :
    natural bound (.integer n) = .ok n := by
  rw [natural, if_neg (by omega), if_neg (by omega)]
  rfl

theorem optional_eq_some {α : Type} {f : Decoder α} {r : Reading} {a : α}
    (h : optional f r = .ok (some a)) : f r = .ok a := by
  unfold optional at h
  split at h
  · cases h
  · cases hf : f r with
    | error e => rw [hf] at h; cases h
    | ok b => rw [hf] at h; cases h; rfl

theorem check_eq_ok {α : Type} {f : Decoder α} {r : Reading} {a : α} (h : f r = .ok a) :
    check f r = .ok () := by
  rw [check, h]
  rfl

/-- Items that decode one by one. -/
theorem items_map {α : Type} {f : Decoder α} {g : α → Reading} {as : List α}
    (h : ∀ a ∈ as, f (g a) = .ok a) : items f (.list (as.map g) true) = .ok as := by
  have heach : each f (as.map g) = .ok as := by
    induction as with
    | nil => rfl
    | cons a as ih =>
        rw [List.forall_mem_cons] at h
        rw [List.map_cons, each, h.1, ih h.2]
        rfl
  rw [items, heach]
  rfl

end Decoder

/-- The value of an optional field is its default or what its reading decodes to. -/
theorem Slots.getD_eq_ok {α : Type} {slots : Slots} {name : String} {f : Decoder α} {default a : α}
    (h : slots.getD name f default = .ok a) : a = default ∨ ∃ r, f r = .ok a := by
  unfold Slots.getD at h
  split at h
  · exact .inr ⟨_, h⟩
  · exact .inl (Except.ok.inj h).symm

/-! ### Members in any order -/

theorem lookup_eq_some_iff_mem {α : Type} {ms : List (String × α)} (hk : (ms.map (·.1)).Nodup)
    {k : String} {a : α} : ms.lookup k = some a ↔ (k, a) ∈ ms := by
  rw [List.lookup_eq_some_iff]
  constructor
  · rintro ⟨pre, post, rfl, -⟩
    exact List.mem_append_right pre List.mem_cons_self
  · intro h
    obtain ⟨pre, post, rfl⟩ := List.append_of_mem h
    refine ⟨pre, post, rfl, fun m hm => ?_⟩
    rw [List.map_append, List.map_cons] at hk
    have hne := (List.nodup_append.mp hk).2.2 m.1 (List.mem_map_of_mem hm) k List.mem_cons_self
    simpa using Ne.symm hne

/-- The order of members with different keys does not matter. -/
theorem lookup_eq_of_perm {α : Type} {ms ns : List (String × α)} (hp : ms.Perm ns)
    (hk : (ns.map (·.1)).Nodup) (k : String) : ms.lookup k = ns.lookup k := by
  have hk' : (ms.map (·.1)).Nodup := (hp.map (·.1)).nodup_iff.mpr hk
  ext a
  rw [lookup_eq_some_iff_mem hk', lookup_eq_some_iff_mem hk, hp.mem_iff]

namespace Record

/-- The key is that of a field which takes the value. -/
def Accepts (fields : List Field) (m : String × Reading) : Prop :=
  ∃ f, (fields.find? fun f => f.name == m.1) = some f ∧ f.check m.2 = .ok ()

theorem ofMembers_eq_ok {fields : List Field} {ms slots : List (String × Reading)}
    (hk : ((slots ++ ms).map (·.1)).Nodup) (ha : ∀ m ∈ ms, Accepts fields m)
    (hm : missing? fields (slots ++ ms) = none) :
    ofMembers fields true ms slots = .ok (slots ++ ms) := by
  induction ms generalizing slots with
  | nil =>
      rw [List.append_nil] at hm ⊢
      rw [ofMembers, hm]
      rfl
  | cons m ms ih =>
      obtain ⟨k, v⟩ := m
      rw [List.forall_mem_cons] at ha
      obtain ⟨⟨f, hf, hc⟩, ha⟩ := ha
      have hn : slots.lookup k = none := by
        rw [List.lookup_eq_none_iff]
        intro m hm
        rw [List.map_append, List.map_cons] at hk
        have hne := (List.nodup_append.mp hk).2.2 m.1 (List.mem_map_of_mem hm) k
          List.mem_cons_self
        simpa using Ne.symm hne
      rw [List.append_cons] at hk hm ⊢
      rw [ofMembers, hf]
      dsimp only
      rw [hn, if_neg (by simp), hc]
      exact ih hk ha hm

/-- The key is that of no field, and the value can be skipped. -/
def Skips (fields : List Field) (m : String × Reading) : Prop :=
  (fields.find? fun f => f.name == m.1) = none ∧ m.2.wellFormed = true

/-- The members whose keys are those of fields. -/
def known (fields : List Field) (ms : List (String × Reading)) : List (String × Reading) :=
  ms.filter fun m => (fields.find? fun f => f.name == m.1).isSome

/-- Members whose keys are those of no field leave no trace. -/
theorem ofMembers_known {fields : List Field} {closed : Bool} {ms : List (String × Reading)}
    (h : ∀ m ∈ ms, (fields.find? fun f => f.name == m.1) = none → m.2.wellFormed = true)
    (slots : Slots) :
    ofMembers fields closed ms slots = ofMembers fields closed (known fields ms) slots := by
  induction ms generalizing slots with
  | nil => rfl
  | cons m ms ih =>
      obtain ⟨k, v⟩ := m
      rw [List.forall_mem_cons] at h
      cases hf : fields.find? fun f => f.name == k with
      | none =>
          rw [ofMembers, hf, known, List.filter_cons_of_neg (by simp [hf])]
          dsimp only
          rw [if_pos (h.1 hf), ih h.2]
          rfl
      | some f =>
          rw [known, List.filter_cons_of_pos (by simp [hf]), ofMembers, ofMembers, hf]
          dsimp only
          split
          · rfl
          · cases f.check v with
            | error e => rfl
            | ok _ => exact ih h.2 _

/-- A table is read when its members are some with different keys, which belong to fields that take
them and no field is missing from, and beside them only such as are skipped. -/
theorem read_skipping (surplus : Surplus) {fields : List Field}
    {ms ns extra : List (String × Reading)} (hp : ms.Perm (ns ++ extra))
    (hk : (ns.map (·.1)).Nodup) (ha : ∀ m ∈ ns, Accepts fields m)
    (hx : ∀ m ∈ extra, Skips fields m) (hm : missing? fields ns = none) :
    ∃ slots, read surplus fields (.table ms true) = .ok slots ∧
      ∀ k, slots.lookup k = ns.lookup k := by
  have hknown : (known fields ms).Perm ns := by
    have hns : known fields ns = ns := List.filter_eq_self.mpr fun m hm => by
      obtain ⟨f, hf, -⟩ := ha m hm
      rw [hf]
      rfl
    have hextra : known fields extra = [] := List.filter_eq_nil_iff.mpr fun m hm => by
      rw [(hx m hm).1]
      exact Bool.false_ne_true
    have hf : (known fields ms).Perm (known fields (ns ++ extra)) := hp.filter _
    rwa [known, known, List.filter_append, ← known, ← known, ← known, hns, hextra,
      List.append_nil] at hf
  have hskip : ∀ m ∈ ms, (fields.find? fun f => f.name == m.1) = none →
      m.2.wellFormed = true := fun m hm hf => by
    rcases List.mem_append.mp (hp.mem_iff.mp hm) with hm | hm
    · obtain ⟨f, hf', -⟩ := ha m hm
      cases hf.symm.trans hf'
    · exact (hx m hm).2
  have hl := lookup_eq_of_perm hknown hk
  refine ⟨known fields ms, ?_, hl⟩
  rw [read, ofMembers_known hskip]
  refine @ofMembers_eq_ok fields _ [] ?_ (fun m h => ha m (hknown.mem_iff.mp h)) ?_
  · exact (hknown.map (·.1)).nodup_iff.mpr hk
  · simpa only [missing?, List.nil_append, hl] using hm

/-- A table with different keys is read when every member belongs to a field that takes it and no
field is missing. -/
theorem read_eq_ok (surplus : Surplus) {fields : List Field} {ms ns : List (String × Reading)}
    (hp : ms.Perm ns) (hk : (ns.map (·.1)).Nodup) (ha : ∀ m ∈ ns, Accepts fields m)
    (hm : missing? fields ns = none) :
    ∃ slots, read surplus fields (.table ms true) = .ok slots ∧
      ∀ k, slots.lookup k = ns.lookup k := by
  rw [← List.append_nil ns] at hp
  exact read_skipping surplus hp hk ha (List.forall_mem_nil _) hm

end Record

/-! ### What stands in a record -/

/-- The value of a field: by its key in a table, by its place in a list. -/
def Reading.field? (name : String) (place : Nat) : Reading → Option Reading
  | .table ms _ => ms.lookup name
  | .list xs _ => xs[place]?
  | _ => none

/-- Values by the names of their places. -/
theorem lookup_zip {α : Type} {ks : List String} {xs : List α} (hn : ks.Nodup) {i : Nat}
    {k : String} (hk : ks[i]? = some k) : (ks.zip xs).lookup k = xs[i]? := by
  induction ks generalizing xs i with
  | nil => cases hk
  | cons l ks ih =>
      rw [List.nodup_cons] at hn
      cases xs with
      | nil => rw [List.zip_nil_right, List.lookup_nil, List.getElem?_nil]
      | cons x xs =>
          cases i with
          | zero =>
              obtain rfl : l = k := Option.some.inj hk
              rw [List.zip_cons_cons, List.lookup_cons_self]
              rfl
          | succ i =>
              have hk : ks[i]? = some k := hk
              have hne : (k == l) = false := by
                rw [beq_eq_false_iff_ne]
                rintro rfl
                exact hn.1 (List.mem_of_getElem? hk)
              rw [List.zip_cons_cons, List.lookup_cons, hne, List.getElem?_cons_succ]
              exact ih hn.2 hk

namespace Record

variable {fields : List Field} {closed : Bool} {slots : Slots}

theorem lookup_of_ofMembers {ms : List (String × Reading)} {start : Slots}
    (h : ofMembers fields closed ms start = .ok slots) {k : String}
    (hk : k ∈ fields.map (·.name)) : slots.lookup k = (start.lookup k).or (ms.lookup k) := by
  induction ms generalizing start with
  | nil =>
      unfold ofMembers at h
      split at h
      · cases h
      · split at h
        · cases h
        · cases h
          rw [List.lookup_nil, Option.or_none]
  | cons m ms ih =>
      obtain ⟨l, v⟩ := m
      unfold ofMembers at h
      split at h
      · -- the key is that of no field
        rename_i hf
        have hne : (k == l) = false := by
          rw [beq_eq_false_iff_ne]
          rintro rfl
          obtain ⟨f, hm, rfl⟩ := List.mem_map.mp hk
          simpa using List.find?_eq_none.mp hf f hm
        split at h
        · rw [ih h, List.lookup_cons, hne]
        · cases h
      · split at h
        · cases h
        · rename_i hs
          split at h
          · cases h
          · rw [ih h, List.lookup_append, List.lookup_cons, List.lookup_cons, List.lookup_nil]
            have hs : start.lookup l = none := Option.not_isSome_iff_eq_none.mp hs
            cases hkl : k == l with
            | false => rw [Option.or_none]
            | true =>
                obtain rfl := eq_of_beq hkl
                rw [hs]
                rfl

theorem ofItems_eq_zip {surplus : Surplus} {xs : List Reading} {start : Slots}
    (h : ofItems surplus closed fields xs start = .ok slots) :
    slots = start ++ (fields.map (·.name)).zip xs := by
  induction fields generalizing xs start with
  | nil =>
      rw [List.map_nil, List.zip_nil_left, List.append_nil]
      cases xs with
      | nil => unfold ofItems at h; split at h <;> cases h; rfl
      | cons x xs => cases surplus <;> cases h; rfl
  | cons f fields ih =>
      cases xs with
      | nil =>
          rw [List.zip_nil_right]
          unfold ofItems at h
          split at h
          · cases h
          · split at h
            · rw [ih h, List.zip_nil_right]
            · cases h
      | cons x xs =>
          unfold ofItems at h
          split at h
          · cases h
          · rw [ih h, List.map_cons, List.zip_cons_cons, List.append_assoc]
            rfl

/-- A record that was read has the value of each field from where it stands. -/
theorem lookup_of_read {surplus : Surplus} {r : Reading} (h : read surplus fields r = .ok slots)
    (hn : (fields.map (·.name)).Nodup) {i : Nat} {name : String}
    (hi : (fields.map (·.name))[i]? = some name) : slots.lookup name = r.field? name i := by
  unfold read at h
  split at h
  · rw [lookup_of_ofMembers h (List.mem_of_getElem? hi)]
    rfl
  · rw [ofItems_eq_zip h, List.nil_append, lookup_zip hn hi]
    rfl
  · cases h

section

variable {α : Type} {surplus : Surplus} {r : Reading} {name : String} {f : Decoder α} {a : α}
  {i : Nat}

/-- A field of a record that was read is absent, with its default, or has a value that decodes. -/
theorem getD_of_read {default : α} (h : read surplus fields r = .ok slots)
    (hg : slots.getD name f default = .ok a) (hn : (fields.map (·.name)).Nodup)
    (hi : (fields.map (·.name))[i]? = some name) :
    (r.field? name i = none ∧ a = default) ∨ ∃ v, r.field? name i = some v ∧ f v = .ok a := by
  rw [Slots.getD, lookup_of_read h hn hi] at hg
  split at hg
  · exact .inr ⟨_, ‹_›, hg⟩
  · exact .inl ⟨‹_›, (Except.ok.inj hg).symm⟩

theorem get_of_read (h : read surplus fields r = .ok slots) (hg : slots.get name f = .ok a)
    (hn : (fields.map (·.name)).Nodup) (hi : (fields.map (·.name))[i]? = some name) :
    ∃ v, r.field? name i = some v ∧ f v = .ok a := by
  rw [Slots.get, lookup_of_read h hn hi] at hg
  split at hg
  · exact ⟨_, ‹_›, hg⟩
  · cases hg

end

end Record

end Readiness
