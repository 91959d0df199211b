import Readiness.Check
import Readiness.Proofs.Document.Reading
import Readiness.Proofs.Document.Record
import Readiness.Proofs.Toml.Value

/-!
# Check — predicates in records

* `Predicate.argumentNames`: the keys of arguments; no kind has one twice.
* `Predicate.splitKind_eq_ok`: the kind is found wherever it stands.
* `Predicate.ofMembers_beside`: a predicate is read back from its members in any order, whatever
  stands beside them; `Predicate.ofMembers_eq_ok` is the case that nothing does.
-/

namespace Readiness.Predicate

open Decoder Record
open Toml (readingOf memberReadings Plain)

/-! ### Arguments -/

/-- The approval count is one that its field of 32 bits holds. -/
def InRange : Predicate → Prop
  | .branchProtection _ _ (some n) => n ≤ approvalsMax
  | _ => True

/-- The keys of arguments. -/
def argumentNames : List String :=
  ["path", "paths", "pattern", "key", "name", "marker", "required_check", "enforce_admins",
   "min_approvals", "workflow", "step"]

theorem mem_argumentNames (p : Predicate) : ∀ m ∈ p.arguments, m.1 ∈ argumentNames := by
  cases p with
  | branchProtection c a n =>
      cases c <;> cases n <;> simp [arguments, optionalMember, argumentNames]
  | ciGreen w => cases w <;> simp [arguments, optionalMember, argumentNames]
  | ciJob n w => cases w <;> simp [arguments, optionalMember, argumentNames]
  | _ => simp [arguments, argumentNames]

theorem nodup_arguments (p : Predicate) : (p.arguments.map (·.1)).Nodup := by
  cases p with
  | branchProtection c a n => cases c <;> cases n <;> simp [arguments, optionalMember]
  | ciGreen w => cases w <;> simp [arguments, optionalMember]
  | ciJob n w => cases w <;> simp [arguments, optionalMember]
  | _ => simp [arguments]

theorem plain_arguments {p : Predicate} (hp : p.InRange) : ∀ m ∈ p.arguments, Plain m.2 := by
  have text (s : String) : Plain (.text s) := .scalar (.text s)
  cases p with
  | branchProtection c a n =>
      have flag : Plain (.bool a) := .scalar (.bool a)
      have number : ∀ m, n = some m → Plain (.integer m) := by
        rintro m rfl
        exact .scalar (.natural (Nat.lt_of_le_of_lt hp (by decide)))
      cases c <;> cases n <;> simp [arguments, optionalMember, text, flag, number]
  | ciGreen w => cases w <;> simp [arguments, optionalMember, text]
  | ciJob n w => cases w <;> simp [arguments, optionalMember, text]
  | anyFileExists ps =>
      have texts : Plain (.list (ps.map .text)) := .list fun x hx => by
        obtain ⟨s, -, rfl⟩ := List.mem_map.mp hx
        exact .text s
      simp [arguments, texts]
  | _ => simp [arguments, text]

/-! ### The kind -/

theorem decodeKind_name (k : Kind) : decodeKind (.text (some k.name)) = .ok k := by
  have h : Kind.ofName? k.name = some k := by cases k <;> rfl
  rw [decodeKind, h]

/-- Members that are not the kind are put aside. -/
theorem splitKind_append {depth : Nat} {k : Option Kind} {pre ms rest : List (String × Reading)}
    (hk : "kind" ∉ pre.map (·.1)) (hs : ∀ m ∈ pre, m.2.sound depth = true) :
    splitKind depth true (pre ++ ms) k rest = splitKind depth true ms k (rest ++ pre) := by
  induction pre generalizing rest with
  | nil => rw [List.nil_append, List.append_nil]
  | cons m pre ih =>
      rw [List.map_cons, List.mem_cons, not_or] at hk
      rw [List.forall_mem_cons] at hs
      rw [List.cons_append, splitKind, if_neg (Ne.symm hk.1), if_pos hs.1, ih hk.2 hs.2,
        List.append_assoc]
      rfl

/-- The kind is found wherever it stands. -/
theorem splitKind_eq_ok {depth : Nat} {k : Kind} {pre post : List (String × Reading)}
    (hk : "kind" ∉ (pre ++ post).map (·.1)) (hs : ∀ m ∈ pre ++ post, m.2.sound depth = true) :
    splitKind depth true (pre ++ ("kind", .text (some k.name)) :: post) none [] =
      .ok (k, pre ++ post) := by
  rw [List.map_append, List.mem_append, not_or] at hk
  rw [List.forall_mem_append] at hs
  have hpost : splitKind depth true (post ++ []) (some k) pre = .ok (k, pre ++ post) :=
    splitKind_append hk.2 hs.2
  rw [List.append_nil] at hpost
  rw [splitKind_append hk.1 hs.1, List.nil_append, splitKind, if_pos rfl, if_neg (by simp),
    decodeKind_name]
  exact hpost

/-! ### Reading back -/

theorem optional_approvals {n : Nat} (hn : n ≤ approvalsMax) :
    optional (natural approvalsMax) (.integer n) = .ok (some n) := by
  have h : natural approvalsMax (.integer n) = .ok n := natural_eq_ok hn (by decide)
  exact congrArg (Except.map some) h

/-- Every argument is a field of its kind. -/
theorem accepts_arguments {p : Predicate} (hp : p.InRange) :
    ∀ m ∈ memberReadings p.arguments, Accepts p.kind.fields m := by
  cases p with
  | fileExists p | dirExists p | globMatches p | gitRemote p | handshakeCommit p
    | handshakeIssue p | proofExists p =>
      exact List.forall_mem_singleton.mpr ⟨_, rfl, rfl⟩
  | fileContains p q | yamlKey p q | jsonKey p q | tomlKey p q =>
      exact List.forall_mem_cons.mpr
        ⟨⟨_, rfl, rfl⟩, List.forall_mem_singleton.mpr ⟨_, rfl, rfl⟩⟩
  | anyFileExists ps =>
      exact List.forall_mem_singleton.mpr ⟨_, rfl, check_eq_ok (Toml.items_written fun s _ => rfl)⟩
  | branchProtection c a n =>
      intro m hm
      rw [arguments, Toml.memberReadings_eq_map, List.map_append, List.map_append] at hm
      rcases List.mem_append.mp hm with hm | hm
      · rcases List.mem_append.mp hm with hm | hm
        · cases c with
          | none => cases hm
          | some c => rw [List.mem_singleton.mp hm]; exact ⟨_, rfl, rfl⟩
        · rw [List.mem_singleton.mp hm]; exact ⟨_, rfl, rfl⟩
      · cases n with
        | none => cases hm
        | some n =>
            rw [List.mem_singleton.mp hm]
            exact ⟨_, rfl, check_eq_ok (optional_approvals hp)⟩
  | ciGreen w =>
      cases w with
      | none => exact List.forall_mem_nil _
      | some w => exact List.forall_mem_singleton.mpr ⟨_, rfl, rfl⟩
  | ciJob n w =>
      cases w with
      | none => exact List.forall_mem_singleton.mpr ⟨_, rfl, rfl⟩
      | some w =>
          exact List.forall_mem_cons.mpr
            ⟨⟨_, rfl, rfl⟩, List.forall_mem_singleton.mpr ⟨_, rfl, rfl⟩⟩
  | prChecksGreen => exact List.forall_mem_nil _

theorem missing?_arguments (p : Predicate) :
    missing? p.kind.fields (memberReadings p.arguments) = none := by
  cases p with
  | branchProtection c a n => cases c <;> cases n <;> rfl
  | ciGreen w => cases w <;> rfl
  | ciJob n w => cases w <;> rfl
  | _ => rfl

theorem ofSlots_arguments {p : Predicate} (hp : p.InRange) {slots : Slots}
    (h : ∀ k, slots.lookup k = (memberReadings p.arguments).lookup k) :
    ofSlots slots p.kind = .ok p := by
  cases p with
  | anyFileExists ps =>
      have hps : slots.get "paths" (items text) = .ok ps := by
        rw [Slots.get, h]
        exact Toml.items_written fun s _ => rfl
      rw [kind, ofSlots, hps]
      rfl
  | branchProtection c a n =>
      have hn : slots.getD "min_approvals" (optional (natural approvalsMax)) none = .ok n := by
        rw [Slots.getD, h]
        cases n with
        | none => cases c <;> rfl
        | some n => cases c <;> exact optional_approvals hp
      rw [kind, ofSlots, hn, Slots.getD, Slots.getD, h, h]
      cases c <;> cases n <;> rfl
  | ciGreen w => cases w <;> simp only [kind, ofSlots, Slots.getD, h] <;> rfl
  | ciJob n w => cases w <;> simp only [kind, ofSlots, Slots.get, Slots.getD, h] <;> rfl
  | _ =>
      simp only [kind, ofSlots, Slots.get, h]
      rfl

theorem nodup_members (p : Predicate) : (p.members.map (·.1)).Nodup := by
  rw [members, List.map_cons, List.nodup_cons]
  refine ⟨fun h => ?_, p.nodup_arguments⟩
  obtain ⟨m, hm, he⟩ := List.mem_map.mp h
  have hall : ∀ k ∈ argumentNames, k ≠ "kind" := by decide
  exact hall _ (p.mem_argumentNames m hm) he

section Order

variable {p : Predicate} {ms extra : List (String × Reading)}

theorem name_of_argument {m : String × Reading} (h : m ∈ memberReadings p.arguments) :
    m.1 ≠ "kind" := by
  have hn := p.nodup_members
  rw [members, List.map_cons, List.nodup_cons, ← Toml.map_fst_memberReadings] at hn
  exact fun he => hn.1 (List.mem_map.mpr ⟨m, h, he⟩)

/-- The member is none of a kind's, and its value can be kept. -/
structure Beside (k : Kind) (depth : Nat) (m : String × Reading) : Prop where
  ne_kind : m.1 ≠ "kind"
  ne_field : ∀ f ∈ k.fields, f.name ≠ m.1
  sound : m.2.sound depth = true

theorem Beside.skips {k : Kind} {depth : Nat} {m : String × Reading} (h : Beside k depth m) :
    Skips k.fields m :=
  ⟨List.find?_eq_none.mpr fun f hf => by simpa using h.ne_field f hf,
    Reading.wellFormed_of_sound m.2 h.sound⟩

variable {depth : Nat}

/-- The kind is told from the arguments and from what stands beside them. -/
theorem splitKind_members (hs : ∀ m ∈ memberReadings p.arguments, m.2.sound depth = true)
    (hx : ∀ m ∈ extra, Beside p.kind depth m) (h : ms.Perm (memberReadings p.members ++ extra)) :
    ∃ rest, splitKind depth true ms none [] = .ok (p.kind, rest) ∧
      rest.Perm (memberReadings p.arguments ++ extra) := by
  obtain ⟨pre, post, rfl⟩ := List.append_of_mem (h.mem_iff.mpr List.mem_cons_self)
  have hrest : (pre ++ post).Perm (memberReadings p.arguments ++ extra) :=
    (List.perm_middle.symm.trans h).cons_inv
  refine ⟨pre ++ post, splitKind_eq_ok ?_ fun m hm => ?_, hrest⟩
  · intro hk
    obtain ⟨m, hm, he⟩ := List.mem_map.mp hk
    rcases List.mem_append.mp (hrest.mem_iff.mp hm) with hm | hm
    · exact name_of_argument hm he
    · exact (hx m hm).ne_kind he
  · rcases List.mem_append.mp (hrest.mem_iff.mp hm) with hm | hm
    · exact hs m hm
    · exact (hx m hm).sound

theorem decodeArguments_eq_ok (hp : p.InRange) (hx : ∀ m ∈ extra, Skips p.kind.fields m)
    (h : ms.Perm (memberReadings p.arguments ++ extra)) :
    decodeArguments p.kind (.table ms true) = .ok p := by
  rw [decodeArguments]
  split
  · -- the only kind that does not look at its arguments has none
    rename_i hk
    cases p with
    | prChecksGreen => rfl
    | _ => cases hk
  · have hn : ((memberReadings p.arguments).map (·.1)).Nodup := by
      rw [Toml.map_fst_memberReadings]
      exact p.nodup_arguments
    obtain ⟨slots, hread, hl⟩ := read_skipping .wrongLength h hn (accepts_arguments hp) hx
      p.missing?_arguments
    rw [hread]
    exact ofSlots_arguments hp hl

/-- A predicate is read back from its members, in whatever order they stand and whatever stands
beside them. -/
theorem ofMembers_beside (hp : p.InRange)
    (hs : ∀ m ∈ memberReadings p.arguments, m.2.sound depth = true)
    (hx : ∀ m ∈ extra, Beside p.kind depth m) (h : ms.Perm (memberReadings p.members ++ extra)) :
    ofMembers depth true ms = .ok p := by
  obtain ⟨rest, hsplit, hrest⟩ := splitKind_members hs hx h
  rw [ofMembers, hsplit]
  exact decodeArguments_eq_ok hp (fun m hm => (hx m hm).skips) hrest

/-- A predicate is read back from its members, in whatever order they stand. -/
theorem ofMembers_eq_ok (hp : p.InRange) (depth : Nat) (h : ms.Perm (memberReadings p.members)) :
    ofMembers (depth + 1) true ms = .ok p := by
  rw [← List.append_nil (memberReadings p.members)] at h
  refine ofMembers_beside hp ?_ (List.forall_mem_nil _) h
  rw [Toml.memberReadings_eq_map, List.forall_mem_map]
  exact fun m hm => (plain_arguments hp m hm).sound depth

end Order

end Readiness.Predicate
