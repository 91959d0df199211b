import Readiness.Proofs.Host.Answer

/-!
# Host — what a protection payload says

A payload is read as it stands, its parts by their names: a part that is absent or null says
nothing.

* `Payload.contexts`, `Payload.checks`, `Payload.admins`, `Payload.approvals`: the parts.
* `BranchProtection.decode_parts`: the rules that a payload decodes to are made of them.
* `BranchProtection.mergeChecks_added`, `BranchProtection.mem_requiredChecks`: the checks that are
  required are the contexts, and then every further check once.
-/

namespace Readiness

/-! ### Parts -/

namespace Reading

def string? : Reading → Option String
  | .text s => s
  | _ => none

def number? : Reading → Option Nat
  | .integer i => some i.toNat
  | _ => none

def isTrue : Reading → Bool
  | .bool b => b
  | _ => false

/-- The items of a list. -/
def parts : Reading → List Reading
  | .list xs _ => xs
  | _ => []

end Reading

namespace Payload

/-- A part of a part. -/
def within (r : Reading) (name : String) (place : Nat) (inner : String) (innerPlace : Nat) :
    Option Reading :=
  (r.field? name place).bind fun v => v.field? inner innerPlace

/-- The required contexts. -/
def contexts (r : Reading) : List String :=
  ((within r "required_status_checks" 0 "contexts" 0).elim [] Reading.parts).filterMap
    Reading.string?

/-- The contexts of the required checks. -/
def checks (r : Reading) : List String :=
  ((within r "required_status_checks" 0 "checks" 1).elim [] Reading.parts).filterMap fun c =>
    (c.field? "context" 0).bind Reading.string?

/-- The rules are said to be enforced for administrators. -/
def admins (r : Reading) : Bool := (within r "enforce_admins" 1 "enabled" 0).any Reading.isTrue

/-- The required approvals, none where reviews are not required or have no count. -/
def approvals (r : Reading) : Nat :=
  ((within r "required_pull_request_reviews" 2 "required_approving_review_count" 0).bind
    Reading.number?).getD 0

end Payload

/-! ### Decoders -/

namespace Decoder

variable {r : Reading}

theorem string?_of_text {s : String} (h : text r = .ok s) : r.string? = some s := by
  unfold text at h
  split at h
  · cases h; rfl
  · cases h

theorem isTrue_of_flag {b : Bool} (h : flag r = .ok b) : r.isTrue = b := by
  unfold flag at h
  split at h
  · cases h; rfl
  · cases h

theorem number?_of_natural {bound n : Nat} (h : natural bound r = .ok n) :
    r.number? = some n := by
  unfold natural at h
  split at h
  · split at h
    · cases h
    · split at h
      · cases h
      · cases h; rfl
  · cases h

/-- A value or null: null is nothing. -/
theorem optional_cases {α : Type} {f : Decoder α} {o : Option α} (h : optional f r = .ok o) :
    (r = .null ∧ o = none) ∨ ∃ a, o = some a ∧ f r = .ok a := by
  unfold optional at h
  split at h
  · cases h
    exact .inl ⟨rfl, rfl⟩
  · cases hf : f r with
    | error e => rw [hf] at h; cases h
    | ok a => rw [hf] at h; cases h; exact .inr ⟨a, rfl, rfl⟩

/-- The items of a list that decodes are what each of them says. -/
theorem parts_of_items {α : Type} {f : Decoder α} {g : Reading → Option α}
    (hg : ∀ {x a}, f x = .ok a → g x = some a) {as : List α} (h : items f r = .ok as) :
    r.parts.filterMap g = as := by
  have heach : ∀ xs as, each f xs = .ok as → xs.filterMap g = as := by
    intro xs
    induction xs with
    | nil => rintro _ ⟨⟩; rfl
    | cons x xs ih =>
        intro as h
        obtain ⟨a, ha, h⟩ := bind_eq_ok.mp h
        obtain ⟨as', has, h⟩ := bind_eq_ok.mp h
        cases h
        rw [List.filterMap_cons_some (hg ha), ih as' has]
  unfold items at h
  split at h
  · obtain ⟨as', has, h⟩ := bind_eq_ok.mp h
    split at h
    · cases h
      exact heach _ _ has
    · cases h
  · cases h

end Decoder

namespace BranchProtection

open Decoder Record

variable {r : Reading}

theorem decodeCheck_says {c : String} (h : decodeCheck r = .ok c) :
    (r.field? "context" 0).bind Reading.string? = some c := by
  obtain ⟨slots, hr, h⟩ := bind_eq_ok.mp h
  obtain ⟨v, hv, h⟩ := get_of_read (i := 0) hr h (by decide) rfl
  rw [hv, Option.bind_some, string?_of_text h]

theorem decodeStatus_says {cs ks : List String} (h : decodeStatus r = .ok (cs, ks)) :
    ((r.field? "contexts" 0).elim [] Reading.parts).filterMap Reading.string? = cs ∧
    ((r.field? "checks" 1).elim [] Reading.parts).filterMap
      (fun c => (c.field? "context" 0).bind Reading.string?) = ks := by
  obtain ⟨slots, hr, h⟩ := bind_eq_ok.mp h
  obtain ⟨cs', hc, h⟩ := bind_eq_ok.mp h
  obtain ⟨ks', hk, h⟩ := bind_eq_ok.mp h
  cases h
  refine ⟨?_, ?_⟩
  · rcases getD_of_read (i := 0) hr hc (by decide) rfl with ⟨hv, rfl⟩ | ⟨v, hv, h⟩
    · rw [hv]; rfl
    · rw [hv]; exact parts_of_items string?_of_text h
  · rcases getD_of_read (i := 1) hr hk (by decide) rfl with ⟨hv, rfl⟩ | ⟨v, hv, h⟩
    · rw [hv]; rfl
    · rw [hv]; exact parts_of_items decodeCheck_says h

theorem decodeToggle_says {b : Bool} (h : decodeToggle r = .ok b) :
    (r.field? "enabled" 0).any Reading.isTrue = b := by
  obtain ⟨slots, hr, h⟩ := bind_eq_ok.mp h
  obtain ⟨v, hv, h⟩ := get_of_read (i := 0) hr h (by decide) rfl
  rw [hv]
  exact isTrue_of_flag h

theorem decodeReviews_says {n : Nat} (h : decodeReviews r = .ok n) :
    ((r.field? "required_approving_review_count" 0).bind Reading.number?).getD 0 = n := by
  obtain ⟨slots, hr, h⟩ := bind_eq_ok.mp h
  rcases getD_of_read (i := 0) hr h (by decide) rfl with ⟨hv, rfl⟩ | ⟨v, hv, h⟩
  · rw [hv]; rfl
  · rw [hv, Option.bind_some, number?_of_natural h]; rfl

/-- A part of a payload that may be absent or null, or else decodes. -/
theorem part_cases {α : Type} {surplus : Surplus} {fields : List Field} {slots : Slots} {i : Nat}
    {name : String} {f : Decoder α} {o : Option α} (hr : read surplus fields r = .ok slots)
    (h : slots.getD name (optional f) none = .ok o) (hn : (fields.map (·.name)).Nodup)
    (hi : (fields.map (·.name))[i]? = some name) :
    (o = none ∧ ∀ inner place, Payload.within r name i inner place = none) ∨
      ∃ v a, o = some a ∧ f v = .ok a ∧
        ∀ inner place, Payload.within r name i inner place = v.field? inner place := by
  rcases getD_of_read hr h hn hi with ⟨hv, ho⟩ | ⟨v, hv, hd⟩
  · exact .inl ⟨ho, fun _ _ => by rw [Payload.within, hv]; rfl⟩
  · rcases optional_cases hd with ⟨rfl, ho⟩ | ⟨a, ho, ha⟩
    · exact .inl ⟨ho, fun _ _ => by rw [Payload.within, hv]; rfl⟩
    · exact .inr ⟨v, a, ho, ha, fun _ _ => by rw [Payload.within, hv]; rfl⟩

/-- The rules that a payload decodes to are made of what its parts say. -/
theorem decode_parts {p : BranchProtection} (h : decode r = .ok p) :
    p.requiredChecks = mergeChecks (Payload.contexts r) (Payload.checks r) ∧
      p.enforceAdmins = Payload.admins r ∧ p.requiredApprovals.getD 0 = Payload.approvals r := by
  obtain ⟨slots, hr, h⟩ := bind_eq_ok.mp h
  obtain ⟨status, hs, h⟩ := bind_eq_ok.mp h
  obtain ⟨admins, ha, h⟩ := bind_eq_ok.mp h
  obtain ⟨reviews, hv, h⟩ := bind_eq_ok.mp h
  cases h
  refine ⟨?_, ?_, ?_⟩
  · rcases part_cases (i := 0) hr hs (by decide) rfl with ⟨rfl, hw⟩ | ⟨v, ⟨cs, ks⟩, rfl, h, hw⟩
    · simp [Payload.contexts, Payload.checks, hw, mergeChecks]
    · obtain ⟨rfl, rfl⟩ := decodeStatus_says h
      simp only [Payload.contexts, Payload.checks, hw]
  · rcases part_cases (i := 1) hr ha (by decide) rfl with ⟨rfl, hw⟩ | ⟨v, b, rfl, h, hw⟩
    · simp [Payload.admins, hw]
    · rw [Payload.admins, hw, decodeToggle_says h]; rfl
  · rcases part_cases (i := 2) hr hv (by decide) rfl with ⟨rfl, hw⟩ | ⟨v, n, rfl, h, hw⟩
    · simp [Payload.approvals, hw]
    · rw [Payload.approvals, hw, decodeReviews_says h]; rfl

/-! ### Required checks -/

/-- The contexts are kept, in front, and every check that is not one of them is added once. -/
theorem mergeChecks_added (contexts checks : List String) :
    ∃ added, mergeChecks contexts checks = contexts ++ added ∧ added.Sublist checks ∧
      added.Nodup ∧ ∀ c, c ∈ added ↔ c ∈ checks ∧ c ∉ contexts := by
  -- the list grows at its end, so the checks are taken in turn with whatever is there by then
  induction checks generalizing contexts with
  | nil => exact ⟨[], (List.append_nil _).symm, .slnil, .nil, by simp⟩
  | cons k checks ih =>
      obtain ⟨added, he, hs, hn, hm⟩ := ih (addCheck contexts k)
      rw [show mergeChecks contexts (k :: checks) = _ from he]
      unfold addCheck at hm ⊢
      by_cases hk : k ∈ contexts
      · rw [if_pos (by simpa using hk)] at hm ⊢
        refine ⟨added, rfl, hs.cons k, hn, fun c => ?_⟩
        rw [hm, List.mem_cons, or_and_right]
        exact (or_iff_right fun h => h.2 (h.1 ▸ hk)).symm
      · rw [if_neg (by simpa using hk)] at hm ⊢
        have hka : k ∉ added := by simp [hm]
        refine ⟨k :: added, List.append_assoc .., hs.cons_cons k, List.nodup_cons.mpr ⟨hka, hn⟩,
          fun c => ?_⟩
        rw [List.mem_cons, List.mem_cons, hm]
        by_cases hc : c = k
        · subst hc
          simp [hk]
        · simp [hc]

/-- A payload names the checks that it requires in either list. -/
theorem mem_requiredChecks {p : BranchProtection} (h : decode r = .ok p) {c : String} :
    c ∈ p.requiredChecks ↔ c ∈ Payload.contexts r ∨ c ∈ Payload.checks r := by
  obtain ⟨added, he, -, -, hm⟩ := mergeChecks_added (Payload.contexts r) (Payload.checks r)
  rw [(decode_parts h).1, he, List.mem_append, hm]
  by_cases hc : c ∈ Payload.contexts r <;> simp [hc]

end BranchProtection

end Readiness
