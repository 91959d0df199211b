import Readiness.Proofs.Check
import Readiness.Proofs.Rulebook.Rules
import Readiness.Proofs.Toml.Document
import Readiness.Rulebook.Record

/-!
# Rulebook — records

A rulebook is read back from the text it is written as.

* `Settings.decode_members`, `CheckDef.decode_members`, `StepDef.decode_members`: each record is
  decoded from its members, in the order in which a reader puts them.
* `CheckDef.splitHead_eq_ok`: what stands beside a predicate is told apart from it.
* `Rulebook.parse_write`: the round trip.
-/

namespace Readiness

open Decoder Record
open Toml (readingOf memberReadings Plain Tidy TidyValue IsBare)
open Toml.Table (sortMembers sortMembers_perm)

/-! ### Settings -/

namespace Settings

variable {s : Settings}

theorem decode_members (h : s.historyDepth ≤ depthMax) :
    Settings.decode (readingOf (.table s.members)) = .ok s := by
  have hd : natural depthMax (.integer s.historyDepth) = .ok s.historyDepth :=
    natural_eq_ok h (by decide)
  obtain ⟨slots, hread, hl⟩ : ∃ slots, Record.read .ignored
      [defaulted "proof_dir" text, defaulted "fallback_branch" text,
       defaulted "history_depth" (natural depthMax)] (readingOf (.table s.members)) = .ok slots ∧
      ∀ k, slots.lookup k = (memberReadings s.members).lookup k :=
    Toml.read_written .ignored (by simp [members])
      (List.forall_mem_cons.mpr ⟨⟨_, rfl, rfl⟩, List.forall_mem_cons.mpr ⟨⟨_, rfl, rfl⟩,
        List.forall_mem_singleton.mpr ⟨_, rfl, check_eq_ok hd⟩⟩⟩) rfl
  have hn : slots.getD "history_depth" (natural depthMax) standard.historyDepth =
      .ok s.historyDepth := by
    rw [Slots.getD, hl]
    exact hd
  rw [Settings.decode, hread]
  simp only [bind, Except.bind, hn]
  rw [Slots.getD, Slots.getD, hl, hl]
  rfl

theorem tidy_members (h : s.historyDepth ≤ Rulebook.integerMax) : Tidy s.members := by
  have hd : Plain (.integer s.historyDepth) :=
    .scalar (.natural (Nat.lt_of_le_of_lt h (by decide)))
  refine Toml.tidy_of_plain (by simp [members]) ?_ ?_
  · have hall : ∀ k ∈ ["proof_dir", "fallback_branch", "history_depth"], IsBare k := by decide
    simpa [members] using hall
  · have text (t : String) : Plain (.text t) := .scalar (.text t)
    simp [members, text, hd]

end Settings

/-! ### Checks -/

theorem Stack.decode_name (s : Stack) : Stack.decode (.text (some s.name)) = .ok s := by
  cases s <;> rfl

namespace CheckDef

/-- The members of a check that belong to its predicate. -/
def ofPredicate (m : String × Reading) : Bool := m.1 != "description" && m.1 != "stack"

/-- What stands beside a predicate is told apart from it, in whatever order the members stand. -/
theorem splitHead_eq_ok {d : String} {s : Option Stack} {ms : List (String × Reading)}
    (hd : ∀ v, ("description", v) ∈ ms → v = .text (some d))
    (hs : ∀ v, ("stack", v) ∈ ms → ∃ t, s = some t ∧ v = .text (some t.name)) (h : Head) :
    splitHead ms h = .ok
      { description := if "description" ∈ ms.map (·.1) then some d else h.description
        stack := if "stack" ∈ ms.map (·.1) then s else h.stack
        rest := h.rest ++ ms.filter ofPredicate } := by
  induction ms generalizing h with
  | nil => simp [splitHead]
  | cons m ms ih =>
      obtain ⟨k, v⟩ := m
      have ih := ih (fun v hv => hd v (List.mem_cons_of_mem _ hv))
        (fun v hv => hs v (List.mem_cons_of_mem _ hv))
      by_cases h₁ : k = "description"
      · subst h₁
        obtain rfl := hd v List.mem_cons_self
        rw [splitHead, if_pos rfl]
        simp [text, ih, bind, Except.bind, ofPredicate, -List.mem_map]
      · by_cases h₂ : k = "stack"
        · subst h₂
          obtain ⟨t, rfl, rfl⟩ := hs v List.mem_cons_self
          rw [splitHead, if_neg (by decide), if_pos rfl, Stack.decode_name]
          simp [ih, bind, Except.bind, ofPredicate, -List.mem_map]
        · rw [splitHead, if_neg h₁, if_neg h₂, ih,
            List.filter_cons_of_pos (by simp [ofPredicate, h₁, h₂])]
          simp [Ne.symm h₁, Ne.symm h₂, -List.mem_map]

variable {c : CheckDef}

/-- The keys of a check. -/
def memberNames : List String := "description" :: "stack" :: "kind" :: Predicate.argumentNames

theorem name_of_predicate {k : String} (h : k ∈ c.predicate.members.map (·.1)) :
    k ∈ memberNames ∧ k ≠ "description" ∧ k ≠ "stack" := by
  have hall : ∀ k ∈ "kind" :: Predicate.argumentNames,
      k ∈ memberNames ∧ k ≠ "description" ∧ k ≠ "stack" := by decide
  rw [Predicate.members, List.map_cons, List.mem_cons] at h
  rcases h with rfl | h
  · exact hall _ List.mem_cons_self
  · obtain ⟨m, hm, rfl⟩ := List.mem_map.mp h
    exact hall _ (List.mem_cons_of_mem _ (c.predicate.mem_argumentNames m hm))

theorem mem_members {m : String × Document} :
    m ∈ c.members ↔ m = ("description", .text c.description) ∨
      (∃ s, c.stack = some s ∧ m = ("stack", .text s.name)) ∨ m ∈ c.predicate.members := by
  rw [members]
  cases c.stack with
  | none => simp [Predicate.optionalMember]
  | some s => simp [Predicate.optionalMember]

theorem nodup_members (c : CheckDef) : (c.members.map (·.1)).Nodup := by
  have hp := c.predicate.nodup_members
  have hd : "description" ∉ c.predicate.members.map (·.1) := fun h => (name_of_predicate h).2.1 rfl
  have hs : "stack" ∉ c.predicate.members.map (·.1) := fun h => (name_of_predicate h).2.2 rfl
  rw [members]
  generalize c.predicate.members = ps at hp hd hs
  cases c.stack with
  | none => exact List.nodup_cons.mpr ⟨hd, hp⟩
  | some s =>
      refine List.nodup_cons.mpr ⟨?_, List.nodup_cons.mpr ⟨hs, hp⟩⟩
      exact fun h => (List.mem_cons.mp h).elim (fun he => by simp at he) hd

/-- The members of a check as they are read. -/
theorem memberReadings_members (c : CheckDef) :
    memberReadings c.members = ("description", .text (some c.description)) ::
      (c.stack.toList.map (fun s => ("stack", .text (some s.name))) ++
        memberReadings c.predicate.members) := by
  rw [members]
  cases c.stack <;> rfl

section Order

variable {ms : List (String × Reading)}

theorem mem_of_perm (h : ms.Perm (memberReadings c.members)) {m : String × Reading} :
    m ∈ ms ↔ m = ("description", .text (some c.description)) ∨
      (∃ s, c.stack = some s ∧ m = ("stack", .text (some s.name))) ∨
      m ∈ memberReadings c.predicate.members := by
  rw [h.mem_iff, memberReadings_members, List.mem_cons, List.mem_append, List.mem_map]
  simp only [Option.mem_toList, eq_comm]

theorem name_of_reading {m : String × Reading} (h : m ∈ memberReadings c.predicate.members) :
    m.1 ≠ "description" ∧ m.1 ≠ "stack" := by
  have hk := List.mem_map_of_mem (f := fun m : String × Reading => m.1) h
  rw [Toml.map_fst_memberReadings] at hk
  exact (name_of_predicate hk).2

theorem filter_ofPredicate (h : ms.Perm (memberReadings c.members)) :
    (ms.filter ofPredicate).Perm (memberReadings c.predicate.members) := by
  have hself : (memberReadings c.predicate.members).filter ofPredicate =
      memberReadings c.predicate.members :=
    List.filter_eq_self.mpr fun m hm => by simpa [ofPredicate] using name_of_reading hm
  have hf := h.filter ofPredicate
  rw [memberReadings_members, List.filter_cons_of_neg (by simp [ofPredicate]),
    List.filter_append, hself] at hf
  cases hs : c.stack with
  | none => rwa [hs] at hf
  | some s => rwa [hs] at hf

theorem splitHead_members (h : ms.Perm (memberReadings c.members)) :
    splitHead ms ⟨none, none, []⟩ = .ok ⟨some c.description, c.stack, ms.filter ofPredicate⟩ := by
  have hdescription : ∀ v, ("description", v) ∈ ms → v = .text (some c.description) := by
    intro v hv
    rcases (mem_of_perm h).mp hv with h | ⟨s, -, h⟩ | h
    · exact (Prod.mk.inj h).2
    · exact absurd (Prod.mk.inj h).1 (by decide)
    · exact absurd rfl (name_of_reading h).1
  have hstack : ∀ v, ("stack", v) ∈ ms → ∃ t, c.stack = some t ∧ v = .text (some t.name) := by
    intro v hv
    rcases (mem_of_perm h).mp hv with h | ⟨s, hs, h⟩ | h
    · exact absurd (Prod.mk.inj h).1 (by decide)
    · exact ⟨s, hs, (Prod.mk.inj h).2⟩
    · exact absurd rfl (name_of_reading h).2
  have hd : "description" ∈ ms.map (·.1) :=
    List.mem_map_of_mem ((mem_of_perm h).mpr (.inl rfl))
  have hs : (if "stack" ∈ ms.map (·.1) then c.stack else none) = c.stack := by
    split
    · rfl
    · -- a key is left out where there is no stack
      rename_i hn
      cases hc : c.stack with
      | none => rfl
      | some s =>
          have hmem := (mem_of_perm h).mpr (.inr (.inl ⟨s, hc, rfl⟩))
          exact absurd (List.mem_map_of_mem hmem) hn
  have hhead := splitHead_eq_ok hdescription hstack ⟨none, none, []⟩
  rwa [if_pos hd, hs, List.nil_append] at hhead

end Order

theorem decode_members (hc : c.predicate.InRange) :
    CheckDef.decode (readingOf (.table c.members)) = .ok c := by
  have hperm := sortMembers_perm (memberReadings c.members)
  rw [readingOf, CheckDef.decode, splitHead_members hperm]
  simp only [bind, Except.bind]
  rw [depthMax, Predicate.ofMembers_eq_ok hc 999 (filter_ofPredicate hperm)]
  rfl

theorem tidy_members (hc : c.predicate.InRange) : Tidy c.members := by
  have hbare : ∀ k ∈ memberNames, IsBare k := by decide
  refine Toml.tidy_of_plain c.nodup_members (fun m hm => hbare _ ?_) fun m hm => ?_
  · rcases mem_members.mp hm with rfl | ⟨s, -, rfl⟩ | h
    · exact List.mem_cons_self
    · exact List.mem_cons_of_mem _ List.mem_cons_self
    · exact (name_of_predicate (List.mem_map_of_mem h)).1
  · rcases mem_members.mp hm with rfl | ⟨s, -, rfl⟩ | h
    · exact .scalar (.text _)
    · exact .scalar (.text _)
    · rcases List.mem_cons.mp h with rfl | h
      · exact .scalar (.text _)
      · exact Predicate.plain_arguments hc m h

end CheckDef

/-! ### Steps -/

namespace StepDef

variable {s : StepDef}

/-- The approval counts of the checks are such that their fields hold them. -/
def InRange (s : StepDef) : Prop := ∀ c ∈ s.checks, c.predicate.InRange

theorem mem_members {m : String × Document} :
    m ∈ s.members ↔ m = ("name", .text s.name) ∨ (∃ t, s.title = some t ∧ m = ("title", .text t)) ∨
      (∃ q, s.requires = some q ∧ m = ("requires", .text q)) ∨
      (s.shortCircuit = true ∧ m = ("short_circuit", .bool true)) ∨
      m = ("check", .list (s.checks.map fun c => .table c.members)) := by
  rw [members]
  cases s.title <;> cases s.requires <;> cases s.shortCircuit <;>
    simp [Predicate.optionalMember]

theorem nodup_members (s : StepDef) : (s.members.map (·.1)).Nodup := by
  rw [members]
  cases s.title <;> cases s.requires <;> cases s.shortCircuit <;>
    simp [Predicate.optionalMember]

theorem decode_checks (hs : s.InRange) :
    items CheckDef.decode (readingOf (.list (s.checks.map fun c => .table c.members))) =
      .ok s.checks :=
  Toml.items_written fun c hc => CheckDef.decode_members (hs c hc)

theorem decode_members (hs : s.InRange) :
    StepDef.decode (readingOf (.table s.members)) = .ok s := by
  obtain ⟨slots, hread, hl⟩ : ∃ slots, Record.read .ignored
      [required "name" text, defaulted "title" (optional text),
       defaulted "requires" (optional text), defaulted "short_circuit" flag,
       defaulted "check" (items CheckDef.decode)] (readingOf (.table s.members)) = .ok slots ∧
      ∀ k, slots.lookup k = (memberReadings s.members).lookup k := by
    refine Toml.read_written .ignored s.nodup_members ?_ ?_
    · rw [Toml.memberReadings_eq_map, List.forall_mem_map]
      intro m hm
      rcases mem_members.mp hm with rfl | ⟨t, -, rfl⟩ | ⟨q, -, rfl⟩ | ⟨-, rfl⟩ | rfl
      · exact ⟨_, rfl, rfl⟩
      · exact ⟨_, rfl, rfl⟩
      · exact ⟨_, rfl, rfl⟩
      · exact ⟨_, rfl, rfl⟩
      · exact ⟨_, rfl, check_eq_ok (decode_checks hs)⟩
    · rw [members]
      cases s.title <;> cases s.requires <;> cases s.shortCircuit <;> rfl
  have hc : slots.getD "check" (items CheckDef.decode) [] = .ok s.checks := by
    rw [Slots.getD, hl, ← decode_checks hs, members]
    cases s.title <;> cases s.requires <;> cases s.shortCircuit <;> rfl
  rw [StepDef.decode, hread]
  simp only [bind, Except.bind, hc]
  simp only [Slots.get, Slots.getD, hl]
  obtain ⟨name, title, requires, short, checks⟩ := s
  cases title <;> cases requires <;> cases short <;> rfl

theorem tidy_members (hs : s.InRange) (hne : s.checks ≠ []) : Tidy s.members := by
  have hbare : ∀ k ∈ ["name", "title", "requires", "short_circuit", "check"], IsBare k := by decide
  refine .intro s.nodup_members (fun m hm => hbare _ ?_) fun m hm => ?_
  · rcases mem_members.mp hm with rfl | ⟨t, -, rfl⟩ | ⟨q, -, rfl⟩ | ⟨-, rfl⟩ | rfl <;> simp
  · rcases mem_members.mp hm with rfl | ⟨t, -, rfl⟩ | ⟨q, -, rfl⟩ | ⟨-, rfl⟩ | rfl
    · exact .plain (.scalar (.text _))
    · exact .plain (.scalar (.text _))
    · exact .plain (.scalar (.text _))
    · exact .plain (.scalar (.bool _))
    · have h : TidyValue (.list ((s.checks.map CheckDef.members).map .table)) :=
        .tables (by simpa using hne) (List.forall_mem_map.mpr fun c hc =>
          CheckDef.tidy_members (hs c hc))
      rwa [List.map_map] at h

end StepDef

/-! ### Rulebooks -/

namespace Rulebook

variable {r : Rulebook}

theorem decode_toDocument (hd : r.settings.historyDepth ≤ Settings.depthMax)
    (hs : ∀ s ∈ r.steps, s.InRange) : Rulebook.decode (readingOf r.toDocument) = .ok r := by
  have hsettings := Settings.decode_members hd
  have hsteps : items StepDef.decode (readingOf (.list (r.steps.map fun s => .table s.members))) =
      .ok r.steps :=
    Toml.items_written fun s hm => StepDef.decode_members (hs s hm)
  obtain ⟨slots, hread, hl⟩ : ∃ slots, Record.read .ignored
      [defaulted "settings" Settings.decode, defaulted "step" (items StepDef.decode)]
      (readingOf (.table r.members)) = .ok slots ∧
      ∀ k, slots.lookup k = (memberReadings r.members).lookup k :=
    Toml.read_written .ignored (by simp [members])
      (List.forall_mem_cons.mpr ⟨⟨_, rfl, check_eq_ok hsettings⟩,
        List.forall_mem_singleton.mpr ⟨_, rfl, check_eq_ok hsteps⟩⟩) rfl
  have h₁ : slots.getD "settings" Settings.decode .standard = .ok r.settings := by
    rw [Slots.getD, hl]
    exact hsettings
  have h₂ : slots.getD "step" (items StepDef.decode) [] = .ok r.steps := by
    rw [Slots.getD, hl]
    exact hsteps
  rw [toDocument, Rulebook.decode, hread]
  simp only [bind, Except.bind, h₁, h₂]
  rfl

theorem tidy_members (hv : r.validate = .ok ()) (hd : r.settings.historyDepth ≤ integerMax)
    (hs : ∀ s ∈ r.steps, s.InRange) : Tidy r.members := by
  have hne : r.steps ≠ [] := by
    intro h
    have hb := breach?_of_validate hv
    rw [breach?, h] at hb
    cases hb
  have hsteps : TidyValue (.list ((r.steps.map StepDef.members).map .table)) :=
    .tables (by simpa using hne) (List.forall_mem_map.mpr fun s hm => by
      obtain ⟨earlier, hfits⟩ := fits_of_mem hv hm
      exact StepDef.tidy_members (hs s hm) hfits.checks_ne_nil)
  rw [List.map_map] at hsteps
  have hbare : ∀ k ∈ ["settings", "step"], IsBare k := by decide
  refine .intro (by simp [members]) (by simpa [members] using hbare) ?_
  exact List.forall_mem_cons.mpr ⟨.table (Settings.tidy_members hd),
    List.forall_mem_singleton.mpr hsteps⟩

/-- A well-formed rulebook is written, and read back as it was, when its history is one that an
integer of the text holds and its approval counts are such that their fields hold them. -/
theorem parse_write (hv : r.validate = .ok ()) (hd : r.settings.historyDepth ≤ integerMax)
    (hs : ∀ s ∈ r.steps, s.InRange) : ∃ text, r.write = some text ∧ parse text = .ok r := by
  refine ⟨Toml.write r.members, if_neg (Nat.not_lt.mpr hd), ?_⟩
  have hdepth : r.settings.historyDepth ≤ Settings.depthMax := Nat.le_trans hd (by decide)
  have hread : Toml.read (Toml.write r.members) = some (readingOf r.toDocument) :=
    (tidy_members hv hd hs).read_write
  rw [parse, hread]
  dsimp only
  rw [decode_toDocument hdepth hs]
  dsimp only
  rw [hv]

/-- A rulebook with every kind of member left out somewhere and present elsewhere, and with texts
that need quotes of every form. -/
def intricate : Rulebook where
  settings := ⟨"proof \"dir\"", "", integerMax⟩
  steps :=
    [⟨"first", none, none, false,
      [⟨"a 'b' \"c\"", some .rust, .branchProtection (some "kind = \"x\"") false (some 0)⟩,
       ⟨"", none, .branchProtection none true none⟩,
       ⟨"tab\t", some .go, .anyFileExists []⟩]⟩,
     ⟨"second", some "two\nlines \\ '''", some "first", true,
      [⟨"c", none, .ciJob "\"\"\"" (some "stack")⟩, ⟨"d", none, .ciGreen none⟩,
       ⟨"e", some .unknown, .anyFileExists ["a", "'b'", "\r\n"]⟩,
       ⟨"f", none, .prChecksGreen⟩]⟩]

theorem parse_write_intricate :
    intricate.validate = .ok () ∧ intricate.settings.historyDepth ≤ integerMax ∧
      (∀ s ∈ intricate.steps, s.InRange) ∧
      ∃ text, intricate.write = some text ∧ parse text = .ok intricate := by
  have hv : intricate.validate = .ok () := by decide
  have hd : intricate.settings.historyDepth ≤ integerMax := Nat.le_refl _
  have hs : ∀ s ∈ intricate.steps, s.InRange := by
    simp [intricate, StepDef.InRange, Predicate.InRange]
  exact ⟨hv, hd, hs, parse_write hv hd hs⟩

end Rulebook

end Readiness
