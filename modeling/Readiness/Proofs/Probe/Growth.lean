import Readiness.Probe.Evaluate
import Readiness.Proofs.FileTree.Extension
import Readiness.Proofs.Outcome

/-!
# Probe — passing in a larger tree

No check asks that something be absent: one that passes passes in every tree that has more.

* `Glob.search_mono`: what matched a pattern matches it still.
* `Probe.isPass_evaluate_mono`: so for every predicate besides the gate.
-/

namespace Readiness

open FileTree (Extends)

variable {t t' : FileTree}

/-! ### Patterns -/

namespace Glob

variable {l k : Location} {directory : Bool}

theorem isDirectoryAt_mono (h : Extends t t') (hd : isDirectoryAt t l = true) :
    isDirectoryAt t' l = true := by
  rw [isDirectoryAt, beq_iff_eq] at hd ⊢
  exact h.get? _ _ hd

theorem directoriesBelow_mono (h : Extends t t') (hk : k ∈ directoriesBelow t l) :
    k ∈ directoriesBelow t' l := by
  rcases List.mem_cons.mp hk with rfl | hk
  · exact List.mem_cons_self
  · refine List.mem_cons_of_mem _ ?_
    obtain ⟨e, he, rfl⟩ := List.mem_map.mp hk
    obtain ⟨hm, hp⟩ := List.mem_filter.mp he
    exact List.mem_map_of_mem (List.mem_filter.mpr ⟨h.entries e hm, hp⟩)

theorem childrenWith_mono (h : Extends t t') {p : List Char → Bool}
    (hk : k ∈ childrenWith t p l) : k ∈ childrenWith t' p l := by
  obtain ⟨n, hn, rfl⟩ := List.mem_map.mp hk
  obtain ⟨hm, hp⟩ := List.mem_filter.mp hn
  exact List.mem_map_of_mem (List.mem_filter.mpr ⟨h.children hm, hp⟩)

theorem follow_mono (h : Extends t t') {name : List Char} (hk : k ∈ follow t name l) :
    k ∈ follow t' name l := by
  rw [follow] at hk ⊢
  split at hk
  · rename_i hn
    rwa [if_pos hn]
  · rename_i hn
    rw [if_neg hn]
    split at hk
    · rename_i hup
      rwa [if_pos hup]
    · rename_i hup
      rw [if_neg hup]
      dsimp only at hk ⊢
      split at hk
      · rename_i hs
        obtain ⟨e, he⟩ := Option.isSome_iff_exists.mp hs
        rwa [h.get? _ _ he]
      · cases hk

theorem next_mono (h : Extends t t') {p : Pattern} (hk : k ∈ next t p l) : k ∈ next t' p l := by
  rw [next] at hk ⊢
  split at hk
  · cases hk
  · rename_i hd
    rw [if_neg (by rw [isDirectoryAt_mono h (by simpa using hd)]; simp)]
    cases hp : p.literal? with
    | some name =>
        rw [hp] at hk
        exact follow_mono h hk
    | none =>
        rw [hp] at hk
        exact (List.mem_append.mp hk).elim
          (fun hk => List.mem_append_left _ (childrenWith_mono h hk)) (List.mem_append_right _)

/-- The two kinds of search go through the segments together. -/
theorem leadsTo_mono (h : Extends t t') (ps : List Pattern) :
    (∀ l, leadsTo t directory ps l = true → leadsTo t' directory ps l = true) ∧
      ∀ l, leadsTo.anywhere t directory ps l = true →
        leadsTo.anywhere t' directory ps l = true := by
  induction ps with
  | nil =>
      refine ⟨fun l hl => ?_, fun l _ => rfl⟩
      rw [leadsTo, Bool.or_eq_true] at hl ⊢
      exact hl.imp_right (isDirectoryAt_mono h)
  | cons p ps ih =>
      obtain ⟨ih, ih'⟩ := ih
      have some_mono : ∀ {ks ks' : List Location}, (∀ k ∈ ks, k ∈ ks') →
          ks.any (leadsTo t directory ps) = true → ks'.any (leadsTo t' directory ps) = true := by
        intro ks ks' hks hany
        obtain ⟨k, hk, hl⟩ := List.any_eq_true.mp hany
        exact List.any_eq_true.mpr ⟨k, hks k hk, ih k hl⟩
      constructor
      · intro l hl
        rw [leadsTo] at hl ⊢
        split at hl
        · rename_i hp
          rw [if_pos hp]
          obtain ⟨hd, ha⟩ := Bool.and_eq_true_iff.mp hl
          exact Bool.and_eq_true_iff.mpr ⟨isDirectoryAt_mono h hd, ih' l ha⟩
        · rename_i hp
          rw [if_neg hp]
          exact some_mono (fun k hk => next_mono h hk) hl
      · intro l hl
        rw [leadsTo.anywhere] at hl ⊢
        split at hl
        · rename_i hp
          rw [if_pos hp]
          exact ih' l hl
        · rename_i hp
          rw [if_neg hp]
          obtain ⟨d, hd, hany⟩ := List.any_eq_true.mp hl
          exact List.any_eq_true.mpr ⟨d, directoriesBelow_mono h hd,
            some_mono (fun k hk => childrenWith_mono h hk) hany⟩

/-- What matched a pattern matches it still. -/
theorem search_mono (h : Extends t t') {g : Glob} (hs : search t l g = true) :
    search t' l g = true := (leadsTo_mono h g.segments).1 l hs

end Glob

/-! ### Questions to the files -/

namespace Probe

variable {root path : String}

theorem fileExists_mono (h : Extends t t') (hp : (fileExists t root path).isPass = true) :
    (fileExists t' root path).isPass = true := by
  unfold fileExists at hp ⊢
  split at hp
  · rename_i c hc
    rw [h.stat? hc]
    rfl
  all_goals cases hp

theorem dirExists_mono (h : Extends t t') (hp : (dirExists t root path).isPass = true) :
    (dirExists t' root path).isPass = true := by
  unfold dirExists at hp ⊢
  split at hp
  · rename_i hd
    rw [h.stat? hd]
    rfl
  all_goals cases hp

theorem anyFileExists_mono (h : Extends t t') {paths : List String}
    (hp : (anyFileExists t root paths).isPass = true) :
    (anyFileExists t' root paths).isPass = true := by
  rw [anyFileExists, Outcome.isPass_passIf, List.any_eq_true] at hp ⊢
  exact hp.imp fun p hp => ⟨hp.1, h.isFile hp.2⟩

theorem globMatches_mono (h : Extends t t') {pattern : String}
    (hp : (globMatches t root pattern).isPass = true) :
    (globMatches t' root pattern).isPass = true := by
  unfold globMatches at hp ⊢
  split at hp
  · cases hp
  · rw [Outcome.isPass_passIf] at hp ⊢
    cases hr : t.find? root with
    | none => rw [hr] at hp; cases hp
    | some r =>
        rw [hr] at hp
        rw [h.find? hr]
        exact Glob.search_mono h hp

theorem fileContains_mono (h : Extends t t') {pattern : String}
    (hp : (fileContains t root path pattern).isPass = true) :
    (fileContains t' root path pattern).isPass = true := by
  unfold fileContains at hp ⊢
  split at hp
  · cases hp
  · split at hp
    · rename_i text ht
      rw [h.readText ht]
      exact hp
    · cases hp

theorem loadDocument_mono (h : Extends t t') {format : Format} {d : Document}
    (hd : loadDocument t path format = .ok d) : loadDocument t' path format = .ok d := by
  unfold loadDocument at hd ⊢
  split at hd
  · cases hd
  · rename_i text ht
    rw [h.readText ht]
    exact hd

theorem hasKey_mono (h : Extends t t') {key : String} {format : Format}
    (hp : (hasKey t root path key format).isPass = true) :
    (hasKey t' root path key format).isPass = true := by
  unfold hasKey at hp ⊢
  split at hp
  · cases hp
  · rename_i d hd
    rw [loadDocument_mono h hd]
    exact hp

section

-- each question has its lemma
attribute [local irreducible] fileExists dirExists anyFileExists globMatches fileContains hasKey

/-- A predicate that passes passes in every tree that has more. -/
theorem isPass_evaluate_mono {σ : Type} (p : Probe σ) (h : Extends t t') {q : Predicate}
    (hq : q.isGate = false) (m : Memory σ) (hp : (p.evaluate q ⟨m, t⟩).1.isPass = true) :
    (p.evaluate q ⟨m, t'⟩).1.isPass = true := by
  cases q with
  | fileExists path => exact fileExists_mono h hp
  | dirExists path => exact dirExists_mono h hp
  | anyFileExists paths => exact anyFileExists_mono h hp
  | globMatches pattern => exact globMatches_mono h hp
  | fileContains path pattern => exact fileContains_mono h hp
  | yamlKey path key | jsonKey path key | tomlKey path key => exact hasKey_mono h hp
  | proofExists step => cases hq
  | gitRemote | handshakeCommit | handshakeIssue | branchProtection | ciGreen | ciJob
  | prChecksGreen => exact hp

end

end Probe

end Readiness
