import Readiness.Merge
import Readiness.Proofs.Host.Answer
import Readiness.Proofs.Host.Log

/-!
# Merge — the approvals come back

An assisted merge asks the host at most four things, and any of them can fail.

* `Course`: the ways it can go, with what passes between it and the host; `course`: it goes in one
  of them.
* `Host.Accounts`: what the host keeps as the required approvals of a branch.
* `approvals_restored`: on every way they are as before, unless restoring them is what failed.
-/

namespace Readiness

variable {σ τ : Type}

/-- The approvals that a protection requires, when it requires any reviews. -/
def requiredBy (protection : Option BranchProtection) : Option Nat :=
  protection.bind (·.requiredApprovals)

namespace Merge

/-! ### The ways it can go -/

/-- A way for an assisted merge to go: the exchanges with the host, the answer, the host's state at
the end. -/
inductive Course (h : Host σ) (branch : String) (number : Nat) (method : MergeMethod) (s : σ) :
    List Exchange → Except Trouble MergeReport → σ → Prop
  /-- The protection cannot be read. -/
  | unread {t : Trouble} {s₁ : σ} (read : h.ask (.branchProtection branch) s = (.error t, s₁)) :
      Course h branch number method s [⟨.branchProtection branch, .error t⟩]
        (.error (t.within (cannotRead branch))) s₁
  /-- There is nothing to relax. -/
  | direct {p : Option BranchProtection} {merged : Except Trouble Unit} {s₁ s₂ : σ}
      (read : h.ask (.branchProtection branch) s = (.ok p, s₁))
      (zero : (requiredBy p).getD 0 = 0)
      (merge : h.ask (.merge number method) s₁ = (merged, s₂)) :
      Course h branch number method s
        [⟨.branchProtection branch, .ok p⟩, ⟨.merge number method, merged⟩]
        ((explain (cannotMerge number) merged).map fun () =>
          ⟨number, branch, requiredBy p, false⟩) s₂
  /-- The requirement cannot be relaxed. -/
  | unrelaxed {p : Option BranchProtection} {n : Nat} {t : Trouble} {s₁ s₂ : σ}
      (read : h.ask (.branchProtection branch) s = (.ok p, s₁))
      (count : requiredBy p = some (n + 1))
      (relax : h.ask (.setRequiredApprovals branch 0) s₁ = (.error t, s₂)) :
      Course h branch number method s
        [⟨.branchProtection branch, .ok p⟩, ⟨.setRequiredApprovals branch 0, .error t⟩]
        (.error (t.within (cannotRelax branch))) s₂
  /-- The requirement is relaxed, and whatever the merge comes to it cannot be restored. -/
  | unrestored {p : Option BranchProtection} {n : Nat} {merged : Except Trouble Unit} {t : Trouble}
      {s₁ s₂ s₃ s₄ : σ} (read : h.ask (.branchProtection branch) s = (.ok p, s₁))
      (count : requiredBy p = some (n + 1))
      (relax : h.ask (.setRequiredApprovals branch 0) s₁ = (.ok (), s₂))
      (merge : h.ask (.merge number method) s₂ = (merged, s₃))
      (restore : h.ask (.setRequiredApprovals branch (n + 1)) s₃ = (.error t, s₄)) :
      Course h branch number method s
        [⟨.branchProtection branch, .ok p⟩, ⟨.setRequiredApprovals branch 0, .ok ()⟩,
          ⟨.merge number method, merged⟩, ⟨.setRequiredApprovals branch (n + 1), .error t⟩]
        (.error (t.within (cannotRestore branch (n + 1)))) s₄
  /-- The requirement is relaxed, and whatever the merge comes to it is restored. -/
  | restored {p : Option BranchProtection} {n : Nat} {merged : Except Trouble Unit}
      {s₁ s₂ s₃ s₄ : σ} (read : h.ask (.branchProtection branch) s = (.ok p, s₁))
      (count : requiredBy p = some (n + 1))
      (relax : h.ask (.setRequiredApprovals branch 0) s₁ = (.ok (), s₂))
      (merge : h.ask (.merge number method) s₂ = (merged, s₃))
      (restore : h.ask (.setRequiredApprovals branch (n + 1)) s₃ = (.ok (), s₄)) :
      Course h branch number method s
        [⟨.branchProtection branch, .ok p⟩, ⟨.setRequiredApprovals branch 0, .ok ()⟩,
          ⟨.merge number method, merged⟩, ⟨.setRequiredApprovals branch (n + 1), .ok ()⟩]
        ((explain (cannotMerge number) merged).map fun () =>
          ⟨number, branch, some (n + 1), true⟩) s₄

variable {h : Host σ} {branch : String} {number : Nat} {method : MergeMethod} {s s₁ : σ}
  {p : Option BranchProtection}

theorem assisted_of_pos {n : Nat} (hr : h.ask (.branchProtection branch) s = (.ok p, s₁))
    (hn : requiredBy p = some (n + 1)) :
    assisted h branch number method s = relaxed h branch number method (n + 1) s₁ := by
  unfold requiredBy at hn
  simp only [assisted, hr, hn]

theorem assisted_of_zero (hr : h.ask (.branchProtection branch) s = (.ok p, s₁))
    (hz : (requiredBy p).getD 0 = 0) :
    assisted h branch number method s = direct h branch number method (requiredBy p) s₁ := by
  simp only [assisted, hr]
  split
  · rename_i n hn
    rw [show requiredBy p = some (n + 1) from hn] at hz
    cases hz
  · rfl

/-- An assisted merge goes in one of the ways it can go. -/
theorem course (h : Host σ) (branch : String) (number : Nat) (method : MergeMethod) (s : σ) :
    ∃ log, Course h branch number method s log (assisted h branch number method s).1
      (assisted h branch number method s).2 := by
  rcases hread : h.ask (.branchProtection branch) s with ⟨t | p, s₁⟩
  · have ha : assisted h branch number method s = (.error (t.within (cannotRead branch)), s₁) := by
      simp only [assisted, hread]
    rw [ha]
    exact ⟨_, .unread hread⟩
  · rcases hn : (requiredBy p).getD 0 with _ | n
    · rw [assisted_of_zero hread hn]
      exact ⟨_, .direct hread hn rfl⟩
    · have hn : requiredBy p = some (n + 1) := by
        cases hc : requiredBy p <;> simp_all
      rw [assisted_of_pos hread hn]
      unfold relaxed
      rcases hrelax : h.ask (.setRequiredApprovals branch 0) s₁ with ⟨t | _, s₂⟩
      · exact ⟨_, .unrelaxed hread hn hrelax⟩
      · rcases hmerge : h.ask (.merge number method) s₂ with ⟨m, s₃⟩
        rcases hrestore : h.ask (.setRequiredApprovals branch (n + 1)) s₃ with ⟨t | _, s₄⟩
        all_goals simp only [hmerge, hrestore]
        · exact ⟨_, .unrestored hread hn hrelax hmerge hrestore⟩
        · exact ⟨_, .restored hread hn hrelax hmerge hrestore⟩

/-- What is kept of the exchanges is what passed, and keeping it changes nothing else. -/
theorem Course.assisted_logged {log : List Exchange} {answer : Except Trouble MergeReport} {s' : σ}
    (hc : Course h branch number method s log answer s') :
    assisted h.logged branch number method (s, []) = (answer, s', log) := by
  cases hc with
  | unread read => simp [assisted, Host.ask_logged, read]
  | direct read zero merge =>
      rw [assisted_of_zero (by rw [Host.ask_logged, read]) zero]
      simp [Merge.direct, Host.ask_logged, merge]
  | unrelaxed read count relax =>
      rw [assisted_of_pos (by rw [Host.ask_logged, read]) count]
      simp [relaxed, Host.ask_logged, relax]
  | unrestored read count relax merge restore | restored read count relax merge restore =>
      rw [assisted_of_pos (by rw [Host.ask_logged, read]) count]
      simp [relaxed, Host.ask_logged, relax, merge, restore]

/-! ### What is asked -/

/-- What is asked of the host, and what it answered: the protection, which cannot be read; or the
relaxing, which fails; or the merge alone, with nothing to relax; or all of it, up to the number
that was read. -/
def Asked (branch : String) (number : Nat) (method : MergeMethod) (log : List Exchange) : Prop :=
  (∃ t, log = [⟨.branchProtection branch, .error t⟩]) ∨
    (∃ p n t, requiredBy p = some n ∧ 0 < n ∧
      log = [⟨.branchProtection branch, .ok p⟩, ⟨.setRequiredApprovals branch 0, .error t⟩]) ∨
    (∃ p merged, (requiredBy p = none ∨ requiredBy p = some 0) ∧
      log = [⟨.branchProtection branch, .ok p⟩, ⟨.merge number method, merged⟩]) ∨
    ∃ p n merged restored, requiredBy p = some n ∧ 0 < n ∧
      log = [⟨.branchProtection branch, .ok p⟩, ⟨.setRequiredApprovals branch 0, .ok ()⟩,
        ⟨.merge number method, merged⟩, ⟨.setRequiredApprovals branch n, restored⟩]

/-- The last of four exchanges was to restore `n` approvals, and it failed. -/
def Unrestored (branch : String) (log : List Exchange) (n : Nat) (t : Trouble) : Prop :=
  ∃ e₁ e₂ e₃, log = [e₁, e₂, e₃, ⟨.setRequiredApprovals branch n, .error t⟩]

namespace Course

variable {log : List Exchange} {answer : Except Trouble MergeReport} {s' : σ}

theorem asked (hc : Course h branch number method s log answer s') :
    Asked branch number method log := by
  cases hc with
  | unread read => exact .inl ⟨_, rfl⟩
  | direct read zero merge =>
      rename_i p merged _
      refine .inr (.inr (.inl ⟨p, merged, ?_, rfl⟩))
      rcases hp : requiredBy p with _ | n
      · exact .inl rfl
      · rw [hp] at zero
        exact .inr (congrArg some zero)
  | unrelaxed read count relax => exact .inr (.inl ⟨_, _, _, count, Nat.succ_pos _, rfl⟩)
  | unrestored read count relax merge restore | restored read count relax merge restore =>
      exact .inr (.inr (.inr ⟨_, _, _, _, count, Nat.succ_pos _, rfl⟩))

theorem map_explain_eq_ok {α β : Type} {f : α → β} {context : String} {r : Except Trouble α}
    {b : β} : (explain context r).map f = .ok b ↔ ∃ a, r = .ok a ∧ f a = b := by
  cases r with
  | error t => exact ⟨fun h => (nomatch h), fun ⟨_, h, _⟩ => (nomatch h)⟩
  | ok a =>
      constructor
      · exact fun h => ⟨a, rfl, Except.ok.inj h⟩
      · rintro ⟨_, ⟨⟩, rfl⟩
        rfl

/-- The answer is a report just when every query was answered. -/
theorem ok_iff (hc : Course h branch number method s log answer s') :
    (∃ r, answer = .ok r) ↔ ∀ e ∈ log, e.Succeeded := by
  cases hc <;> simp [map_explain_eq_ok, Exchange.Succeeded]

/-- The report tells the approvals that were read, and whether they were relaxed. -/
theorem report (hc : Course h branch number method s log answer s') {r : MergeReport}
    (hr : answer = .ok r) : r.pullRequest = number ∧ r.branch = branch ∧
      ∃ p, log.head? = some ⟨.branchProtection branch, .ok p⟩ ∧ r.formerApprovals = requiredBy p ∧
        (r.relaxed = true ↔ ∃ n, requiredBy p = some n ∧ 0 < n) := by
  cases hc with
  | unread | unrelaxed | unrestored => cases hr
  | direct read zero merge =>
      rename_i p merged _
      obtain ⟨-, -, rfl⟩ := map_explain_eq_ok.mp hr
      refine ⟨rfl, rfl, p, rfl, rfl, iff_of_false (fun h => nomatch h) ?_⟩
      rintro ⟨n, hn, hpos⟩
      rw [hn] at zero
      exact Nat.ne_of_gt hpos zero
  | restored read count relax merge restore =>
      rename_i p n _ _ _ _
      obtain ⟨-, -, rfl⟩ := map_explain_eq_ok.mp hr
      exact ⟨rfl, rfl, p, rfl, count.symm, iff_of_true rfl ⟨n + 1, count, n.succ_pos⟩⟩

end Course

end Merge

/-! ### What the host keeps -/

/-- What the host keeps as the required approvals of the branch: reading the protection tells them,
setting them changes them to what is asked for, a merge leaves them alone, and so does every query
that fails. -/
structure Host.Accounts (h : Host σ) (branch : String) (count : σ → Option Nat) : Prop where
  read : ∀ {p : Option BranchProtection} {s s' : σ},
    h.ask (.branchProtection branch) s = (.ok p, s') → requiredBy p = count s ∧ count s' = count s
  set : ∀ {n : Nat} {s s' : σ},
    h.ask (.setRequiredApprovals branch n) s = (.ok (), s') → count s' = some n
  merge : ∀ {number : Nat} {method : MergeMethod} {s s' : σ},
    h.ask (.merge number method) s = (.ok (), s') → count s' = count s
  failed : ∀ {q : HostQuery} {t : Trouble} {s s' : σ}, h.ask q s = (.error t, s') →
    count s' = count s

namespace Merge

variable {h : Host σ} {branch : String} {number : Nat} {method : MergeMethod} {s : σ}

theorem count_merge {count : σ → Option Nat} (ha : h.Accounts branch count) {s s' : σ}
    {merged : Except Trouble Unit} (hm : h.ask (.merge number method) s = (merged, s')) :
    count s' = count s := by
  cases merged with
  | error t => exact ha.failed hm
  | ok u => exact ha.merge hm

/-- The approvals are as before, unless restoring them failed; they are then at zero, and the
answer says which number to restore. -/
theorem Course.count {log : List Exchange} {answer : Except Trouble MergeReport} {s' : σ}
    (hc : Course h branch number method s log answer s') {count : σ → Option Nat}
    (ha : h.Accounts branch count) :
    (count s' = count s ↔ ¬ ∃ n t, Unrestored branch log n t) ∧
      ∀ n t, Unrestored branch log n t →
        answer = .error (t.within (cannotRestore branch n)) ∧ count s = some n := by
  have kept {log : List Exchange} {s' : σ} {P : Nat → Trouble → Prop} (he : count s' = count s)
      (hu : ∀ n t, ¬ Unrestored branch log n t) :
      (count s' = count s ↔ ¬ ∃ n t, Unrestored branch log n t) ∧
        ∀ n t, Unrestored branch log n t → P n t :=
    ⟨iff_of_true he fun ⟨n, t, h⟩ => hu n t h, fun n t h => absurd h (hu n t)⟩
  cases hc with
  | unread read => exact kept (ha.failed read) (by simp [Unrestored])
  | direct read zero merge =>
      exact kept ((count_merge ha merge).trans (ha.read read).2) (by simp [Unrestored])
  | unrelaxed read n relax =>
      exact kept ((ha.failed relax).trans (ha.read read).2) (by simp [Unrestored])
  | restored read hn relax merge restore =>
      refine kept ?_ (by simp [Unrestored])
      rw [ha.set restore, ← hn, (ha.read read).1]
  | unrestored read hn relax merge restore =>
      rename_i p n merged t s₁ s₂ s₃
      have hs : count s = some (n + 1) := (ha.read read).1.symm.trans hn
      have hs' : count s' = some 0 := by
        rw [ha.failed restore, count_merge ha merge, ha.set relax]
      refine ⟨iff_of_false (by rw [hs, hs']; simp) ?_, ?_⟩
      · exact fun h => h ⟨n + 1, t, _, _, _, rfl⟩
      · rintro m t' ⟨e₁, e₂, e₃, he⟩
        obtain ⟨-, -, -, rfl, rfl⟩ : _ ∧ _ ∧ _ ∧ n + 1 = m ∧ t = t' := by simpa using he
        exact ⟨rfl, hs⟩

/-! ### The client's runs -/

/-- Behind the client every exchange is one run of it.  The number in the command line that restores
the approvals is the one decoded from the protection that was read. -/
theorem Course.restored_number {launch : Client.Launch τ} {s₀ s₁ : τ} {log : List Exchange}
    {answer : Except Trouble MergeReport} {runs : List Client.Run}
    (hc : Course (Client.host (Client.logged launch)) branch number method (s₀, []) log answer
      (s₁, runs)) :
    runs.map (·.arguments) = log.map (fun e => Client.arguments e.1) ∧
      ∀ patch, runs[3]? = some patch → ∃ o p n,
        runs.head? = some ⟨["api", Client.protectionEndpoint branch], .ok o⟩ ∧
        o.success = true ∧ Client.parseProtection (Text.Utf8.lossy o.stdout) = .ok p ∧
          p.requiredApprovals = some n ∧ n ≤ BranchProtection.countMax ∧
            patch.arguments = ["api", "-X", "PATCH",
              Client.protectionEndpoint branch ++ "/required_pull_request_reviews", "-F",
              "required_approving_review_count=" ++ toString n] := by
  cases hc with
  | unread read =>
      obtain ⟨_, -, rfl⟩ := Client.run_of_ask read
      simp [Client.Asked.run]
  | direct read zero merge =>
      obtain ⟨_, -, hr⟩ := Client.run_of_ask read
      obtain ⟨_, -, hm⟩ := Client.run_of_ask merge
      obtain rfl : runs = _ := hm
      simp [hr, Client.Asked.run]
  | unrelaxed read count relax =>
      obtain ⟨_, -, hr⟩ := Client.run_of_ask read
      obtain ⟨_, -, hx⟩ := Client.run_of_ask relax
      obtain rfl : runs = _ := hx
      simp [hr, Client.Asked.run]
  | unrestored read count relax merge restore | restored read count relax merge restore =>
      obtain ⟨q, rfl, hq⟩ := Option.bind_eq_some_iff.mp count
      obtain ⟨_, ha, hr⟩ := Client.run_of_ask read
      obtain ⟨_, -, hx⟩ := Client.run_of_ask relax
      obtain ⟨_, -, hm⟩ := Client.run_of_ask merge
      obtain ⟨_, -, hs⟩ := Client.run_of_ask restore
      obtain rfl : runs = _ := hs
      obtain ⟨o, rfl, ho, hp⟩ := Client.protection_of_interpret ha
      have hn := BranchProtection.requiredApprovals_le (Client.decode_of_parseProtection hp) hq
      rw [hm, hx, hr]
      refine ⟨rfl, ?_⟩
      rintro patch ⟨⟩
      exact ⟨o, q, _, rfl, ho, hp, hq, hn, rfl⟩

/-- An assisted merge gives the approvals back.  On every way it can go the host keeps the count it
kept before, unless restoring the count is what failed, and then the answer tells it.  A merge is
reported just when every query was answered.  Behind the client the count that is sent last is the
very number decoded from the answer to the first query. -/
theorem approvals_restored (h : Host σ) (launch : Client.Launch τ) (branch : String) (number : Nat)
    (method : MergeMethod) (s : σ) (s₀ : τ) :
    (∃ log answer s', assisted h branch number method s = (answer, s') ∧
      assisted h.logged branch number method (s, []) = (answer, s', log) ∧
      Asked branch number method log ∧
      ((∃ r, answer = .ok r) ↔ ∀ e ∈ log, e.Succeeded) ∧
      (∀ r, answer = .ok r → r.pullRequest = number ∧ r.branch = branch ∧
        ∃ p, log.head? = some ⟨.branchProtection branch, .ok p⟩ ∧
          r.formerApprovals = requiredBy p ∧
            (r.relaxed = true ↔ ∃ n, requiredBy p = some n ∧ 0 < n)) ∧
      ∀ count, h.Accounts branch count →
        (count s' = count s ↔ ¬ ∃ n t, Unrestored branch log n t) ∧
          ∀ n t, Unrestored branch log n t →
            answer = .error (t.within (cannotRestore branch n)) ∧ count s = some n) ∧
    ∃ log answer s' runs,
      assisted (Client.host (Client.logged launch)).logged branch number method ((s₀, []), []) =
        (answer, (s', runs), log) ∧
      Asked branch number method log ∧
      runs.map (·.arguments) = log.map (fun e => Client.arguments e.1) ∧
      ∀ patch, runs[3]? = some patch → ∃ o p n,
        runs.head? = some ⟨["api", Client.protectionEndpoint branch], .ok o⟩ ∧
          o.success = true ∧ Client.parseProtection (Text.Utf8.lossy o.stdout) = .ok p ∧
            p.requiredApprovals = some n ∧ n ≤ BranchProtection.countMax ∧
              patch.arguments = ["api", "-X", "PATCH",
                Client.protectionEndpoint branch ++ "/required_pull_request_reviews", "-F",
                "required_approving_review_count=" ++ toString n] := by
  constructor
  · obtain ⟨log, hc⟩ := course h branch number method s
    exact ⟨log, _, _, rfl, hc.assisted_logged, hc.asked, hc.ok_iff, fun _ => hc.report,
      fun _ => hc.count⟩
  · obtain ⟨log, hc⟩ := course (Client.host (Client.logged launch)) branch number method (s₀, [])
    exact ⟨log, _, _, _, hc.assisted_logged, hc.asked, hc.restored_number⟩

/-- A host that keeps the approvals of one branch, and fails where its script says so. -/
def scripted : Host (Option Nat × List Bool) where
  isAvailable s := (true, s)
  ask q
    | (count, false :: script) => (.error (.ofCause "outage"), count, script)
    | (count, script) =>
      match q with
      | .branchProtection _ => (.ok (some ⟨[], false, count⟩), count, script.tail)
      | .setRequiredApprovals _ n => (.ok (), some n, script.tail)
      | .merge .. => (.ok (), count, script.tail)
      | .defaultBranch | .latestRun .. | .pullRequestChecks | .findIssue _ =>
        (.ok none, count, script.tail)
      | .runJobs _ => (.ok [], count, script.tail)

theorem accounts_scripted (branch : String) : scripted.Accounts branch Prod.fst where
  read {p s s'} h := by
    obtain ⟨count, _ | ⟨_ | _, script⟩⟩ := s <;> cases h <;> exact ⟨rfl, rfl⟩
  set {n s s'} h := by
    obtain ⟨count, _ | ⟨_ | _, script⟩⟩ := s <;> cases h <;> rfl
  merge {number method s s'} h := by
    obtain ⟨count, _ | ⟨_ | _, script⟩⟩ := s <;> cases h <;> rfl
  failed {q t s s'} h := by
    obtain ⟨count, _ | ⟨_ | _, script⟩⟩ := s <;> cases q <;> cases h <;> rfl

/-- The merge fails, and the two approvals are back. -/
theorem approvals_restored_scripted :
    scripted.Accounts "main" Prod.fst ∧
      (assisted scripted "main" 7 .squash (some 2, [true, true, false, true])).2.1 = some 2 := by
  refine ⟨accounts_scripted "main", ?_⟩
  obtain ⟨⟨log, answer, s', ha, hl, -, -, -, hc⟩, -⟩ :=
    approvals_restored scripted (fun _ s => (.error "not there", s)) "main" 7 .squash
      (some 2, [true, true, false, true]) ()
  rw [ha]
  refine (hc Prod.fst (accounts_scripted "main")).1.mpr ?_
  rintro ⟨n, t, e₁, e₂, e₃, rfl⟩
  cases hl

end Merge

end Readiness
