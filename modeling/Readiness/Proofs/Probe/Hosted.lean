import Readiness.Probe.Evaluate
import Readiness.Proofs.Host.Answer
import Readiness.Proofs.Host.Log

/-!
# Probe — an undetermined host is no verdict

The hosted predicates, over a client whose runs can end in any way.

* `Bears`: what the runs that a predicate makes let its outcome be.
* One lemma for each question: the runs it makes bear on its outcome.
* `branch_runs`: resolving the default branch is at most one run, and without an answer it is the
  tracked branch or the fallback.
* `undetermined_pending`: the same for the evaluator of predicates.
-/

namespace Readiness.Probe

open Client (Asked Run Unanswered NotProtected NoChecks)

variable {σ : Type}

/-- A predicate is one of those that only wait. -/
def Waits (q : Predicate) : Prop :=
  q.kind = .handshakeIssue ∨ q.kind = .ciGreen ∨ q.kind = .ciJob

/-- What the runs for a hosted predicate let its outcome be.  The run that resolves the default
branch is not among them. -/
structure Bears (q : Predicate) (own : List Asked) (o : Outcome) : Prop where
  asked : own ≠ [] ∧ ∀ a ∈ own, a.query ≠ .defaultBranch
  /-- Without an answer the predicate waits. -/
  waits : Waits q → (∃ a ∈ own, Unanswered a.query a.ended) → o.verdict = .pending
  /-- The same, except that the host can say that the branch is not protected. -/
  protection : q.kind = .branchProtection → ∃ b ended, own = [⟨.branchProtection b, ended⟩] ∧
    (NotProtected ended → o.verdict = .fail) ∧
      (Unanswered (.branchProtection b) ended → ¬ NotProtected ended → o.verdict = .pending)
  /-- The exit code does not matter to the checks of a pull request. -/
  checks : q.kind = .prChecksGreen → ∃ ended, own = [⟨.pullRequestChecks, ended⟩] ∧
    (∀ reason, ended = .error reason → o.verdict = .pending) ∧
      ∀ out, ended = .ok out →
        (NoChecks out ∨ (∀ cs, Client.parsePrChecks out.stdout ≠ .ok cs) →
          o.verdict = .pending) ∧
        (¬ NoChecks out → ∀ cs, Client.parsePrChecks out.stdout = .ok cs → o = prChecksVerdict cs)

/-- A verdict rests on answers, or on the host's word that the branch is not protected. -/
theorem Bears.answered {q : Predicate} {own : List Asked} {o : Outcome} (h : Bears q own o)
    (hq : q.isHosted = true) (ho : o.verdict ≠ .pending) :
    ∀ a ∈ own, (∃ out, a.ended = .ok out ∧ Client.Decodes a.query out.stdout ∧
        (out.success = true ∨ a.query = .pullRequestChecks)) ∨
      (NotProtected a.ended ∧ o.verdict = .fail) := by
  have answered {a : Asked} (hu : ¬ Unanswered a.query a.ended) : ∃ out, a.ended = .ok out ∧
      Client.Decodes a.query out.stdout ∧
        (out.success = true ∨ a.query = .pullRequestChecks) := by
    obtain ⟨out, he, hs, hd⟩ := Client.not_unanswered_iff.mp hu
    exact ⟨out, he, hd, .inl hs⟩
  have strict (hk : Waits q) : ∀ a ∈ own, ¬ Unanswered a.query a.ended :=
    fun a ha hu => ho (h.waits hk ⟨a, ha, hu⟩)
  intro a ha
  unfold Predicate.isHosted at hq
  split at hq
  · rename_i hk
    exact .inl (answered (strict (.inl hk) a ha))
  · rename_i hk
    obtain ⟨b, ended, rfl, hf, hw⟩ := h.protection hk
    obtain rfl := List.mem_singleton.mp ha
    by_cases hn : NotProtected ended
    · exact .inr ⟨hn, hf hn⟩
    · exact .inl (answered fun hu => ho (hw hu hn))
  · rename_i hk
    exact .inl (answered (strict (.inr (.inl hk)) a ha))
  · rename_i hk
    exact .inl (answered (strict (.inr (.inr hk)) a ha))
  · rename_i hk
    obtain ⟨ended, rfl, he, hw⟩ := h.checks hk
    obtain rfl := List.mem_singleton.mp ha
    cases ended with
    | error reason => exact absurd (he reason rfl) ho
    | ok out =>
        refine .inl ⟨out, rfl, ?_, .inr rfl⟩
        exact Classical.byContradiction fun hd =>
          ho ((hw out rfl).1 (.inr fun cs hcs => hd ⟨cs, hcs⟩))
  · cases hq

theorem Bears.of_waits {q : Predicate} {own : List Asked} {o : Outcome} (hq : Waits q)
    (asked : own ≠ [] ∧ ∀ a ∈ own, a.query ≠ .defaultBranch)
    (h : (∃ a ∈ own, Unanswered a.query a.ended) → o.verdict = .pending) : Bears q own o where
  asked := asked
  waits _ := h
  protection hk := by rcases hq with hq | hq | hq <;> rw [hk] at hq <;> cases hq
  checks hk := by rcases hq with hq | hq | hq <;> rw [hk] at hq <;> cases hq

/-! ### The questions -/

section Questions

variable (launch : Client.Launch σ) (s : σ × List Run)

theorem handshakeIssue_bears (marker : String) :
    ∃ own, (handshakeIssue (Client.host (Client.logged launch)) marker s).2.2 =
        s.2 ++ own.map Asked.run ∧
      Bears (.handshakeIssue marker) own
        (handshakeIssue (Client.host (Client.logged launch)) marker s).1 := by
  unfold handshakeIssue
  rcases ha : (Client.host (Client.logged launch)).ask (.findIssue marker) s with ⟨a, s'⟩
  obtain ⟨ended, hi, hr⟩ := Client.run_of_ask ha
  refine ⟨[⟨.findIssue marker, ended⟩], ?_, .of_waits (.inl rfl) (by simp) ?_⟩
  · rcases a with t | _ | i <;> exact hr
  · rintro ⟨_, ha, hu⟩
    obtain rfl := List.mem_singleton.mp ha
    obtain ⟨t, ht⟩ := Client.interpret_unanswered hu (by simp) (by simp)
    obtain rfl : a = .error t := hi.symm.trans ht
    rfl

theorem branchProtection_bears (branch : String) (d : Demands) :
    ∃ own, (branchProtection (Client.host (Client.logged launch)) branch d s).2.2 =
        s.2 ++ own.map Asked.run ∧
      Bears (.branchProtection d.requiredCheck d.enforceAdmins d.minApprovals) own
        (branchProtection (Client.host (Client.logged launch)) branch d s).1 := by
  unfold branchProtection
  rcases ha : (Client.host (Client.logged launch)).ask (.branchProtection branch) s with ⟨a, s'⟩
  obtain ⟨ended, hi, hr⟩ := Client.run_of_ask ha
  refine ⟨[⟨.branchProtection branch, ended⟩], ?_, ?_⟩
  · rcases a with t | _ | p <;> exact hr
  refine ⟨by simp, (by rintro (hk | hk | hk) <;> cases hk), fun _ => ?_, (nomatch ·)⟩
  refine ⟨branch, ended, rfl, fun hn => ?_, fun hu hn => ?_⟩
  · obtain rfl : a = .ok none := hi.symm.trans (Client.interpret_notProtected hn)
    rfl
  · obtain ⟨t, ht⟩ := Client.interpret_protection hu hn
    obtain rfl : a = .error t := hi.symm.trans ht
    rfl

/-- Fetching the latest run is one run of the client; it comes to a run only where it answers. -/
theorem latestRun_cases (branch : String) (workflow : Option String) :
    ∃ ended, (latestRun (Client.host (Client.logged launch)) branch workflow s).2.2 =
        s.2 ++ [Asked.run ⟨.latestRun branch workflow, ended⟩] ∧
      ((∃ run, (latestRun (Client.host (Client.logged launch)) branch workflow s).1 = .ok run ∧
          ¬ Unanswered (.latestRun branch workflow) ended) ∨
        ∃ o, (latestRun (Client.host (Client.logged launch)) branch workflow s).1 = .error o ∧
          o.verdict = .pending) := by
  unfold latestRun
  rcases ha : (Client.host (Client.logged launch)).ask (.latestRun branch workflow) s with ⟨a, s'⟩
  obtain ⟨ended, hi, hr⟩ := Client.run_of_ask ha
  refine ⟨ended, ?_, ?_⟩
  · rcases a with t | _ | run <;> exact hr
  · rcases a with t | _ | run
    · exact .inr ⟨_, rfl, rfl⟩
    · exact .inr ⟨_, rfl, rfl⟩
    · exact .inl ⟨run, rfl, Client.not_unanswered_of_ok hi (by simp) (by simp)⟩

theorem ciGreen_bears (branch : String) (workflow : Option String) :
    ∃ own, (ciGreen (Client.host (Client.logged launch)) branch workflow s).2.2 =
        s.2 ++ own.map Asked.run ∧
      Bears (.ciGreen workflow) own
        (ciGreen (Client.host (Client.logged launch)) branch workflow s).1 := by
  obtain ⟨ended, hr, hc⟩ := latestRun_cases launch s branch workflow
  unfold ciGreen
  rcases hl : latestRun (Client.host (Client.logged launch)) branch workflow s with ⟨r, s'⟩
  rw [hl] at hr hc
  refine ⟨[⟨.latestRun branch workflow, ended⟩], ?_, .of_waits (.inr (.inl rfl)) (by simp) ?_⟩
  · cases r <;> exact hr
  · rintro ⟨_, ha, hu⟩
    obtain rfl := List.mem_singleton.mp ha
    obtain ⟨run, rfl, hn⟩ | ⟨o, rfl, ho⟩ := hc
    · exact absurd hu hn
    · exact ho

theorem ciJob_bears (branch name : String) (workflow : Option String) :
    ∃ own, (ciJob (Client.host (Client.logged launch)) branch name workflow s).2.2 =
        s.2 ++ own.map Asked.run ∧
      Bears (.ciJob name workflow) own
        (ciJob (Client.host (Client.logged launch)) branch name workflow s).1 := by
  obtain ⟨ended, hr, hc⟩ := latestRun_cases launch s branch workflow
  unfold ciJob
  rcases hl : latestRun (Client.host (Client.logged launch)) branch workflow s with ⟨r, s'⟩
  rw [hl] at hr hc
  obtain ⟨run, rfl, hn⟩ | ⟨o, rfl, ho⟩ := hc
  · -- the second run asks for the jobs
    dsimp only
    rcases hj : (Client.host (Client.logged launch)).ask (.runJobs run.id) s' with ⟨a, s''⟩
    obtain ⟨ended', hi, hr'⟩ := Client.run_of_ask hj
    refine ⟨[⟨.latestRun branch workflow, ended⟩, ⟨.runJobs run.id, ended'⟩], ?_,
      .of_waits (.inr (.inr rfl)) (by simp) ?_⟩
    · have hs : s''.2 = s.2 ++ [Asked.run ⟨.latestRun branch workflow, ended⟩,
          Asked.run ⟨.runJobs run.id, ended'⟩] := by
        rw [hr', hr, List.append_assoc]; rfl
      rcases a with t | js <;> exact hs
    · rintro ⟨_, ha, hu⟩
      obtain rfl | rfl : _ = _ ∨ _ = _ := by simpa using ha
      · exact absurd hu hn
      · obtain ⟨t, ht⟩ := Client.interpret_unanswered hu (by simp) (by simp)
        obtain rfl : a = .error t := hi.symm.trans ht
        rfl
  · exact ⟨[⟨.latestRun branch workflow, ended⟩], hr,
      .of_waits (.inr (.inr rfl)) (by simp) fun _ => ho⟩

theorem prChecksGreen_bears :
    ∃ own, (prChecksGreen (Client.host (Client.logged launch)) s).2.2 =
        s.2 ++ own.map Asked.run ∧
      Bears .prChecksGreen own (prChecksGreen (Client.host (Client.logged launch)) s).1 := by
  unfold prChecksGreen
  rcases ha : (Client.host (Client.logged launch)).ask .pullRequestChecks s with ⟨a, s'⟩
  obtain ⟨ended, hi, hr⟩ := Client.run_of_ask ha
  refine ⟨[⟨.pullRequestChecks, ended⟩], ?_, ?_⟩
  · rcases a with t | _ | cs <;> exact hr
  refine ⟨by simp, (by rintro (hk | hk | hk) <;> cases hk), (nomatch ·), fun _ => ?_⟩
  refine ⟨ended, rfl, ?_, ?_⟩
  · rintro reason rfl
    obtain rfl : _ = a := hi
    rfl
  · rintro out rfl
    by_cases hn : NoChecks out
    · refine ⟨fun _ => ?_, fun h => absurd hn h⟩
      obtain h | h := Client.interpret_noChecks hn <;> obtain rfl := hi.symm.trans h <;> rfl
    · rw [Client.interpret_checks hn] at hi
      cases hp : Client.parsePrChecks out.stdout with
      | error t =>
          rw [hp] at hi
          obtain rfl : _ = a := hi
          exact ⟨fun _ => rfl, fun _ cs hcs => nomatch hcs⟩
      | ok cs =>
          rw [hp] at hi
          obtain rfl : _ = a := hi
          refine ⟨fun h => ?_, fun _ cs' hcs => ?_⟩
          · exact absurd rfl ((h.resolve_left hn) cs)
          · cases hcs; rfl

end Questions

/-! ### The default branch -/

/-- The branch where the host names none. -/
def localBranch {τ : Type} (p : Probe τ) : String := p.vcs.tracking.getD p.settings.fallbackBranch

/-- The memory after the host failed to name the default branch. -/
def unnamed {τ : Type} (p : Probe τ) (m : Memory τ) : Memory τ :=
  ⟨(p.host.ask .defaultBranch m.host).2, some p.localBranch⟩

/-- Resolving the default branch is at most one run of the client.  Where the run does not answer,
the branch is the tracked one, else the fallback. -/
theorem branch_runs {launch : Client.Launch σ} (p : Probe (σ × List Run))
    (hp : p.host = Client.host (Client.logged launch)) (m : Memory (σ × List Run)) :
    (p.branch m).2.host.2 = m.host.2 ∨
      ∃ ended, (p.branch m).2.host.2 = m.host.2 ++ [Asked.run ⟨.defaultBranch, ended⟩] ∧
        (Unanswered .defaultBranch ended → p.branch m = p.branch (p.unnamed m)) := by
  obtain ⟨x, known | known⟩ := m
  · refine .inr ?_
    rcases ha : (Client.host (Client.logged launch)).ask .defaultBranch x with ⟨a, s'⟩
    obtain ⟨ended, hi, hr⟩ := Client.run_of_ask ha
    refine ⟨ended, ?_, fun hu => ?_⟩
    · simp only [branch, defaultBranch, hp, ha]
      rcases a with t | _ | b <;> exact hr
    · obtain ⟨t, ht⟩ := Client.interpret_unanswered hu (by simp) (by simp)
      obtain rfl : a = .error t := hi.symm.trans ht
      simp only [branch, defaultBranch, unnamed, localBranch, hp, ha]
  · exact .inl rfl

/-- An evaluation that asks about the default branch sees nothing but the branch. -/
theorem askingBranch_congr {τ : Type} {p : Probe τ} {q : String → τ → Outcome × τ}
    {m m' : Memory τ} (h : p.branch m = p.branch m') :
    p.askingBranch q m = p.askingBranch q m' := by
  unfold askingBranch
  rw [h]

/-! ### The evaluator -/

/-- The runs that an evaluation makes: one for the default branch, where it is asked about and not
yet known, and those that bear on the outcome. -/
def Runs (p : Probe (σ × List Run)) (q : Predicate) (s : Scene (Memory (σ × List Run)))
    (lookup own : List Asked) : Prop :=
  (p.evaluate q s).2.inner.host.2 = s.inner.host.2 ++ (lookup ++ own).map Asked.run ∧
    (lookup = [] ∨ ∃ ended, lookup = [⟨.defaultBranch, ended⟩] ∧
      (Unanswered .defaultBranch ended →
        p.evaluate q s = p.evaluate q { s with inner := p.unnamed s.inner })) ∧
      Bears q own (p.evaluate q s).1

theorem runs_asking {p : Probe (σ × List Run)} {q : Predicate}
    {s : Scene (Memory (σ × List Run))} (question : σ × List Run → Outcome × (σ × List Run))
    (he : ∀ s, p.evaluate q s = remembering (asking question) s)
    (hq : ∃ own, (question s.inner.host).2.2 = s.inner.host.2 ++ own.map Asked.run ∧
      Bears q own (question s.inner.host).1) : ∃ lookup own, Runs p q s lookup own := by
  obtain ⟨own, hr, hb⟩ := hq
  exact ⟨[], own, by rw [he]; exact hr, .inl rfl, by rw [he]; exact hb⟩

theorem runs_askingBranch {launch : Client.Launch σ} {p : Probe (σ × List Run)}
    (hp : p.host = Client.host (Client.logged launch)) {q : Predicate}
    {s : Scene (Memory (σ × List Run))}
    (question : String → σ × List Run → Outcome × (σ × List Run))
    (he : ∀ s, p.evaluate q s = remembering (p.askingBranch question) s)
    (hq : ∀ b x, ∃ own, (question b x).2.2 = x.2 ++ own.map Asked.run ∧
      Bears q own (question b x).1) : ∃ lookup own, Runs p q s lookup own := by
  obtain ⟨own, hr, hb⟩ := hq (p.branch s.inner).1 (p.branch s.inner).2.host
  have hb : Bears q own (p.evaluate q s).1 := by rw [he]; exact hb
  have hr : (p.evaluate q s).2.inner.host.2 =
      (p.branch s.inner).2.host.2 ++ own.map Asked.run := by rw [he]; exact hr
  rcases branch_runs p hp s.inner with hl | ⟨ended, hl, hu⟩
  · exact ⟨[], own, by rw [hr, hl]; rfl, .inl rfl, hb⟩
  · refine ⟨[⟨.defaultBranch, ended⟩], own, ?_, .inr ⟨ended, rfl, fun h => ?_⟩, hb⟩
    · rw [hr, hl, List.append_assoc]; rfl
    · rw [he, he]
      simp only [remembering, askingBranch_congr (hu h)]

/-- The runs for a hosted predicate bear on its outcome. -/
theorem exists_runs {launch : Client.Launch σ} {p : Probe (σ × List Run)}
    (hp : p.host = Client.host (Client.logged launch)) {q : Predicate} (hq : q.isHosted = true)
    (s : Scene (Memory (σ × List Run))) : ∃ lookup own, Runs p q s lookup own := by
  cases q with
  | handshakeIssue marker =>
      refine runs_asking (handshakeIssue p.host marker) (fun _ => rfl) ?_
      rw [hp]
      exact handshakeIssue_bears launch _ marker
  | branchProtection c a n =>
      refine runs_askingBranch hp (fun b => branchProtection p.host b ⟨c, a, n⟩) (fun _ => rfl)
        fun b x => ?_
      rw [hp]
      exact branchProtection_bears launch x b ⟨c, a, n⟩
  | ciGreen workflow =>
      refine runs_askingBranch hp (fun b => ciGreen p.host b workflow) (fun _ => rfl)
        fun b x => ?_
      rw [hp]
      exact ciGreen_bears launch x b workflow
  | ciJob name workflow =>
      refine runs_askingBranch hp (fun b => ciJob p.host b name workflow) (fun _ => rfl)
        fun b x => ?_
      rw [hp]
      exact ciJob_bears launch x b name workflow
  | prChecksGreen =>
      refine runs_asking (prChecksGreen p.host) (fun _ => rfl) ?_
      rw [hp]
      exact prChecksGreen_bears launch _
  | _ => cases hq

/-- An undetermined host is no verdict.  The runs of the client that an evaluation makes are one for
the default branch, at most, and its own; without an answer to one of its own the predicate waits,
except where the host says that a branch is not protected.  A default branch that cannot be told is
the tracked one, else the fallback.  So a verdict rests on answers. -/
theorem undetermined_pending {launch : Client.Launch σ} {p : Probe (σ × List Run)}
    (hp : p.host = Client.host (Client.logged launch)) {q : Predicate} (hq : q.isHosted = true)
    (s : Scene (Memory (σ × List Run))) :
    ∃ lookup own,
      (p.evaluate q s).2.inner.host.2 = s.inner.host.2 ++ (lookup ++ own).map Asked.run ∧
      (lookup = [] ∨ ∃ ended, lookup = [⟨.defaultBranch, ended⟩] ∧
        (Unanswered .defaultBranch ended → p.evaluate q s = p.evaluate q
          { s with inner := ⟨(p.host.ask .defaultBranch s.inner.host).2,
                              some (p.vcs.tracking.getD p.settings.fallbackBranch)⟩ })) ∧
      Bears q own (p.evaluate q s).1 ∧
      ((p.evaluate q s).1.verdict ≠ .pending →
        ∀ a ∈ own, (∃ out, a.ended = .ok out ∧ Client.Decodes a.query out.stdout ∧
            (out.success = true ∨ a.query = .pullRequestChecks)) ∨
          (NotProtected a.ended ∧ (p.evaluate q s).1.verdict = .fail)) := by
  obtain ⟨lookup, own, hr, hl, hb⟩ := exists_runs hp hq s
  exact ⟨lookup, own, hr, hl, hb, hb.answered hq⟩

/-- The client is not there. -/
def absent : Client.Launch Unit := fun _ s => (.error "not there", s)

/-- The context of a run where the client is not there. -/
def clientless : Probe (Unit × List Run) where
  root := "/w"
  vcs := ⟨.ok ⟨"c0", "c0"⟩, some "main", fun _ => .ok [], fun _ => true⟩
  host := Client.host (Client.logged absent)
  store := ⟨"/w/p"⟩
  settings := .standard
  revision := ⟨"c0", "c0"⟩

/-- Without the client the latest run on the default branch is undetermined. -/
theorem undetermined_pending_clientless :
    clientless.host = Client.host (Client.logged absent) ∧
      (Predicate.ciGreen none).isHosted = true ∧
        ∀ t, (clientless.evaluate (.ciGreen none) ⟨⟨((), []), none⟩, t⟩).1.verdict =
          .pending := by
  refine ⟨rfl, rfl, fun t => ?_⟩
  obtain ⟨lookup, own, hr, -, hb, -⟩ :=
    @undetermined_pending Unit absent clientless rfl (.ciGreen none) rfl ⟨⟨((), []), none⟩, t⟩
  refine hb.waits (.inr (.inl rfl)) ?_
  obtain ⟨a, ha⟩ := List.exists_mem_of_ne_nil own hb.asked.1
  have hm : a.run ∈ (lookup ++ own).map Asked.run :=
    List.mem_map_of_mem (List.mem_append_right lookup ha)
  have he : a.ended = .error "not there" := by
    rw [← show _ = (lookup ++ own).map Asked.run from hr] at hm
    rcases List.mem_cons.mp hm with h | h
    · exact congrArg Run.ended h
    · exact congrArg Run.ended (List.mem_singleton.mp h)
  exact ⟨a, ha, by rw [he]; exact .unstarted _⟩

end Readiness.Probe
