import Mathlib.Data.List.Basic
import Readiness.Proofs.Probe.Steady
import Readiness.Proofs.Repository.Tracking

/-!
# Probe — one default branch for a run

The default branch is looked up when a predicate first asks about it, and then remembered.  That
shows in the queries the host gets, and in nothing else.

* `Predicate.usesBranch`, `HostQuery.branch?`: who asks about the branch, and what names it.
* `Probe.evaluate_recorded`: the queries that one predicate makes.
* `Probe.evaluateAll_recorded`: those of a run, which look up the branch once, where a predicate
  needs it first.
* `Probe.Resolves`, `Probe.resolves_ofTree`: what the branch is called.
* `Probe.evaluateAll_transparent`: every predicate comes to what it would come to alone.
-/

namespace Readiness

/-- The predicate asks about the default branch. -/
def Predicate.usesBranch (q : Predicate) : Bool :=
  match q.kind with
  | .branchProtection | .ciGreen | .ciJob => true
  | _ => false

namespace HostQuery

/-- The branch that a query names. -/
def branch? : HostQuery → Option String
  | .branchProtection b | .latestRun b _ | .setRequiredApprovals b _ => some b
  | _ => none

/-- The query has nothing to do with a branch. -/
def Aside (a : HostQuery) : Prop := a ≠ .defaultBranch ∧ a.branch? = none

/-- The query does not look the branch up, and if it names one then this one. -/
def Heeds (b : String) (a : HostQuery) : Prop :=
  a ≠ .defaultBranch ∧ ∀ b', a.branch? = some b' → b' = b

theorem Aside.heeds {a : HostQuery} (h : a.Aside) (b : String) : a.Heeds b :=
  ⟨h.1, fun _ hb => by cases h.2.symm.trans hb⟩

end HostQuery

open HostQuery (Aside Heeds)

theorem Host.ask_recorded {σ : Type} (h : Host σ) (q : HostQuery) (x : σ)
    (log : List HostQuery) :
    h.recorded.ask q (x, log) = ((h.ask q x).1, (h.ask q x).2, log ++ [q]) := rfl

namespace Probe

variable {σ : Type}

/-! ### Queries of one question -/

/-- A question to the recorded host comes to the same, and the queries it makes are told. -/
def Records (f : σ → Outcome × σ)
    (f' : σ × List HostQuery → Outcome × (σ × List HostQuery))
    (P : List HostQuery → Prop) : Prop :=
  ∀ x log, ∃ own, f' (x, log) = ((f x).1, (f x).2, log ++ own) ∧ P own

/-- The queries have nothing to do with a branch. -/
def Unconcerned (own : List HostQuery) : Prop := ∀ a ∈ own, a.Aside

/-- The queries begin with one that names the branch, and the others name none. -/
def Concerns (b : String) (own : List HostQuery) : Prop :=
  ∃ first rest, own = first :: rest ∧ first.branch? = some b ∧ Unconcerned rest

section Questions

variable (h : Host σ)

theorem handshakeIssue_records (marker : String) :
    Records (handshakeIssue h marker) (handshakeIssue h.recorded marker) Unconcerned := by
  intro x log
  refine ⟨[.findIssue marker], ?_, by simp [Unconcerned, Aside, HostQuery.branch?]⟩
  unfold handshakeIssue
  rw [Host.ask_recorded]
  rcases h.ask (.findIssue marker) x with ⟨t | _ | i, x'⟩ <;> rfl

theorem prChecksGreen_records :
    Records (prChecksGreen h) (prChecksGreen h.recorded) Unconcerned := by
  intro x log
  refine ⟨[.pullRequestChecks], ?_, by simp [Unconcerned, Aside, HostQuery.branch?]⟩
  unfold prChecksGreen
  rw [Host.ask_recorded]
  rcases h.ask .pullRequestChecks x with ⟨t | _ | cs, x'⟩ <;> rfl

theorem branchProtection_records (branch : String) (d : Demands) :
    Records (branchProtection h branch d) (branchProtection h.recorded branch d)
      (Concerns branch) := by
  intro x log
  refine ⟨[.branchProtection branch], ?_, _, [], rfl, rfl, by simp [Unconcerned]⟩
  unfold branchProtection
  rw [Host.ask_recorded]
  rcases h.ask (.branchProtection branch) x with ⟨t | _ | p, x'⟩ <;> rfl

theorem latestRun_recorded (branch : String) (workflow : Option String) (x : σ)
    (log : List HostQuery) :
    latestRun h.recorded branch workflow (x, log) =
      ((latestRun h branch workflow x).1, (latestRun h branch workflow x).2,
        log ++ [.latestRun branch workflow]) := by
  unfold latestRun
  rw [Host.ask_recorded]
  rcases h.ask (.latestRun branch workflow) x with ⟨t | _ | run, x'⟩ <;> rfl

theorem ciGreen_records (branch : String) (workflow : Option String) :
    Records (ciGreen h branch workflow) (ciGreen h.recorded branch workflow)
      (Concerns branch) := by
  intro x log
  refine ⟨[.latestRun branch workflow], ?_, _, [], rfl, rfl, by simp [Unconcerned]⟩
  unfold ciGreen
  rw [latestRun_recorded]
  rcases latestRun h branch workflow x with ⟨o | run, x'⟩ <;> rfl

theorem ciJob_records (branch name : String) (workflow : Option String) :
    Records (ciJob h branch name workflow) (ciJob h.recorded branch name workflow)
      (Concerns branch) := by
  intro x log
  unfold ciJob
  rw [latestRun_recorded]
  rcases latestRun h branch workflow x with ⟨o | run, x'⟩
  · exact ⟨[.latestRun branch workflow], rfl, _, [], rfl, rfl, by simp [Unconcerned]⟩
  · -- the jobs are asked for by the number of the run
    refine ⟨[.latestRun branch workflow, .runJobs run.id], ?_, _, _, rfl, rfl,
      by simp [Unconcerned, Aside, HostQuery.branch?]⟩
    dsimp only
    rw [Host.ask_recorded, List.append_assoc]
    rcases h.ask (.runJobs run.id) x' with ⟨t | jobs, x''⟩ <;> rfl

theorem defaultBranch_recorded (vcs : Vcs) (fallback : String) (x : σ) (log : List HostQuery) :
    defaultBranch h.recorded vcs fallback (x, log) =
      ((defaultBranch h vcs fallback x).1, (defaultBranch h vcs fallback x).2,
        log ++ [.defaultBranch]) := by
  unfold defaultBranch
  rw [Host.ask_recorded]
  rcases h.ask .defaultBranch x with ⟨t | _ | b, x'⟩ <;> rfl

end Questions

/-! ### Queries of one predicate -/

/-- The same probe, the host keeping the queries it is asked. -/
def recorded (p : Probe σ) : Probe (σ × List HostQuery) :=
  ⟨p.root, p.vcs, p.host.recorded, p.store, p.settings, p.revision⟩

/-- The same scene, with the queries that were asked so far. -/
def withLog (s : Scene (Memory σ)) (log : List HostQuery) :
    Scene (Memory (σ × List HostQuery)) :=
  ⟨⟨(s.inner.host, log), s.inner.branch⟩, s.files⟩

variable {p : Probe σ} {q : Predicate} {s : Scene (Memory σ)}

-- which questions the files are asked does not matter here
attribute [local irreducible] fileExists dirExists anyFileExists globMatches fileContains hasKey
  gitRemote handshakeCommit ProofStore.check

theorem evaluate_asking {question : σ → Outcome × σ}
    {question' : σ × List HostQuery → Outcome × (σ × List HostQuery)}
    (he : ∀ s, p.evaluate q s = remembering (asking question) s)
    (he' : ∀ s, p.recorded.evaluate q s = remembering (asking question') s)
    (hr : Records question question' Unconcerned) (s : Scene (Memory σ)) (log : List HostQuery) :
    ∃ own, p.recorded.evaluate q (withLog s log) =
        ((p.evaluate q s).1, withLog (p.evaluate q s).2 (log ++ own)) ∧
      Unconcerned own ∧ (p.evaluate q s).2.inner.branch = s.inner.branch := by
  obtain ⟨own, ho, hown⟩ := hr s.inner.host log
  refine ⟨own, ?_, hown, by rw [he]; rfl⟩
  rw [he, he']
  simp only [remembering, asking, withLog, ho]

/-- A predicate that does not ask about the branch leaves it as it is, known or not. -/
theorem evaluate_aside (hq : q.usesBranch = false) (s : Scene (Memory σ))
    (log : List HostQuery) :
    ∃ own, p.recorded.evaluate q (withLog s log) =
        ((p.evaluate q s).1, withLog (p.evaluate q s).2 (log ++ own)) ∧
      Unconcerned own ∧ (p.evaluate q s).2.inner.branch = s.inner.branch := by
  cases q with
  | handshakeIssue marker =>
      exact evaluate_asking (fun _ => rfl) (fun _ => rfl) (handshakeIssue_records p.host marker) s
        log
  | prChecksGreen =>
      exact evaluate_asking (fun _ => rfl) (fun _ => rfl) (prChecksGreen_records p.host) s log
  | branchProtection | ciGreen | ciJob => cases hq
  | _ => exact ⟨[], by rw [List.append_nil]; rfl, by simp [Unconcerned], rfl⟩

/-- The queries that find out about the branch: none once it is known. -/
def lookup (m : Memory σ) : List HostQuery :=
  match m.branch with
  | none => [.defaultBranch]
  | some _ => []

theorem branch_recorded (p : Probe σ) (m : Memory σ) (log : List HostQuery) :
    p.recorded.branch ⟨(m.host, log), m.branch⟩ =
      (p.branchFor m, ⟨((p.branch m).2.host, log ++ lookup m), some (p.branchFor m)⟩) := by
  obtain ⟨x, _ | b⟩ := m
  · unfold branch branchFor lookup
    dsimp only [recorded]
    rw [defaultBranch_recorded]
    rfl
  · simp [branch, branchFor, lookup]

theorem branch_eq (p : Probe σ) (m : Memory σ) :
    p.branch m = (p.branchFor m, ⟨(p.branch m).2.host, some (p.branchFor m)⟩) := by
  obtain ⟨x, _ | b⟩ := m <;> rfl

theorem evaluate_askingBranch {question : String → σ → Outcome × σ}
    {question' : String → σ × List HostQuery → Outcome × (σ × List HostQuery)}
    (he : ∀ s, p.evaluate q s = remembering (p.askingBranch question) s)
    (he' : ∀ s, p.recorded.evaluate q s = remembering (p.recorded.askingBranch question') s)
    (hr : ∀ b, Records (question b) (question' b) (Concerns b)) (s : Scene (Memory σ))
    (log : List HostQuery) :
    ∃ own, p.recorded.evaluate q (withLog s log) =
        ((p.evaluate q s).1, withLog (p.evaluate q s).2 (log ++ (lookup s.inner ++ own))) ∧
      Concerns (p.branchFor s.inner) own ∧
        (p.evaluate q s).2.inner.branch = some (p.branchFor s.inner) := by
  obtain ⟨own, ho, hown⟩ :=
    hr (p.branchFor s.inner) (p.branch s.inner).2.host (log ++ lookup s.inner)
  rw [List.append_assoc] at ho
  refine ⟨own, ?_, hown, ?_⟩
  · rw [he, he']
    simp only [remembering, askingBranch, asking, withLog, branch_recorded, ho]
    rw [branch_eq]
  · rw [he]
    simp only [remembering, askingBranch, asking]
    rw [branch_eq]

/-- A predicate that asks about the branch looks it up where it is not known yet, and then knows
it. -/
theorem evaluate_about (hq : q.usesBranch = true) (s : Scene (Memory σ))
    (log : List HostQuery) :
    ∃ own, p.recorded.evaluate q (withLog s log) =
        ((p.evaluate q s).1, withLog (p.evaluate q s).2 (log ++ (lookup s.inner ++ own))) ∧
      Concerns (p.branchFor s.inner) own ∧
        (p.evaluate q s).2.inner.branch = some (p.branchFor s.inner) := by
  cases q with
  | branchProtection c a n =>
      exact evaluate_askingBranch (fun _ => rfl) (fun _ => rfl)
        (fun b => branchProtection_records p.host b ⟨c, a, n⟩) s log
  | ciGreen workflow =>
      exact evaluate_askingBranch (fun _ => rfl) (fun _ => rfl)
        (fun b => ciGreen_records p.host b workflow) s log
  | ciJob name workflow =>
      exact evaluate_askingBranch (fun _ => rfl) (fun _ => rfl)
        (fun b => ciJob_records p.host b name workflow) s log
  | _ => cases hq

/-! ### Queries of a run -/

/-- The predicates are evaluated one after the other. -/
def evaluateAll (p : Probe σ) :
    List Predicate → Scene (Memory σ) → List Outcome × Scene (Memory σ)
  | [], s => ([], s)
  | q :: qs, s =>
    let (o, s) := p.evaluate q s
    let (os, s) := evaluateAll p qs s
    (o :: os, s)

variable {qs : List Predicate} {asked : List HostQuery} {b : String}

theorem evaluateAll_cons (p : Probe σ) (q : Predicate) (qs : List Predicate)
    (s : Scene (Memory σ)) :
    p.evaluateAll (q :: qs) s = ((p.evaluate q s).1 :: (p.evaluateAll qs (p.evaluate q s).2).1,
      (p.evaluateAll qs (p.evaluate q s).2).2) := rfl

/-- The queries look the branch up once, right before the first of them that names it. -/
def LooksUp (b : String) (asked : List HostQuery) : Prop :=
  ∃ pre first post, asked = pre ++ .defaultBranch :: first :: post ∧
    Unconcerned pre ∧ first.branch? = some b ∧ ∀ a ∈ post, a.Heeds b

theorem Concerns.heeds {own : List HostQuery} (h : Concerns b own) : ∀ a ∈ own, a.Heeds b := by
  obtain ⟨first, rest, rfl, hf, hr⟩ := h
  rw [List.forall_mem_cons]
  refine ⟨⟨?_, fun b' hb => Option.some.inj (hb.symm.trans hf)⟩, fun a ha => (hr a ha).heeds b⟩
  rintro rfl
  cases hf

/-- Once the branch is known it is not looked up any more, and no other one is asked about. -/
theorem evaluateAll_known (hb : s.inner.branch = some b) (log : List HostQuery) :
    ∃ asked, p.recorded.evaluateAll qs (withLog s log) =
        ((p.evaluateAll qs s).1, withLog (p.evaluateAll qs s).2 (log ++ asked)) ∧
      ∀ a ∈ asked, a.Heeds b := by
  induction qs generalizing s log with
  | nil => exact ⟨[], by rw [List.append_nil]; rfl, by simp⟩
  | cons q qs ih =>
      have hf : p.branchFor s.inner = b := by simp [branchFor, branch, hb]
      have hl : lookup s.inner = [] := by simp [lookup, hb]
      obtain ⟨own, ho, hown, hb'⟩ : ∃ own, p.recorded.evaluate q (withLog s log) =
          ((p.evaluate q s).1, withLog (p.evaluate q s).2 (log ++ own)) ∧
          (∀ a ∈ own, a.Heeds b) ∧ (p.evaluate q s).2.inner.branch = some b := by
        cases hq : q.usesBranch with
        | false =>
            obtain ⟨own, ho, hown, hb'⟩ := evaluate_aside (p := p) hq s log
            exact ⟨own, ho, fun a ha => (hown a ha).heeds b, hb'.trans hb⟩
        | true =>
            obtain ⟨own, ho, hown, hb'⟩ := evaluate_about (p := p) hq s log
            rw [hl, List.nil_append] at ho
            rw [hf] at hown hb'
            exact ⟨own, ho, hown.heeds, hb'⟩
      obtain ⟨asked, ha, hasked⟩ := ih hb' (log ++ own)
      refine ⟨own ++ asked, ?_, List.forall_mem_append.mpr ⟨hown, hasked⟩⟩
      rw [evaluateAll_cons, evaluateAll_cons, ho, ha, List.append_assoc]

/-- A run that begins without the branch looks it up once, if any predicate asks about it. -/
theorem evaluateAll_recorded (hs : p.host.Steady) (hb : s.inner.branch = none)
    (log : List HostQuery) :
    ∃ asked, p.recorded.evaluateAll qs (withLog s log) =
        ((p.evaluateAll qs s).1, withLog (p.evaluateAll qs s).2 (log ++ asked)) ∧
      if qs.any Predicate.usesBranch then LooksUp (p.branchFor s.inner) asked
      else Unconcerned asked := by
  induction qs generalizing s log with
  | nil => exact ⟨[], by rw [List.append_nil]; rfl, by simp [Unconcerned]⟩
  | cons q qs ih =>
      cases hq : q.usesBranch with
      | false =>
          obtain ⟨own, ho, hown, hb'⟩ := evaluate_aside (p := p) hq s log
          obtain ⟨asked, ha, hasked⟩ := ih (hb'.trans hb) (log ++ own)
          refine ⟨own ++ asked, ?_, ?_⟩
          · rw [evaluateAll_cons, evaluateAll_cons, ho, ha, List.append_assoc]
          rw [branchFor_evaluate hs] at hasked
          rw [List.any_cons, hq, Bool.false_or]
          split
          · rename_i hany
            rw [if_pos hany] at hasked
            obtain ⟨pre, first, post, rfl, hpre, hrest⟩ := hasked
            exact ⟨own ++ pre, first, post, (List.append_assoc ..).symm,
              List.forall_mem_append.mpr ⟨hown, hpre⟩, hrest⟩
          · rename_i hany
            rw [if_neg hany] at hasked
            exact List.forall_mem_append.mpr ⟨hown, hasked⟩
      | true =>
          obtain ⟨own, ho, ⟨first, rest, rfl, hf, hrest⟩, hb'⟩ :=
            evaluate_about (p := p) hq s log
          have hl : lookup s.inner = [.defaultBranch] := by simp [lookup, hb]
          obtain ⟨asked, ha, hasked⟩ := evaluateAll_known (p := p) hb'
            (log ++ (lookup s.inner ++ first :: rest))
          refine ⟨lookup s.inner ++ first :: rest ++ asked, ?_, ?_⟩
          · rw [evaluateAll_cons, evaluateAll_cons, ho, ha, List.append_assoc]
          rw [List.any_cons, hq, Bool.true_or, if_pos rfl, hl]
          exact ⟨[], first, rest ++ asked, rfl, by simp [Unconcerned], hf,
            List.forall_mem_append.mpr ⟨fun a ha => (hrest a ha).heeds _, hasked⟩⟩

theorem count_of_unconcerned (h : Unconcerned asked) : asked.count .defaultBranch = 0 :=
  List.count_eq_zero.mpr fun hm => (h _ hm).1 rfl

theorem LooksUp.count (h : LooksUp b asked) : asked.count .defaultBranch = 1 := by
  obtain ⟨pre, first, post, rfl, hpre, hf, hpost⟩ := h
  have hfirst : first ≠ .defaultBranch := by
    rintro rfl
    cases hf
  have hpost : post.count .defaultBranch = 0 :=
    List.count_eq_zero.mpr fun hm => (hpost _ hm).1 rfl
  rw [List.count_append, count_of_unconcerned hpre, List.count_cons_self,
    List.count_cons_of_ne hfirst, hpost]

theorem LooksUp.names (h : LooksUp b asked) : ∀ a ∈ asked, ∀ b', a.branch? = some b' → b' = b := by
  obtain ⟨pre, first, post, rfl, hpre, hf, hpost⟩ := h
  intro a ha b' hb
  rcases List.mem_append.mp ha with ha | ha
  · exact ((hpre a ha).heeds b).2 b' hb
  · rcases List.mem_cons.mp ha with rfl | ha
    · cases hb
    · rcases List.mem_cons.mp ha with rfl | ha
      · exact Option.some.inj (hb.symm.trans hf)
      · exact (hpost a ha).2 b' hb

/-! ### Outcomes of a run -/

theorem length_evaluateAll (p : Probe σ) (qs : List Predicate) (s : Scene (Memory σ)) :
    (p.evaluateAll qs s).1.length = qs.length := by
  induction qs generalizing s with
  | nil => rfl
  | cons q qs ih => rw [evaluateAll_cons, List.length_cons, ih, List.length_cons]

theorem evaluateAll_append (p : Probe σ) (pre post : List Predicate) (s : Scene (Memory σ)) :
    p.evaluateAll (pre ++ post) s =
      ((p.evaluateAll pre s).1 ++ (p.evaluateAll post (p.evaluateAll pre s).2).1,
        (p.evaluateAll post (p.evaluateAll pre s).2).2) := by
  induction pre generalizing s with
  | nil => rfl
  | cons q pre ih => rw [List.cons_append, evaluateAll_cons, ih, evaluateAll_cons]; rfl

theorem branchFor_evaluateAll (hs : p.host.Steady) (qs : List Predicate)
    (s : Scene (Memory σ)) :
    p.branchFor (p.evaluateAll qs s).2.inner = p.branchFor s.inner := by
  induction qs generalizing s with
  | nil => rfl
  | cons q qs ih => rw [evaluateAll_cons, ih, branchFor_evaluate hs]

/-- Behind other predicates a predicate comes to what it would come to alone, on the files that they
left. -/
theorem evaluate_behind (hs : p.host.Steady) (pre : List Predicate) (q : Predicate) (x y : σ)
    (t : FileTree) :
    (p.evaluate q (p.evaluateAll pre ⟨⟨x, none⟩, t⟩).2).1 =
      (p.evaluate q ⟨⟨y, none⟩, (p.evaluateAll pre ⟨⟨x, none⟩, t⟩).2.files⟩).1 := by
  refine evaluate_congr hs q ?_ (p.evaluateAll pre ⟨⟨x, none⟩, t⟩).2.files
  rw [branchFor_evaluateAll hs]
  exact branchFor_steady hs rfl

/-! ### The name of the branch -/

/-- What the default branch is called: what the host calls it, else the branch that is tracked, else
the fallback.  The host does not name it where it cannot be asked or says nothing. -/
inductive Resolves (p : Probe σ) (tracked : String → Prop) (x : σ) : String → Prop where
  | hosted {b : String} (h : (p.host.ask .defaultBranch x).1 = .ok (some b)) (hb : b ≠ "") :
      Resolves p tracked x b
  | tracked {b : String}
      (h : ∀ b', (p.host.ask .defaultBranch x).1 = .ok (some b') → b' = "") (hb : tracked b) :
      Resolves p tracked x b
  | fallback (h : ∀ b', (p.host.ask .defaultBranch x).1 = .ok (some b') → b' = "")
      (hb : ∀ b, ¬ tracked b) : Resolves p tracked x p.settings.fallbackBranch

theorem Resolves.congr {tracked tracked' : String → Prop} {x : σ} {b : String}
    (h : p.Resolves tracked x b) (ht : ∀ b, tracked b ↔ tracked' b) :
    p.Resolves tracked' x b := by
  cases h with
  | hosted h hb => exact .hosted h hb
  | tracked h hb => exact .tracked h ((ht b).mp hb)
  | fallback h hb => exact .fallback h fun b hb' => hb b ((ht b).mpr hb')

theorem resolves_branchFor (p : Probe σ) (x : σ) :
    p.Resolves (p.vcs.tracking = some ·) x (p.branchFor ⟨x, none⟩) := by
  -- without a name of the host's own it is the tracked branch or the fallback
  have unnamed (h : ∀ b', (p.host.ask .defaultBranch x).1 = .ok (some b') → b' = "") :
      p.Resolves (p.vcs.tracking = some ·) x
        (p.vcs.tracking.getD p.settings.fallbackBranch) := by
    cases hv : p.vcs.tracking with
    | none => exact .fallback h fun b hb => by cases hb
    | some b => exact .tracked h rfl
  have hb : p.branchFor ⟨x, none⟩ =
    (defaultBranch p.host p.vcs p.settings.fallbackBranch x).1 := rfl
  rw [hb]
  unfold defaultBranch
  rcases ha : p.host.ask .defaultBranch x with ⟨t | _ | b, x'⟩
  · exact unnamed (by simp [ha])
  · exact unnamed (by simp [ha])
  · dsimp only
    split
    · rename_i hn
      exact unnamed (by simp [ha, hn])
    · rename_i hn
      exact .hosted (by rw [ha]) hn

/-- Over the files of a work tree the branch that is tracked is the one at which the remote
`origin` has its HEAD. -/
theorem resolves_ofTree {x : σ} {b : String} (h : p.Resolves (p.vcs.tracking = some ·) x b)
    {files : FileTree} {graph : CommitGraph} {root : String}
    (hvcs : p.vcs = .ofTree files graph root) :
    p.Resolves (Vcs.TrackedAt files graph root) x b :=
  h.congr fun b => by rw [hvcs]; exact Vcs.tracking_ofTree

/-- Remembering the branch does not show in what a run comes to.  With a host whose answers depend
on the query alone, the branch is looked up once, where a predicate of the run asks about it, right
before the first query that names it, and no query names another one.  In a work tree it is the
host's, else the one at which the remote `origin` has its HEAD, else the fallback.  Every predicate
comes to what a new probe would make of it alone, on the files as they are then. -/
theorem evaluateAll_transparent (p : Probe σ) (hs : p.host.Steady) (qs : List Predicate) (x : σ)
    (t : FileTree) :
    ∃ os s asked b,
      p.evaluateAll qs ⟨⟨x, none⟩, t⟩ = (os, s) ∧
      p.recorded.evaluateAll qs ⟨⟨(x, []), none⟩, t⟩ = (os, withLog s asked) ∧
      p.Resolves (p.vcs.tracking = some ·) x b ∧
      (∀ files graph root, p.vcs = .ofTree files graph root →
        p.Resolves (Vcs.TrackedAt files graph root) x b) ∧
      asked.count .defaultBranch = (if qs.any Predicate.usesBranch then 1 else 0) ∧
      (if qs.any Predicate.usesBranch then LooksUp b asked else Unconcerned asked) ∧
      (∀ a ∈ asked, ∀ b', a.branch? = some b' → b' = b) ∧
      os.length = qs.length ∧
      ∀ pre q post, qs = pre ++ q :: post → ∀ y, os[pre.length]? =
        some (p.evaluate q ⟨⟨y, none⟩, (p.evaluateAll pre ⟨⟨x, none⟩, t⟩).2.files⟩).1 := by
  obtain ⟨asked, ha, hasked⟩ :=
    evaluateAll_recorded (s := ⟨⟨x, none⟩, t⟩) hs rfl []
  refine ⟨_, _, asked, p.branchFor ⟨x, none⟩, rfl, ha, resolves_branchFor p x,
    fun files graph root => resolves_ofTree (resolves_branchFor p x), ?_, hasked, ?_,
    length_evaluateAll p qs _, ?_⟩
  · split
    · rename_i hany
      exact LooksUp.count ((if_pos hany).mp hasked)
    · rename_i hany
      exact count_of_unconcerned ((if_neg hany).mp hasked)
  · split at hasked
    · exact hasked.names
    · exact fun a ha b' hb => ((hasked a ha).heeds _).2 b' hb
  · rintro pre q post rfl y
    rw [evaluateAll_append, List.getElem?_append_right (Nat.le_of_eq (length_evaluateAll p pre _)),
      length_evaluateAll, Nat.sub_self, evaluateAll_cons, List.getElem?_cons_zero,
      evaluate_behind hs pre q x y t]

/-! ### A work tree with a remote -/

/-- A host with a run on `trunk` that does not name the default branch, and a state that counts the
queries. -/
def counting : Host Nat where
  isAvailable n := (true, n)
  ask q n :=
    (match q with
      | .defaultBranch => .ok (some "")
      | .latestRun b _ => .ok (some ⟨7, "CI", "ci.yml", "completed", "success", b⟩)
      | .runJobs _ => .ok []
      | .branchProtection _ | .pullRequestChecks | .findIssue _ => .ok none
      | .setRequiredApprovals .. | .merge .. => .ok (), n + 1)

theorem steady_counting : counting.Steady where
  isAvailable _ _ := rfl
  ask _ _ _ := rfl

/-- A work tree whose remote has its HEAD at `trunk`. -/
def cloned : FileTree :=
  ⟨[(["w"], .directory), (["w", ".git"], .directory), (["w", ".git", "objects"], .directory),
    (["w", ".git", "refs"], .directory), (["w", ".git", "refs", "remotes"], .directory),
    (["w", ".git", "refs", "remotes", "origin"], .directory),
    (["w", ".git", "HEAD"], .file "ref: refs/heads/main\n".toUTF8),
    (["w", ".git", "refs", "remotes", "origin", "HEAD"],
      .file "ref: refs/remotes/origin/trunk\n".toUTF8)]⟩

theorem trackedAt_cloned : Vcs.TrackedAt cloned .empty "/w" "trunk" := by
  have hdir : [Path.join "/w" ".git", "/w"].find? (Repository.isGitDir cloned) =
      some "/w/.git" := by decide +kernel
  refine ⟨⟨"/w/.git", cloned, .empty⟩, by rw [Repository.open?, hdir]; rfl,
    "ref: refs/remotes/origin/trunk\n", by decide +kernel, ?_⟩
  have hblank : ∀ c ∈ "\n".toList, Reference.isSpace c = true :=
    List.forall_mem_singleton.mpr (by decide)
  exact ⟨⟨'k', by decide +kernel, by decide⟩, "\n", by decide +kernel, hblank⟩

/-- A run at that host, in that work tree. -/
def counted : Probe Nat :=
  ⟨"/w", .ofTree cloned .empty "/w", counting, ⟨"/w/p"⟩, .standard, ⟨"c0", "c0"⟩⟩

/-- Behind a gate and other questions the branch is looked up once for two predicates.  It is the
tracked one, for the host has no name for it. -/
theorem evaluateAll_transparent_counted :
    counted.host.Steady ∧ Vcs.TrackedAt cloned .empty "/w" "trunk" ∧ ∃ os s asked,
      counted.evaluateAll [.handshakeIssue "m", .proofExists "a", .ciGreen none,
        .ciJob "test" none] ⟨⟨0, none⟩, cloned⟩ = (os, s) ∧
      asked.count .defaultBranch = 1 ∧ LooksUp "trunk" asked ∧ os[2]? = some .pass := by
  obtain ⟨os, s, asked, b, he, -, -, hb, hc, hl, -, -, ho⟩ := evaluateAll_transparent counted
    steady_counting
    [.handshakeIssue "m", .proofExists "a", .ciGreen none, .ciJob "test" none] 0 cloned
  have hb : b = "trunk" := by
    cases hb cloned .empty "/w" rfl with
    | hosted h hne => exact absurd (Option.some.inj (Except.ok.inj h)).symm hne
    | tracked _ hb =>
        exact Option.some.inj ((Vcs.tracking_ofTree.mpr hb).symm.trans
          (Vcs.tracking_ofTree.mpr trackedAt_cloned))
    | fallback _ hn => exact absurd trackedAt_cloned (hn "trunk")
  subst hb
  refine ⟨steady_counting, trackedAt_cloned, os, s, asked, he, hc, hl, ?_⟩
  exact ho [.handshakeIssue "m", .proofExists "a"] (.ciGreen none) [.ciJob "test" none] rfl 0

end Probe

end Readiness
