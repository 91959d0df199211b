import Mathlib.Data.List.TFAE
import Readiness.CommandLine.Run
import Readiness.Proofs.Outcome
import Readiness.Proofs.Report.Verify
import Readiness.Proofs.Workspace.Verify

/-!
# CommandLine — the verdict of `verify`

Whether a step is verified is said by the outcomes, the exit code, both forms of the report and the
proof file.  They never disagree.

* `CommandLine.shownPath_cases`: the path by which a proof is shown.
* `CommandLine.run_verify`: what a `verify` that was carried out did.
* `CommandLine.code_run_verify`: its exit code is that of the verification in the workspace.
* `CommandLine.stdout_end`: how the printed text ends.
* `CommandLine.settled_of_carriedOut`: what a `verify` that was carried out leaves and prints.
* `CommandLine.verify_verdict`: all say the same.
-/

namespace Readiness

/-! ### The path of a proof as it is shown -/

theorem Path.suffix_of_dropNames {bs ss r : List String} (h : dropNames bs ss = some r) :
    r <:+ ss := by
  fun_induction dropNames bs ss with
  | case1 => cases h; exact List.dropWhile_suffix _
  | case2 => cases h
  | case3 _ _ _ _ _ ih => exact (ih h).trans (List.suffix_cons _ _)
  | case4 _ _ _ _ ih => exact (ih h).trans (List.suffix_cons _ _)
  | case5 => cases h

/-- Joined items end in the last of them. -/
theorem Text.exists_join (sep s : String) (r : List String) :
    ∃ front, join sep (r ++ [s]) = front ++ s := by
  induction r with
  | nil => exact ⟨"", by rw [List.nil_append, join, String.empty_append]⟩
  | cons a r ih =>
      obtain ⟨front, hf⟩ := ih
      cases r with
      | nil => exact ⟨a ++ sep, rfl⟩
      | cons b r => exact ⟨a ++ sep ++ front, by
          rw [List.cons_append, List.cons_append, join_cons_cons, ← List.cons_append, hf,
            ← String.append_assoc]⟩

namespace CommandLine

variable {σ : Type}

/-- `verify` was carried out: it found a workspace with a commit, and ran the step's plan. -/
structure CarriedOut (e : Surroundings) (host : Host σ) (dir step : String) (s s' : Scene σ)
    (w : Workspace) (c : Revision) (plan : StepPlan) (run : StepRun) : Prop where
  opened : Workspace.openAt s.files e.cwd dir = .ok w
  head : (Vcs.ofTree s.files e.graph w.root).head = .ok c
  planned : w.plan step = .ok plan
  ran : w.verify (Vcs.ofTree s.files e.graph w.root) host step e.stamp s = (.ok (plan, run), s')

/-- What a `verify` reports. -/
def verifyReport (w : Workspace) (c : Revision) (plan : StepPlan) (run : StepRun)
    (step : String) : VerifyReport :=
  .ofRun plan run c (shownPath w step)

/-- A proof is shown by a path that ends in the name of its file, or by none. -/
theorem shownPath_cases (w : Workspace) {step : String} (h : Rulebook.isName step = true) :
    shownPath w step = "" ∨ ∃ front, shownPath w step = front ++ ProofFile.name step := by
  have hslash := (ProofFile.isSimple_name h).no_slash
  rw [shownPath]
  cases hb : Path.below? w.root (w.proofs.pathFor step) with
  | none =>
      obtain ⟨mid, hj⟩ := FileTree.join_eq_append w.proofs.dir
      exact .inr ⟨w.proofs.dir ++ mid, hj hslash⟩
  | some p =>
      rw [Path.below?] at hb
      split at hb
      · obtain ⟨r, hr, rfl⟩ := Option.map_eq_some_iff.mp hb
        obtain ⟨ss, hs, -⟩ := FileTree.segments_join w.proofs.dir hslash
        obtain ⟨before, hb⟩ := Path.suffix_of_dropNames hr
        rw [ProofStore.pathFor, hs] at hb
        rcases List.eq_nil_or_concat r with rfl | ⟨ini, a, rfl⟩
        · exact .inl rfl
        · rw [List.concat_eq_append, ← List.append_assoc] at hb
          obtain rfl : a = ProofFile.name step := by simpa using (List.append_inj' hb rfl).2
          exact .inr (List.concat_eq_append ▸ Text.exists_join "/" _ ini)
      · cases hb

theorem getLast?_shownPath (w : Workspace) {step : String} (h : Rulebook.isName step = true) :
    (shownPath w step).toList.getLast? ≠ some '.' := by
  rcases shownPath_cases w h with hp | ⟨front, hp⟩
  · rw [hp]
    decide
  · have hl : ProofFile.extension.toList.getLast? = some 'f' := by decide
    rw [hp, ProofFile.name, String.toList_append, String.toList_append, List.getLast?_append,
      List.getLast?_append, hl, Option.some_or, Option.some_or]
    decide

section

attribute [local irreducible] Workspace.verify

/-- What a `verify` comes to in a workspace: trouble, or its report. -/
theorem verify_of_opened (l : Layout) (step : String) (host : Host σ) {e : Surroundings}
    {dir : String} {s : Scene σ} {w : Workspace} (ho : Workspace.openAt s.files e.cwd dir = .ok w) :
    (∃ t, (verify e l dir step host s).1 = .error t) ∨
      ∃ c plan r s', CarriedOut e host dir step s s' w c plan r ∧
        verify e l dir step host s =
          (.ok ((verifyReport w c plan r step).render l, if r.result.allPassed then 0 else 1),
            s') := by
  unfold verify
  rw [ho]
  dsimp only
  cases hv : w.verify (Vcs.ofTree s.files e.graph w.root) host step e.stamp s with
  | mk answer s' =>
      cases answer with
      | error f => exact .inl ⟨_, rfl⟩
      | ok x =>
          obtain ⟨plan, r⟩ := x
          obtain ⟨c, inner, -, -, hp, -⟩ := Workspace.verify_ok hv
          dsimp only
          rw [hp.head]
          exact .inr ⟨c, plan, r, s', ⟨ho, hp.head, hp.planned, hv⟩, rfl⟩

/-- A `verify` ends in trouble, or it was carried out and its reply is the report. -/
theorem run_verify (e : Surroundings) (host : Host σ) (json : Bool) (dir step : String)
    (s : Scene σ) :
    (∃ t, (carryOut e host ⟨json, dir, .verify step⟩ s).1 = .error t) ∨
      ∃ w c plan r,
        CarriedOut e host dir step s (run e host ⟨json, dir, .verify step⟩ s).2 w c plan r ∧
        (run e host ⟨json, dir, .verify step⟩ s).1 =
          ⟨if r.result.allPassed then 0 else 1,
            (verifyReport w c plan r step).render (layout e json), ""⟩ := by
  have hc : carryOut e host ⟨json, dir, .verify step⟩ s =
      verify e (layout e json) dir step host s := rfl
  rw [run, hc]
  cases ho : Workspace.openAt s.files e.cwd dir with
  | error f => exact .inl ⟨f.toTrouble, by unfold verify; rw [ho]; rfl⟩
  | ok w =>
      rcases verify_of_opened (layout e json) step host ho with
        ht | ⟨c, plan, r, s', hv, heq⟩
      · exact .inl ht
      · rw [heq]
        exact .inr ⟨w, c, plan, r, hv, rfl⟩

end

theorem validate_of_openAt {t : FileTree} {cwd : Location} {dir : String} {w : Workspace}
    (h : Workspace.openAt t cwd dir = .ok w) : w.rulebook.validate = .ok () := by
  rw [Workspace.openAt] at h
  split at h
  · cases h
  · rename_i root _
    rw [Workspace.load] at h
    cases hl : Rulebook.load t root with
    | error f => rw [hl] at h; cases h
    | ok r =>
        rw [hl] at h
        cases h
        exact Rulebook.validate_load hl

/-- Trouble is told with code 1. -/
theorem code_of_trouble {e : Surroundings} {host : Host σ} {i : Invocation} {s : Scene σ}
    {t : Trouble} (h : (carryOut e host i s).1 = .error t) : (run e host i s).1.code = 1 := by
  rw [run]
  cases hc : carryOut e host i s with
  | mk a s' =>
      rw [hc] at h
      obtain rfl : a = .error t := h
      rfl

/-- The code of a verification: 0 if it was completed and every check passed. -/
def verifyCode : Except Failure (StepPlan × StepRun) → Nat
  | .ok (_, r) => if r.result.allPassed then 0 else 1
  | .error _ => 1

section

attribute [local irreducible] Workspace.verify

/-- `verify` exits with the code of the verification. -/
theorem code_run_verify {e : Surroundings} {host : Host σ} {json : Bool} {dir step : String}
    {s : Scene σ} {w : Workspace} (ho : Workspace.openAt s.files e.cwd dir = .ok w) :
    (run e host ⟨json, dir, .verify step⟩ s).1.code =
      verifyCode (w.verify (Vcs.ofTree s.files e.graph w.root) host step e.stamp s).1 := by
  have hc : carryOut e host ⟨json, dir, .verify step⟩ s =
      verify e (layout e json) dir step host s := rfl
  rw [run, hc]
  unfold verify
  rw [ho]
  dsimp only
  cases hv : w.verify (Vcs.ofTree s.files e.graph w.root) host step e.stamp s with
  | mk answer s' =>
      cases answer with
      | error f => rfl
      | ok x =>
          obtain ⟨c, inner, -, -, hp, -⟩ := Workspace.verify_ok hv
          dsimp only
          rw [hp.head]
          rfl

end

section

attribute [local irreducible] shownPath Workspace.verify

/-- What is printed ends in the proof, or says that there is none and does not end in one. -/
theorem stdout_end {e : Surroundings} {json : Bool} {w : Workspace} {c : Revision}
    {plan : StepPlan} {step : String} (hv : w.rulebook.validate = .ok ())
    (hp : w.plan step = .ok plan) (r : StepRun) {text : String}
    (ht : text = (verifyReport w c plan r step).render (layout e json)) :
    (∃ p front, r.proof = some p ∧
        text = front ++ VerifyReport.verifiedEnd (shownPath w step) p (layout e json)) ∨
      r.proof = none ∧
        (∃ front, text =
          front ++ VerifyReport.unverifiedEnd (shownPath w step) step (layout e json)) ∧
        ∀ front p,
          text ≠ front ++ VerifyReport.verifiedEnd (shownPath w step) p (layout e json) := by
  have hstep : (verifyReport w c plan r step).step = step := Rulebook.name_of_plan_ok hp
  have hpath : (verifyReport w c plan r step).proofPath = shownPath w step := rfl
  have hproof : (verifyReport w c plan r step).run.proof = r.proof := rfl
  rw [ht, ← hproof, ← hpath]
  have hend := (verifyReport w c plan r step).render_end
    (getLast?_shownPath w (Rulebook.isName_of_mem hv (Rulebook.mem_of_plan_ok hp))) (layout e json)
  rwa [hstep] at hend

end

/-- A `verify` that was carried out with every check passed has a proof, leaves it and prints it;
any other has none, leaves none and says so. -/
theorem settled_of_carriedOut {e : Surroundings} {host : Host σ} {json : Bool} {dir step : String}
    {s s' : Scene σ} {w : Workspace} {c : Revision} {plan : StepPlan} {r : StepRun} {text : String}
    (h : CarriedOut e host dir step s s' w c plan r)
    (ht : text = (verifyReport w c plan r step).render (layout e json)) :
    (∀ x ∈ r.result.results, x.outcome = .pass) ∧
        (∃ p, r.proof = some p ∧ p = .issue step plan.checks.length plan.checks.length c e.stamp ∧
          w.proofs.read step s'.files = .ok (some p) ∧ w.proofs.holds step s'.files = true ∧
          ∃ front, text =
            front ++ VerifyReport.verifiedEnd (shownPath w step) p (layout e json)) ∨
      ¬ (∀ x ∈ r.result.results, x.outcome = .pass) ∧ r.proof = none ∧
        s'.files.exists? (w.proofs.pathFor step) = false ∧
        (∃ front, text =
          front ++ VerifyReport.unverifiedEnd (shownPath w step) step (layout e json)) ∧
        ∀ front p,
          text ≠ front ++ VerifyReport.verifiedEnd (shownPath w step) p (layout e json) := by
  have hv := validate_of_openAt h.opened
  obtain ⟨-, -, -, -, hset⟩ := Workspace.verify_settled hv h.ran
  have hend := stdout_end hv h.planned r ht
  simp only [Outcome.isPass_iff] at hset
  rcases hset with ⟨ha, c', p, hc, hp, hi, hread, hholds⟩ | ⟨ha, hp, hx⟩
  · obtain rfl : c' = c := Except.ok.inj (hc.symm.trans h.head)
    refine .inl ⟨ha, p, hp, hi, hread, hholds, ?_⟩
    rcases hend with ⟨p', front, hp', hf⟩ | ⟨hn, -⟩
    · cases hp.symm.trans hp'
      exact ⟨front, hf⟩
    · cases hp.symm.trans hn
  · refine .inr ⟨ha, hp, hx, ?_⟩
    rcases hend with ⟨p', front, hp', -⟩ | ⟨-, hf⟩
    · cases hp.symm.trans hp'
    · exact hf

/-- Outcomes, exit code, printed text and proof file never disagree on whether a step is verified.
In every tree and with every host a `verify` ends in trouble, told with code 1, or it was carried
out in a workspace whose rulebook is well formed, and printed its report; a proof is never asked for
a run that did not fully pass. -/
theorem verify_verdict (e : Surroundings) (host : Host σ) (json : Bool) (dir step : String)
    (s : Scene σ) :
    let reply := (run e host ⟨json, dir, .verify step⟩ s).1
    let files := (run e host ⟨json, dir, .verify step⟩ s).2.files
    ((∃ t, (carryOut e host ⟨json, dir, .verify step⟩ s).1 = .error t) ∧ reply.code = 1 ∨
      ∃ w c plan r,
        CarriedOut e host dir step s (run e host ⟨json, dir, .verify step⟩ s).2 w c plan r ∧
        w.rulebook.validate = .ok () ∧
        let report := verifyReport w c plan r step
        (json = true → reply.stdout = Json.pretty report.toDocument ++ "\n") ∧
        (json = false → reply.stdout = Text.Line.showAll e.colours report.lines) ∧
        r.result.results.map (·.check) = plan.checks ∧
        [reply.code = 0,
          ∀ x ∈ r.result.results, x.outcome = .pass,
          r.proof.isSome = true,
          ∃ token, VerifyReport.verifiedLine token ∈ report.lines,
          report.toDocument.child? "proof" ≠ some .null,
          ∃ front p, reply.stdout =
            front ++ VerifyReport.verifiedEnd (shownPath w step) p (layout e json),
          w.proofs.holds step files = true].TFAE ∧
        ((∀ x ∈ r.result.results, x.outcome = .pass) →
          (∃ p, r.proof = some p ∧
            (∃ front, reply.stdout =
              front ++ VerifyReport.verifiedEnd (shownPath w step) p (layout e json)) ∧
            w.proofs.read step files = .ok (some p) ∧ p.step = step ∧ p.commit = c.id ∧
            p.ratio = toString plan.checks.length ++ "/" ++ toString plan.checks.length) ∧
          1 ≤ plan.checks.length ∧ ∃ x ∈ plan.checks, x.predicate.isGate = false) ∧
        (¬ (∀ x ∈ r.result.results, x.outcome = .pass) →
          (∃ front, reply.stdout =
            front ++ VerifyReport.unverifiedEnd (shownPath w step) step (layout e json)) ∧
          files.exists? (w.proofs.pathFor step) = false)) ∧
    ∀ {τ : Type} (plan : StepPlan) (evaluate : Evaluator τ) (store : ProofStore) (c : Revision)
      (stamp : Stamp) (x : Scene τ) (name : String) (passed total : Nat),
      (Chain.verifyStep plan evaluate store c stamp x).1 ≠
        .error (.incompleteProof name passed total) := by
  refine ⟨?_, fun plan evaluate store c stamp x name passed total h => ?_⟩
  · rcases run_verify e host json dir step s with ⟨t, ht⟩ | ⟨w, c, plan, r, hv, hrun⟩
    · exact .inl ⟨⟨t, ht⟩, code_of_trouble ht⟩
    · have hval := validate_of_openAt hv.opened
      obtain ⟨-, hown, hmap, hall, -⟩ := Workspace.verify_settled hval hv.ran
      have hcode : (run e host ⟨json, dir, .verify step⟩ s).1.code = 0 ↔
          r.result.allPassed = true := by
        rw [hrun]
        cases r.result.allPassed <;> simp
      have hout : (run e host ⟨json, dir, .verify step⟩ s).1.stdout =
          (verifyReport w c plan r step).render (layout e json) := by rw [hrun]
      have hline := (verifyReport w c plan r step).verifiedLine_mem_lines
      have hjson := (verifyReport w c plan r step).child?_proof_ne_null
      have hset := settled_of_carriedOut hv hout
      simp only [Outcome.isPass_iff] at hall
      refine .inr ⟨w, c, plan, r, hv, hval, fun hj => ?_, fun hj => ?_, hmap,
        List.tfae_of_forall (∀ x ∈ r.result.results, x.outcome = .pass) _ ?_, fun ha => ?_,
        fun ha => ?_⟩
      · subst hj
        exact hout
      · subst hj
        exact hout
      · -- each of the seven is the same as that every outcome is a pass
        simp only [List.forall_mem_cons, List.not_mem_nil, false_imp_iff, implies_true, and_true]
        rcases hset with ⟨ha, p, hp, -, -, hholds, hend⟩ | ⟨ha, hp, hx, -, hend⟩
        · have hproof : r.proof.isSome = true := by rw [hp]; rfl
          exact ⟨hcode.trans hall, trivial, iff_of_true hproof ha,
            iff_of_true (hline.mpr hproof) ha, iff_of_true (hjson.mpr hproof) ha,
            iff_of_true (hend.imp fun _ h => ⟨p, h⟩) ha, iff_of_true hholds ha⟩
        · have hproof : ¬ r.proof.isSome = true := by rw [hp]; exact Bool.false_ne_true
          have hholds : ¬ w.proofs.holds step
              (run e host ⟨json, dir, .verify step⟩ s).2.files = true := by
            rw [ProofStore.holds_eq_false hx]
            exact Bool.false_ne_true
          exact ⟨hcode.trans hall, trivial, iff_of_false hproof ha,
            iff_of_false (mt hline.mp hproof) ha, iff_of_false (mt hjson.mp hproof) ha,
            iff_of_false (fun ⟨front, p, h⟩ => hend front p h) ha, iff_of_false hholds ha⟩
      · rcases hset with ⟨-, p, hp, rfl, hread, -, hend⟩ | ⟨hn, -⟩
        · obtain ⟨x, hx, hg⟩ := List.any_eq_true.mp hown
          exact ⟨⟨_, hp, hend, hread, rfl, rfl, rfl⟩,
            Nat.one_le_iff_ne_zero.mpr (Chain.checks_ne_nil hown), x, hx, by simpa using hg⟩
        · exact absurd ha hn
      · rcases hset with ⟨ha', -⟩ | ⟨-, -, hx, hend, -⟩
        · exact absurd ha' ha
        · exact ⟨hend, hx⟩
  · rcases Chain.verifyStep_error (Prod.ext h rfl) with ⟨-, he, -⟩ | ⟨-, i, he⟩ <;> cases he

/-! ### A small work tree -/

namespace Small

/-- Two steps, each of which asks for a file. -/
def rules : String :=
  "step = [\x7bname=\"setup\",check=[\x7bdescription=\"README\",kind=\"file_exists\"," ++
    "path=\"README\"\x7d]\x7d,\x7bname=\"build\",check=[\x7bdescription=\"LICENSE\"," ++
    "kind=\"file_exists\",path=\"LICENSE\"\x7d]\x7d]"

def commit : Commit := ⟨"0123456789012345678901234567890123456789", 0, [], ByteArray.empty⟩

/-- A work tree at that commit, with that rulebook and the file the first step asks for. -/
def tree : FileTree :=
  ⟨[(["w"], .directory), (["w", ".git"], .directory), (["w", ".git", "objects"], .directory),
    (["w", ".git", "refs"], .directory), (["w", ".git", "HEAD"], .file commit.id.toUTF8),
    (["w", ".shipcheck.toml"], .file rules.toUTF8), (["w", "README"], .file ByteArray.empty)]⟩

def surroundings : Surroundings := ⟨["w"], ⟨[commit]⟩, false, ⟨"now", "now", "nonce"⟩⟩

/-- A host that cannot be asked. -/
def host : Host Unit := ⟨fun s => (false, s), fun _ s => (.error (.ofCause "offline"), s)⟩

/-- The scene after the first step was verified there, and the reply. -/
def verified : Reply × Scene Unit :=
  run surroundings host ⟨false, ".", .verify "setup"⟩ ⟨(), tree⟩

/-- The reply when that step is verified. -/
def reply : Reply :=
  ⟨0, "Step 1: setup (setup) at 0123456\n\n  [1] PASS    README\n\n" ++
    "Result: 1/1 passed, 0 failed, 0 pending\nVERIFIED SHIP-0123456-now-1of1-nonce\n" ++
    "Proof written to .shipcheck/proofs/verify-setup.proof\n", ""⟩

theorem fst_verified : verified.1 = reply := by decide +kernel

end Small

/-- A `verify` in that work tree is carried out, and its reply is this. -/
theorem verify_verdict_small : Small.verified.1 = Small.reply ∧
    ∃ w c plan r p, CarriedOut Small.surroundings Small.host "." "setup" ⟨(), Small.tree⟩
        Small.verified.2 w c plan r ∧
      (∀ x ∈ r.result.results, x.outcome = .pass) ∧ r.proof = some p ∧
      w.proofs.read "setup" Small.verified.2.files = .ok (some p) ∧ p.commit = c.id := by
  have hreply := Small.fst_verified
  have h := (verify_verdict Small.surroundings Small.host false "." "setup" ⟨(), Small.tree⟩).1
  unfold Small.verified at hreply ⊢
  refine ⟨hreply, ?_⟩
  generalize run Small.surroundings Small.host _ _ = done at hreply h ⊢
  have hcode : done.1.code = 0 := by rw [hreply]; rfl
  rcases h with ⟨-, hone⟩ | ⟨w, c, plan, r, hv, -, -, -, -, hsame, hpass, -⟩
  · exact absurd (hcode.symm.trans hone) Nat.zero_ne_one
  · have hall := (hsame.out 0 1).mp hcode
    obtain ⟨⟨p, hp, -, hread, -, hc, -⟩, -⟩ := hpass hall
    exact ⟨w, c, plan, r, p, hv, hall, hp, hread, hc⟩

end CommandLine

end Readiness
