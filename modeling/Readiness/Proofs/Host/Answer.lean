import Readiness.Host.Client
import Readiness.Proofs.Document.Record
import Readiness.Proofs.Text.Searching

/-!
# Host — what the client's output says

* `Json.decode_eq_ok`: what a text decodes to is told by its reading alone.
* `requiredApprovals_le`: a count of approvals that is decoded has at most 32 bits.
* `protection_of_interpret`: rules of a branch that are answered were decoded from a run that
  succeeded.
* `Client.Unanswered`: a run that was not started, failed, or printed what does not decode.
* `interpret_unanswered`: such a run is no answer.  For two queries a failure can tell something:
  `interpret_protection`, `interpret_checks`.
-/

namespace Readiness

namespace BranchProtection

theorem decodeReviews_le {n : Nat} {r : Reading} (h : decodeReviews r = .ok n) :
    n ≤ countMax := by
  obtain ⟨slots, -, h⟩ := bind_eq_ok.mp h
  rcases Slots.getD_eq_ok h with rfl | ⟨v, hv⟩
  · exact Nat.zero_le _
  · exact Decoder.natural_le hv

/-- A count of approvals that is decoded has at most 32 bits. -/
theorem requiredApprovals_le {p : BranchProtection} {n : Nat} {r : Reading}
    (h : decode r = .ok p) (hn : p.requiredApprovals = some n) : n ≤ countMax := by
  obtain ⟨slots, -, h⟩ := bind_eq_ok.mp h
  obtain ⟨status, -, h⟩ := bind_eq_ok.mp h
  obtain ⟨admins, -, h⟩ := bind_eq_ok.mp h
  obtain ⟨reviews, hr, h⟩ := bind_eq_ok.mp h
  cases h
  obtain rfl : reviews = some n := hn
  rcases Slots.getD_eq_ok hr with h | ⟨v, hv⟩
  · cases h
  · exact decodeReviews_le (Decoder.optional_eq_some hv)

end BranchProtection

namespace Json

/-- A text as it reads, whether or not something follows its value. -/
def reading (s : String) : Reading := (readInput (s.toList.map some)).1

/-- What a text decodes to is what its reading does. -/
theorem decode_eq_ok {α : Type} {f : Decoder α} {s : String} {a : α} (h : decode f s = .ok a) :
    f (reading s) = .ok a := by
  unfold decode decodeInput at h
  dsimp only at h
  split at h
  · cases h
  · rename_i b hb
    split at h
    · cases h; exact hb
    · cases h

end Json

namespace Client

theorem parseProtection_eq_ok {payload : String} {p : BranchProtection} :
    parseProtection payload = .ok p ↔ Json.decode BranchProtection.decode payload = .ok p := by
  unfold parseProtection
  cases Json.decode BranchProtection.decode payload <;> simp

theorem decode_of_parseProtection {payload : String} {p : BranchProtection}
    (h : parseProtection payload = .ok p) :
    BranchProtection.decode (Json.reading payload) = .ok p :=
  Json.decode_eq_ok (parseProtection_eq_ok.mp h)

/-- Rules of a branch that are answered were decoded from a run that succeeded. -/
theorem protection_of_interpret {branch : String} {ended : Except String Output}
    {p : BranchProtection} (h : interpret (.branchProtection branch) ended = .ok (some p)) :
    ∃ o, ended = .ok o ∧ o.success = true ∧
      parseProtection (Text.Utf8.lossy o.stdout) = .ok p := by
  cases ended with
  | error reason => cases h
  | ok o =>
      refine ⟨o, rfl, ?_⟩
      unfold interpret answer at h
      dsimp only at h
      split at h
      · rename_i hs
        cases hp : parseProtection (Text.Utf8.lossy o.stdout) with
        | error t => rw [hp] at h; cases h
        | ok q => rw [hp] at h; cases h; exact ⟨hs, rfl⟩
      · split at h <;> cases h

/-! ### Runs that answer nothing -/

/-- What the client printed decodes to the records that answer the query. -/
def Decodes : HostQuery → ByteArray → Prop
  | .defaultBranch, out => ∃ b, Json.decodeBytes decodeDefaultBranch out = .ok b
  | .branchProtection _, out => ∃ p, parseProtection (Text.Utf8.lossy out) = .ok p
  | .latestRun .., out => ∃ rs, Json.decodeBytes (Decoder.items WorkflowRun.decode) out = .ok rs
  | .runJobs _, out => ∃ js, Json.decodeBytes Job.decodeView out = .ok js
  | .pullRequestChecks, out => ∃ cs, parsePrChecks out = .ok cs
  | .findIssue _, out => ∃ is, Json.decodeBytes (Decoder.items Issue.decode) out = .ok is
  | .setRequiredApprovals .., _ | .merge .., _ => True

/-- The run of the client does not answer the query. -/
inductive Unanswered (q : HostQuery) : Except String Output → Prop
  /-- The client could not be started. -/
  | unstarted (reason : String) : Unanswered q (.error reason)
  | failed {o : Output} (h : o.success = false) : Unanswered q (.ok o)
  /-- The output is not what was asked for. -/
  | garbled {o : Output} (h : ¬ Decodes q o.stdout) : Unanswered q (.ok o)

theorem not_unanswered_iff {q : HostQuery} {ended : Except String Output} :
    ¬ Unanswered q ended ↔ ∃ o, ended = .ok o ∧ o.success = true ∧ Decodes q o.stdout := by
  constructor
  · intro h
    cases ended with
    | error reason => exact absurd (.unstarted reason) h
    | ok o =>
        refine ⟨o, rfl, ?_, ?_⟩
        · exact eq_true_of_ne_false fun hf => h (.failed hf)
        · exact Classical.not_not.mp fun hd => h (.garbled hd)
  · rintro ⟨o, rfl, hs, hd⟩ (_ | hf | hg)
    · rw [hs] at hf; cases hf
    · exact hg hd

theorem decodeOutput_eq_ok {α : Type} {f : Decoder α} {o : Output} {a : α} :
    decodeOutput f o = .ok a ↔ o.success = true ∧ Json.decodeBytes f o.stdout = .ok a := by
  unfold decodeOutput
  cases o.success
  · simp
  · cases Json.decodeBytes f o.stdout <;> simp

theorem map_decodeOutput_eq_ok {α β : Type} {f : Decoder α} {g : α → β} {o : Output} {b : β}
    (h : (decodeOutput f o).map g = .ok b) :
    o.success = true ∧ ∃ a, Json.decodeBytes f o.stdout = .ok a := by
  cases ha : decodeOutput f o with
  | error t => rw [ha] at h; cases h
  | ok a => exact ⟨(decodeOutput_eq_ok.mp ha).1, a, (decodeOutput_eq_ok.mp ha).2⟩

/-- A run that does not answer the query is not taken for an answer. -/
theorem interpret_unanswered {q : HostQuery} {ended : Except String Output}
    (h : Unanswered q ended) (hp : ∀ b, q ≠ .branchProtection b) (hc : q ≠ .pullRequestChecks) :
    ∃ t, interpret q ended = .error t := by
  cases ended with
  | error reason => exact ⟨_, rfl⟩
  | ok o =>
      rcases hi : interpret q (.ok o) with t | a
      · exact ⟨t, rfl⟩
      · refine absurd h (not_unanswered_iff.mpr ⟨o, rfl, ?_⟩)
        cases q with
        | defaultBranch | latestRun | findIssue => exact map_decodeOutput_eq_ok hi
        | runJobs id =>
            exact ⟨(decodeOutput_eq_ok.mp hi).1, a, (decodeOutput_eq_ok.mp hi).2⟩
        | setRequiredApprovals | merge =>
            refine ⟨?_, trivial⟩
            cases hs : o.success
            · simp [interpret, answer, hs] at hi
            · rfl
        | branchProtection b => exact absurd rfl (hp b)
        | pullRequestChecks => exact absurd rfl hc

/-- What is taken for an answer was answered. -/
theorem not_unanswered_of_ok {q : HostQuery} {ended : Except String Output} {a : q.Answer}
    (h : interpret q ended = .ok a) (hp : ∀ b, q ≠ .branchProtection b)
    (hc : q ≠ .pullRequestChecks) : ¬ Unanswered q ended := by
  intro hu
  obtain ⟨t, ht⟩ := interpret_unanswered hu hp hc
  rw [h] at ht
  cases ht

/-! ### Failures that tell something -/

/-- The client failed and said that the branch is not protected. -/
def NotProtected (ended : Except String Output) : Prop :=
  ∃ o, ended = .ok o ∧ o.success = false ∧
    (Text.contains (Text.Utf8.lossy o.stderr) "Branch not protected" = true ∨
      Text.contains (Text.Utf8.lossy o.stderr) "HTTP 404" = true)

/-- The client said that there is no pull request, or that it has no checks. -/
def NoChecks (o : Output) : Prop :=
  Text.contains (Text.Utf8.lossy o.stderr) "no pull requests found" = true ∨
    Text.contains (Text.Utf8.lossy o.stderr) "no checks reported" = true

/-- Nothing is said by the blanks around a complaint. -/
theorem contains_complaint {o : Output} {needle : String}
    (hf : needle.toList.head?.any (!Text.isBlank ·) = true)
    (hl : needle.toList.getLast?.any (!Text.isBlank ·) = true) :
    Text.contains (complaint o) needle = Text.contains (Text.Utf8.lossy o.stderr) needle :=
  Text.contains_trim hf hl

/-- A branch that is said to be not protected has no rules. -/
theorem interpret_notProtected {branch : String} {ended : Except String Output}
    (h : NotProtected ended) : interpret (.branchProtection branch) ended = .ok none := by
  obtain ⟨o, rfl, hs, hm⟩ := h
  simp only [interpret, answer, hs, Bool.false_eq_true, if_false]
  rw [contains_complaint (by decide) (by decide), contains_complaint (by decide) (by decide),
    if_pos (by simpa using hm)]

/-- Any other run that does not answer is not taken for an answer. -/
theorem interpret_protection {branch : String} {ended : Except String Output}
    (h : Unanswered (.branchProtection branch) ended) (hn : ¬ NotProtected ended) :
    ∃ t, interpret (.branchProtection branch) ended = .error t := by
  rcases hi : interpret (.branchProtection branch) ended with t | _ | p
  · exact ⟨t, rfl⟩
  · -- only a complaint gives no rules
    refine absurd ?_ hn
    cases ended with
    | error reason => cases hi
    | ok o =>
        unfold interpret answer at hi
        dsimp only at hi
        split at hi
        · cases hp : parseProtection (Text.Utf8.lossy o.stdout) <;> rw [hp] at hi <;> cases hi
        · rename_i hs
          split at hi
          · rename_i hm
            rw [contains_complaint (by decide) (by decide),
              contains_complaint (by decide) (by decide)] at hm
            exact ⟨o, rfl, eq_false_of_ne_true hs, by simpa using hm⟩
          · cases hi
  · obtain ⟨o, rfl, hs, hp⟩ := protection_of_interpret hi
    exact absurd h (not_unanswered_iff.mpr ⟨o, rfl, hs, p, hp⟩)

theorem interpret_noChecks {o : Output} (h : NoChecks o) :
    interpret .pullRequestChecks (.ok o) = .ok none ∨
      interpret .pullRequestChecks (.ok o) = .ok (some []) := by
  simp only [interpret, answer]
  rw [contains_complaint (by decide) (by decide), contains_complaint (by decide) (by decide)]
  by_cases hn : Text.contains (Text.Utf8.lossy o.stderr) "no pull requests found" = true
  · exact .inl (by rw [if_pos hn])
  · exact .inr (by rw [if_neg hn, if_pos (h.resolve_left hn)])

/-- Without a complaint the answer is the list that was printed, whatever the exit code. -/
theorem interpret_checks {o : Output} (h : ¬ NoChecks o) :
    interpret .pullRequestChecks (.ok o) =
      ((parsePrChecks o.stdout).map some).mapError
        fun t => t.within ("gh pr checks failed: " ++ complaint o) := by
  obtain ⟨hn, hr⟩ := not_or.mp h
  simp only [interpret, answer]
  rw [contains_complaint (by decide) (by decide), contains_complaint (by decide) (by decide),
    if_neg hn, if_neg hr]
  cases parsePrChecks o.stdout <;> rfl

end Client

end Readiness
