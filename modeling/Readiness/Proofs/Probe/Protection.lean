import Readiness.Proofs.Host.Payload
import Readiness.Proofs.Text.Utf8
import Readiness.Probe.Hosted

/-!
# Probe — from a protection payload to the verdict

What a payload says is compared with what is demanded, part by part.  A part that is missing from
the payload says the least that can be said, so it meets no demand but the empty one.

* `Demand.Met`, `Demands.Met`: what it is for a payload to meet a demand, and all of them.
* `Demands.unmet`: the demands that are not met, in the order in which they are complained about.
* `protectionVerdict_of_met`, `protectionVerdict_of_not_met`: the verdict on decoded rules is told
  by the payload they were decoded from.
* `Demands.Met.mono`: a stricter payload and weaker demands keep what is met.
* `branchProtection_of_payload`: so for the probe that runs the client.
-/

namespace Readiness.Probe

/-! ### Demands -/

/-- One thing that can be demanded of a branch's protection. -/
inductive Demand where
  | check (c : String)
  | admins
  | approvals (n : Nat)
deriving DecidableEq

namespace Demand

/-- The payload says what is demanded. -/
def Met (r : Reading) : Demand → Prop
  | .check c => c ∈ Payload.contexts r ∨ c ∈ Payload.checks r
  | .admins => Payload.admins r = true
  | .approvals n => n ≤ Payload.approvals r

instance (r : Reading) : DecidablePred (Met r)
  | .check _ => inferInstanceAs (Decidable (_ ∨ _))
  | .admins => inferInstanceAs (Decidable (_ = _))
  | .approvals _ => inferInstanceAs (Decidable (_ ≤ _))

/-- What is said of the demand where it is not met. -/
def complaint (r : Reading) : Demand → String
  | .check c => "status check '" ++ c ++ "' is not required"
  | .admins => "rules are not enforced for administrators"
  | .approvals n =>
    toString (Payload.approvals r) ++ " approval(s) required, need at least " ++ toString n

end Demand

namespace Demands

/-- What is demanded, in order. -/
def listed (d : Demands) : List Demand :=
  d.requiredCheck.toList.map .check ++ (if d.enforceAdmins then [.admins] else []) ++
    d.minApprovals.toList.map .approvals

/-- The demands that a payload does not meet, in order. -/
def unmet (d : Demands) (r : Reading) : List Demand := d.listed.filter fun m => ¬ m.Met r

/-- The payload meets what is demanded. -/
structure Met (d : Demands) (r : Reading) : Prop where
  check : ∀ c, d.requiredCheck = some c → c ∈ Payload.contexts r ∨ c ∈ Payload.checks r
  admins : d.enforceAdmins = true → Payload.admins r = true
  approvals : ∀ n, d.minApprovals = some n → n ≤ Payload.approvals r

variable {d d' : Demands} {r r' : Reading}

theorem met_iff : d.Met r ↔ ∀ m ∈ d.listed, m.Met r := by
  simp only [listed, List.forall_mem_append, List.mem_map, Option.mem_toList]
  constructor
  · rintro ⟨hc, ha, hn⟩
    refine ⟨⟨?_, ?_⟩, ?_⟩
    · rintro _ ⟨c, h, rfl⟩
      exact hc c h
    · intro m hm
      split at hm
      · obtain rfl := List.mem_singleton.mp hm
        exact ha ‹_›
      · cases hm
    · rintro _ ⟨n, h, rfl⟩
      exact hn n h
  · rintro ⟨⟨hc, ha⟩, hn⟩
    refine ⟨fun c h => hc (.check c) ⟨c, h, rfl⟩, fun h => ha .admins ?_,
      fun n h => hn (.approvals n) ⟨n, h, rfl⟩⟩
    rw [if_pos h]
    exact List.mem_singleton_self _

theorem met_iff_unmet : d.Met r ↔ d.unmet r = [] := by
  simp only [met_iff, unmet, List.filter_eq_nil_iff, decide_eq_true_eq, Classical.not_not]

/-! ### More said and less demanded -/

/-- Every demand was already there, for a count one at least as high. -/
structure Eases (d' d : Demands) : Prop where
  check : ∀ c, d'.requiredCheck = some c → d.requiredCheck = some c
  admins : d'.enforceAdmins = true → d.enforceAdmins = true
  approvals : ∀ n', d'.minApprovals = some n' → ∃ n, d.minApprovals = some n ∧ n' ≤ n

end Demands

/-- A payload that requires every check the other does, and is as strict in the rest. -/
structure Stricter (r' r : Reading) : Prop where
  checks : ∀ c, c ∈ Payload.contexts r ∨ c ∈ Payload.checks r →
    c ∈ Payload.contexts r' ∨ c ∈ Payload.checks r'
  admins : Payload.admins r = true → Payload.admins r' = true
  approvals : Payload.approvals r ≤ Payload.approvals r'

theorem Demands.Met.mono {d d' : Demands} {r r' : Reading} (h : d.Met r) (hr : Stricter r' r)
    (hd : d'.Eases d) : d'.Met r' where
  check c hc := hr.checks c (h.check c (hd.check c hc))
  admins ha := hr.admins (h.admins (hd.admins ha))
  approvals n' hn' := by
    obtain ⟨n, hn, hle⟩ := hd.approvals n' hn'
    exact Nat.le_trans hle (Nat.le_trans (h.approvals n hn) hr.approvals)

/-! ### The verdict on decoded rules -/

section

variable {d : Demands} {r : Reading} {p : BranchProtection}

/-- A demand that need not be there is complained about as a list of demands is. -/
theorem toList_problem {α : Type} {o : Option α} {f : α → Demand} {g : α → String}
    {unmet : α → Bool} (hu : ∀ a, unmet a = decide ¬ (f a).Met r)
    (hg : ∀ a, g a = (f a).complaint r) :
    ((o.filter unmet).map g).toList =
      ((o.toList.map f).filter fun m => ¬ m.Met r).map (Demand.complaint r) := by
  cases o with
  | none => rfl
  | some a =>
      rw [Option.filter, hu, Option.toList_some, List.map_singleton, List.filter_cons]
      cases decide ¬ (f a).Met r with
      | false => rfl
      | true => exact congrArg (· :: []) (hg a)

theorem checkProblem_eq (h : BranchProtection.decode r = .ok p) :
    (checkProblem d p).toList =
      ((d.requiredCheck.toList.map .check).filter fun m => ¬ m.Met r).map
        (Demand.complaint r) :=
  toList_problem (fun c => by simp [Demand.Met, ← BranchProtection.mem_requiredChecks h])
    fun _ => rfl

theorem adminProblem_eq (ha : p.enforceAdmins = Payload.admins r) :
    (adminProblem d p).toList =
      ((if d.enforceAdmins then [Demand.admins] else []).filter fun m => ¬ m.Met r).map
        (Demand.complaint r) := by
  rw [adminProblem, ha]
  cases d.enforceAdmins with
  | false => rfl
  | true =>
      cases h : Payload.admins r with
      | false => rw [if_pos rfl, List.filter_cons_of_pos (by simp [Demand.Met, h])]; rfl
      | true => rw [if_pos rfl, List.filter_cons_of_neg (by simp [Demand.Met, h])]; rfl

theorem approvalProblem_eq (hn : p.requiredApprovals.getD 0 = Payload.approvals r) :
    (approvalProblem d p).toList =
      ((d.minApprovals.toList.map .approvals).filter fun m => ¬ m.Met r).map
        (Demand.complaint r) :=
  toList_problem (fun n => by simp [Demand.Met, hn]) fun n => by rw [hn]; rfl

/-- What decoded rules are complained about for is what the payload does not meet. -/
theorem problems_eq (h : BranchProtection.decode r = .ok p) :
    problems d p = (d.unmet r).map (Demand.complaint r) := by
  obtain ⟨-, ha, hn⟩ := BranchProtection.decode_parts h
  rw [problems, checkProblem_eq h, adminProblem_eq ha, approvalProblem_eq hn]
  simp only [Demands.unmet, Demands.listed, List.filter_append, List.map_append]

theorem met_iff_problems (h : BranchProtection.decode r = .ok p) :
    d.Met r ↔ problems d p = [] := by
  rw [problems_eq h, List.map_eq_nil_iff, Demands.met_iff_unmet]

theorem protectionVerdict_of_met (branch : String) (h : BranchProtection.decode r = .ok p)
    (hm : d.Met r) : protectionVerdict branch d p = .pass := by
  rw [protectionVerdict, (met_iff_problems h).mp hm]
  rfl

theorem protectionVerdict_of_not_met (branch : String) (h : BranchProtection.decode r = .ok p)
    (hm : ¬ d.Met r) : protectionVerdict branch d p =
      .fail ("'" ++ branch ++ "': " ++
        Text.join "; " ((d.unmet r).map (Demand.complaint r))) := by
  have hu : (problems d p).isEmpty = false := by simpa using mt (met_iff_problems h).mpr hm
  rw [protectionVerdict, hu, problems_eq h]
  rfl

theorem protectionVerdict_eq_pass (branch : String) (h : BranchProtection.decode r = .ok p) :
    protectionVerdict branch d p = .pass ↔ d.Met r := by
  by_cases hm : d.Met r
  · exact iff_of_true (protectionVerdict_of_met branch h hm) hm
  · rw [protectionVerdict_of_not_met branch h hm]
    exact iff_of_false nofun hm

/-- A payload is stricter than another if the rules it decodes to are. -/
theorem stricter_of_decode {p' : BranchProtection} {r' : Reading}
    (h : BranchProtection.decode r = .ok p) (h' : BranchProtection.decode r' = .ok p')
    (hc : p.requiredChecks ⊆ p'.requiredChecks)
    (ha : p.enforceAdmins = true → p'.enforceAdmins = true)
    (hn : p.requiredApprovals.getD 0 ≤ p'.requiredApprovals.getD 0) : Stricter r' r where
  checks _ hm := (BranchProtection.mem_requiredChecks h').mp
    (hc ((BranchProtection.mem_requiredChecks h).mpr hm))
  admins := by
    rwa [← (BranchProtection.decode_parts h).2.1, ← (BranchProtection.decode_parts h').2.1]
  approvals := by
    rwa [← (BranchProtection.decode_parts h).2.2, ← (BranchProtection.decode_parts h').2.2]

end

/-! ### The probe -/

section

variable {σ : Type} {launch : Client.Launch σ} {branch payload : String} {s : σ}

/-- The client, run for the rules of the branch, succeeds and prints the payload. -/
def Prints (launch : Client.Launch σ) (branch : String) (s : σ) (payload : String) : Prop :=
  ∃ out s', launch (Client.arguments (.branchProtection branch)) s = (.ok out, s') ∧
    out.success = true ∧ Text.Utf8.lossy out.stdout = payload

theorem branchProtection_eq {p : BranchProtection} {d : Demands}
    (hl : Prints launch branch s payload) (hp : Client.parseProtection payload = .ok p) :
    (branchProtection (Client.host launch) branch d s).1 = protectionVerdict branch d p := by
  obtain ⟨out, s', hl, hs, rfl⟩ := hl
  have ha : (Client.host launch).ask (.branchProtection branch) s = (.ok (some p), s') := by
    simp only [Client.host, hl, Client.interpret, Client.answer, hs, if_true, hp]
    rfl
  rw [branchProtection, ha]

/-- A payload that decodes decides.  The probe passes just when it meets every demand, and else
fails with the demands that are not met.  The decoded rules begin with the contexts of the payload
and require each further check once.  A stricter payload, on whatever branch, passes where this one
does, and so it is for whoever demands less. -/
theorem branchProtection_of_payload {p : BranchProtection} (d : Demands)
    (hp : Client.parseProtection payload = .ok p) (hl : Prints launch branch s payload) :
    let r := Json.reading payload
    let o := (branchProtection (Client.host launch) branch d s).1
    (o = .pass ↔ d.Met r) ∧
      (o ≠ .pass → o = .fail ("'" ++ branch ++ "': " ++
        Text.join "; " ((d.unmet r).map (Demand.complaint r)))) ∧
      (∃ added, p.requiredChecks = Payload.contexts r ++ added ∧
        added.Sublist (Payload.checks r) ∧ added.Nodup ∧
        ∀ c, c ∈ added ↔ c ∈ Payload.checks r ∧ c ∉ Payload.contexts r) ∧
      ∀ {τ : Type} (launch' : Client.Launch τ) (branch' payload' : String) (t : τ)
        (p' : BranchProtection) (d' : Demands),
        Client.parseProtection payload' = .ok p' → Prints launch' branch' t payload' →
        Stricter (Json.reading payload') r → d'.Eases d → o = .pass →
        (branchProtection (Client.host launch') branch' d' t).1 = .pass := by
  intro r o
  have hr : BranchProtection.decode r = .ok p := Client.decode_of_parseProtection hp
  have ho : o = protectionVerdict branch d p := branchProtection_eq hl hp
  have hpass : o = .pass ↔ d.Met r := ho ▸ protectionVerdict_eq_pass branch hr
  refine ⟨hpass, fun h => ?_, ?_, fun launch' branch' payload' t p' d' hp' hl' hs hd h => ?_⟩
  · rw [ho]
    exact protectionVerdict_of_not_met branch hr (mt hpass.mpr h)
  · rw [(BranchProtection.decode_parts hr).1]
    exact BranchProtection.mergeChecks_added _ _
  · rw [branchProtection_eq hl' hp',
      protectionVerdict_eq_pass branch' (Client.decode_of_parseProtection hp')]
    exact (hpass.mp h).mono hs hd

/-- A client that always prints the payload. -/
def printing (payload : String) : Client.Launch Unit := fun _ s =>
  (.ok ⟨true, payload.toUTF8, .empty⟩, s)

theorem prints_printing (branch payload : String) : Prints (printing payload) branch () payload :=
  ⟨_, _, rfl, rfl, Text.Utf8.lossy_toUTF8 payload⟩

theorem ok_of_toOption {α : Type} {x : Except Trouble α} {a : α} (h : x.toOption = some a) :
    x = .ok a := by
  cases x with
  | error t => cases h
  | ok b => exact congrArg _ (Option.some.inj h)

/-- Reviews that are required without a count ask for no approval. -/
theorem branchProtection_of_payload_main :
    let payload := "\x7b\"required_status_checks\":\x7b\"contexts\":[\"test\"],\"checks\":" ++
      "[\x7b\"context\":\"test\"\x7d,\x7b\"context\":\"lint\"\x7d]\x7d,\"enforce_admins\":" ++
      "\x7b\"enabled\":true\x7d,\"required_pull_request_reviews\":\x7b\x7d\x7d"
    let stricter := "\x7b\"required_status_checks\":\x7b\"contexts\":[\"lint\",\"test\"]\x7d," ++
      "\"enforce_admins\":\x7b\"enabled\":true\x7d,\"required_pull_request_reviews\":" ++
      "\x7b\"required_approving_review_count\":2\x7d\x7d"
    Client.parseProtection payload = .ok ⟨["test", "lint"], true, some 0⟩ ∧
      (branchProtection (Client.host (printing payload)) "main" ⟨some "lint", true, some 1⟩ ()).1 =
        .fail "'main': 0 approval(s) required, need at least 1" ∧
      (branchProtection (Client.host (printing stricter)) "release" ⟨none, true, some 0⟩ ()).1 =
        .pass := by
  intro payload stricter
  have hp : Client.parseProtection payload = .ok ⟨["test", "lint"], true, some 0⟩ :=
    ok_of_toOption (by decide +kernel)
  have hp' : Client.parseProtection stricter = .ok ⟨["lint", "test"], true, some 2⟩ :=
    ok_of_toOption (by decide +kernel)
  have hr := Client.decode_of_parseProtection hp
  have hr' := Client.decode_of_parseProtection hp'
  have hl := prints_printing "main" payload
  have hl' := prints_printing "release" stricter
  obtain ⟨hpass, hfail, -⟩ := branchProtection_of_payload ⟨some "lint", true, some 1⟩ hp hl
  obtain ⟨heased, -, -, hmono⟩ := branchProtection_of_payload ⟨some "lint", true, some 0⟩ hp hl
  refine ⟨hp, ?_, ?_⟩
  · rw [hfail (mt hpass.mp (mt (met_iff_problems hr).mp (by decide))), ← problems_eq hr]
    decide +kernel
  · have hs := stricter_of_decode hr hr' (by decide) id (by decide)
    exact hmono _ _ stricter () _ _ hp' hl' hs ⟨nofun, id, fun n hn => ⟨n, hn, Nat.le_refl n⟩⟩
      (heased.mpr ((met_iff_problems hr).mpr (by decide)))

end

end Readiness.Probe
