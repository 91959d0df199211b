import Readiness.Probe.Evaluate
import Readiness.Proofs.Outcome
import Readiness.Proofs.Repository.Head
import Readiness.Proofs.Repository.History
import Readiness.Proofs.Text.Searching

/-!
# Probe — commits that are looked for

A marker is looked for in so many messages of a log.  Neither merges nor wrong clocks hide a commit
from it: what stands before the commit in the log are only commits that are no ancestors of it.

* `Repository.messages_eq`: the messages are those of the first commits of a log.
* `Probe.finds_iff`: the probe passes where one of these commits mentions the marker.
* `Probe.handshake_not_missed`: which commits these are, and when a commit is among them.
-/

namespace Readiness

/-- The message contains the marker. -/
def Commit.Mentions (c : Commit) (marker : String) : Prop :=
  marker.toList <:+: c.messageText.toList

namespace Repository

variable {r : Repository} {c : Commit}

theorem commit?_head (h : r.head = .ok c) : r.graph.commit? c.id = some c := by
  obtain ⟨id, hid, -⟩ := head_eq_ok.mp h
  rwa [(CommitGraph.commit?_eq_some hid).1]

/-- The messages are those of the first commits of a log. -/
theorem messages_eq (h : r.head = .ok c) (hr : r.graph.Readable c) :
    ∃ cs, r.graph.Logs c cs ∧ ∀ n, r.messages n = .ok ((cs.take n).map Commit.messageText) := by
  obtain ⟨cs, hcs, hlog⟩ := CommitGraph.log_ok (commit?_head h) hr
  refine ⟨cs, hlog, fun n => ?_⟩
  rw [messages, h]
  dsimp only
  rw [hcs]

end Repository

namespace Probe

variable {σ : Type} {p : Probe σ} {cs : List Commit} {marker : String} {s : Scene (Memory σ)}

/-- The probe that looks at so many commits. -/
def atDepth (p : Probe σ) (n : Nat) : Probe σ :=
  { p with settings := { p.settings with historyDepth := n } }

/-- The marker is found among so many commits. -/
def Finds (p : Probe σ) (marker : String) (s : Scene (Memory σ)) (n : Nat) : Prop :=
  ((p.atDepth n).evaluate (.handshakeCommit marker) s).1.isPass = true

theorem finds_iff {n : Nat} (h : p.vcs.messages n = .ok ((cs.take n).map Commit.messageText)) :
    p.Finds marker s n ↔ ∃ c ∈ cs.take n, c.Mentions marker := by
  have he : ((p.atDepth n).evaluate (.handshakeCommit marker) s).1 =
      handshakeCommit p.vcs marker n := rfl
  rw [Finds, he, handshakeCommit, h]
  dsimp only
  rw [Outcome.isPass_passIf, List.any_map, List.any_eq_true]
  exact exists_congr fun c => and_congr_right fun _ => Text.contains_iff

/-- A commit that mentions the marker is not missed because of merges or wrong clocks.  The messages
that are looked at are those of the first commits in one order of all that HEAD reaches, in which no
commit stands before one of its descendants.  So the marker is found still when more of them are
looked at; it is found where any commit mentions it when all are; and it is found when there are no
more than so many commits that are no ancestors of one that mentions it. -/
theorem handshake_not_missed {r : Repository} {c : Commit} (hc : r.head = .ok c)
    (hr : r.graph.Readable c) :
    ∃ cs : List Commit, r.graph.Logs c cs ∧
      (∀ n, ∃ ms, r.messages n = .ok ms ∧ ms = (cs.take n).map Commit.messageText ∧
        ms.length = min n {d | r.graph.Reaches c d}.ncard) ∧
      (∀ m n, m ≤ n → ∃ ms ns, r.messages m = .ok ms ∧ r.messages n = .ok ns ∧ ms <+: ns) ∧
      ∀ (σ : Type) (p : Probe σ), p.vcs = r.vcs → ∀ marker s,
        (∀ m n, m ≤ n → p.Finds marker s m → p.Finds marker s n) ∧
        (∀ n, {d | r.graph.Reaches c d}.ncard ≤ n →
          (p.Finds marker s n ↔ ∃ d, r.graph.Reaches c d ∧ d.Mentions marker)) ∧
        ∀ d, r.graph.Reaches c d → d.Mentions marker → ∀ n,
          {e | r.graph.Reaches c e ∧ ¬ r.graph.Descends d e}.ncard ≤ n → p.Finds marker s n := by
  obtain ⟨cs, hlog, hms⟩ := Repository.messages_eq hc hr
  refine ⟨cs, hlog, fun n => ?_, fun m n hle => ?_,
    fun σ p hp marker s => ?_⟩
  · refine ⟨_, hms n, rfl, ?_⟩
    rw [List.length_map, List.length_take, hlog.length_eq]
  · exact ⟨_, _, hms m, hms n, (List.take_prefix_take_left hle).map _⟩
  · have finds : ∀ n, p.Finds marker s n ↔ ∃ d ∈ cs.take n, d.Mentions marker := fun n =>
      finds_iff (by rw [hp]; exact hms n)
    refine ⟨fun m n hle hm => ?_, fun n hn => ?_, fun d hd hmark n hn => ?_⟩
    · obtain ⟨d, hd, hmark⟩ := (finds m).mp hm
      exact (finds n).mpr ⟨d, (List.take_prefix_take_left hle).subset hd, hmark⟩
    · rw [finds, List.take_of_length_le (by rwa [hlog.length_eq])]
      exact exists_congr fun d => and_congr_left fun _ => hlog.mem_iff d
    · exact (finds n).mpr ⟨d, hlog.mem_take hr hd hn, hmark⟩

/-! ### A merge with a clock behind -/

namespace Merged

/-- A commit with an id of forty times the same digit. -/
def commit (digit : Char) (time : Int) (parents : List Char) (message : String) : Commit :=
  ⟨id digit, time, parents.map id, message.toUTF8⟩
where
  id (digit : Char) : String := .ofList (.replicate 40 digit)

def root : Commit := commit 'a' 9 [] "start"

/-- Its clock is behind that of its parent. -/
def handshake : Commit := commit 'b' 1 ['a'] "handshake: ready"

def other : Commit := commit 'c' 8 ['a'] "docs"

def tip : Commit := commit 'd' 3 ['b', 'c'] "merge"

def repository : Repository :=
  ⟨"/.git", ⟨[([".git"], .directory), ([".git", "HEAD"], .file (tip.id ++ "\n").toUTF8),
    ([".git", "objects"], .directory), ([".git", "refs"], .directory)]⟩,
    ⟨[root, handshake, other, tip]⟩⟩

def probe : Probe Unit :=
  ⟨"/", repository.vcs, ⟨fun s => (false, s), fun _ s => (.error (.ofCause "offline"), s)⟩, ⟨"p"⟩,
    .standard, ⟨tip.id, "ddddddd"⟩⟩

theorem head_repository : repository.head = .ok tip := by
  have hf : repository.files.readBytes (Path.join repository.gitDir "HEAD") =
      .ok (tip.id ++ "\n").toUTF8 := rfl
  have hp : Reference.parse? (tip.id ++ "\n") = some (.direct tip.id) := by decide +kernel
  have hr : repository.reference "HEAD" = .ok (.direct tip.id) :=
    Repository.reference_of_file hf hp
  exact Repository.head_eq_ok.mpr ⟨tip.id, by decide +kernel, .inl hr⟩

theorem closed_commits : repository.graph.Closed [tip, other, handshake, root] where
  nodup := by decide +kernel
  named := by decide +kernel
  parents := by decide +kernel

theorem readable_tip : repository.graph.Readable tip :=
  closed_commits.readable List.mem_cons_self [tip, other, handshake, root].idxOf
    (by decide +kernel)

theorem reaches_handshake : repository.graph.Reaches tip handshake :=
  .single ((closed_commits.parent_iff (by decide +kernel)).mpr (by decide +kernel))

/-- The handshake has one ancestor among the four commits. -/
theorem ncard_not_descends :
    {c | repository.graph.Reaches tip c ∧ ¬ repository.graph.Descends handshake c}.ncard ≤ 3 := by
  have hsub : {c | repository.graph.Reaches tip c ∧ ¬ repository.graph.Descends handshake c} ⊆
      (([tip, other, handshake].toFinset : Finset Commit) : Set Commit) := by
    rintro c ⟨hc, hn⟩
    have hroot : repository.graph.Descends handshake root :=
      .single ((closed_commits.parent_iff (by decide +kernel)).mpr (by decide +kernel))
    have hne : c ≠ root := by
      rintro rfl
      exact hn hroot
    have hm := closed_commits.mem_of_reaches List.mem_cons_self hc
    rw [List.coe_toFinset]
    simpa [hne] using hm
  calc _ ≤ _ := Set.ncard_le_ncard hsub (Finset.finite_toSet _)
    _ ≤ 3 := by rw [Set.ncard_coe_finset]; exact List.toFinset_card_le _

end Merged

/-- The commit is found among three of four, though its parent is newer. -/
theorem handshake_not_missed_merged :
    Merged.repository.head = .ok Merged.tip ∧ Merged.repository.graph.Readable Merged.tip ∧
      Merged.probe.Finds "handshake: ready" ⟨⟨(), none⟩, Merged.repository.files⟩ 3 := by
  have hc := Merged.head_repository
  have hr := Merged.readable_tip
  obtain ⟨cs, -, -, -, h⟩ := handshake_not_missed hc hr
  obtain ⟨-, -, hfind⟩ := h Unit Merged.probe rfl "handshake: ready"
    ⟨⟨(), none⟩, Merged.repository.files⟩
  have hmark : Merged.handshake.Mentions "handshake: ready" :=
    Text.contains_iff.mp (by decide +kernel)
  exact ⟨hc, hr, hfind _ Merged.reaches_handshake hmark 3 Merged.ncard_not_descends⟩

end Probe

end Readiness
