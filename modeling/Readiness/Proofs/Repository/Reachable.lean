import Mathlib.Data.List.Flatten
import Mathlib.Data.List.Nodup
import Mathlib.Logic.Relation
import Readiness.Repository.History

/-!
# Repository — what a commit's history is

The commits of a graph are linked by the ids of their parents.  `Reaches` and `Descends` follow
these links, and `Readable` says what a repository in order promises of them: each id is that of a
commit, and no commit is an ancestor of itself, since its id depends on those of its parents.

* `Closed.readable`: a numbering shows that a history is in order.
* `Searching`: what holds while the search for reachable commits is under way; `Searching.skip` and
  `Searching.visit` are its two steps.
* `reachable_ok`: the search finds the reachable commits, each once.
-/

namespace Readiness.CommitGraph

variable {g : CommitGraph} {head c d : Commit} {id : String}

theorem commit?_eq_some (h : g.commit? id = some c) : c.id = id ∧ c ∈ g.commits :=
  ⟨by simpa using List.find?_some h, List.mem_of_find?_eq_some h⟩

/-! ### Links -/

/-- The second commit is a parent of the first. -/
def Parent (g : CommitGraph) (c d : Commit) : Prop := ∃ id ∈ c.parents, g.commit? id = some d

/-- The second commit is the first one or an ancestor of it. -/
def Reaches (g : CommitGraph) : Commit → Commit → Prop := Relation.ReflTransGen g.Parent

/-- The second commit is an ancestor of the first. -/
def Descends (g : CommitGraph) : Commit → Commit → Prop := Relation.TransGen g.Parent

/-- The history of a commit is in order. -/
structure Readable (g : CommitGraph) (head : Commit) : Prop where
  /-- Every parent is in the graph. -/
  found : ∀ c, g.Reaches head c → ∀ id ∈ c.parents, ∃ d, g.commit? id = some d
  /-- No commit is an ancestor of itself. -/
  acyclic : ∀ c, g.Reaches head c → ¬ g.Descends c c

/-- Commits with different ids that have all their parents among them. -/
structure Closed (g : CommitGraph) (cs : List Commit) : Prop where
  nodup : (cs.map Commit.id).Nodup
  named : ∀ c ∈ cs, g.commit? c.id = some c
  parents : ∀ c ∈ cs, ∀ id ∈ c.parents, id ∈ cs.map Commit.id

namespace Closed

variable {cs : List Commit}

theorem exists_parent (h : g.Closed cs) (hc : c ∈ cs) (hid : id ∈ c.parents) :
    ∃ d ∈ cs, d.id = id ∧ g.commit? id = some d := by
  obtain ⟨d, hd, rfl⟩ := List.mem_map.mp (h.parents c hc id hid)
  exact ⟨d, hd, rfl, h.named d hd⟩

theorem eq_of_id (h : g.Closed cs) (hc : c ∈ cs) (hd : d ∈ cs) (he : c.id = d.id) : c = d :=
  Option.some.inj (((h.named c hc).symm.trans (congrArg g.commit? he)).trans (h.named d hd))

theorem mem_of_parent (h : g.Closed cs) (hc : c ∈ cs) (hp : g.Parent c d) : d ∈ cs := by
  obtain ⟨id, hid, hd⟩ := hp
  obtain ⟨e, he, -, he'⟩ := h.exists_parent hc hid
  exact Option.some.inj (he'.symm.trans hd) ▸ he

theorem parent_iff (h : g.Closed cs) (hd : d ∈ cs) : g.Parent c d ↔ d.id ∈ c.parents := by
  constructor
  · rintro ⟨id, hid, hf⟩
    rwa [(commit?_eq_some hf).1]
  · exact fun hid => ⟨d.id, hid, h.named d hd⟩

theorem mem_of_reaches (h : g.Closed cs) (hc : c ∈ cs) (hr : g.Reaches c d) : d ∈ cs := by
  induction hr with
  | refl => exact hc
  | tail _ hp ih => exact h.mem_of_parent ih hp

/-- Where parents have higher numbers, so have ancestors. -/
theorem lt_of_descends (h : g.Closed cs) {number : Commit → Nat}
    (hn : ∀ c ∈ cs, ∀ d ∈ cs, d.id ∈ c.parents → number c < number d) (hc : c ∈ cs)
    (hd : g.Descends c d) : number c < number d := by
  have step : ∀ c ∈ cs, ∀ d, g.Parent c d → d ∈ cs ∧ number c < number d := fun c hc d hp => by
    have hd := h.mem_of_parent hc hp
    exact ⟨hd, hn c hc d hd ((h.parent_iff hd).mp hp)⟩
  suffices d ∈ cs ∧ number c < number d from this.2
  induction hd with
  | single hp => exact step c hc _ hp
  | tail _ hp ih =>
      obtain ⟨hm, hlt⟩ := step _ ih.1 _ hp
      exact ⟨hm, Nat.lt_trans ih.2 hlt⟩

/-- A history is in order when its commits can be numbered so. -/
theorem readable (h : g.Closed cs) (hh : head ∈ cs) (number : Commit → Nat)
    (hn : ∀ c ∈ cs, ∀ d ∈ cs, d.id ∈ c.parents → number c < number d) : g.Readable head where
  found c hc id hid := by
    obtain ⟨d, -, -, hd⟩ := h.exists_parent (h.mem_of_reaches hh hc) hid
    exact ⟨d, hd⟩
  acyclic c hc hd := Nat.lt_irrefl _ (h.lt_of_descends hn (h.mem_of_reaches hh hc) hd)

end Closed

/-! ### The search -/

/-- The commits seen so far, and the ids of those to be looked at: together they lead to all that is
reachable, and to nothing else. -/
structure Searching (g : CommitGraph) (head : Commit) (seen : List Commit) (todo : List String) :
    Prop where
  nodup : (seen.map Commit.id).Nodup
  named : ∀ c ∈ seen, g.commit? c.id = some c
  reached : ∀ c ∈ seen, g.Reaches head c
  known : ∀ id ∈ todo, ∃ c, g.commit? id = some c ∧ g.Reaches head c
  parents : ∀ c ∈ seen, ∀ id ∈ c.parents, id ∈ todo ∨ id ∈ seen.map Commit.id
  head_mem : head.id ∈ todo ∨ head.id ∈ seen.map Commit.id

namespace Searching

variable {seen : List Commit} {todo : List String}

theorem start (hh : g.commit? head.id = some head) : g.Searching head [] [head.id] where
  nodup := List.nodup_nil
  named := List.forall_mem_nil _
  reached := List.forall_mem_nil _
  known := List.forall_mem_singleton.mpr ⟨head, hh, .refl⟩
  parents := List.forall_mem_nil _
  head_mem := .inl (List.mem_singleton.mpr rfl)

/-- An id that was seen before is not looked at again. -/
theorem skip (h : g.Searching head seen (id :: todo)) (hs : id ∈ seen.map Commit.id) :
    g.Searching head seen todo := by
  have drop {i : String} : i ∈ id :: todo ∨ i ∈ seen.map Commit.id →
      i ∈ todo ∨ i ∈ seen.map Commit.id := by
    rintro (hi | hi)
    · rcases List.mem_cons.mp hi with rfl | hi
      · exact .inr hs
      · exact .inl hi
    · exact .inr hi
  exact { h with
    known := fun i hi => h.known i (List.mem_cons_of_mem _ hi)
    parents := fun c hc i hi => drop (h.parents c hc i hi)
    head_mem := drop h.head_mem }

/-- A commit that is seen brings its parents. -/
theorem visit (hr : g.Readable head) (h : g.Searching head seen (id :: todo))
    (hs : id ∉ seen.map Commit.id) (hc : g.commit? id = some c) :
    g.Searching head (seen ++ [c]) (c.parents ++ todo) := by
  obtain rfl : c.id = id := (commit?_eq_some hc).1
  have hreach : g.Reaches head c := by
    obtain ⟨d, hd, hreach⟩ := h.known _ List.mem_cons_self
    rwa [Option.some.inj (hc.symm.trans hd)]
  have move {i : String} : i ∈ c.id :: todo ∨ i ∈ seen.map Commit.id →
      i ∈ c.parents ++ todo ∨ i ∈ (seen ++ [c]).map Commit.id := by
    rw [List.map_append, List.map_singleton]
    rintro (hi | hi)
    · rcases List.mem_cons.mp hi with rfl | hi
      · exact .inr (List.mem_append_right _ (List.mem_singleton.mpr rfl))
      · exact .inl (List.mem_append_right _ hi)
    · exact .inr (List.mem_append_left _ hi)
  constructor
  · rw [List.map_append, List.map_singleton, ← List.concat_eq_append]
    exact h.nodup.concat hs
  · exact List.forall_mem_append.mpr ⟨h.named, List.forall_mem_singleton.mpr hc⟩
  · exact List.forall_mem_append.mpr ⟨h.reached, List.forall_mem_singleton.mpr hreach⟩
  · refine List.forall_mem_append.mpr ⟨fun i hi => ?_, fun i hi => ?_⟩
    · obtain ⟨d, hd⟩ := hr.found c hreach i hi
      exact ⟨d, hd, hreach.tail ⟨i, hi, hd⟩⟩
    · exact h.known i (List.mem_cons_of_mem _ hi)
  · refine List.forall_mem_append.mpr ⟨fun d hd i hi => move (h.parents d hd i hi), ?_⟩
    exact List.forall_mem_singleton.mpr fun i hi => .inl (List.mem_append_left _ hi)
  · exact move h.head_mem

/-- When nothing is to be looked at any more, all is found. -/
theorem closed (h : g.Searching head seen []) : g.Closed seen where
  nodup := h.nodup
  named := h.named
  parents c hc id hid := (h.parents c hc id hid).resolve_left List.not_mem_nil

theorem mem_iff (hh : g.commit? head.id = some head) (h : g.Searching head seen []) :
    c ∈ seen ↔ g.Reaches head c := by
  constructor
  · exact h.reached c
  · obtain ⟨d, hd, he⟩ := List.mem_map.mp (h.head_mem.resolve_left List.not_mem_nil)
    have hn := h.named d hd
    rw [he, hh] at hn
    cases hn
    exact h.closed.mem_of_reaches hd

end Searching

/-! ### Fuel -/

/-- How many links lead from the commits that have not been seen. -/
def linksLeft (g : CommitGraph) (seen : List Commit) : Nat :=
  ((g.commits.filter fun c => !seen.any (·.id == c.id)).flatMap (·.parents)).length

theorem length_flatMap_filter_le (cs : List Commit) (p : Commit → Bool) :
    ((cs.filter p).flatMap (·.parents)).length ≤ (cs.flatMap (·.parents)).length :=
  (List.filter_sublist.flatMap _).length_le

/-- A commit that is seen leaves no links. -/
theorem linksLeft_visit {seen : List Commit} (hc : g.commit? id = some c)
    (hs : seen.any (·.id == id) = false) :
    c.parents.length + g.linksLeft (seen ++ [c]) ≤ g.linksLeft seen := by
  obtain ⟨rfl, hm⟩ := commit?_eq_some hc
  have hfilter : (g.commits.filter fun d => !(seen ++ [c]).any (·.id == d.id)) =
      (g.commits.filter fun d => !seen.any (·.id == d.id)).filter fun d => !c.id == d.id := by
    rw [List.filter_filter]
    refine List.filter_congr fun d _ => ?_
    rw [List.any_append, Bool.not_or, List.any_cons, List.any_nil, Bool.or_false, Bool.and_comm]
  have hleft : c ∈ g.commits.filter fun d => !seen.any (·.id == d.id) :=
    List.mem_filter.mpr ⟨hm, by rw [hs]; rfl⟩
  rw [linksLeft, hfilter, linksLeft]
  obtain ⟨pre, post, hcut⟩ := List.append_of_mem hleft
  rw [hcut, List.filter_append, List.filter_cons_of_neg (by simp), List.flatMap_append,
    List.flatMap_append, List.flatMap_cons]
  simp only [List.length_append]
  have hpre := length_flatMap_filter_le pre fun d => !c.id == d.id
  have hpost := length_flatMap_filter_le post fun d => !c.id == d.id
  omega

theorem collect_ok (hr : g.Readable head) {n : Nat} {todo : List String} {seen : List Commit}
    (h : g.Searching head seen todo) (hn : g.linksLeft seen + todo.length ≤ n) :
    ∃ cs, g.collect n todo seen = some cs ∧ g.Searching head cs [] := by
  fun_induction collect g n todo seen with
  | case1 n seen => exact ⟨seen, rfl, h⟩
  | case2 => simp at hn
  | case3 n id todo seen hs ih =>
      have hs : id ∈ seen.map Commit.id := by simpa using hs
      exact ih (h.skip hs) (by rw [List.length_cons] at hn; omega)
  | case4 n id todo seen hs c hc ih =>
      have hs : seen.any (·.id == id) = false := by simpa using hs
      have hleft := linksLeft_visit hc hs
      refine ih (h.visit hr (by simpa using hs) hc) ?_
      rw [List.length_cons] at hn
      rw [List.length_append]
      omega
  | case5 n id todo seen hs hc =>
      obtain ⟨c, hc', -⟩ := h.known id List.mem_cons_self
      cases hc.symm.trans hc'

/-- The search finds the reachable commits, each once. -/
theorem reachable_ok (hh : g.commit? head.id = some head) (hr : g.Readable head) :
    ∃ cs, g.reachable head = some cs ∧ g.Closed cs ∧ ∀ c, c ∈ cs ↔ g.Reaches head c := by
  have hn : g.linksLeft [] + [head.id].length ≤ g.visits := by
    have hle := length_flatMap_filter_le g.commits fun c => !([] : List Commit).any (·.id == c.id)
    rw [linksLeft, visits, List.length_singleton]
    omega
  obtain ⟨cs, hcs, h⟩ := collect_ok hr (.start hh) hn
  exact ⟨cs, hcs, h.closed, fun c => h.mem_iff hh⟩

end Readiness.CommitGraph
