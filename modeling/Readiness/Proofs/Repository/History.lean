import Mathlib.Data.Set.Card
import Mathlib.Data.Set.Finite.List
import Mathlib.Data.List.Nodup
import Mathlib.Order.WellFounded
import Readiness.Proofs.Repository.Queue
import Readiness.Proofs.Repository.Reachable

/-!
# Repository — the order of a log

A log shows a commit as soon as all commits that it is a parent of have been shown.  Those are the
commits that wait in the queue, and among them the queue decides; whatever it decides, no commit is
shown before one that descends from it.

* `Awaits`: the queue holds the commits that may come next; `Awaits.keep` and `Awaits.enqueue` are
  what a link that is gone does to it.
* `Closed.exists_source`: where commits are left, one of them may come next.
* `Unshown.next`, `Unshown.unroll_order`: one commit is shown, and then all are, each before its
  parents.
* `Logs`, `log_ok`: a log has the reachable commits, each once and after all its descendants.
* `Logs.mem_take`: where a commit stands in it at most.
-/

namespace Readiness.CommitGraph

variable {g : CommitGraph} {head c d : Commit} {cs : List Commit} {q : Queue} {links : List String}

/-! ### Commits that are left -/

namespace Closed

theorem of_perm {ds : List Commit} (h : g.Closed cs) (hp : ds.Perm cs) : g.Closed ds where
  nodup := (hp.map _).nodup_iff.mpr h.nodup
  named c hc := h.named c (hp.mem_iff.mp hc)
  parents c hc id hid := (hp.map _).mem_iff.mpr (h.parents c (hp.mem_iff.mp hc) id hid)

/-- A commit that is no parent can go. -/
theorem erase (h : g.Closed cs) (hc : ∀ d ∈ cs, c.id ∉ d.parents) : g.Closed (cs.erase c) where
  nodup := h.nodup.sublist (List.erase_sublist.map _)
  named d hd := h.named d (List.mem_of_mem_erase hd)
  parents d hd id hid := by
    obtain ⟨e, he, rfl⟩ := List.mem_map.mp (h.parents d (List.mem_of_mem_erase hd) id hid)
    have hne : e ≠ c := by
      rintro rfl
      exact hc d (List.mem_of_mem_erase hd) hid
    exact List.mem_map_of_mem ((List.mem_erase_of_ne hne).mpr he)

/-- Where commits are left, one of them is no parent of another. -/
theorem exists_source (h : g.Closed cs) (hne : cs ≠ []) (hac : ∀ c ∈ cs, ¬ g.Descends c c) :
    ∃ c ∈ cs, ∀ d ∈ cs, c.id ∉ d.parents := by
  let above : {c // c ∈ cs} → {c // c ∈ cs} → Prop := fun c d => g.Descends c.1 d.1
  have : IsTrans _ above := ⟨fun _ _ _ h₁ h₂ => Relation.TransGen.trans h₁ h₂⟩
  have : Std.Irrefl above := ⟨fun c => hac c.1 c.2⟩
  have : Finite {c // c ∈ cs} := cs.finite_toSet
  have wf : WellFounded above := Finite.wellFounded_of_trans_of_irrefl above
  obtain ⟨b, hb⟩ := List.exists_mem_of_ne_nil cs hne
  obtain ⟨c, -, hc⟩ := wf.has_min Set.univ ⟨⟨b, hb⟩, trivial⟩
  refine ⟨c.1, c.2, fun d hd hid => hc ⟨d, hd⟩ trivial ?_⟩
  exact .single ((h.parent_iff c.2).mpr hid)

end Closed

/-! ### The queue -/

/-- The queue holds, each once, the commits of those left that no link leads to. -/
structure Awaits (cs : List Commit) (q : Queue) (links : List String) : Prop where
  nodup : q.toList.Nodup
  mem_iff : ∀ c, c ∈ q.toList ↔ c ∈ cs ∧ c.id ∉ links

namespace Awaits

/-- A link less makes no difference to a commit that others lead to. -/
theorem keep (h : Awaits cs q links) {p : String} (hp : p ∈ links.erase p) :
    Awaits cs q (links.erase p) where
  nodup := h.nodup
  mem_iff c := by
    rw [h.mem_iff c]
    by_cases hc : c.id = p
    · have hl := List.mem_of_mem_erase hp
      subst hc
      exact iff_of_false (fun hc => hc.2 hl) fun hc => hc.2 hp
    · rw [List.mem_erase_of_ne hc]

/-- With the last link that leads to it, a commit comes into the queue. -/
theorem enqueue (hcs : g.Closed cs) (h : Awaits cs q links) (hd : d ∈ cs) (hl : d.id ∈ links)
    (hlast : d.id ∉ links.erase d.id) : Awaits cs (q.push d) (links.erase d.id) where
  nodup := by
    rw [(Queue.push_perm q d).nodup_iff, List.nodup_cons]
    exact ⟨fun hm => ((h.mem_iff d).mp hm).2 hl, h.nodup⟩
  mem_iff c := by
    rw [(Queue.push_perm q d).mem_iff, List.mem_cons, h.mem_iff c]
    by_cases hc : c = d
    · subst hc
      exact iff_of_true (.inl rfl) ⟨hd, hlast⟩
    · constructor
      · rintro (he | ⟨hm, hn⟩)
        · exact absurd he hc
        · exact ⟨hm, fun hm => hn (List.mem_of_mem_erase hm)⟩
      · rintro ⟨hm, hn⟩
        have hne : c.id ≠ d.id := fun he => hc (hcs.eq_of_id hm hd he)
        exact .inr ⟨hm, fun hl => hn ((List.mem_erase_of_ne hne).mpr hl)⟩

/-- The commit in front may come next, and the queue holds the others. -/
theorem pop {q' : Queue} (hcs : g.Closed cs) (h : Awaits cs q links)
    (hq : q.pop? = some (c, q')) :
    (c ∈ cs ∧ c.id ∉ links) ∧ Awaits (cs.erase c) q' links := by
  have hp := Queue.pop?_eq_some hq
  have hn := hp.nodup_iff.mp h.nodup
  rw [List.nodup_cons] at hn
  refine ⟨(h.mem_iff c).mp (hp.mem_iff.mpr List.mem_cons_self), hn.2, fun d => ?_⟩
  have hd := h.mem_iff d
  rw [hp.mem_iff, List.mem_cons] at hd
  rw [(List.Nodup.of_map _ hcs.nodup).mem_erase_iff]
  constructor
  · intro hm
    have hne : d ≠ c := by
      rintro rfl
      exact hn.1 hm
    exact ⟨⟨hne, (hd.mp (.inr hm)).1⟩, (hd.mp (.inr hm)).2⟩
  · rintro ⟨⟨hne, hm⟩, hl⟩
    exact (hd.mpr ⟨hm, hl⟩).resolve_left hne

/-- Once its links are gone, the parents of a commit wait unless other links lead to them. -/
theorem release (hcs : g.Closed cs) {ps : List String} (hps : ∀ p ∈ ps, p ∈ cs.map Commit.id)
    (hsub : ps.Subperm links) (h : Awaits cs q links) :
    (g.release ps q links).2 = links.diff ps ∧
      Awaits cs (g.release ps q links).1 (g.release ps q links).2 := by
  induction ps generalizing q links with
  | nil => exact ⟨rfl, h⟩
  | cons p ps ih =>
      rw [List.forall_mem_cons] at hps
      have hl : p ∈ links := hsub.subset List.mem_cons_self
      have hsub : ps.Subperm (links.erase p) := by
        have := hsub.erase p
        rwa [List.erase_cons_head] at this
      obtain ⟨d, hd, rfl⟩ := List.mem_map.mp hps.1
      rw [CommitGraph.release, List.diff_cons]
      split
      · rename_i hc
        exact ih hps.2 hsub (h.keep (List.contains_iff_mem.mp hc))
      · rename_i hc
        rw [hcs.named d hd]
        exact ih hps.2 hsub (h.enqueue hcs hd hl fun hm => hc (List.contains_iff_mem.mpr hm))

end Awaits

/-! ### The log -/

/-- What has not been shown: commits, those of them that wait, and the links between them. -/
structure Unshown (g : CommitGraph) (cs : List Commit) (q : Queue) (links : List String) :
    Prop where
  closed : g.Closed cs
  acyclic : ∀ c ∈ cs, ¬ g.Descends c c
  links_perm : links.Perm (cs.flatMap Commit.parents)
  awaits : Awaits cs q links

namespace Unshown

theorem mem_links (h : g.Unshown cs q links) {id : String} :
    id ∈ links ↔ ∃ d ∈ cs, id ∈ d.parents := by
  rw [h.links_perm.mem_iff, List.mem_flatMap]

/-- As long as there are commits, one of them waits. -/
theorem exists_pop (h : g.Unshown cs q links) (hne : cs ≠ []) : ∃ c q', q.pop? = some (c, q') := by
  obtain ⟨b, hb, hsource⟩ := h.closed.exists_source hne h.acyclic
  have hbq : b ∈ q.toList := (h.awaits.mem_iff b).mpr ⟨hb, fun hm => by
    obtain ⟨d, hd, hid⟩ := h.mem_links.mp hm
    exact hsource d hd hid⟩
  rcases hpop : q.pop? with _ | ⟨c, q'⟩
  · rw [Queue.pop?_eq_none.mp hpop] at hbq
    cases hbq
  · exact ⟨c, q', rfl⟩

/-- The commit that comes next is a parent of none, and when its links are released the others are
what has not been shown. -/
theorem next {q' : Queue} (h : g.Unshown cs q links) (hq : q.pop? = some (c, q')) :
    (c ∈ cs ∧ ∀ d ∈ cs, c.id ∉ d.parents) ∧
      g.Unshown (cs.erase c) (g.release c.parents q' links).1
        (g.release c.parents q' links).2 := by
  obtain ⟨⟨hc, hcl⟩, hq'⟩ := h.awaits.pop h.closed hq
  have hsource : ∀ d ∈ cs, c.id ∉ d.parents := fun d hd hid => hcl (h.mem_links.mpr ⟨d, hd, hid⟩)
  have hcs := h.closed.erase hsource
  have hsplit : links.Perm (c.parents ++ (cs.erase c).flatMap Commit.parents) :=
    h.links_perm.trans ((List.perm_cons_erase hc).flatMap_right _)
  have hparents : ∀ p ∈ c.parents, p ∈ (cs.erase c).map Commit.id := fun p hp => by
    obtain ⟨d, hd, rfl⟩ := List.mem_map.mp (h.closed.parents c hc p hp)
    have hne : d ≠ c := by
      rintro rfl
      exact hsource d hc hp
    exact List.mem_map_of_mem ((List.mem_erase_of_ne hne).mpr hd)
  obtain ⟨hdiff, hnext⟩ := Awaits.release hcs hparents
    ((List.sublist_append_left _ _).subperm.trans hsplit.symm.subperm) hq'
  refine ⟨⟨hc, hsource⟩, hcs, fun d hd => h.acyclic d (List.mem_of_mem_erase hd), ?_, hnext⟩
  rw [hdiff, List.perm_iff_count]
  intro p
  rw [List.count_diff, hsplit.count_eq, List.count_append]
  omega

/-- All that has not been shown is, each commit before its parents. -/
theorem unroll_order (h : g.Unshown cs q links) :
    (g.unroll cs.length q links).Perm cs ∧
      (g.unroll cs.length q links).Pairwise fun c d => c.id ∉ d.parents := by
  induction hn : cs.length generalizing cs q links with
  | zero =>
      obtain rfl := List.length_eq_zero_iff.mp hn
      exact ⟨.refl _, .nil⟩
  | succ n ih =>
      have hne : cs ≠ [] := by
        rintro rfl
        cases hn
      obtain ⟨c, q', hpop⟩ := h.exists_pop hne
      obtain ⟨⟨hc, hsource⟩, hnext⟩ := h.next hpop
      obtain ⟨hall, horder⟩ := ih hnext (by rw [List.length_erase_of_mem hc, hn]; rfl)
      rw [unroll, hpop]
      refine ⟨(hall.cons c).trans (List.perm_cons_erase hc).symm,
        List.pairwise_cons.mpr ⟨fun d hd => ?_, horder⟩⟩
      exact hsource d (List.mem_of_mem_erase (hall.mem_iff.mp hd))

end Unshown

/-- Where each commit stands before its parents, it stands before all its ancestors. -/
theorem pairwise_not_descends (hcs : g.Closed cs) (hac : ∀ c ∈ cs, ¬ g.Descends c c)
    (h : cs.Pairwise fun c d => c.id ∉ d.parents) :
    cs.Pairwise fun c d => ¬ g.Descends d c := by
  have hn : cs.Nodup := List.Nodup.of_map _ hcs.nodup
  have above : ∀ c ∈ cs, ∀ d ∈ cs, d.id ∈ c.parents → cs.idxOf c < cs.idxOf d := by
    intro c hc d hd hid
    refine Nat.lt_of_not_le fun hle => ?_
    rcases Nat.lt_or_eq_of_le hle with hlt | heq
    · have := List.pairwise_iff_getElem.mp h _ _ (List.idxOf_lt_length_of_mem hd)
        (List.idxOf_lt_length_of_mem hc) hlt
      rw [List.getElem_idxOf, List.getElem_idxOf] at this
      exact this hid
    · obtain rfl : d = c := (List.idxOf_inj hd).mp heq
      exact hac d hd (.single ((hcs.parent_iff hd).mpr hid))
  rw [List.pairwise_iff_getElem]
  intro i j hi hj hij hd
  have hlt := hcs.lt_of_descends above (List.getElem_mem hj) hd
  rw [hn.idxOf_getElem, hn.idxOf_getElem] at hlt
  omega

/-- The commits that can be reached, each once, and none before one of its descendants. -/
structure Logs (g : CommitGraph) (head : Commit) (cs : List Commit) : Prop where
  nodup : (cs.map Commit.id).Nodup
  mem_iff : ∀ c, c ∈ cs ↔ g.Reaches head c
  order : cs.Pairwise fun c d => ¬ g.Descends d c

/-- A log has the reachable commits, each once and after all its descendants. -/
theorem log_ok (hh : g.commit? head.id = some head) (hr : g.Readable head) :
    ∃ cs, g.log head = some cs ∧ g.Logs head cs := by
  obtain ⟨cs, hfound, hcs, hmem⟩ := reachable_ok hh hr
  have hac : ∀ c ∈ cs, ¬ g.Descends c c := fun c hc => hr.acyclic c ((hmem c).mp hc)
  -- at first the queue holds the one commit that nothing reachable descends from
  have hq : Awaits cs #[head] (cs.flatMap Commit.parents) := by
    refine ⟨List.nodup_singleton head, fun c => ?_⟩
    rw [List.mem_singleton, List.mem_flatMap]
    constructor
    · rintro rfl
      refine ⟨(hmem c).mpr .refl, ?_⟩
      rintro ⟨d, hd, hid⟩
      exact hr.acyclic c .refl (.tail' ((hmem d).mp hd) ⟨c.id, hid, hh⟩)
    · rintro ⟨hc, hl⟩
      rcases Relation.ReflTransGen.cases_tail ((hmem c).mp hc) with rfl | ⟨d, hd, hp⟩
      · rfl
      · exact absurd ⟨d, (hmem d).mpr hd, (hcs.parent_iff hc).mp hp⟩ hl
  obtain ⟨hall, horder⟩ := Unshown.unroll_order ⟨hcs, hac, .refl _, hq⟩
  have hlog := hcs.of_perm hall
  refine ⟨_, by rw [log, hfound]; rfl, hlog.nodup, fun c => hall.mem_iff.trans (hmem c), ?_⟩
  exact pairwise_not_descends hlog (fun c hc => hac c (hall.mem_iff.mp hc)) horder

namespace Logs

theorem finite (h : g.Logs head cs) : {c | g.Reaches head c}.Finite :=
  cs.finite_toSet.subset fun c hc => (h.mem_iff c).mpr hc

/-- It is as long as there are reachable commits. -/
theorem length_eq (h : g.Logs head cs) : cs.length = {c | g.Reaches head c}.ncard := by
  have hset : {c | g.Reaches head c} = (cs.toFinset : Set Commit) := by
    ext c
    rw [List.coe_toFinset]
    exact (h.mem_iff c).symm
  rw [hset, Set.ncard_coe_finset, List.toFinset_card_of_nodup (List.Nodup.of_map _ h.nodup)]

/-- Only commits that are no ancestors of it stand before a commit. -/
theorem mem_take (hr : g.Readable head) (h : g.Logs head cs) (hc : g.Reaches head c) {n : Nat}
    (hn : {d | g.Reaches head d ∧ ¬ g.Descends c d}.ncard ≤ n) : c ∈ cs.take n := by
  have hmem := (h.mem_iff c).mpr hc
  have hi := List.idxOf_lt_length_of_mem hmem
  have hnodup : cs.Nodup := List.Nodup.of_map _ h.nodup
  have hsub : ((cs.take (cs.idxOf c + 1)).toFinset : Set Commit) ⊆
      {d | g.Reaches head d ∧ ¬ g.Descends c d} := by
    intro d hd
    rw [List.coe_toFinset] at hd
    have hd : d ∈ cs.take (cs.idxOf c + 1) := hd
    refine ⟨(h.mem_iff d).mp (List.mem_of_mem_take hd), ?_⟩
    rw [List.take_succ_eq_append_getElem hi, List.getElem_idxOf, List.mem_append,
      List.mem_singleton] at hd
    rcases hd with hd | rfl
    · obtain ⟨i, hlt, rfl⟩ := List.mem_take_iff_getElem.mp hd
      have hlt : i < cs.idxOf c := (Nat.lt_min.mp hlt).1
      have := List.pairwise_iff_getElem.mp h.order i _ (Nat.lt_trans hlt hi) hi hlt
      rwa [List.getElem_idxOf] at this
    · exact hr.acyclic d hc
  have hle : cs.idxOf c + 1 ≤ n := by
    calc cs.idxOf c + 1
        = (cs.take (cs.idxOf c + 1)).length := by rw [List.length_take]; omega
      _ = ((cs.take (cs.idxOf c + 1)).toFinset : Set Commit).ncard := by
        rw [Set.ncard_coe_finset,
          List.toFinset_card_of_nodup (hnodup.sublist (List.take_sublist _ _))]
      _ ≤ {d | g.Reaches head d ∧ ¬ g.Descends c d}.ncard :=
        Set.ncard_le_ncard hsub (h.finite.subset fun d hd => hd.1)
      _ ≤ n := hn
  exact List.mem_take_iff_getElem.mpr
    ⟨cs.idxOf c, Nat.lt_min.mpr ⟨hle, hi⟩, List.getElem_idxOf hi⟩

end Logs

end Readiness.CommitGraph
