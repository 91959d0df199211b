import Readiness.Proofs.FileTree.Listing

/-!
# FileTree — trees that have more

* `Extends`: a tree has all that another has.
* `Extends.find?`, `Extends.stat?`: a path that leads to an entry leads there still.
* `extends_put`, `extends_makeDirectories`: what is put where nothing was leads to such a tree.
* `extends_erase`: a tree from which something was taken away has less; `find?_erase` says so of a
  path to what was taken.
-/

namespace Readiness.FileTree

/-- The second tree has all that the first has. -/
structure Extends (t t' : FileTree) : Prop where
  entries : ∀ e ∈ t.entries, e ∈ t'.entries
  get? : ∀ l e, t.get? l = some e → t'.get? l = some e

namespace Extends

variable {t t' t'' : FileTree}

theorem refl (t : FileTree) : Extends t t := ⟨fun _ h => h, fun _ _ h => h⟩

theorem trans (h : Extends t t') (h' : Extends t' t'') : Extends t t'' :=
  ⟨fun e he => h'.entries e (h.entries e he), fun l e he => h'.get? l e (h.get? l e he)⟩

theorem keepsDirectories (h : Extends t t') : KeepsDirectories t t' := fun l => h.get? l .directory

theorem put (h : Extends t t') (l : Location) (e : Entry) :
    Extends (t.put l e) (t'.put l e) where
  entries x hx := by
    rcases List.mem_append.mp hx with hx | hx
    · obtain ⟨hx, hne⟩ := List.mem_filter.mp hx
      exact List.mem_append_left _ (List.mem_filter.mpr ⟨h.entries x hx, hne⟩)
    · exact List.mem_append_right _ hx
  get? k x hx := by
    rw [get?_put] at hx ⊢
    split at hx
    · rename_i hk
      rw [if_pos hk, hx]
    · rename_i hk
      rw [if_neg hk, h.get? k x hx]

/-- A walk that comes to an entry comes to it still. -/
theorem walk (h : Extends t t') {l k : Location} {ss : List String} {e : Entry}
    (hw : t.walk l ss = .ok (.found k e)) : t'.walk l ss = .ok (.found k e) := by
  fun_induction FileTree.walk t l ss with
  | case1 l => exact hw
  | case2 l s ss hs ih => rw [FileTree.walk, if_pos hs]; exact ih hw
  | case3 l ss hs ih => rw [FileTree.walk, if_neg hs, if_pos rfl]; exact ih hw
  | case4 | case7 | case8 | case9 => cases hw
  | case5 l s ss hs hup hn hd ih =>
      rw [FileTree.walk, if_neg hs, if_neg hup, if_neg hn, h.get? _ _ hd]
      exact ih hw
  | case6 l s hs hup hn c hc =>
      rw [FileTree.walk, if_neg hs, if_neg hup, if_neg hn, h.get? _ _ hc]
      exact hw

theorem resolve (h : Extends t t') {p : String} {k : Location} {e : Entry}
    (hr : t.resolve [] p = .ok (.found k e)) : t'.resolve [] p = .ok (.found k e) := by
  by_cases hu : IsUsable p
  · rw [resolve_eq_walk hu] at hr ⊢
    exact h.walk hr
  · obtain ⟨i, hi⟩ := resolve_error hu t
    rw [hi] at hr
    cases hr

theorem find? (h : Extends t t') {p : String} {x : Location × Entry} (hx : t.find? p = some x) :
    t'.find? p = some x := by
  rw [FileTree.find?] at hx ⊢
  split at hx
  · rename_i l e hr
    rw [h.resolve hr]
    exact hx
  · cases hx

theorem stat? (h : Extends t t') {p : String} {e : Entry} (he : t.stat? p = some e) :
    t'.stat? p = some e := by
  rw [FileTree.stat?, Option.map_eq_some_iff] at he ⊢
  obtain ⟨x, hx, rfl⟩ := he
  exact ⟨x, h.find? hx, rfl⟩

theorem isFile (h : Extends t t') {p : String} (hf : t.isFile p = true) : t'.isFile p = true := by
  rw [FileTree.isFile] at hf ⊢
  split at hf
  · rename_i c hc
    rw [h.stat? hc]
  · cases hf

theorem readText (h : Extends t t') {p text : String} (ht : t.readText p = .ok text) :
    t'.readText p = .ok text := by
  have hb : ∀ c, t.readBytes p = .ok c → t'.readBytes p = .ok c := by
    intro c hc
    rw [readBytes] at hc ⊢
    split at hc
    · rename_i hr
      rw [h.resolve hr]
      exact hc
    all_goals cases hc
  rw [FileTree.readText] at ht ⊢
  split at ht
  · rename_i c hc
    rw [hb c hc]
    exact ht
  · cases ht

theorem children (h : Extends t t') {l : Location} {n : String} (hn : n ∈ t.children l) :
    n ∈ t'.children l := by
  rw [mem_children_iff] at hn ⊢
  exact hn.imp fun e he => h.get? _ _ he

end Extends

variable {t : FileTree}

/-- What is put where nothing was leaves all that was there. -/
theorem extends_put {l : Location} (hn : t.get? l = none) (e : Entry) : Extends t (t.put l e) where
  entries x hx := by
    have hne : l ≠ [] := fun hl => by rw [FileTree.get?, if_pos hl] at hn; cases hn
    rw [FileTree.get?, if_neg hne, List.lookup_eq_none_iff] at hn
    refine List.mem_append_left _ (List.mem_filter.mpr ⟨hx, bne_iff_ne.mpr fun hl => ?_⟩)
    exact absurd (hn x hx) (by simp [hl])
  get? k x hx := by
    rw [get?_put, if_neg]
    · exact hx
    · rintro ⟨rfl, -⟩
      rw [hn] at hx
      cases hx

theorem extends_makeDirectories (t : FileTree) (p : String) :
    Extends t (t.makeDirectories p).2 :=
  makeDirectories_puts (fun _ _ hn ht => ht.trans (extends_put hn .directory)) (.refl t) p

theorem extends_erase (t : FileTree) (l : Location) : Extends (t.erase l) t where
  entries _ hx := (List.mem_filter.mp hx).1
  get? k x hx := by
    rw [get?_erase] at hx
    split at hx
    · cases hx
    · exact hx

/-! ### What a path leads to -/

theorem find?_eq_some {p : String} {l : Location} {e : Entry} :
    t.find? p = some (l, e) ↔ t.resolve [] p = .ok (.found l e) := by
  rw [find?]
  split
  · rename_i hr
    rw [hr]
    simp
  · rename_i hr
    refine iff_of_false (fun h => ?_) fun h => hr _ _ h
    cases h

theorem get?_of_find? {p : String} {l : Location} {c : ByteArray}
    (h : t.find? p = some (l, .file c)) : t.get? l = some (.file c) :=
  (resolve_place (find?_eq_some.mp h)).2

/-- Once the file at the end of a path is taken away, the path leads nowhere. -/
theorem find?_erase {p : String} {l : Location} {c : ByteArray}
    (h : t.find? p = some (l, .file c)) : (t.erase l).find? p = none := by
  have hl := get?_of_find? h
  have hne : l ≠ [] := fun h0 => by rw [h0, get?, if_pos rfl] at hl; cases hl
  rw [Option.eq_none_iff_forall_ne_some]
  rintro ⟨k, e⟩ hk
  cases h.symm.trans ((extends_erase t l).find? hk)
  have hg := get?_of_find? hk
  rw [get?_erase, if_pos ⟨rfl, hne⟩] at hg
  cases hg

end Readiness.FileTree
