import Mathlib.Tactic.ByContra
import Readiness.Proofs.FileTree.Growth

/-!
# FileTree — making a directory a second time

An attempt that fails may have made some of the ancestors.  The next one fails again, not always for
the same reason, and makes nothing more.

* `isDirectory_ofNames`: where a path leads anywhere, its ancestors are directories.
* `makeDirectories_again`: a directory that could not be made cannot be made.
* `makeDirectories_of_not_usable`: at a path that cannot be followed nothing is made.
-/

namespace Readiness.FileTree

variable {t t' : FileTree} {p : String} {names : List String}

/-! ### The length of a path -/

/-- How many bytes segments take, each with a slash. -/
def span : List String → Nat
  | [] => 0
  | s :: ss => s.utf8ByteSize + 1 + span ss

theorem span_append (ss ts : List String) : span (ss ++ ts) = span ss + span ts := by
  induction ss with
  | nil => exact (Nat.zero_add _).symm
  | cons s ss ih =>
      rw [List.cons_append, span, span, ih]
      exact (Nat.add_assoc ..).symm

theorem span_filter_le (f : String → Bool) (ss : List String) : span (ss.filter f) ≤ span ss := by
  induction ss with
  | nil => exact Nat.le_refl _
  | cons s ss ih =>
      rw [List.filter_cons]
      split <;> simp only [span] <;> omega

theorem span_pieces (cs : List Char) :
    span ((Text.pieces '/' cs).map String.ofList) = (String.ofList cs).utf8ByteSize + 1 := by
  induction cs with
  | nil => rfl
  | cons c cs ih =>
      rw [Text.pieces, String.ofList_cons, String.utf8ByteSize_append,
        String.utf8ByteSize_singleton]
      cases hp : Text.pieces '/' cs with
      | nil => exact absurd hp (Text.pieces_ne_nil _ _)
      | cons q qs =>
          rw [hp, List.map_cons, span] at ih
          dsimp only
          split
          · rename_i hc
            have hs : c.utf8Size = 1 := by rw [hc]; rfl
            rw [List.map_cons, List.map_cons, span, span, hs,
              show String.ofList [] = "" from rfl, String.utf8ByteSize_empty]
            omega
          · rw [List.map_cons, span, String.ofList_cons, String.utf8ByteSize_append,
              String.utf8ByteSize_singleton]
            omega

theorem span_segments (p : String) : span (Path.segments p) = p.utf8ByteSize + 1 := by
  rw [Path.segments, Text.split, span_pieces, String.ofList_toList]

theorem utf8ByteSize_ofNames (h : names ≠ []) :
    (Path.ofNames names).utf8ByteSize = span names := by
  rw [Path.ofNames, String.utf8ByteSize_append, show "/".utf8ByteSize = 1 from rfl]
  induction names with
  | nil => exact absurd rfl h
  | cons n names ih =>
      cases names with
      | nil => rw [span, Text.join, span]; simp; omega
      | cons m names =>
          have ih := ih (by simp)
          rw [Text.join_cons_cons, String.utf8ByteSize_append, String.utf8ByteSize_append,
            span, ← ih, show "/".utf8ByteSize = 1 from rfl]
          omega

/-! ### Ancestors -/

theorem mem_plain {n : String} (h : n ∈ Path.plain p) :
    Path.isPlain n = true ∧ '/' ∉ n.toList ∧ ∀ c ∈ n.toList, c ∈ p.toList := by
  obtain ⟨hs, hn⟩ := List.mem_filter.mp h
  obtain ⟨q, hq, rfl⟩ := List.mem_map.mp hs
  rw [String.toList_ofList]
  exact ⟨hn, Text.not_mem_of_mem_pieces hq, Text.mem_of_mem_pieces hq⟩

theorem prefix_filter_cons {f : String → Bool} {s : String} {ss : List String} (hs : f s = true)
    (hn : names <+: (s :: ss).filter f) :
    names = [] ∨ ∃ ns, names = s :: ns ∧ ns <+: ss.filter f := by
  rw [List.filter_cons_of_pos hs] at hn
  cases names with
  | nil => exact .inl rfl
  | cons n ns =>
      obtain ⟨rfl, hns⟩ := List.cons_prefix_cons.mp hn
      exact .inr ⟨ns, rfl, hns⟩

theorem filter_blank {ss : List String} (h : ss.all (· == "") = true) :
    ss.filter Path.isPlain = [] := by
  refine List.filter_eq_nil_iff.mpr fun s hs => ?_
  rw [beq_iff_eq.mp (List.all_eq_true.mp h s hs)]
  decide

/-- A walk passes through directories until it comes to its last name. -/
theorem walk_prefix {l : Location} {ss : List String} {q : Place} (h : t.walk l ss = .ok q)
    (hn : names <+: ss.filter Path.isPlain) (hne : names ≠ ss.filter Path.isPlain) :
    ∃ k, t.walk l names = .ok (.found k .directory) := by
  fun_induction walk t l ss generalizing names with
  | case1 l => exact absurd (List.prefix_nil.mp hn) hne
  | case2 l s ss hs ih =>
      rw [List.filter_cons_of_neg (by simpa using hs)] at hn hne
      exact ih h hn hne
  | case3 l ss hs ih =>
      have hp : Path.isPlain ".." = true := by decide
      rcases prefix_filter_cons hp hn with rfl | ⟨ns, rfl, hns⟩
      · exact ⟨l, rfl⟩
      · rw [walk, if_neg hs, if_pos rfl]
        exact ih h hns fun he => hne (by rw [List.filter_cons_of_pos hp, he])
  | case4 | case7 | case9 => cases h
  | case5 l s ss hs hup hlen hd ih =>
      have hp : Path.isPlain s = true := by simpa using hs
      rcases prefix_filter_cons hp hn with rfl | ⟨ns, rfl, hns⟩
      · exact ⟨l, rfl⟩
      · rw [walk, if_neg hs, if_neg hup, if_neg hlen, hd]
        exact ih h hns fun he => hne (by rw [List.filter_cons_of_pos hp, he])
  | case6 l s hs hup hlen c hc =>
      have hp : Path.isPlain s = true := by simpa using hs
      rcases prefix_filter_cons hp hn with rfl | ⟨ns, rfl, hns⟩
      · exact ⟨l, rfl⟩
      · obtain rfl := List.prefix_nil.mp hns
        exact absurd (by rw [List.filter_cons_of_pos hp]; rfl) hne
  | case8 l s ss hs hup hlen _ hb =>
      have hp : Path.isPlain s = true := by simpa using hs
      rcases prefix_filter_cons hp hn with rfl | ⟨ns, rfl, hns⟩
      · exact ⟨l, rfl⟩
      · rw [filter_blank hb] at hns
        obtain rfl := List.prefix_nil.mp hns
        exact absurd (by rw [List.filter_cons_of_pos hp, filter_blank hb]) hne

theorem mem_join {c : Char} (h : c ∈ (Text.join "/" names).toList) :
    c = '/' ∨ ∃ n ∈ names, c ∈ n.toList := by
  induction names with
  | nil => cases h
  | cons n names ih =>
      cases names with
      | nil => exact .inr ⟨n, List.mem_cons_self, h⟩
      | cons m names =>
          rw [Text.join_cons_cons, String.toList_append, String.toList_append, List.mem_append,
            List.mem_append] at h
          rcases h with (h | h) | h
          · exact .inr ⟨n, List.mem_cons_self, h⟩
          · exact .inl (List.mem_singleton.mp h)
          · exact (ih h).imp_right fun ⟨x, hx, hc⟩ => ⟨x, List.mem_cons_of_mem n hx, hc⟩

/-- Names before the end of a usable path make a usable path. -/
theorem isUsable_ofNames (hu : IsUsable p) (hn : names <+: Path.plain p)
    (hne : names ≠ Path.plain p) : IsUsable (Path.ofNames names) := by
  have hmem : ∀ n ∈ names, n ∈ Path.plain p := fun n h => hn.subset h
  obtain ⟨rest, hrest⟩ := hn
  refine ⟨?_, ?_, ?_⟩
  · intro h
    rw [Path.ofNames, String.toList_append, List.mem_append] at h
    rcases h with h | h
    · exact absurd h (by decide)
    · rcases mem_join h with h | ⟨n, hn, hc⟩
      · cases h
      · exact hu.1 ((mem_plain (hmem n hn)).2.2 _ hc)
  · intro h
    have := congrArg String.toList h
    simp [Path.ofNames] at this
  · by_cases h0 : names = []
    · rw [h0]
      decide
    · have hr : rest ≠ [] := fun h => hne (by rw [← hrest, h, List.append_nil])
      obtain ⟨r, rs, rfl⟩ := List.exists_cons_of_ne_nil hr
      have hs := span_filter_le Path.isPlain (Path.segments p)
      rw [show (Path.segments p).filter Path.isPlain = names ++ r :: rs from hrest.symm,
        span_append, span, span_segments] at hs
      have := hu.2.2
      rw [utf8ByteSize_ofNames h0]
      omega

/-- Where a path leads anywhere, its ancestors are directories. -/
theorem isDirectory_ofNames {q : Place} (hr : t.resolve [] p = .ok q)
    (hn : names <+: Path.plain p) (hne : names ≠ Path.plain p) :
    t.isDirectory (Path.ofNames names) = true := by
  have hu : IsUsable p := by
    by_contra hu
    obtain ⟨e, he⟩ := resolve_error hu t
    rw [he] at hr
    cases hr
  rw [resolve_eq_walk hu] at hr
  obtain ⟨k, hk⟩ := walk_prefix hr hn hne
  refine isDirectory_iff.mpr ⟨isUsable_ofNames hu hn hne, leads_of_walk (k := k) ?_⟩
  rcases segments_ofNames fun n h => (mem_plain (hn.subset h)).2.1 with hs | ⟨rfl, hs⟩
  · rw [hs, walk, if_pos (by decide)]
    exact hk
  · rw [hs, walk, if_pos (by decide), walk, if_pos (by decide)]
    exact hk

theorem plain_ofNames (hn : names <+: Path.plain p) : Path.plain (Path.ofNames names) = names := by
  have hmem : ∀ n ∈ names, n ∈ Path.plain p := fun n h => hn.subset h
  have hf : names.filter Path.isPlain = names :=
    List.filter_eq_self.mpr fun n h => (mem_plain (hmem n h)).1
  rw [Path.plain]
  rcases segments_ofNames fun n h => (mem_plain (hmem n h)).2.1 with hs | ⟨rfl, hs⟩
  · rw [hs, List.filter_cons_of_neg (by decide), hf]
  · rw [hs]
    decide

/-! ### A second attempt -/

theorem of_resolve_error {e : IoError} (h : t.resolve [] p = .error e) :
    t.isDirectory p = false ∧ t.makeDirectory p = .error e := by
  rw [isDirectory, stat?, find?, makeDirectory, h]
  exact ⟨rfl, rfl⟩

theorem ensureDirectory_error {e : IoError} (h : t.ensureDirectory p = (.error e, t')) :
    t' = t ∧ t.isDirectory p = false ∧ t.makeDirectory p = .error e := by
  rw [ensureDirectory] at h
  cases hm : t.makeDirectory p with
  | ok t₁ => rw [hm] at h; cases h
  | error i =>
      rw [hm] at h
      cases hd : t.isDirectory p with
      | true => simp [hd] at h
      | false =>
          simp only [hd, Bool.false_eq_true, if_false, Prod.mk.injEq, Except.error.injEq] at h
          exact ⟨h.2.symm, rfl, by rw [h.1]⟩

/-- Where a directory is not there and cannot be made, and its ancestors are as they will be, an
attempt fails and makes nothing. -/
theorem makeWithAncestors_stuck {u : String} {up : List String} (hd : t.isDirectory p = false)
    (hm : ∃ e, t.makeDirectory p = .error e)
    (ha : (t.makeWithAncestors (Path.ofNames up.reverse) up).2 = t) :
    ∃ e, t.makeWithAncestors p (u :: up) = (.error e, t) := by
  obtain ⟨i, hi⟩ := hm
  rw [makeWithAncestors, hi]
  cases i with
  | noEntry =>
      dsimp only
      revert ha
      generalize t.makeWithAncestors (Path.ofNames up.reverse) up = r
      obtain ⟨e | _, t₁⟩ := r
      · rintro rfl
        exact ⟨e, rfl⟩
      · rintro rfl
        dsimp only
        exact ⟨.noEntry, by rw [ensureDirectory, hi, hd]; rfl⟩
  | _ => exact ⟨_, by rw [hd]; rfl⟩

/-- The recursion over the ancestors, whose names are given in reverse. -/
theorem makeWithAncestors_again (up : List String) {e : IoError} (hp : Path.plain p = up.reverse)
    (h : t.makeWithAncestors p up = (.error e, t')) :
    t'.isDirectory p = false ∧ ∃ e', t'.makeWithAncestors p up = (.error e', t') := by
  induction up generalizing t p t' e with
  | nil =>
      obtain ⟨rfl, hd, -⟩ := ensureDirectory_error h
      exact ⟨hd, e, h⟩
  | cons u up ih =>
      have hn : up.reverse <+: Path.plain p := by
        rw [hp, List.reverse_cons]
        exact List.prefix_append _ _
      have hne : up.reverse ≠ Path.plain p := fun h => by
        have := congrArg List.length (h.trans hp)
        simp at this
      have h₀ := h
      rw [makeWithAncestors] at h
      cases hm : t.makeDirectory p with
      | ok t₁ => rw [hm] at h; cases h
      | error i =>
          rw [hm] at h
          by_cases hi : i = .noEntry
          · subst hi
            dsimp only at h
            cases ha : t.makeWithAncestors (Path.ofNames up.reverse) up with
            | mk r t₁ =>
                rw [ha] at h
                cases r with
                | ok _ =>
                    -- the ancestors are there now, and stay
                    obtain ⟨rfl, hd, hm⟩ := ensureDirectory_error h
                    refine ⟨hd, makeWithAncestors_stuck hd ⟨e, hm⟩ ?_⟩
                    rw [makeWithAncestors_of_isDirectory up (makeWithAncestors_ok up ha)]
                | error i =>
                    cases h
                    obtain ⟨hd, e', he⟩ := ih (plain_ofNames hn) ha
                    -- a path that led anywhere would lead through the ancestor
                    cases hr : t'.resolve [] p with
                    | ok q =>
                        rw [isDirectory_ofNames hr hn hne] at hd
                        cases hd
                    | error i =>
                        obtain ⟨hd, hm⟩ := of_resolve_error hr
                        exact ⟨hd, makeWithAncestors_stuck hd ⟨i, hm⟩ (by rw [he])⟩
          · have h : ((if t.isDirectory p then .ok () else .error i : Except IoError Unit), t) =
                (.error e, t') := by
              cases i with
              | noEntry => exact absurd rfl hi
              | _ => exact h
            cases hd : t.isDirectory p with
            | true => rw [hd] at h; cases h
            | false =>
                rw [hd] at h
                cases h
                exact ⟨hd, _, h₀⟩

/-- A directory that could not be made cannot be made. -/
theorem makeDirectories_again {e : IoError} (h : t.makeDirectories p = (.error e, t')) :
    t'.isDirectory p = false ∧ ∃ e', t'.makeDirectories p = (.error e', t') :=
  makeWithAncestors_again _ (List.reverse_reverse _).symm h

/-- A path that is empty leads nowhere; any other that is not usable is refused as such. -/
theorem resolve_refused (hu : ¬ IsUsable p) (hne : p ≠ "") (t : FileTree) :
    ∃ e, e ≠ .noEntry ∧ t.resolve [] p = .error e := by
  rw [resolve]
  by_cases hnul : p.toList.contains '\x00' = true
  · exact ⟨.nulInPath, by decide, if_pos hnul⟩
  · by_cases hlen : pathMax < p.utf8ByteSize
    · exact ⟨.nameTooLong, by decide, by rw [if_neg hnul, if_neg hne, if_pos hlen]⟩
    · exact absurd ⟨by simpa using hnul, hne, Nat.not_lt.mp hlen⟩ hu

/-- Nothing is made at a path that cannot be followed at all. -/
theorem makeDirectories_of_not_usable (hu : ¬ IsUsable p) (t : FileTree) :
    (t.makeDirectories p).2 = t := by
  rw [makeDirectories]
  cases hup : (Path.plain p).reverse with
  | nil =>
      obtain ⟨e, he⟩ := resolve_error hu t
      obtain ⟨hd, hm⟩ := of_resolve_error he
      rw [makeWithAncestors, ensureDirectory, hm]
  | cons u up =>
      have hne : p ≠ "" := fun h => by
        rw [h, show (Path.plain "").reverse = [] by decide] at hup
        cases hup
      obtain ⟨e, hn, he⟩ := resolve_refused hu hne t
      rw [makeWithAncestors, (of_resolve_error he).2]
      cases e with
      | noEntry => exact absurd rfl hn
      | _ => rfl

/-- Nothing is made where the directory is there, even if its own path cannot be followed. -/
theorem makeDirectories_of_leads (h : t.Leads p) : (t.makeDirectories p).2 = t := by
  by_cases hu : IsUsable p
  · rw [makeDirectories_of_isDirectory (isDirectory_iff.mpr ⟨hu, h⟩)]
  · exact makeDirectories_of_not_usable hu t

end Readiness.FileTree
