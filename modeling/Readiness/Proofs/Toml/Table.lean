import Mathlib.Data.List.Nodup
import Readiness.Toml.Table

/-!
# Toml — growing tables

A document is written table by table, so that every line adds to the table at the end of what has
been read.

* `Table.Focus`: the place of that table; `Focus.table` and `Focus.element` go one table further in.
* `Focus.header`, `Focus.firstElement`, `Focus.nextElement` and `Focus.assign`: what a line adds
  there.
* `Table.sortMembers_eq_of_perm`: members with different keys come in one order.
-/

namespace Readiness.Toml.Table

/-! ### One key -/

theorem alter_of_not_mem {k : String} {t : Table} (h : k ∉ t.map (·.1))
    (f : Option Item → Option Item) :
    t.alter k f = (f none).map fun i => t ++ [(k, i)] := by
  induction t with
  | nil => rfl
  | cons m t ih =>
      rw [List.map_cons, List.mem_cons, not_or] at h
      rw [alter, if_neg (Ne.symm h.1), ih h.2, Option.map_map]
      rfl

theorem alter_last {k : String} {t : Table} (h : k ∉ t.map (·.1)) (i : Item)
    (f : Option Item → Option Item) :
    alter k f (t ++ [(k, i)]) = (f (some i)).map fun j => t ++ [(k, j)] := by
  induction t with
  | nil => simp [alter]
  | cons m t ih =>
      rw [List.map_cons, List.mem_cons, not_or] at h
      rw [List.cons_append, alter, if_neg (Ne.symm h.1), ih h.2, Option.map_map]
      rfl

/-! ### Paths -/

theorem within_append (p q : List String) (f : Table → Option Table) (t : Table) :
    t.within (p ++ q) f = t.within p fun u => u.within q f := by
  induction p generalizing t with
  | nil => rfl
  | cons k p ih =>
      rw [List.cons_append, within, within]
      simp only [ih]

theorem header_concat (path : List String) (k : String) (t : Table) :
    t.header (path ++ [k]) = t.within path (openTable k) := by
  rw [header, splitLast, List.getLast?_concat, List.dropLast_concat]
  rfl

theorem element_concat (path : List String) (k : String) (t : Table) :
    t.element (path ++ [k]) = t.within path (openElement k) := by
  rw [element, splitLast, List.getLast?_concat, List.dropLast_concat]
  rfl

/-- `plug` puts a table in the place that `path` names. -/
structure Focus (path : List String) (plug : Table → Table) : Prop where
  within (f : Table → Option Table) (t : Table) : (plug t).within path f = (f t).map plug

namespace Focus

variable {path : List String} {plug : Table → Table} {before : Table} {k : String}

theorem root : Focus [] id where
  within f t := by rw [Option.map_id]; rfl

/-- The table under the last key. -/
theorem table (h : Focus path plug) (hk : k ∉ before.map (·.1)) (o : Origin) :
    Focus (path ++ [k]) fun t => plug (before ++ [(k, .table o t)]) where
  within f t := by
    rw [within_append, h.within]
    simp only [Table.within]
    rw [alter_last hk, Option.map_map, Option.map_map]
    rfl

/-- The last element of the array under the last key. -/
theorem element (h : Focus path plug) (hk : k ∉ before.map (·.1)) (es : List Table) :
    Focus (path ++ [k]) fun t => plug (before ++ [(k, .tables (t :: es))]) where
  within f t := by
    rw [within_append, h.within]
    simp only [Table.within]
    rw [alter_last hk, Option.map_map, Option.map_map]
    rfl

theorem header (h : Focus path plug) (hk : k ∉ before.map (·.1)) :
    (plug before).header (path ++ [k]) = some (plug (before ++ [(k, .table .header [])])) := by
  rw [header_concat, h.within, openTable, alter_of_not_mem hk]
  rfl

theorem firstElement (h : Focus path plug) (hk : k ∉ before.map (·.1)) :
    (plug before).element (path ++ [k]) = some (plug (before ++ [(k, .tables [[]])])) := by
  rw [element_concat, h.within, openElement, alter_of_not_mem hk]
  rfl

theorem nextElement (h : Focus path plug) (hk : k ∉ before.map (·.1)) (es : List Table) :
    (plug (before ++ [(k, .tables es)])).element (path ++ [k]) =
      some (plug (before ++ [(k, .tables ([] :: es))])) := by
  rw [element_concat, h.within, openElement, alter_last hk]
  rfl

theorem assign (h : Focus path plug) (hk : k ∉ before.map (·.1)) (v : Reading) :
    (plug before).within path (Table.assign [k] v) = some (plug (before ++ [(k, .value v)])) := by
  rw [h.within, Table.assign, bindNew, alter_of_not_mem hk]
  rfl

end Focus

/-! ### The order of members -/

theorem insertMember_perm (m : String × Reading) (ms : List (String × Reading)) :
    (insertMember m ms).Perm (m :: ms) := by
  induction ms with
  | nil => exact .refl _
  | cons n ms ih =>
      rw [insertMember]
      split
      · exact .refl _
      · exact (ih.cons n).trans (.swap m n ms)

theorem sortMembers_perm (ms : List (String × Reading)) : (sortMembers ms).Perm ms := by
  have h (acc : List (String × Reading)) :
      (ms.foldl (fun acc m => insertMember m acc) acc).Perm (ms ++ acc) := by
    induction ms generalizing acc with
    | nil => exact .refl _
    | cons m ms ih =>
        exact (ih _).trans (((insertMember_perm m acc).append_left ms).trans List.perm_middle)
  have hs := h []
  rw [List.append_nil] at hs
  exact hs

theorem insertMember_pairwise {m : String × Reading} {ms : List (String × Reading)}
    (h : ms.Pairwise (·.1 ≤ ·.1)) : (insertMember m ms).Pairwise (·.1 ≤ ·.1) := by
  induction ms with
  | nil => exact List.pairwise_singleton _ m
  | cons n ms ih =>
      rw [List.pairwise_cons] at h
      rw [insertMember]
      split
      · rename_i hlt
        have hle : m.1 ≤ n.1 := String.not_lt.mp (String.lt_asymm hlt)
        refine .cons (fun a ha => ?_) (.cons h.1 h.2)
        rcases List.mem_cons.mp ha with rfl | ha
        · exact hle
        · exact String.le_trans hle (h.1 a ha)
      · rename_i hle
        refine .cons (fun a ha => ?_) (ih h.2)
        rcases List.mem_cons.mp ((insertMember_perm m ms).mem_iff.mp ha) with rfl | ha
        · exact String.not_lt.mp hle
        · exact h.1 a ha

theorem sortMembers_pairwise (ms : List (String × Reading)) :
    (sortMembers ms).Pairwise (·.1 ≤ ·.1) := by
  have h (acc : List (String × Reading)) (hacc : acc.Pairwise (·.1 ≤ ·.1)) :
      (ms.foldl (fun acc m => insertMember m acc) acc).Pairwise (·.1 ≤ ·.1) := by
    induction ms generalizing acc with
    | nil => exact hacc
    | cons m ms ih => exact ih _ (insertMember_pairwise hacc)
  exact h [] .nil

/-- Members with different keys come in one order. -/
theorem sortMembers_eq_of_perm {ms ns : List (String × Reading)} (h : ms.Perm ns)
    (hk : (ms.map (·.1)).Nodup) : sortMembers ms = sortMembers ns := by
  refine List.Perm.eq_of_pairwise (fun a b ha hb hab hba => ?_) (sortMembers_pairwise ms)
    (sortMembers_pairwise ns) ((sortMembers_perm ms).trans (h.trans (sortMembers_perm ns).symm))
  have ha' := (sortMembers_perm ms).mem_iff.mp ha
  have hb' := h.mem_iff.mpr ((sortMembers_perm ns).mem_iff.mp hb)
  exact List.inj_on_of_nodup_map hk ha' hb' (String.le_antisymm hab hba)

end Readiness.Toml.Table
