import Readiness.Proofs.FileTree.Listing
import Readiness.Proofs.Proof.Directory
import Readiness.Proofs.Proof.Ledger

/-!
# Proof — a store is a ledger

* `Keeps`: the proofs in a directory are the tokens of a map.
* One lemma for each use of the store: it answers what the map answers, and the directory keeps the
  map that comes of it.
* `runOps_keeps`: the same for one use after the other.
* `ignored_perform`: the ignore rule, once there, stays as it is.
* `refines_ledger`: a store in an empty directory is a ledger.
-/

namespace Readiness.ProofStore

open FileTree (KeepsDirectories)

/-- The proofs in the directory are the tokens of the map. -/
structure Keeps (s : ProofStore) (t : FileTree) (m : Ledger) : Prop where
  orderly : s.Orderly t
  free : s.Free t
  /-- No name is listed twice. -/
  distinct : (t.children s.home).Nodup
  token : ∀ {step p}, s.Stored t step p ↔ m.lookup step = some p

variable {s : ProofStore} {t t' : FileTree} {m : Ledger} {step : String}

namespace Keeps

theorem of_empty (hr : s.Ready t) (hn : ∀ name, t.get? (s.home ++ [name]) = none) :
    s.Keeps t ∅ where
  orderly := .of_none fun _ => hn _
  free := .of_none hr fun _ => hn _
  distinct := by
    have h : t.children s.home = [] := List.eq_nil_iff_forall_not_mem.mpr fun name hm => by
      obtain ⟨e, he⟩ := FileTree.mem_children_iff.mp hm
      rw [hn] at he
      cases he
    rw [h]
    exact List.nodup_nil
  token := by
    intro step p
    rw [Finmap.lookup_empty]
    exact iff_of_false (not_stored_of_none (hn _)) (nomatch ·)

/-- A step has a token in both, or in neither. -/
theorem cases (hk : s.Keeps t m) (step : String) :
    (m.lookup step = none ∧ t.get? (s.place step) = none) ∨
      ∃ p, m.lookup step = some p ∧ s.Opens t step ∧ s.Stored t step p := by
  rcases hk.orderly.no_file_or_stored step with hn | ⟨ho, p, hp⟩
  · refine .inl ⟨?_, ?_⟩
    · rw [Option.eq_none_iff_forall_ne_some]
      intro p hp
      obtain ⟨b, hb, -⟩ := hk.token.mpr hp
      exact hn b hb
    · rcases hg : t.get? (s.place step) with _ | b | _
      · rfl
      · exact absurd hg (hn b)
      · exact absurd hg (hk.free.ne step)
  · exact .inr ⟨p, hk.token.mp hp, ho, hp⟩

theorem mem_keys (hk : s.Keeps t m) :
    step ∈ m.keys ↔ step ≠ "" ∧ ∃ e, t.get? (s.place step) = some e := by
  rw [Finmap.mem_keys, Finmap.mem_iff]
  constructor
  · rintro ⟨p, hp⟩
    obtain ⟨b, hb, -⟩ := hk.token.mpr hp
    exact ⟨ProofFile.ne_empty_of_isName (hk.orderly.isName hb), _, hb⟩
  · rintro ⟨-, e, he⟩
    rcases hk.cases step with ⟨-, hn⟩ | ⟨p, hp, -⟩
    · rw [hn] at he; cases he
    · exact ⟨p, hp⟩

theorem erase (hk : s.Keeps t m) {p : ProofToken} (hp : s.Stored t step p) :
    s.Keeps (t.erase (s.place step)) (m.erase step) where
  orderly := hk.orderly.erase hp
  free := by
    obtain ⟨b, hb, -⟩ := hp
    exact hk.free.of_loses (FileTree.losesFiles_erase hb)
  distinct := FileTree.nodup_children_erase _ hk.distinct
  token := by
    intro a q
    by_cases ha : a = step
    · rw [ha, Finmap.lookup_erase]
      exact iff_of_false (not_stored_of_none (by rw [get?_erase_place, if_pos rfl])) (nomatch ·)
    · rw [Finmap.lookup_erase_ne ha, ← hk.token]
      exact Stored.congr (by rw [get?_erase_place, if_neg ha])

/-! ### One use -/

theorem ensureDir (hk : s.Keeps t m) : s.Keeps (s.ensureDir t).2 m where
  orderly := hk.orderly.ensureDir
  free := hk.free.ensureDir
  distinct := by
    have hd := FileTree.makeDirectories_puts (P := fun t => (t.children s.home).Nodup)
      (fun _ l _ => FileTree.nodup_children_put l .directory) hk.distinct s.dir
    obtain ⟨t₁, rfl, ⟨e, he⟩ | ⟨-, he | ⟨-, he⟩⟩⟩ := ensureDir_cases s t
    · rw [he]; exact hd
    · rw [he]; exact hd
    · rw [he]; exact FileTree.nodup_children_put _ _ hd
  token := stored_ensureDir.trans hk.token

theorem put (hk : s.Keeps t m) (h : Rulebook.isName step = true) (ho : s.Opens t step)
    (hd : t.isDirectory s.dir = true) (p : ProofToken) :
    s.Keeps (t.put (s.place step) (.file p.encode.toUTF8)) (m.insert step p) where
  orderly := hk.orderly.put h ho hd (hk.free.ne step) p
  free := ⟨hk.free.ready.mono (FileTree.keepsDirectories_put _ (hk.free.ne step)), fun a => by
    rw [FileTree.get?_put]
    split
    · simp
    · exact hk.free.ne a⟩
  distinct := FileTree.nodup_children_put _ _ hk.distinct
  token := by
    intro a q
    by_cases ha : a = step
    · rw [ha, Finmap.lookup_insert, Option.some.injEq]
      exact ⟨fun hq => (stored_put t p).unique hq, fun hq => hq ▸ stored_put t p⟩
    · rw [Finmap.lookup_insert_of_ne m ha, ← hk.token]
      exact Stored.congr (by rw [FileTree.get?_put, if_neg fun e => ha (place_injective e.1)])

theorem write (hk : s.Keeps t m) (h : Rulebook.isName step = true) (passed total : Nat)
    (r : Revision) (stamp : Stamp)
    (hb : ∀ i, (s.write step passed total r stamp t).1 ≠ .error (.io i)) :
    (s.write step passed total r stamp t).1 = (Ledger.write step passed total r stamp m).1 ∧
      s.Keeps (s.write step passed total r stamp t).2
        (Ledger.write step passed total r stamp m).2 := by
  by_cases hf : total = 0 ∨ passed ≠ total
  · rw [ProofStore.write, Ledger.write, if_pos hf, if_pos hf]
    exact ⟨rfl, hk⟩
  · obtain ⟨hn, hp⟩ := not_or.mp hf
    obtain rfl := Classical.not_not.mp hp
    rcases write_cases h hn r stamp with ⟨i, hw⟩ | ⟨t₁, p, he, rfl, ho, -, hw⟩
    · exact absurd (by rw [hw]) (hb i)
    · have hk₁ : s.Keeps t₁ m := by have := hk.ensureDir; rwa [he] at this
      rw [hw, Ledger.write, if_neg hf]
      exact ⟨rfl, hk₁.put h ho (ensureDir_ok he) _⟩

theorem read (hk : s.Keeps t m) (h : Rulebook.isName step = true) :
    s.read step t = .ok (m.lookup step) := by
  rcases hk.cases step with ⟨hm, hn⟩ | ⟨p, hm, ho, hp⟩
  · rw [hm]; exact read_missing h fun _ => hn
  · rw [hm]; exact (read_eq_some h).mpr ⟨ho, hp⟩

theorem holds (hk : s.Keeps t m) (h : Rulebook.isName step = true) :
    s.holds step t = (m.lookup step).isSome := by
  rcases hk.cases step with ⟨hm, hn⟩ | ⟨p, hm, ho, b, hb, -⟩
  · rw [hm]; exact holds_eq_false (exists?_eq_false h fun _ => hn)
  · rw [hm, ProofStore.holds, FileTree.isFile, stat?_pathFor h ho, hb]
    rfl

theorem remove (hk : s.Keeps t m) (h : Rulebook.isName step = true) :
    (s.remove step t).1 = .ok (m.lookup step).isSome ∧
      s.Keeps (s.remove step t).2 (m.erase step) := by
  rcases hk.cases step with ⟨hm, hn⟩ | ⟨p, hm, ho, hp⟩
  · have he : m.erase step = m := Finmap.ext_lookup fun a => by
      by_cases ha : a = step
      · rw [ha, Finmap.lookup_erase, hm]
      · rw [Finmap.lookup_erase_ne ha]
    rw [remove_missing h fun _ => hn, hm, he]
    exact ⟨rfl, hk⟩
  · have hk' := hk.erase hp
    obtain ⟨b, hb, -⟩ := hp
    rw [remove_file h ho hb, hm]
    exact ⟨rfl, hk'⟩

theorem check (hk : s.Keeps t m) (h : Rulebook.isName step = true) (r : Revision) :
    (s.check step r t).1 = .ok (Ledger.check step r m).1 ∧
      s.Keeps (s.check step r t).2 (Ledger.check step r m).2 := by
  unfold Ledger.check
  rcases hk.cases step with ⟨hm, hn⟩ | ⟨p, hm, ho, hp⟩
  · rw [check_missing h r fun _ => hn, hm]
    exact ⟨rfl, hk⟩
  · rw [check_stored h ho hp, hm]
    by_cases hc : p.commit = r.id
    · simp only [hc, if_true]
      exact ⟨trivial, hk⟩
    · simp only [hc, if_false]
      exact ⟨trivial, hk.erase hp⟩

/-- Without the directory the map is empty. -/
theorem eq_empty (hk : s.Keeps t m) (hd : t.isDirectory s.dir ≠ true) : m = ∅ :=
  Finmap.ext_lookup fun a => by
    rw [Finmap.lookup_empty, Option.eq_none_iff_forall_ne_some]
    intro p hp
    obtain ⟨b, hb, -⟩ := hk.token.mpr hp
    exact hd (hk.orderly.isDirectory hb)

theorem list_of_isDirectory (hk : s.Keeps t m) (hd : t.isDirectory s.dir = true) :
    s.list t = .ok m.keys.sort := by
  have hx : t.exists? s.dir = true := by
    rw [FileTree.isDirectory, beq_iff_eq] at hd
    rw [FileTree.exists?, hd]; rfl
  rw [ProofStore.list, hx, FileTree.names_of_isDirectory hd]
  have hperm := List.mergeSort_perm ((t.children s.home).filterMap ProofFile.step?)
    fun a b => decide (a ≤ b)
  have hnodup : ((t.children s.home).filterMap ProofFile.step?).Nodup := by
    refine hk.distinct.filterMap fun n n' a ha ha' => ?_
    rw [(ProofFile.step?_eq_some.mp ha).1, (ProofFile.step?_eq_some.mp ha').1]
  have hkeys : (((t.children s.home).filterMap ProofFile.step?).mergeSort
      fun a b => decide (a ≤ b)).toFinset = m.keys := by
    ext a
    rw [List.mem_toFinset, hperm.mem_iff, List.mem_filterMap, hk.mem_keys]
    constructor
    · rintro ⟨n, hn, ha⟩
      obtain ⟨rfl, hne⟩ := ProofFile.step?_eq_some.mp ha
      exact ⟨hne, FileTree.mem_children_iff.mp hn⟩
    · rintro ⟨hne, he⟩
      exact ⟨_, FileTree.mem_children_iff.mpr he, ProofFile.step?_eq_some.mpr ⟨rfl, hne⟩⟩
  have hsorted : (((t.children s.home).filterMap ProofFile.step?).mergeSort
      fun a b => decide (a ≤ b)).Pairwise fun a b => decide (a ≤ b) = true :=
    List.pairwise_mergeSort
      (fun a b c hab hbc => decide_eq_true ((of_decide_eq_true hab).trans (of_decide_eq_true hbc)))
      (fun a b => by simpa using le_total a b) _
  have hsort := (List.toFinset_sort (r := (· ≤ ·)) (hperm.nodup_iff.mpr hnodup)).mpr
    (hsorted.imp of_decide_eq_true)
  rw [← hkeys, hsort]
  rfl

/-- The steps that are listed are the keys of the map, in order. -/
theorem list (hk : s.Keeps t m) (hb : ∀ i, s.list t ≠ .error (.io i)) :
    s.list t = .ok m.keys.sort := by
  by_cases hd : t.isDirectory s.dir = true
  · exact hk.list_of_isDirectory hd
  · rw [hk.eq_empty hd, Finmap.keys_empty, Finset.sort_empty]
    unfold ProofStore.list at hb ⊢
    cases hx : t.exists? s.dir with
    | false => rfl
    | true =>
        -- something else stands there
        cases hn : t.names s.dir with
        | ok ns => exact absurd (FileTree.isDirectory_of_names hn) hd
        | error e => simp [hx, hn] at hb

theorem removeEach (hk : s.Keeps t m) (n : Nat) {steps : List String} (hnd : steps.Nodup)
    (hin : ∀ a ∈ steps, a ∈ m.keys) :
    ∃ t' m', s.removeEach n steps t = (.ok (n + steps.length), t') ∧ s.Keeps t' m' ∧
      ∀ a, a ∈ m'.keys ↔ a ∈ m.keys ∧ a ∉ steps := by
  induction steps generalizing n t m with
  | nil => exact ⟨t, m, rfl, hk, fun a => by simp⟩
  | cons b steps ih =>
      rw [List.nodup_cons] at hnd
      obtain ⟨p, hp⟩ := Finmap.mem_iff.mp (Finmap.mem_keys.mp (hin b List.mem_cons_self))
      have hs := hk.token.mpr hp
      have hname : Rulebook.isName b = true := by
        obtain ⟨c, hc, -⟩ := hs
        exact hk.orderly.isName hc
      obtain ⟨hr, hk₁⟩ := hk.remove hname
      rw [hp] at hr
      obtain ⟨t', m', hr', hk', hm'⟩ := ih hk₁ (n + 1) hnd.2 fun a ha => by
        rw [Finmap.keys_erase, Finset.mem_erase]
        exact ⟨fun e => hnd.1 (e ▸ ha), hin a (List.mem_cons_of_mem b ha)⟩
      refine ⟨t', m', ?_, hk', fun a => ?_⟩
      · have hstep : s.remove b t = (.ok true, (s.remove b t).2) := Prod.ext hr rfl
        rw [removeEach_of_remove hstep, List.length_cons, Nat.add_comm steps.length,
          ← Nat.add_assoc]
        exact hr'
      · rw [hm', Finmap.keys_erase, Finset.mem_erase, List.mem_cons, not_or, and_assoc,
          and_left_comm]

/-- Everything is deleted and counted. -/
theorem clear (hk : s.Keeps t m) (hb : ∀ i, (s.clear t).1 ≠ .error (.io i)) :
    (s.clear t).1 = .ok m.keys.card ∧ s.Keeps (s.clear t).2 ∅ := by
  have hl : s.list t = .ok m.keys.sort := hk.list fun i h => hb i (by rw [ProofStore.clear, h])
  obtain ⟨t', m', hr, hk', hm'⟩ := hk.removeEach 0 (m.keys.sort_nodup (· ≤ ·))
    fun a ha => (Finset.mem_sort _).mp ha
  have he : m' = ∅ := Finmap.ext_lookup fun a => by
    rw [Finmap.lookup_empty, Finmap.lookup_eq_none, ← Finmap.mem_keys, hm', Finset.mem_sort]
    exact fun h => h.2 h.1
  rw [ProofStore.clear, hl]
  dsimp only
  rw [hr, Nat.zero_add, Finset.length_sort]
  exact ⟨rfl, he ▸ hk'⟩

section

-- a use is told apart from the others, but not looked into
attribute [local irreducible] ProofStore.ensureDir ProofStore.write ProofStore.check
  ProofStore.remove ProofStore.clear

/-- A use of the store that the file system lets through is the use of the map. -/
theorem perform (hk : s.Keeps t m) {op : Op} (hn : op.WellNamed)
    (hb : ¬ Blocked (s.perform op t).1) :
    (s.perform op t).1 = (Ledger.perform op m).1 ∧
      s.Keeps (s.perform op t).2 (Ledger.perform op m).2 := by
  cases op with
  | ensureDir =>
      refine ⟨?_, hk.ensureDir⟩
      cases he : (s.ensureDir t).1 with
      | ok u => simp only [ProofStore.perform, Result.wrap, he]; rfl
      | error e =>
          obtain ⟨i, rfl⟩ := ensureDir_error (Prod.ext he rfl : s.ensureDir t = (.error e, _))
          exact absurd ⟨i, by simp only [ProofStore.perform, Result.wrap, he]; rfl⟩ hb
  | write step passed total r stamp =>
      have hw := hk.write (hn step rfl) passed total r stamp fun i hi =>
        hb ⟨i, by simp only [ProofStore.perform, Result.wrap, hi]; rfl⟩
      exact ⟨congrArg (Except.map Answer.token) hw.1, hw.2⟩
  | read step =>
      refine ⟨?_, hk⟩
      rw [ProofStore.perform, hk.read (hn step rfl)]
      rfl
  | holds step =>
      exact ⟨congrArg (fun b => Except.ok (Answer.held b)) (hk.holds (hn step rfl)), hk⟩
  | check step r =>
      have hc := hk.check (hn step rfl) r
      exact ⟨congrArg (Except.map Answer.state) hc.1, hc.2⟩
  | remove step =>
      have hr := hk.remove (hn step rfl)
      exact ⟨congrArg (Except.map Answer.removed) hr.1, hr.2⟩
  | list =>
      have hl := hk.list fun i hi => hb ⟨i, by simp only [ProofStore.perform, hi]; rfl⟩
      exact ⟨congrArg (Except.map Answer.names) hl, hk⟩
  | clear =>
      have hc := hk.clear fun i hi =>
        hb ⟨i, by simp only [ProofStore.perform, Result.wrap, hi]; rfl⟩
      exact ⟨congrArg (Except.map Answer.count) hc.1, hc.2⟩

end

/-- One use after the other. -/
theorem runOps {ops : List Op} (hk : s.Keeps t m) (hn : ∀ op ∈ ops, op.WellNamed)
    (hb : ∀ r ∈ (runOps s.perform ops t).1, ¬ Blocked r) :
    (runOps s.perform ops t).1 = (runOps Ledger.perform ops m).1 ∧
      s.Keeps (runOps s.perform ops t).2 (runOps Ledger.perform ops m).2 := by
  induction ops generalizing t m with
  | nil => exact ⟨rfl, hk⟩
  | cons op ops ih =>
      obtain ⟨ha, hk₁⟩ := hk.perform (hn op List.mem_cons_self) (hb _ List.mem_cons_self)
      obtain ⟨has, hk'⟩ := ih hk₁ (fun o ho => hn o (List.mem_cons_of_mem op ho))
        fun r hr => hb r (List.mem_cons_of_mem _ hr)
      exact ⟨congrArg₂ List.cons ha has, hk'⟩

end Keeps

/-! ### What a use leaves alone -/

theorem get?_removeEach (n : Nat) {steps : List String}
    (hs : ∀ a ∈ steps, Rulebook.isName a = true) {l : Location} (hl : ∀ a, l ≠ s.place a) :
    (s.removeEach n steps t).2.get? l = t.get? l := by
  induction steps generalizing n t with
  | nil => rfl
  | cons b steps ih =>
      have hr := get?_remove (s := s) (t := t) (hs b List.mem_cons_self) (hl b)
      rw [removeEach_cons, ← hr]
      generalize s.remove b t = r
      obtain ⟨_ | gone, t'⟩ := r
      · rfl
      · exact ih _ fun a ha => hs a (List.mem_cons_of_mem b ha)

/-- Writing a proof touches its place, after the directory is made. -/
theorem get?_write (h : Rulebook.isName step = true) (passed total : Nat) (r : Revision)
    (stamp : Stamp) {l : Location} (hl : l ≠ s.place step) :
    (s.write step passed total r stamp t).2.get? l = t.get? l ∨
      (s.write step passed total r stamp t).2.get? l = (s.ensureDir t).2.get? l := by
  by_cases hf : total = 0 ∨ passed ≠ total
  · rw [write, if_pos hf]
    exact .inl rfl
  · obtain ⟨hn, hp⟩ := not_or.mp hf
    obtain rfl := Classical.not_not.mp hp
    rcases write_cases h hn r stamp with ⟨i, hw⟩ | ⟨t₁, p, he, -, -, -, hw⟩
    · rw [hw]; exact .inr rfl
    · rw [hw, he, FileTree.get?_put, if_neg fun e => hl e.1]
      exact .inr rfl

/-! ### The ignore rule -/

/-- A rule that is there stays as it is. -/
theorem ignored_ensureDir {e : Entry} (he : t.get? s.ignorePlace = some e) :
    (s.ensureDir t).2.get? s.ignorePlace = some e := by
  unfold ensureDir
  have ha := FileTree.makeDirectories_adds t s.dir s.ignorePlace
  rcases hm : t.makeDirectories s.dir with ⟨i | u, t₁⟩
  all_goals
    rw [hm] at ha
    have he₁ : t₁.get? s.ignorePlace = some e := by
      rcases ha with ha | ⟨-, hn, -⟩
      · rw [ha, he]
      · rw [he] at hn; cases hn
  · exact he₁
  · dsimp only
    split
    · exact he₁
    · -- the path of the rule cannot be followed
      rename_i hx
      have ho : ¬ t₁.Opens s.dir ".gitignore" := fun ho =>
        hx (exists?_ignorePath_iff.mpr ⟨ho, e, he₁⟩)
      obtain ⟨i, hw⟩ := FileTree.writeFile_join_of_not_opens ProofFile.isSimple_ignore ho
        ignoreRule.toUTF8
      rw [show t₁.writeFile s.ignorePath ignoreRule.toUTF8 = .error i from hw]
      exact he₁

/-- The use makes the directory. -/
def Op.MakesDir : Op → Prop
  | .ensureDir | .write .. => True
  | _ => False

/-- What a use does to the ignore rule and to the proofs of other steps. -/
structure Discreet (s : ProofStore) (op : Op) (t : FileTree) : Prop where
  /-- Once the directory is made the rule is there. -/
  ignored : op.MakesDir → (∃ a, (s.perform op t).1 = .ok a) →
    (s.perform op t).2.exists? s.ignorePath = true
  /-- A rule that is there stays as it is. -/
  kept : ∀ e, t.get? s.ignorePlace = some e → (s.perform op t).2.get? s.ignorePlace = some e
  found : t.exists? s.ignorePath = true → (s.perform op t).2.exists? s.ignorePath = true
  unlisted : ∀ steps, (s.perform op t).1 = .ok (.names steps) →
    ∀ a ∈ steps, ProofFile.name a ≠ ".gitignore"
  /-- The proofs of other steps are left alone. -/
  apart : ∀ a b, op.step? = some a → b ≠ a →
    (s.perform op t).2.get? (s.place b) = t.get? (s.place b)

section

-- as above, a use is not looked into
attribute [local irreducible] ProofStore.ensureDir ProofStore.write ProofStore.check
  ProofStore.remove ProofStore.clear

/-- No use takes a directory away. -/
theorem keepsDirectories_perform {op : Op} (hn : op.WellNamed) :
    KeepsDirectories t (s.perform op t).2 := by
  cases op with
  | ensureDir => exact ensureDir_keepsDirectories s t
  | write step passed total r stamp =>
      have he := ensureDir_keepsDirectories s t
      change KeepsDirectories t (s.write step passed total r stamp t).2
      by_cases hf : total = 0 ∨ passed ≠ total
      · rw [write, if_pos hf]
        exact fun _ hl => hl
      · obtain ⟨hz, hp⟩ := not_or.mp hf
        obtain rfl := Classical.not_not.mp hp
        rcases write_cases (hn step rfl) hz r stamp with ⟨i, hw⟩ | ⟨t₁, p, h₁, -, -, hd, hw⟩
        · rw [hw]; exact he
        · rw [h₁] at he
          rw [hw]; exact he.trans (FileTree.keepsDirectories_put _ hd)
  | read | holds | list => exact fun _ hl => hl
  | check step r => exact (check_loses s step r t).keepsDirectories
  | remove step => exact (remove_loses s step t).keepsDirectories
  | clear => exact (clear_loses s t).keepsDirectories

namespace Keeps

theorem kept (hk : s.Keeps t m) {op : Op} (hn : op.WellNamed) {e : Entry}
    (he : t.get? s.ignorePlace = some e) : (s.perform op t).2.get? s.ignorePlace = some e := by
  have hl : ∀ a, s.ignorePlace ≠ s.place a := fun a => place_ne_ignorePlace.symm
  cases op with
  | ensureDir => exact ignored_ensureDir he
  | write step passed total r stamp =>
      rcases get?_write (t := t) (hn step rfl) passed total r stamp (hl step) with h | h
      · exact h.trans he
      · exact h.trans (ignored_ensureDir he)
  | read | holds | list => exact he
  | check step r => exact (get?_check (hn step rfl) r (hl step)).trans he
  | remove step => exact (get?_remove (hn step rfl) (hl step)).trans he
  | clear =>
      change (s.clear t).2.get? s.ignorePlace = some e
      unfold ProofStore.clear
      cases h : s.list t with
      | error f => exact he
      | ok steps =>
          refine (get?_removeEach 0 (fun a ha => ?_) hl).trans he
          obtain ⟨p, hp⟩ := Finmap.mem_iff.mp (Finmap.mem_keys.mp (hk.mem_keys.mpr (list_ok h ha)))
          obtain ⟨b, hb, -⟩ := hk.token.mpr hp
          exact hk.orderly.isName hb

theorem discreet (hk : s.Keeps t m) {op : Op} (hn : op.WellNamed) : s.Discreet op t where
  ignored hm ha := by
    obtain ⟨a, ha⟩ := ha
    cases op with
    | ensureDir =>
        cases he : (s.ensureDir t).1 with
        | error e => simp only [ProofStore.perform, Result.wrap, he] at ha; cases ha
        | ok u => exact exists?_ensureDir (Prod.ext he rfl)
    | write step passed total r stamp =>
        cases hw : (s.write step passed total r stamp t).1 with
        | error e => simp only [ProofStore.perform, Result.wrap, hw] at ha; cases ha
        | ok p => exact exists?_write (hn step rfl) hw
    | _ => exact hm.elim
  kept e he := hk.kept hn he
  found hx := by
    obtain ⟨ho, e, he⟩ := exists?_ignorePath_iff.mp hx
    exact exists?_ignorePath_iff.mpr ⟨ho.mono (keepsDirectories_perform hn), e, hk.kept hn he⟩
  unlisted _ _ a _ := ProofFile.name_ne_ignore a
  apart a b hs hb := by
    have hl : s.place b ≠ s.place a := fun h => hb (place_injective h)
    cases op with
    | ensureDir | list | clear => cases hs
    | write step passed total r stamp =>
        obtain rfl : step = a := Option.some.inj hs
        rcases get?_write (t := t) (hn step rfl) passed total r stamp hl with h | h
        · exact h
        · exact h.trans (ensureDir_get?_ready hk.free.ready)
    | read step | holds step => rfl
    | check step r =>
        obtain rfl : step = a := Option.some.inj hs
        exact get?_check (hn step rfl) r hl
    | remove step =>
        obtain rfl : step = a := Option.some.inj hs
        exact get?_remove (hn step rfl) hl

end Keeps

end

/-! ### The ledger -/

/-- A store in an empty directory is a ledger.  As long as the file system lets the uses through,
each answers what the map answers, and in the end the directory keeps the map.  From there on a use
makes the ignore rule with the directory, leaves a rule that is there as it is, and leaves the
proofs of other steps alone. -/
theorem refines_ledger (hr : s.Ready t) (he : ∀ name, t.get? (s.home ++ [name]) = none)
    (ops : List Op) (hn : ∀ op ∈ ops, op.WellNamed)
    (hb : ∀ r ∈ (runOps s.perform ops t).1, ¬ Blocked r) :
    (runOps s.perform ops t).1 = (runOps Ledger.perform ops ∅).1 ∧
      (∀ step p, s.Stored (runOps s.perform ops t).2 step p ↔
        (runOps Ledger.perform ops ∅).2.lookup step = some p) ∧
      ∀ op : Op, op.WellNamed → s.Discreet op (runOps s.perform ops t).2 := by
  obtain ⟨ha, hk⟩ := (Keeps.of_empty hr he).runOps hn hb
  exact ⟨ha, fun step p => hk.token, fun op => hk.discreet⟩

namespace Sample

def store : ProofStore := ⟨"/p"⟩

def uses : List Op :=
  [.ensureDir, .write "b" 2 2 ⟨"c0", "c0"⟩ ⟨"t", "t", "n"⟩,
    .write "a" 1 2 ⟨"c0", "c0"⟩ ⟨"t", "t", "n"⟩, .list]

end Sample

/-- A full run of one step and a partial one of another: the first is listed. -/
theorem refines_ledger_sample :
    Sample.store.Ready .empty ∧
      (∀ name, FileTree.empty.get? (Sample.store.home ++ [name]) = none) ∧
      (∀ op ∈ Sample.uses, op.WellNamed) ∧
      (∀ r ∈ (runOps Sample.store.perform Sample.uses .empty).1, ¬ Blocked r) ∧
      (runOps Sample.store.perform Sample.uses .empty).1 =
        (runOps Ledger.perform Sample.uses ∅).1 := by
  have hr : Sample.store.Ready .empty := ready_of_not_mem (by decide)
  have hh : Sample.store.home = ["p"] := by decide
  have he : ∀ name, FileTree.empty.get? (Sample.store.home ++ [name]) = none := fun name => by
    rw [hh]; rfl
  have hn : ∀ op ∈ Sample.uses, op.WellNamed := by
    intro op hop step hs
    obtain rfl | rfl | rfl | rfl : _ ∨ _ ∨ _ ∨ _ := by simpa [Sample.uses] using hop
    all_goals (cases hs <;> decide)
  have hb : ∀ r ∈ (runOps Sample.store.perform Sample.uses .empty).1, ¬ Blocked r := by
    have h : (runOps Sample.store.perform Sample.uses .empty).1 =
        [.ok .done, .ok (.token (.issue "b" 2 2 ⟨"c0", "c0"⟩ ⟨"t", "t", "n"⟩)),
          .error (.incompleteProof "a" 1 2), .ok (.names ["b"])] := by decide +kernel
    rw [h]
    rintro r hm ⟨i, rfl⟩
    simp at hm
  exact ⟨hr, he, hn, hb, (refines_ledger hr he Sample.uses hn hb).1⟩

/-- A store whose path leads through the place of one of its own proofs. -/
def Sample.looped : ProofStore := ⟨"/p/verify-a.proof/.."⟩

/-- In such a store the directory that is made on the way is listed as a proof. -/
theorem not_refines_ledger :
    (∀ name, FileTree.empty.get? (Sample.looped.home ++ [name]) = none) ∧
      (runOps Sample.looped.perform [.ensureDir, .list] .empty).1 =
        [.ok .done, .ok (.names ["a"])] ∧
      (runOps Ledger.perform [.ensureDir, .list] ∅).1 = [.ok .done, .ok (.names [])] := by
  have hh : Sample.looped.home = ["p"] := by decide
  exact ⟨fun name => by rw [hh]; rfl, by decide +kernel, by decide +kernel⟩

end Readiness.ProofStore
