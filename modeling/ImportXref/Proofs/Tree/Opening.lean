import ImportXref.Proofs.Path
import ImportXref.Proofs.Tree.Following

/-!
# Trees — which paths the system opens

A path is opened if it is short enough and leads to an entry over `maxLinks` links at most.  What
stands in a directory that can be opened is opened by its name, unless that makes the path too
long or goes over too many links; and the directory of whatever can be opened can be opened.

* `status_eq_ok_iff`: what the system finds under a path.
* `status_descend_eq_ok_iff`: what it finds below a directory.
* `exists_status_of_status_child`: the directory above what can be opened.
-/

namespace ImportXref

namespace Tree

/-- The names of a tree are such as the system admits. -/
def WellNamed (t : Tree) : Prop :=
  ∀ entry ∈ t.entries, ∀ n ∈ entry.1, IsFileName n ∧ n.length ≤ maxName

instance (t : Tree) : Decidable t.WellNamed :=
  inferInstanceAs (Decidable (∀ entry ∈ t.entries, ∀ n ∈ entry.1,
    IsFileName n ∧ n.length ≤ maxName))

/-- What stands below a location is an entry of the tree. -/
theorem mem_entries_of_find? {t : Tree} {loc : Location} {n : Bytes} {e : Entry}
    (h : t.find? (loc ++ [n]) = some e) : (loc ++ [n], e) ∈ t.entries := by
  have hlookup : t.entries.lookup (loc ++ [n]) = some e := by
    cases loc with
    | nil => exact h
    | cons m loc => exact h
  obtain ⟨before, after, he, -⟩ := List.lookup_eq_some_iff.mp hlookup
  rw [he]
  simp

/-- In a well-named tree, entries have the names of files and no longer ones than the system admits.
-/
theorem WellNamed.of_find? {t : Tree} (ht : t.WellNamed) {loc : Location} {n : Bytes} {e : Entry}
    (h : t.find? (loc ++ [n]) = some e) : IsFileName n ∧ n.length ≤ maxName :=
  ht _ (mem_entries_of_find? h) n (by simp)

theorem isLookedUp_of_isFileName {n : Bytes} (h : IsFileName n ∧ n.length ≤ maxName) :
    IsLookedUp n where
  ne_dot := h.1.ne_dot
  ne_slash := fun hn => h.1.slash_notMem (hn ▸ List.mem_singleton_self 47)
  ne_up := h.1.ne_up
  length_le := h.2

/-- A name that leads anywhere is looked up in its directory. -/
theorem Leads.isLookedUp {t : Tree} {dir : Location} {n : Bytes} {k : Nat} {g : Target}
    (h : Leads t dir [n] k g) (hn : IsFileName n) : IsLookedUp n := by
  cases h with
  | skip hp =>
      obtain rfl | rfl := hp
      · exact absurd rfl hn.ne_dot
      · exact absurd (List.mem_singleton_self 47) hn.slash_notMem
  | up => exact absurd rfl hn.ne_up
  | missing hp | file hp | enter hp | link hp => exact hp

theorem undotted_steps (p : Path) : undotted (steps p) = undotted p.named := by
  unfold steps
  simp only
  split
  · exact (undotted_append ..).trans (List.append_nil _)
  · rfl

/-- Nothing comes after a name at the end of a path. -/
theorem steps_join_name {p : Path} {n : Bytes} (h : IsFileName n) :
    steps (p.join ⟨n⟩) = p.named ++ [n] := by
  obtain ⟨gap, -, hb⟩ := Path.exists_bytes_join_name (p := p) h
  obtain ⟨init, b, hn⟩ := (List.eq_nil_or_concat' n).resolve_left h.ne_nil
  have hlast : ((p.join ⟨n⟩).bytes.getLast? == some 47) = false := by
    have hne : b ≠ 47 := fun he => h.slash_notMem (by simp [hn, he])
    rw [hb, hn, ← List.append_assoc, List.getLast?_concat]
    simpa using hne
  have hnamed : (p.join ⟨n⟩).parts.filter (· != []) = p.named ++ [n] := Path.named_join_name h
  simp only [steps, hnamed, hlast, Bool.and_false, Bool.false_eq_true, if_false]

/-- The steps along names end with these names. -/
theorem steps_descend {p : Path} {names : List Bytes} (h : ∀ n ∈ names, IsFileName n)
    (hne : names ≠ []) : steps (p.descend names) = p.named ++ names := by
  obtain ⟨init, n, rfl⟩ := (List.eq_nil_or_concat' names).resolve_left hne
  obtain ⟨hinit, hn⟩ := List.forall_mem_append.mp h
  rw [Path.descend_concat, steps_join_name (List.forall_mem_singleton.mp hn),
    Path.named_descend hinit, List.append_assoc]

end Tree

namespace View

open ImportXref.Tree (Leads steps)

variable {v : View} {p : Path} {dir loc : Location} {n : Bytes} {e : Entry}

/-! ### Paths -/

/-- A path that the system looks at has no NUL byte, is not empty and is short enough. -/
theorem check_eq_ok_iff :
    check p = .ok () ↔ 0 ∉ p.bytes ∧ p.bytes ≠ [] ∧ p.bytes.length < Tree.maxPath := by
  unfold check
  by_cases h0 : (0 : UInt8) ∈ p.bytes
  · simp [h0]
  · by_cases hnil : p.bytes = []
    · simp [hnil]
    · by_cases hlength : p.bytes.length ≥ Tree.maxPath
      · simp [h0, hnil, hlength]
      · simp [h0, hnil, hlength, Nat.lt_of_not_le hlength]

/-- What the system finds under a path. -/
theorem status_eq_ok_iff : v.status p = .ok (loc, e) ↔ check p = .ok () ∧
    ∃ k, k ≤ Tree.maxLinks ∧ Leads v.tree (v.start p) (steps p) k (.entry loc e) := by
  rw [← Tree.followLinks_eq_ok_iff, status, resolve]
  cases check p with
  | error err => simp
  | ok _ =>
      simp only [true_and]
      cases v.tree.followLinks false Tree.maxLinks (v.start p) (steps p) with
      | error err => simp
      | ok g => cases g <;> simp

theorem pathExists_iff : v.pathExists p = true ↔ ∃ loc e, v.status p = .ok (loc, e) := by
  unfold pathExists
  split
  · next found h => exact iff_of_true rfl ⟨found.1, found.2, h⟩
  · next err h => simp [h]

theorem directory?_eq_some_iff :
    v.directory? p = some loc ↔ v.status p = .ok (loc, .directory) := by
  unfold directory?
  split
  · next loc' h => simp [h]
  · next h => exact iff_of_false nofun (h loc)

section Opened

variable (h : v.status p = .ok (loc, e))
include h

theorem nul_notMem_of_status : 0 ∉ p.bytes :=
  (check_eq_ok_iff.mp (status_eq_ok_iff.mp h).1).1

theorem bytes_ne_nil_of_status : p.bytes ≠ [] :=
  (check_eq_ok_iff.mp (status_eq_ok_iff.mp h).1).2.1

theorem length_lt_of_status : p.bytes.length < Tree.maxPath :=
  (check_eq_ok_iff.mp (status_eq_ok_iff.mp h).1).2.2

end Opened

/-- A directory is found by the names of its path. -/
theorem leads_named_of_status (h : v.status p = .ok (loc, .directory)) :
    ∃ k, k ≤ Tree.maxLinks ∧ Leads v.tree (v.start p) p.named k (.entry loc .directory) := by
  obtain ⟨-, k, hk, hleads⟩ := status_eq_ok_iff.mp h
  exact ⟨k, hk, hleads.congr_directory (Tree.undotted_steps p)⟩

/-! ### Names in a directory -/

theorem start_join (hn : IsFileName n) : v.start (p.join ⟨n⟩) = v.start p := by
  rw [start, Path.isAbsolute_join (Path.isAbsolute_name hn), start]

section Names

variable {names : List Bytes} (hnames : ∀ n ∈ names, IsFileName n)
include hnames

/-- Names along a path do not change where it starts. -/
theorem start_descend : v.start (p.descend names) = v.start p := by
  induction names generalizing p with
  | nil => rfl
  | cons n names ih =>
      obtain ⟨hn, hnames⟩ := List.forall_mem_cons.mp hnames
      exact (ih hnames).trans (start_join hn)

/-- Names make no difference but for the length of the path. -/
theorem check_descend_eq_ok_iff (hp : check p = .ok ()) :
    check (p.descend names) = .ok () ↔ (p.descend names).bytes.length < Tree.maxPath := by
  obtain ⟨h0, hnil, -⟩ := check_eq_ok_iff.mp hp
  rw [check_eq_ok_iff]
  exact ⟨fun h => h.2.2, fun h =>
    ⟨Path.nul_notMem_descend hnames h0, Path.bytes_descend_ne_nil hnames hnil, h⟩⟩

/-- What the system finds below a directory: what the names lead to, if the path is short enough
and does not go over too many links. -/
theorem status_descend_eq_ok_iff (hdir : v.status p = .ok (dir, .directory)) (hne : names ≠ []) :
    v.status (p.descend names) = .ok (loc, e) ↔
      (p.descend names).bytes.length < Tree.maxPath ∧ ∃ i j, i + j ≤ Tree.maxLinks ∧
        Leads v.tree (v.start p) p.named i (.entry dir .directory) ∧
        Leads v.tree dir names j (.entry loc e) := by
  obtain ⟨hcheck, k, -, hk⟩ := status_eq_ok_iff.mp hdir
  rw [status_eq_ok_iff, check_descend_eq_ok_iff hnames hcheck, start_descend hnames,
    Tree.steps_descend hnames hne]
  refine and_congr_right fun _ => ⟨fun ⟨m, hm, hleads⟩ => ?_, fun ⟨i, j, hij, hi, hj⟩ => ?_⟩
  · obtain ⟨mid, i, j, hi, hj, rfl⟩ := hleads.split hne
    have hmid := (hk.congr_directory (Tree.undotted_steps p)).unique hi
    cases hmid
    exact ⟨i, j, hm, hi, hj⟩
  · exact ⟨i + j, hij, hi.append hj⟩

end Names

/-- The directory above what can be opened. -/
theorem exists_status_of_status_child (hn : IsFileName n) (hp : p.bytes ≠ [])
    (h : v.status (p.join ⟨n⟩) = .ok (loc, e)) : ∃ dir, v.status p = .ok (dir, .directory) := by
  obtain ⟨hcheck, k, hk, hleads⟩ := status_eq_ok_iff.mp h
  rw [start_join hn, Tree.steps_join_name hn] at hleads
  obtain ⟨dir, i, j, hdir, -, hij⟩ := hleads.split (List.cons_ne_nil n [])
  obtain ⟨h0, -, hlength⟩ := check_eq_ok_iff.mp hcheck
  obtain ⟨gap, -, hb⟩ := Path.exists_bytes_join_name (p := p) hn
  rw [hb] at h0 hlength
  refine ⟨dir, status_eq_ok_iff.mpr ⟨check_eq_ok_iff.mpr ⟨?_, hp, ?_⟩, i, by omega, ?_⟩⟩
  · exact fun hmem => h0 (by simp [hmem])
  · simp only [List.length_append] at hlength
    omega
  · exact hdir.congr_directory (Tree.undotted_steps p).symm

/-- What is opened by a name in a directory is what the name leads to there. -/
theorem leads_of_status_child (hdir : v.status p = .ok (dir, .directory)) (hn : IsFileName n)
    (h : v.status (p.join ⟨n⟩) = .ok (loc, e)) : ∃ j, Leads v.tree dir [n] j (.entry loc e) := by
  obtain ⟨-, -, j, -, -, hj⟩ := (status_descend_eq_ok_iff (List.forall_mem_singleton.mpr hn) hdir
    (List.cons_ne_nil n [])).mp h
  exact ⟨j, hj⟩

/-- What can be opened under a name is what the name leads to. -/
theorem status_child_of_leads (hdir : v.status p = .ok (dir, .directory)) (hn : IsFileName n)
    {j : Nat} (hleads : Leads v.tree dir [n] j (.entry loc e))
    (hopen : v.pathExists (p.join ⟨n⟩) = true) : v.status (p.join ⟨n⟩) = .ok (loc, e) := by
  obtain ⟨loc', e', h⟩ := pathExists_iff.mp hopen
  obtain ⟨k, hk⟩ := leads_of_status_child hdir hn h
  cases hleads.unique hk
  exact h

end View

end ImportXref
