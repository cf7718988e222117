import ImportXref.Proofs.Tree.Opening
import ImportXref.Tree.Walk
import Mathlib.Data.List.Nodup
import Mathlib.Data.List.Sort
import Mathlib.Data.UInt

/-!
# Trees — the files that a walk comes by

`Reaches t above dir names loc contents` says that the names lead from the directory `dir`, entry
by entry and through links, to a file, and that no link on the way leads to a directory that the
way is inside of already.  The relation knows of no limits of the system; `View.Sees` says which
of these ways the system lets a walk go.

* `mem_names_iff`, `Holds.names_eq`: the names in a directory.
* `mem_walk_iff`: a walk visits the files that can be reached and seen.
* `walk_eq_of_le`: the bound on the depth of a walk is never met.
* `pairwise_walk`: the files are visited in the order of the names on the way to them.
-/

namespace ImportXref

namespace Tree

variable {t : Tree}

/-! ### The names in a directory -/

theorem nameLe_iff {m n : Bytes} : nameLe m n = true ↔ m ≤ n := by
  induction m generalizing n with
  | nil => simp [nameLe]
  | cons x m ih =>
      cases n with
      | nil => simp [nameLe]
      | cons y n => simp [nameLe, ih, List.cons_le_cons_iff]

theorem nodup_eraseDups (l : List Bytes) : l.eraseDups.Nodup := by
  induction hlength : l.length using Nat.strongRecOn generalizing l with
  | ind k ih =>
      cases l with
      | nil => exact List.nodup_nil
      | cons n l =>
          have hless : (l.filter fun m => !m == n).length < k :=
            hlength ▸ Nat.lt_succ_of_le (List.length_filter_le ..)
          rw [List.eraseDups_cons, List.nodup_cons, List.mem_eraseDups, List.mem_filter]
          exact ⟨by simp, ih _ hless _ rfl⟩

/-- The names in a directory stand in the strict order of their bytes. -/
theorem pairwise_names (t : Tree) (dir : Location) : (t.names dir).Pairwise (· < ·) := by
  have hle : (t.names dir).Pairwise fun m n => nameLe m n = true := by
    refine List.pairwise_mergeSort (fun l m n h h' => ?_) (fun m n => ?_) _
    · exact nameLe_iff.mpr (List.le_trans (nameLe_iff.mp h) (nameLe_iff.mp h'))
    · simpa [nameLe_iff] using List.le_total m n
  have hne : (t.names dir).Nodup :=
    (List.mergeSort_perm ..).nodup_iff.mpr (nodup_eraseDups _)
  exact (hle.and hne).imp fun h => Std.lt_of_le_of_ne (nameLe_iff.mp h.1) h.2

/-- A name stands in a directory exactly if there is an entry below it. -/
theorem mem_names_iff {dir : Location} {n : Bytes} :
    n ∈ t.names dir ↔ (t.find? (dir ++ [n])).isSome = true := by
  have hfind : t.find? (dir ++ [n]) = t.entries.lookup (dir ++ [n]) := by cases dir <;> rfl
  rw [hfind, List.lookup_isSome_iff, names]
  simp only [List.mem_mergeSort, List.mem_eraseDups, List.mem_filterMap, beq_iff_eq]
  refine exists_congr fun ⟨l, e⟩ => and_congr_right fun _ => ?_
  obtain rfl | ⟨init, m, rfl⟩ := List.eq_nil_or_concat' l
  · simp
  · simp [eq_comm]

/-- In the directory `dir` stand entries with the names `l`, which are in order, and no others. -/
def Holds (t : Tree) (dir : Location) (l : List Bytes) : Prop :=
  l.Pairwise (· < ·) ∧ (∀ n ∈ l, (t.find? (dir ++ [n])).isSome = true) ∧
    ∀ e ∈ t.entries, e.1.dropLast = dir → e.1 = dir ∨ e.1 ∈ l.map (dir ++ [·])

instance (t : Tree) (dir : Location) (l : List Bytes) : Decidable (t.Holds dir l) :=
  inferInstanceAs (Decidable (_ ∧ _ ∧ _))

/-- There is one order of the names in a directory. -/
theorem Holds.names_eq {dir : Location} {l : List Bytes} (h : t.Holds dir l) :
    t.names dir = l := by
  obtain ⟨hl, hthere, hall⟩ := h
  refine (pairwise_names t dir).eq_of_mem_iff hl fun n =>
    mem_names_iff.trans ⟨fun h => ?_, hthere n⟩
  obtain ⟨e, he⟩ := Option.isSome_iff_exists.mp h
  obtain hself | hmem := hall _ (mem_entries_of_find? he) List.dropLast_concat
  · simp at hself
  · simpa using hmem

theorem isFileName_of_mem_names (ht : t.WellNamed) {dir : Location} {n : Bytes}
    (h : n ∈ t.names dir) : IsFileName n ∧ n.length ≤ maxName := by
  obtain ⟨e, he⟩ := Option.isSome_iff_exists.mp (mem_names_iff.mp h)
  exact ht.of_find? he

/-! ### Ways through a tree -/

/-- From the directory `dir`, inside of the directories `above`, the names lead to the file at
`loc`; no link on the way leads to a directory that the way is inside of. -/
inductive Reaches (t : Tree) :
    List Location → Location → List Bytes → Location → Bytes → Prop where
  | file {above : List Location} {dir loc : Location} {n contents : Bytes} {k : Nat}
      (hn : n ∈ t.names dir) (hfile : Leads t dir [n] k (.entry loc (.file contents))) :
      Reaches t above dir [n] loc contents
  | inside {above : List Location} {dir mid loc : Location} {n contents : Bytes} {k : Nat}
      {names : List Bytes} (hn : n ∈ t.names dir)
      (hmid : Leads t dir [n] k (.entry mid .directory))
      (hnew : t.IsLink (dir ++ [n]) → mid ∉ dir :: above)
      (h : Reaches t (dir :: above) mid names loc contents) :
      Reaches t above dir (n :: names) loc contents

theorem Reaches.ne_nil {above : List Location} {dir loc : Location} {names : List Bytes}
    {contents : Bytes} (h : Reaches t above dir names loc contents) : names ≠ [] := by
  cases h <;> exact List.cons_ne_nil _ _

/-- A way goes over names of files. -/
theorem Reaches.isFileName (ht : t.WellNamed) {above : List Location} {dir loc : Location}
    {names : List Bytes} {contents : Bytes} (h : Reaches t above dir names loc contents) :
    ∀ n ∈ names, IsFileName n := by
  induction h with
  | file hn _ => simpa using (isFileName_of_mem_names ht hn).1
  | inside hn _ _ _ ih =>
      exact List.forall_mem_cons.mpr ⟨(isFileName_of_mem_names ht hn).1, ih⟩

/-- The names lead to the file. -/
theorem Reaches.exists_leads {above : List Location} {dir loc : Location} {names : List Bytes}
    {contents : Bytes} (h : Reaches t above dir names loc contents) :
    ∃ k, Leads t dir names k (.entry loc (.file contents)) := by
  induction h with
  | file _ hfile => exact ⟨_, hfile⟩
  | inside _ hmid _ _ ih =>
      obtain ⟨k, hk⟩ := ih
      exact ⟨_, hmid.append hk⟩

end Tree

namespace View

open ImportXref.Tree (Leads Reaches)

variable {v : View}

/-- The system opens the directory that the names lead into and, if it is not a file that stands
there, what is under the last name. -/
def Sees (v : View) (p : Path) (names : List Bytes) : Prop :=
  ∃ dir, v.status (p.descend names.dropLast) = .ok (dir, .directory) ∧
    ∀ n, names.getLast? = some n →
      (∃ contents, v.tree.find? (dir ++ [n]) = some (.file contents)) ∨
        v.pathExists (p.descend names) = true

/-- A file stands at `loc`, or a link that leads to one. -/
def Shows (v : View) (child : Path) (loc : Location) : Prop :=
  (∃ contents, v.tree.find? loc = some (.file contents)) ∨
    v.tree.IsLink loc ∧ ∃ loc' contents, v.status child = .ok (loc', .file contents)

/-- A directory stands at `loc`, or a link to one that is not among those `above`. -/
def Enters (v : View) (above : List Location) (child : Path) (loc mid : Location) : Prop :=
  v.status child = .ok (mid, .directory) ∧
    (v.tree.find? loc = some .directory ∨ v.tree.IsLink loc ∧ mid ∉ above)

/-! ### One step of a walk -/

/-- What a walk does with an entry. -/
inductive Turn where
  | pass
  | skip
  | visit
  | enter (mid : Location)

/-- The visits of a walk at an entry. -/
def Turn.visits (v : View) (depth : Nat) (above : List Location) (child : Path) :
    Turn → List Visit
  | pass => []
  | skip => [.skipped]
  | visit => [.file child]
  | enter mid => v.walk depth above child mid

/-- What a walk inside of the directories `above` does with the entry at `loc`. -/
def turn (v : View) (above : List Location) (child : Path) (loc : Location) : Turn :=
  match v.tree.find? loc with
  | none => .pass
  | some (.file _) => .visit
  | some .directory =>
    match v.directory? child with
    | some mid => .enter mid
    | none => .skip
  | some (.link _) =>
    match v.status child with
    | .ok (mid, .directory) => if above.contains mid then .skip else .enter mid
    | .ok (_, .file _) => .visit
    | _ => .skip

/-- A walk goes through the names of a directory in order, with a turn at each. -/
theorem walk_succ (depth : Nat) (above : List Location) (path : Path) (dir : Location) :
    v.walk (depth + 1) above path dir = (v.tree.names dir).flatMap fun n =>
      (v.turn (dir :: above) (path.join ⟨n⟩) (dir ++ [n])).visits v depth (dir :: above)
        (path.join ⟨n⟩) := by
  rw [walk]
  refine List.flatMap_congr fun n _ => ?_
  simp only [turn]
  cases v.tree.find? (dir ++ [n]) with
  | none => rfl
  | some e =>
      cases e with
      | file contents => rfl
      | directory => cases v.directory? (path.join ⟨n⟩) <;> rfl
      | link target =>
          cases v.status (path.join ⟨n⟩) with
          | error err => rfl
          | ok found =>
              obtain ⟨mid, e⟩ := found
              cases e with
              | directory => simp only; split <;> rfl
              | file contents => rfl
              | link target => rfl

/-- A walk through a directory whose names are known. -/
theorem walk_succ_of_names {dir : Location} {names : List Bytes} (hnames : v.tree.names dir = names)
    (depth : Nat) (above : List Location) (path : Path) :
    v.walk (depth + 1) above path dir = names.flatMap fun n =>
      (v.turn (dir :: above) (path.join ⟨n⟩) (dir ++ [n])).visits v depth (dir :: above)
        (path.join ⟨n⟩) :=
  hnames ▸ walk_succ depth above path dir

/-- What is visited is what shows as a file. -/
theorem turn_eq_visit_iff {above : List Location} {child : Path} {loc : Location} :
    v.turn above child loc = .visit ↔ v.Shows child loc := by
  unfold turn Shows Tree.IsLink
  cases v.tree.find? loc with
  | none => simp
  | some e =>
      cases e with
      | file contents => simp
      | directory => simp only; split <;> simp
      | link target =>
          cases v.status child with
          | error err => simp
          | ok found =>
              obtain ⟨mid, e⟩ := found
              cases e with
              | directory => simp only; split <;> simp
              | file contents => simp
              | link target => simp

/-- What is entered is a directory that the way is not inside of. -/
theorem turn_eq_enter_iff {above : List Location} {child : Path} {loc mid : Location} :
    v.turn above child loc = .enter mid ↔ v.Enters above child loc mid := by
  unfold turn Enters Tree.IsLink
  cases v.tree.find? loc with
  | none => simp
  | some e =>
      cases e with
      | file contents => simp
      | directory =>
          rw [← directory?_eq_some_iff]
          cases v.directory? child <;> simp
      | link target =>
          cases v.status child with
          | error err => simp
          | ok found =>
              obtain ⟨mid', e⟩ := found
              cases e with
              | directory =>
                  by_cases hmem : mid' ∈ above
                  · simpa [hmem] using fun h => h ▸ hmem
                  · simpa [hmem] using fun h => h ▸ hmem
              | file contents => simp
              | link target => simp

/-! ### The files of a walk -/

theorem mem_visits_iff {depth : Nat} {above : List Location} {child q : Path} {turn : Turn} :
    .file q ∈ turn.visits v depth above child ↔ (turn = .visit ∧ q = child) ∨
      ∃ mid, turn = .enter mid ∧ .file q ∈ v.walk depth above child mid := by
  cases turn <;> simp [Turn.visits]

/-- A walk visits files of the directory itself and those of the directories it enters. -/
theorem mem_walk_succ_iff {depth : Nat} {above : List Location} {path q : Path}
    {dir : Location} : .file q ∈ v.walk (depth + 1) above path dir ↔ ∃ n ∈ v.tree.names dir,
      (v.Shows (path.join ⟨n⟩) (dir ++ [n]) ∧ q = path.join ⟨n⟩) ∨
        ∃ mid, v.Enters (dir :: above) (path.join ⟨n⟩) (dir ++ [n]) mid ∧
          .file q ∈ v.walk depth (dir :: above) (path.join ⟨n⟩) mid := by
  simp only [walk_succ, List.mem_flatMap, mem_visits_iff, turn_eq_visit_iff, turn_eq_enter_iff]

section Child

variable {path : Path} {dir : Location} {n : Bytes}
  (hdir : v.status path = .ok (dir, .directory)) (hn : IsFileName n ∧ n.length ≤ Tree.maxName)
include hdir hn

/-- A file is visited if a name leads to it and the system sees the name. -/
theorem shows_iff : v.Shows (path.join ⟨n⟩) (dir ++ [n]) ↔
    ∃ k loc contents, Leads v.tree dir [n] k (.entry loc (.file contents)) ∧
      v.Sees path [n] := by
  constructor
  · rintro (⟨contents, hfind⟩ | ⟨-, loc, contents, hstatus⟩)
    · refine ⟨0, _, contents, .file (Tree.isLookedUp_of_isFileName hn) hfind, dir, hdir, ?_⟩
      rintro m ⟨⟩
      exact .inl ⟨contents, hfind⟩
    · obtain ⟨k, hk⟩ := leads_of_status_child hdir hn.1 hstatus
      refine ⟨k, loc, contents, hk, dir, hdir, ?_⟩
      rintro m ⟨⟩
      exact .inr (pathExists_iff.mpr ⟨loc, _, hstatus⟩)
  · rintro ⟨k, loc, contents, hk, dir', hdir', hsees⟩
    have hsame : dir' = dir := by
      have hd : v.status path = .ok (dir', .directory) := hdir'
      rw [hdir] at hd
      cases hd
      rfl
    obtain ⟨hfind, hg⟩ | ⟨contents', hfind, hg⟩ | ⟨hfind, hg⟩ | hlink :=
      hk.of_name (Tree.isLookedUp_of_isFileName hn)
    · cases hg
    · exact .inl ⟨contents', hfind⟩
    · cases hg
    · obtain ⟨contents', hfile⟩ | hopen := hsees n rfl
      · obtain ⟨target, hlink⟩ := hlink
        rw [hsame, hlink] at hfile
        cases hfile
      · exact .inr ⟨hlink, loc, contents, status_child_of_leads hdir hn.1 hk hopen⟩

/-- A directory is entered if a name leads to it, the system opens it, and no link leads back. -/
theorem enters_iff {above : List Location} {mid : Location} :
    v.Enters above (path.join ⟨n⟩) (dir ++ [n]) mid ↔
      (∃ k, Leads v.tree dir [n] k (.entry mid .directory)) ∧
        (v.tree.IsLink (dir ++ [n]) → mid ∉ above) ∧ v.pathExists (path.join ⟨n⟩) = true := by
  constructor
  · rintro ⟨hstatus, hentry⟩
    refine ⟨leads_of_status_child hdir hn.1 hstatus, fun ⟨target, hlink⟩ => ?_,
      pathExists_iff.mpr ⟨mid, _, hstatus⟩⟩
    obtain hfind | ⟨-, hmem⟩ := hentry
    · rw [hlink] at hfind
      cases hfind
    · exact hmem
  · rintro ⟨⟨k, hk⟩, hnew, hopen⟩
    refine ⟨status_child_of_leads hdir hn.1 hk hopen, ?_⟩
    obtain ⟨hfind, hg⟩ | ⟨contents', hfind, hg⟩ | ⟨hfind, hg⟩ | hlink :=
      hk.of_name (Tree.isLookedUp_of_isFileName hn)
    · cases hg
    · cases hg
    · exact .inl hfind
    · exact .inr ⟨hlink, hnew hlink⟩

end Child

theorem sees_cons_iff {path : Path} {n : Bytes} {names : List Bytes} (hne : names ≠ []) :
    v.Sees path (n :: names) ↔ v.Sees (path.join ⟨n⟩) names := by
  obtain ⟨m, rest, rfl⟩ := List.exists_cons_of_ne_nil hne
  simp only [Sees, List.dropLast_cons_of_ne_nil hne, List.getLast?_cons_cons]
  rfl

/-- The directories above one that is opened are opened. -/
theorem exists_status_of_descend {path : Path} {names : List Bytes} {loc : Location}
    (hnames : ∀ n ∈ names, IsFileName n) (hpath : path.bytes ≠ [])
    (h : v.status (path.descend names) = .ok (loc, .directory)) :
    ∃ dir, v.status path = .ok (dir, .directory) := by
  induction names generalizing path with
  | nil => exact ⟨loc, h⟩
  | cons n names ih =>
      obtain ⟨hn, hnames⟩ := List.forall_mem_cons.mp hnames
      obtain ⟨mid, hmid⟩ := ih hnames (Path.bytes_join_name_ne_nil hn) h
      exact exists_status_of_status_child hn hpath hmid

/-- A way that the system sees begins with a directory that it opens. -/
theorem pathExists_of_sees {path : Path} {n : Bytes} {names : List Bytes}
    (hn : ∀ m ∈ n :: names, IsFileName m) (hne : names ≠ []) (h : v.Sees path (n :: names)) :
    v.pathExists (path.join ⟨n⟩) = true := by
  obtain ⟨dir, hdir, -⟩ := (sees_cons_iff hne).mp h
  obtain ⟨hn, hnames⟩ := List.forall_mem_cons.mp hn
  obtain ⟨mid, hmid⟩ := exists_status_of_descend
    (fun m hm => hnames m (List.mem_of_mem_dropLast hm)) (Path.bytes_join_name_ne_nil hn) hdir
  exact pathExists_iff.mpr ⟨mid, _, hmid⟩

/-- A walk visits only what can be reached and seen. -/
theorem reaches_of_mem_walk (ht : v.tree.WellNamed) {depth : Nat} {above : List Location}
    {path q : Path} {dir : Location} (hdir : v.status path = .ok (dir, .directory))
    (h : .file q ∈ v.walk depth above path dir) :
    ∃ names loc contents, Reaches v.tree above dir names loc contents ∧ v.Sees path names ∧
      q = path.descend names := by
  induction depth generalizing above path dir with
  | zero => cases h
  | succ depth ih =>
      obtain ⟨n, hmem, ⟨hshows, rfl⟩ | ⟨mid, henters, hq⟩⟩ := mem_walk_succ_iff.mp h
      · obtain ⟨k, loc, contents, hk, hsees⟩ :=
          (shows_iff hdir (Tree.isFileName_of_mem_names ht hmem)).mp hshows
        exact ⟨[n], loc, contents, .file hmem hk, hsees, rfl⟩
      · obtain ⟨⟨k, hk⟩, hnew, -⟩ :=
          (enters_iff hdir (Tree.isFileName_of_mem_names ht hmem)).mp henters
        obtain ⟨names, loc, contents, hreaches, hsees, rfl⟩ := ih henters.1 hq
        exact ⟨n :: names, loc, contents, .inside hmem hk hnew hreaches,
          (sees_cons_iff hreaches.ne_nil).mpr hsees, rfl⟩

/-- A walk visits all that can be reached and seen, if its depth is not below what the length of
paths leaves over. -/
theorem mem_walk_of_reaches (ht : v.tree.WellNamed) {depth : Nat} {above : List Location}
    {path : Path} {dir loc : Location} {names : List Bytes} {contents : Bytes}
    (hdir : v.status path = .ok (dir, .directory))
    (hdepth : Tree.maxPath ≤ path.bytes.length + depth)
    (h : Reaches v.tree above dir names loc contents) (hsees : v.Sees path names) :
    .file (path.descend names) ∈ v.walk depth above path dir := by
  have hlength := length_lt_of_status hdir
  obtain ⟨depth, rfl⟩ : ∃ d, depth = d + 1 := ⟨depth - 1, by omega⟩
  rw [mem_walk_succ_iff]
  -- The induction is on the way.  Each name makes the path longer, so the depth is not used up.
  induction h generalizing path depth with
  | @file above dir loc n contents k hmem hk =>
      refine ⟨n, hmem, .inl ⟨(shows_iff hdir (Tree.isFileName_of_mem_names ht hmem)).mpr ?_, rfl⟩⟩
      exact ⟨k, loc, contents, hk, hsees⟩
  | @inside above dir mid loc n contents k names hmem hk hnew hreaches ih =>
      have hn := Tree.isFileName_of_mem_names ht hmem
      have hopen : v.pathExists (path.join ⟨n⟩) = true :=
        pathExists_of_sees (List.forall_mem_cons.mpr ⟨hn.1, hreaches.isFileName ht⟩)
          hreaches.ne_nil hsees
      have henters := (enters_iff hdir hn).mpr ⟨⟨k, hk⟩, hnew, hopen⟩
      have hchild := length_lt_of_status henters.1
      have hlonger := Path.length_lt_join_name (p := path) hn.1
      obtain ⟨depth, rfl⟩ : ∃ d, depth = d + 1 := ⟨depth - 1, by omega⟩
      refine ⟨n, hmem, .inr ⟨mid, henters, mem_walk_succ_iff.mpr ?_⟩⟩
      exact ih henters.1 ((sees_cons_iff hreaches.ne_nil).mp hsees) hchild depth (by omega)

/-- **The files of a walk** are those that can be reached and that the system sees. -/
theorem mem_walk_iff (ht : v.tree.WellNamed) {depth : Nat} {above : List Location}
    {path q : Path} {dir : Location} (hdir : v.status path = .ok (dir, .directory))
    (hdepth : Tree.maxPath ≤ path.bytes.length + depth) :
    .file q ∈ v.walk depth above path dir ↔
      ∃ names loc contents, Reaches v.tree above dir names loc contents ∧ v.Sees path names ∧
        q = path.descend names :=
  ⟨reaches_of_mem_walk ht hdir, fun ⟨_, _, _, hreaches, hsees, hq⟩ =>
    hq ▸ mem_walk_of_reaches ht hdir hdepth hreaches hsees⟩

/-- The bound on the depth of a walk is never met: paths get too long before. -/
theorem walk_eq_of_le (ht : v.tree.WellNamed) {d e : Nat} {above : List Location}
    {path : Path} {dir : Location} (hdir : v.status path = .ok (dir, .directory))
    (hd : Tree.maxPath ≤ path.bytes.length + d) (he : Tree.maxPath ≤ path.bytes.length + e) :
    v.walk d above path dir = v.walk e above path dir := by
  have hlength := length_lt_of_status hdir
  induction d generalizing e above path dir with
  | zero => omega
  | succ d ih =>
      obtain ⟨e, rfl⟩ : ∃ e', e = e' + 1 := ⟨e - 1, by omega⟩
      rw [walk_succ, walk_succ]
      refine List.flatMap_congr fun n hmem => ?_
      cases hturn : v.turn (dir :: above) (path.join ⟨n⟩) (dir ++ [n]) with
      | pass | skip | visit => rfl
      | enter mid =>
          have henters := (turn_eq_enter_iff.mp hturn).1
          have hlonger := Path.length_lt_join_name (p := path)
            (Tree.isFileName_of_mem_names ht hmem).1
          have hchild := length_lt_of_status henters
          exact ih henters (by omega) (by omega) hchild

/-! ### The order of a walk -/

/-- Behind each name, the files that a walk visits are below that name. -/
theorem exists_key_of_mem_visits (ht : v.tree.WellNamed) {depth : Nat} {above : List Location}
    {path q : Path} {dir : Location} {n : Bytes} (hn : IsFileName n) (hpath : path.bytes ≠ [])
    (h : .file q ∈ (v.turn (dir :: above) (path.join ⟨n⟩) (dir ++ [n])).visits v depth
      (dir :: above) (path.join ⟨n⟩)) :
    ∃ names, q.key = path.key ++ n :: names := by
  obtain ⟨-, rfl⟩ | ⟨mid, hturn, hq⟩ := mem_visits_iff.mp h
  · exact ⟨[], Path.key_join_name hn hpath⟩
  · obtain ⟨names, loc, contents, hreaches, -, rfl⟩ :=
      reaches_of_mem_walk ht (turn_eq_enter_iff.mp hturn).1 hq
    refine ⟨names, ?_⟩
    rw [Path.key_descend (hreaches.isFileName ht) (Path.bytes_join_name_ne_nil hn),
      Path.key_join_name hn hpath, List.append_assoc, List.singleton_append]

/-- **A walk visits files in the order of their components**, component by component. -/
theorem pairwise_walk (ht : v.tree.WellNamed) {depth : Nat} {above : List Location}
    {path : Path} {dir : Location} (hdir : v.status path = .ok (dir, .directory)) :
    (v.walk depth above path dir).Pairwise fun a b =>
      ∀ p q, a = .file p → b = .file q → p.key < q.key := by
  induction depth generalizing above path dir with
  | zero => exact .nil
  | succ depth ih =>
      have hpath := bytes_ne_nil_of_status hdir
      rw [walk_succ, List.pairwise_flatMap]
      refine ⟨fun n _ => ?_, (Tree.pairwise_names v.tree dir).imp_of_mem ?_⟩
      · cases hturn : v.turn (dir :: above) (path.join ⟨n⟩) (dir ++ [n]) with
        | pass => exact .nil
        | skip | visit => exact List.pairwise_singleton ..
        | enter mid => exact ih (turn_eq_enter_iff.mp hturn).1
      · rintro m n hm hn hlt _ hp _ hq p q rfl rfl
        obtain ⟨ms, hpkey⟩ :=
          exists_key_of_mem_visits ht (Tree.isFileName_of_mem_names ht hm).1 hpath hp
        obtain ⟨ns, hqkey⟩ :=
          exists_key_of_mem_visits ht (Tree.isFileName_of_mem_names ht hn).1 hpath hq
        rw [hpkey, hqkey]
        exact List.append_left_lt (List.cons_lt_cons_iff.mpr (.inl hlt))

end View

end ImportXref
