import ImportXref.Proofs.Discovery.Found
import ImportXref.Proofs.Discovery.Spelling
import ImportXref.Proofs.Tree.Finite

/-!
# Discovery — the listing of a directory

The listing of a declared directory holds the source files that can be reached from it, each once
and in the order of their components.  That is all of them as long as the system opens what the
walk comes by; paths that are too long or go over too many links are left out.

* `nameExtension?_eq_source_iff`: what a source file is called.
* `mem_offeredBelow_iff`: what a walk offers.
* `goesThrough_iff`: when it goes through all of a directory.
* `directory_listing`: the listing of a directory, links and cycles included.
-/

namespace ImportXref

namespace Tree

/-- The names of a tree are encodings of texts. -/
def Utf8Named (t : Tree) : Prop :=
  ∀ entry ∈ t.entries, ∀ n ∈ entry.1, Bytes.IsUtf8 n

instance (t : Tree) : Decidable t.Utf8Named :=
  inferInstanceAs (Decidable (∀ entry ∈ t.entries, ∀ n ∈ entry.1, Bytes.IsUtf8 n))

variable {t : Tree}

theorem Utf8Named.of_mem_names (ht : t.Utf8Named) {dir : Location} {n : Bytes}
    (h : n ∈ t.names dir) : Bytes.IsUtf8 n := by
  obtain ⟨e, he⟩ := Option.isSome_iff_exists.mp (mem_names_iff.mp h)
  exact ht _ (mem_entries_of_find? he) n (by simp)

/-- In a tree of texts, a way goes over texts. -/
theorem Reaches.isUtf8 (ht : t.Utf8Named) {above : List Location} {dir loc : Location}
    {names : List Bytes} {contents : Bytes} (h : Reaches t above dir names loc contents) :
    ∀ n ∈ names, Bytes.IsUtf8 n := by
  induction h with
  | file hn _ => simpa using ht.of_mem_names hn
  | inside hn _ _ _ ih => exact List.forall_mem_cons.mpr ⟨ht.of_mem_names hn, ih⟩

end Tree

namespace View

/-- What the system opens, a walk sees. -/
theorem sees_of_pathExists {v : View} {p : Path} {names : List Bytes}
    (hnames : ∀ n ∈ names, IsFileName n) (hp : p.bytes ≠ []) (hne : names ≠ [])
    (h : v.pathExists (p.descend names) = true) : v.Sees p names := by
  obtain ⟨init, n, rfl⟩ := (List.eq_nil_or_concat' names).resolve_left hne
  obtain ⟨loc, e, hstatus⟩ := pathExists_iff.mp h
  obtain ⟨hinit, hn⟩ := List.forall_mem_append.mp hnames
  rw [Path.descend_concat] at hstatus
  obtain ⟨dir, hdir⟩ := exists_status_of_status_child (List.forall_mem_singleton.mp hn)
    (Path.bytes_descend_ne_nil hinit hp) hstatus
  refine ⟨dir, by rwa [List.dropLast_concat], fun _ _ => .inr h⟩

end View

namespace Discovery

variable {test? : Text → Option (Text → Bool)} {v : View} {root : Path} {patterns : List Text}

/-! ### Names of source files -/

/-- An ending `.py` behind at least one byte. -/
def IsSourceName (n : Bytes) : Prop :=
  ∃ stem, stem ≠ [] ∧ n = stem ++ 46 :: sourceExtension

/-- A name has the extension of sources exactly if it is that of a source file. -/
theorem nameExtension?_eq_source_iff {n : Bytes} :
    Path.nameExtension? n = some sourceExtension ↔ IsSourceName n := by
  simp only [Path.nameExtension?, Option.ite_none_right_eq_some, Option.some.injEq,
    List.reverse_eq_iff]
  constructor
  · rintro ⟨hlength, htail⟩
    have hsplit : n.reverse = sourceExtension.reverse ++ n.reverse.dropWhile (· != 46) := by
      rw [← htail, List.takeWhile_append_dropWhile]
    have hcount := congrArg List.length hsplit
    rw [htail] at hlength
    simp only [List.length_append, List.length_reverse] at hlength hcount
    cases hdrop : n.reverse.dropWhile (· != 46) with
    | nil =>
        rw [hdrop, List.length_nil] at hcount
        omega
    | cons b stem =>
        have hb : b = 46 := by
          have hhead := List.head?_dropWhile_not (· != 46) n.reverse
          rw [hdrop] at hhead
          simpa using hhead
        rw [hdrop, List.length_cons] at hcount
        refine ⟨stem.reverse, fun hnil => ?_, ?_⟩
        · rw [List.reverse_eq_nil_iff.mp hnil, List.length_nil] at hcount
          omega
        · rw [hdrop, hb] at hsplit
          simpa using congrArg List.reverse hsplit
  · rintro ⟨stem, hne, rfl⟩
    have hpos := List.length_pos_of_ne_nil hne
    have htail : (stem ++ 46 :: sourceExtension).reverse.takeWhile (· != 46) =
        sourceExtension.reverse := by
      simp [sourceExtension]
    refine ⟨?_, htail⟩
    rw [htail]
    simp [sourceExtension]
    omega

/-- Below a path, the last name says whether it is that of a source file. -/
theorem extension?_descend {p : Path} {names : List Bytes} (hnames : ∀ n ∈ names, IsFileName n)
    (hp : p.bytes ≠ []) (hne : names ≠ []) :
    (p.descend names).extension? = some sourceExtension ↔
      ∃ n, names.getLast? = some n ∧ IsSourceName n := by
  obtain ⟨init, n, rfl⟩ := (List.eq_nil_or_concat' names).resolve_left hne
  have hname : (p.descend (init ++ [n])).fileName? = some n := by
    rw [Path.fileName?, Path.components_descend hnames hp, List.map_append, ← List.append_assoc,
      List.map_singleton, List.getLast?_concat]
  simp [Path.extension?, hname, nameExtension?_eq_source_iff]

/-! ### What a walk offers -/

/-- The components below the root under which a visit offers a source file. -/
def offeredBelow? (test? : Text → Option (Text → Bool)) (root : Path) (patterns : List Text) :
    Visit → Option (List Component)
  | .start | .skipped => none
  | .file path =>
    if path.extension? = some sourceExtension ∧
        (excludedBy test? patterns (Path.below root path)).2 = false then
      some (Path.below root path)
    else none

theorem offered?_eq (visit : Visit) : offered? test? root patterns visit =
    (offeredBelow? test? root patterns visit).map spelled := by
  cases visit with
  | start | skipped => rfl
  | file path => simp only [offered?, offeredBelow?]; split <;> rfl

theorem offeredBelow?_eq_some_iff {visit : Visit} {cs : List Component} :
    offeredBelow? test? root patterns visit = some cs ↔ ∃ path, visit = .file path ∧
      path.extension? = some sourceExtension ∧ (excludedBy test? patterns cs).2 = false ∧
        cs = Path.below root path := by
  cases visit with
  | start | skipped => simp [offeredBelow?]
  | file path =>
      simp only [offeredBelow?, Option.ite_none_right_eq_some, Option.some.injEq,
        Visit.file.injEq, exists_eq_left']
      constructor
      · rintro ⟨⟨hext, hout⟩, rfl⟩
        exact ⟨hext, hout, rfl⟩
      · rintro ⟨hext, hout, rfl⟩
        exact ⟨⟨hext, hout⟩, rfl⟩

/-- Files that are all different and new are added as they come. -/
theorem foldl_addNew_of_nodup {found names : List Text} (h : (found ++ names).Nodup) :
    names.foldl addNew found = found ++ names := by
  induction names generalizing found with
  | nil => simp
  | cons name names ih =>
      have hnew : name ∉ found := fun hmem =>
        (List.nodup_append.mp h).2.2 name hmem name List.mem_cons_self rfl
      have hadd : addNew found name = found ++ [name] := by simp [addNew, hnew]
      rw [List.foldl_cons, hadd, ih (by simpa using h), List.append_assoc,
        List.singleton_append]

/-! ### The listing -/

/-- The names lead from the directory `dir`, which stands at `base` below the root, to a source
file that no pattern excludes. -/
structure IsSourceWay (v : View) (patterns : List Text) (base : List Component) (dir : Location)
    (names : List Bytes) : Prop where
  reaches : ∃ loc contents, v.tree.Reaches [] dir names loc contents
  isSource : ∃ n, names.getLast? = some n ∧ IsSourceName n
  included : (excluded patterns (base ++ names.map .name)).2 = false

/-- The walk from `p` comes by the names: it is a walk through a directory, and the system shows it
what they lead to. -/
def ComesBy (v : View) (p : Path) (names : List Bytes) : Prop :=
  isStandardInput p = false ∧ v.Sees p names

/-- The walk from `p` goes through all of the directory `dir`: every link is followed and every
path opened. -/
structure GoesThrough (v : View) (p : Path) (dir : Location) : Prop where
  isWalk : isStandardInput p = false
  opens : ∀ names loc contents, v.tree.Reaches [] dir names loc contents →
    v.pathExists (p.descend names) = true

/-- The visits below a directory. -/
def walked (v : View) (p : Path) (dir : Location) : List Visit :=
  if isStandardInput p then [] else v.walk Tree.maxPath [] p dir

theorem visits?_directory {name : Text} {dir : Location}
    (hdir : v.directory? (place root name) = some dir) :
    visits? v root name = some (.start :: walked v (place root name) dir) := by
  simp [visits?, View.directory?_eq_some_iff.mp hdir, walked]

/-- The visits of a declared directory are those of a walk through it. -/
theorem visits?_of_walk {name : Text} {dir : Location} {visits : List Visit}
    (hdir : v.directory? (place root name) = some dir)
    (hname : isStandardInput (place root name) = false)
    (hwalk : v.walk Tree.maxPath [] (place root name) dir = visits) :
    visits? v root name = some (.start :: visits) := by
  rw [visits?_directory hdir, walked, hname, if_neg Bool.false_ne_true, hwalk]

section Directory

variable {path : Path} {dir : Location} (ht : v.tree.WellNamed)
  (hdir : v.status path = .ok (dir, .directory))
include ht hdir

/-- A walk visits the files that can be reached and that it comes by. -/
theorem mem_walked_iff {q : Path} : .file q ∈ walked v path dir ↔ ∃ names loc contents,
    v.tree.Reaches [] dir names loc contents ∧ ComesBy v path names ∧ q = path.descend names := by
  unfold walked ComesBy
  cases isStandardInput path with
  | true => simp
  | false => simpa using View.mem_walk_iff ht hdir (Nat.le_add_left ..)

theorem pairwise_walked : (walked v path dir).Pairwise fun a b =>
    ∀ p q, a = .file p → b = .file q → p.key < q.key := by
  unfold walked
  split
  · exact .nil
  · exact View.pairwise_walk ht hdir

/-- A walk goes through all of a directory if no path is too long and none goes over too many
links. -/
theorem goesThrough_iff : GoesThrough v path dir ↔ isStandardInput path = false ∧
    ∀ names loc contents, v.tree.Reaches [] dir names loc contents →
      (path.descend names).bytes.length < Tree.maxPath ∧ ∃ i j, i + j ≤ Tree.maxLinks ∧
        v.tree.Leads (v.start path) path.named i (.entry dir .directory) ∧
        v.tree.Leads dir names j (.entry loc (.file contents)) := by
  have hopens {names : List Bytes} {loc : Location} {contents : Bytes}
      (h : v.tree.Reaches [] dir names loc contents) :
      v.pathExists (path.descend names) = true ↔
        v.status (path.descend names) = .ok (loc, .file contents) := by
    refine ⟨fun hexists => ?_, fun hstatus => View.pathExists_iff.mpr ⟨_, _, hstatus⟩⟩
    obtain ⟨loc', e, hstatus⟩ := View.pathExists_iff.mp hexists
    obtain ⟨-, -, j, -, -, hj⟩ :=
      (View.status_descend_eq_ok_iff (h.isFileName ht) hdir h.ne_nil).mp hstatus
    obtain ⟨k, hk⟩ := h.exists_leads
    cases hj.unique hk
    exact hstatus
  constructor
  · intro h
    exact ⟨h.isWalk, fun names loc contents hway =>
      (View.status_descend_eq_ok_iff (hway.isFileName ht) hdir hway.ne_nil).mp
        ((hopens hway).mp (h.opens names loc contents hway))⟩
  · intro h
    exact ⟨h.1, fun names loc contents hway => (hopens hway).mpr
      ((View.status_descend_eq_ok_iff (hway.isFileName ht) hdir hway.ne_nil).mpr
        (h.2 names loc contents hway))⟩

variable (hroot : root.components <+: path.components) (patterns)
include hroot

/-- A walk offers the source files that can be reached and that it comes by. -/
theorem mem_offeredBelow_iff (cs : List Component) :
    cs ∈ (walked v path dir).filterMap (offeredBelow? Glob.test? root patterns) ↔
      ∃ names, IsSourceWay v patterns (Path.below root path) dir names ∧ ComesBy v path names ∧
        cs = Path.below root path ++ names.map .name := by
  have hpath := View.bytes_ne_nil_of_status hdir
  simp only [List.mem_filterMap, offeredBelow?_eq_some_iff]
  constructor
  · rintro ⟨_, hmem, q, rfl, hext, hout, rfl⟩
    obtain ⟨names, loc, contents, hreaches, hcomes, rfl⟩ := (mem_walked_iff ht hdir).mp hmem
    have hnames := hreaches.isFileName ht
    have hbelow := Path.below_descend hnames hpath hroot
    exact ⟨names, ⟨⟨loc, contents, hreaches⟩,
      (extension?_descend hnames hpath hreaches.ne_nil).mp hext, hbelow ▸ hout⟩, hcomes, hbelow⟩
  · rintro ⟨names, ⟨⟨loc, contents, hreaches⟩, hsource, hout⟩, hcomes, rfl⟩
    have hnames := hreaches.isFileName ht
    refine ⟨_, (mem_walked_iff ht hdir).mpr ⟨names, loc, contents, hreaches, hcomes, rfl⟩, _, rfl,
      (extension?_descend hnames hpath hreaches.ne_nil).mpr hsource, hout,
      (Path.below_descend hnames hpath hroot).symm⟩

/-- What a walk offers is in the order of the components. -/
theorem pairwise_offeredBelow :
    ((walked v path dir).filterMap (offeredBelow? Glob.test? root patterns)).Pairwise
      fun cs ds => cs.map Component.bytes < ds.map Component.bytes := by
  have hpath := View.bytes_ne_nil_of_status hdir
  rw [List.pairwise_filterMap]
  refine (pairwise_walked ht hdir).imp_of_mem ?_
  rintro a b ha hb hlt cs hcs ds hds
  obtain ⟨p, rfl, -, -, rfl⟩ := offeredBelow?_eq_some_iff.mp hcs
  obtain ⟨q, rfl, -, -, rfl⟩ := offeredBelow?_eq_some_iff.mp hds
  have hkey {q : Path} (hq : .file q ∈ walked v path dir) :
      q.key = root.key ++ (Path.below root q).map Component.bytes := by
    obtain ⟨names, loc, contents, hreaches, -, rfl⟩ := (mem_walked_iff ht hdir).mp hq
    have hcomponents := Path.components_descend (hreaches.isFileName ht) hpath
    have hprefixed : root.components <+: (path.descend names).components :=
      hcomponents ▸ hroot.trans (List.prefix_append ..)
    rw [Path.key, ← Path.components_append_below hprefixed, List.map_append, Path.key]
  have hless := hlt p q rfl rfl
  rw [hkey ha, hkey hb] at hless
  exact Path.lt_of_append_lt_append_left hless

end Directory

/-- Routes that are texts are listed apart. -/
theorem nodup_map_spelled {paths : List (List Component)}
    (hpaths : ∀ cs ∈ paths, IsRoute cs ∧ ∀ c ∈ cs, c.bytes.IsUtf8)
    (hsorted : paths.Pairwise fun cs ds => cs.map Component.bytes < ds.map Component.bytes) :
    (paths.map spelled).Nodup := by
  rw [List.Nodup, List.pairwise_map]
  refine hsorted.imp_of_mem fun {cs ds} hcs hds hlt heq => ?_
  obtain ⟨hcs, hcs'⟩ := hpaths cs hcs
  obtain ⟨hds, hds'⟩ := hpaths ds hds
  rw [eq_of_spelled_eq hcs hds hcs' hds' heq] at hlt
  exact List.lt_irrefl _ hlt

/-- **The listing of a directory.**  A relative name of a directory leads to the source files that
can be reached from it: those that the walk comes by, and if it goes through all of the directory,
all.  They are listed under their components below the root, each once and in the strict order of
their components.  The walk ends by itself, and no way through the directory is endless. -/
theorem directory_listing (ht : v.tree.WellNamed) (hutf8 : v.tree.Utf8Named)
    (patterns : List Text) {name : Text} {dir : Location}
    (hname : (Path.ofText name).isAbsolute = false)
    (hdir : v.directory? (place root name) = some dir) :
    ∃ paths : List (List Component),
      (collect v root patterns [name]).result = .ok (paths.map spelled) ∧
      (paths.map spelled).Nodup ∧
      paths.Pairwise (fun cs ds => cs.map Component.bytes < ds.map Component.bytes) ∧
      (∀ cs, cs ∈ paths ↔ ∃ names,
        IsSourceWay v patterns (Path.below root (place root name)) dir names ∧
          ComesBy v (place root name) names ∧
          cs = Path.below root (place root name) ++ names.map .name) ∧
      (GoesThrough v (place root name) dir → ∀ cs, cs ∈ paths ↔ ∃ names,
        IsSourceWay v patterns (Path.below root (place root name)) dir names ∧
          cs = Path.below root (place root name) ++ names.map .name) ∧
      (∀ depth, Tree.maxPath ≤ depth →
        v.walk depth [] (place root name) dir = v.walk Tree.maxPath [] (place root name) dir) ∧
      ∃ bound, ∀ names loc contents, v.tree.Reaches [] dir names loc contents →
        names.length ≤ bound := by
  have hstatus := View.directory?_eq_some_iff.mp hdir
  have hpath := View.bytes_ne_nil_of_status hstatus
  have hroot : root.components <+: (place root name).components := (Path.below_join hname).1
  have hmem := mem_offeredBelow_iff patterns ht hstatus hroot
  have hsorted := pairwise_offeredBelow patterns ht hstatus hroot
  have htexts : ∀ cs ∈ (walked v (place root name) dir).filterMap
      (offeredBelow? Glob.test? root patterns), IsRoute cs ∧ ∀ c ∈ cs, c.bytes.IsUtf8 := by
    intro cs hcs
    obtain ⟨names, ⟨⟨loc, contents, hreaches⟩, -, -⟩, -, rfl⟩ := (hmem cs).mp hcs
    refine ⟨?_, List.forall_mem_append.mpr ⟨isUtf8_below_place hname, ?_⟩⟩
    · rw [← Path.below_descend (hreaches.isFileName ht) hpath hroot]
      exact Path.isRoute_below ..
    · exact List.forall_mem_map.mpr (hreaches.isUtf8 hutf8)
  have hnodup := nodup_map_spelled htexts hsorted
  refine ⟨_, ?_, hnodup, hsorted, hmem, fun hthrough cs => (hmem cs).trans ?_, ?_,
    Tree.exists_bound ht dir⟩
  · have hoffers : (Visit.start :: walked v (place root name) dir).filterMap
        (offered? Glob.test? root patterns) = ((walked v (place root name) dir).filterMap
          (offeredBelow? Glob.test? root patterns)).map spelled := by
      have hstart : offered? Glob.test? root patterns .start = none := rfl
      rw [List.filterMap_cons_none hstart, List.map_filterMap]
      exact List.filterMap_congr fun visit _ => offered?_eq visit
    refine (result_collectBy_singleton (visits?_directory hdir)).trans (congrArg Except.ok ?_)
    rw [hoffers, foldl_addNew_of_nodup hnodup, List.nil_append]
  · refine exists_congr fun names => and_congr_right fun hway => and_iff_right ?_
    obtain ⟨loc, contents, hreaches⟩ := hway.reaches
    exact ⟨hthrough.isWalk, View.sees_of_pathExists (hreaches.isFileName ht) hpath
      hreaches.ne_nil (hthrough.opens names loc contents hreaches)⟩
  · intro depth hdepth
    exact View.walk_eq_of_le ht hstatus (Nat.le_add_left_of_le hdepth) (Nat.le_add_left ..)

/-- A directory `a` with a file `b.py` and a link back to `proj`, beside a file `a.py`. -/
def loop : View :=
  let bytes (s : String) : Bytes := Text.utf8 s.toList
  ⟨⟨[([bytes "proj"], .directory), ([bytes "proj", bytes "a"], .directory),
    ([bytes "proj", bytes "a", bytes "b.py"], .file []),
    ([bytes "proj", bytes "a", bytes "back"], .link (.ofText "..".toList)),
    ([bytes "proj", bytes "a.py"], .file [])]⟩, []⟩

/-- The names in its directories. -/
theorem loop_names : loop.tree.names [Text.utf8 "proj".toList] =
      [Text.utf8 "a".toList, Text.utf8 "a.py".toList] ∧
    loop.tree.names [Text.utf8 "proj".toList, Text.utf8 "a".toList] =
      [Text.utf8 "b.py".toList, Text.utf8 "back".toList] :=
  ⟨Tree.Holds.names_eq (by decide +kernel), Tree.Holds.names_eq (by decide +kernel)⟩

/-- A name leads there to what the system finds under it over one link at most. -/
theorem loop_leads {dir : Location} {n : Bytes} {k : Nat} {g : Tree.Target}
    (h : loop.tree.Leads dir [n] k g) (g' : Tree.Target)
    (hfollow : loop.tree.followLinks false 1 dir [n] = .ok g') : g = g' := by
  obtain ⟨m, -, hm⟩ := Tree.followLinks_eq_ok_iff.mp hfollow
  exact h.unique hm

/-- Inside of `proj`, the only way through `a` is to `b.py`. -/
theorem loop_below {names : List Bytes} {loc : Location} {contents : Bytes}
    (h : loop.tree.Reaches [[Text.utf8 "proj".toList]]
      [Text.utf8 "proj".toList, Text.utf8 "a".toList] names loc contents) :
    names = [Text.utf8 "b.py".toList] := by
  cases h with
  | file hn hfile =>
      rw [loop_names.2, List.mem_pair] at hn
      obtain rfl | rfl := hn
      · rfl
      · cases loop_leads hfile (.entry [Text.utf8 "proj".toList] .directory) rfl
  | inside hn hmid hnew =>
      rw [loop_names.2, List.mem_pair] at hn
      obtain rfl | rfl := hn
      · cases loop_leads hmid (.entry _ (.file [])) rfl
      · cases loop_leads hmid (.entry [Text.utf8 "proj".toList] .directory) rfl
        exact absurd (by decide +kernel) (hnew ⟨_, rfl⟩)

/-- A walk goes through all of `proj`. -/
theorem loop_goesThrough :
    GoesThrough loop (place (.ofText "proj".toList) ".".toList) [Text.utf8 "proj".toList] := by
  refine ⟨by decide +kernel, fun names loc contents h => ?_⟩
  cases h with
  | file hn hfile =>
      rw [loop_names.1, List.mem_pair] at hn
      obtain rfl | rfl := hn
      · cases loop_leads hfile (.entry _ .directory) rfl
      · decide +kernel
  | inside hn hmid _ h =>
      rw [loop_names.1, List.mem_pair] at hn
      obtain rfl | rfl := hn
      · cases loop_leads hmid (.entry _ .directory) rfl
        obtain rfl := loop_below h
        decide +kernel
      · cases loop_leads hmid (.entry _ (.file [])) rfl

/-- The link back is not followed, and `a/b.py` comes before `a.py`; there are no other ways to
source files. -/
theorem loop_listing : ∃ paths : List (List Component),
    (collect loop (.ofText "proj".toList) [] [".".toList]).result = .ok (paths.map spelled) ∧
      paths.map spelled = ["a/b.py".toList, "a.py".toList] ∧
      paths.Pairwise (fun cs ds => cs.map Component.bytes < ds.map Component.bytes) ∧
      ∀ cs, cs ∈ paths ↔ ∃ names, IsSourceWay loop [] [] [Text.utf8 "proj".toList] names ∧
        cs = names.map .name := by
  have hdir : loop.directory? (place (.ofText "proj".toList) ".".toList) =
      some [Text.utf8 "proj".toList] := by decide +kernel
  obtain ⟨paths, hresult, -, hsorted, -, hexact, -⟩ :=
    directory_listing (by decide +kernel) (by decide +kernel) [] (by decide +kernel) hdir
  let path (s : String) : Path := .ofText s.toList
  have hbelow : loop.walk 4095 [[Text.utf8 "proj".toList]] (path "proj/./a")
      [Text.utf8 "proj".toList, Text.utf8 "a".toList] =
      [.file (path "proj/./a/b.py"), .skipped] :=
    (View.walk_succ_of_names loop_names.2 4094 _ _).trans (by decide +kernel)
  have hwalk : loop.walk Tree.maxPath [] (place (.ofText "proj".toList) ".".toList)
      [Text.utf8 "proj".toList] =
      [.file (path "proj/./a/b.py"), .skipped, .file (path "proj/./a.py")] :=
    (View.walk_succ_of_names loop_names.1 4095 _ _).trans
      (congrArg (· ++ [Visit.file (path "proj/./a.py")]) hbelow)
  have hlisted : (collect loop (.ofText "proj".toList) [] [".".toList]).result =
      .ok ["a/b.py".toList, "a.py".toList] :=
    (result_collectBy_singleton (visits?_of_walk hdir (by decide +kernel) hwalk)).trans
      (by decide +kernel)
  rw [hlisted] at hresult
  exact ⟨paths, hlisted.trans hresult, (Except.ok.inj hresult).symm, hsorted,
    hexact loop_goesThrough⟩

end Discovery

end ImportXref
