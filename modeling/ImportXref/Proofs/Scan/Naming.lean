import ImportXref.Proofs.Discovery.Reopening
import ImportXref.Proofs.Index.Order
import ImportXref.Proofs.Scan.History

/-!
# Scans — every file that is found has a module

Discovery goes by the last name of a path, whose bytes are to end in `.py` behind at least one
more; naming goes by the text of the path below the root, which is to end in `.py`.  The two agree
whatever the other bytes of the name are.  The one exception is a file at the root itself: nothing
of its path is below the root, and the empty text that is left names no module.  If the root is a
directory, no such file is found.

* `exists_moduleName_spelled`: the text of a source file below the root has a module name.
* `nil_mem_iff`: the empty text is collected exactly if the root itself is found.
* `FindsRoot.isDirectory_eq_false`: then the root is no directory.
* `of_readFiles_eq_error`: what a failure to read the files is reported as.
* `exists_target?_of_mem_keys`: the modules with a list are those that operations are about.
* `collected_named_and_scoped`: what is collected can be named, read and scoped.
-/

namespace ImportXref

namespace Path

variable {root p : Path}

theorem below_suffix (root p : Path) : below root p <:+ p.components := by
  unfold below
  split
  · exact List.drop_suffix ..
  · exact List.suffix_rfl

/-- Nothing of a path is left below `root` exactly if it has the components of `root`. -/
theorem below_eq_nil_iff (hne : p.components ≠ []) :
    below root p = [] ↔ p.components = root.components := by
  by_cases hroot : root.components <+: p.components
  · rw [← components_append_below hroot, List.append_right_eq_self]
  · have hbelow : below root p = p.components := by
      rw [below, if_neg (mt List.isPrefixOf_iff_prefix.mp hroot)]
    rw [hbelow]
    exact iff_of_false hne fun he => hroot (he ▸ List.prefix_rfl)

end Path

namespace Discovery

variable {v : View} {root q : Path} {patterns names files : List Text} {f : Text}

/-! ### Source names as texts -/

/-- Whatever the bytes before it, the ending of a source name is read as `.py`. -/
theorem sourceEnding_suffix_text {n : Bytes} (h : IsSourceName n) : sourceEnding <:+ n.text := by
  obtain ⟨stem, -, rfl⟩ := h
  have hending : Bytes.text (46 :: sourceExtension) = sourceEnding := by decide
  rw [Bytes.text_append_cons (by decide), hending]
  exact List.suffix_append ..

/-- Components are spelled with the last one at the end. -/
theorem text_suffix_spelled (cs : List Component) (c : Component) :
    c.bytes.text <:+ spelled (cs ++ [c]) := by
  induction cs with
  | nil => simp [spelled, List.intercalate]
  | cons d cs ih =>
      obtain ⟨e, rest, hrest⟩ := List.exists_cons_of_ne_nil (List.append_ne_nil_of_right_ne_nil cs
        (List.cons_ne_nil c []))
      rw [List.cons_append, spelled, hrest, List.map_cons, List.map_cons,
        List.intercalate_cons_cons]
      rw [hrest] at ih
      exact ih.trans (List.suffix_append ..)

/-- The text of a source file below the root has a module name. -/
theorem exists_moduleName_spelled (hext : q.extension? = some sourceExtension)
    (hne : Path.below root q ≠ []) :
    ∃ m, moduleName (spelled (Path.below root q)) = .ok m := by
  obtain ⟨n, hn, hname⟩ := exists_name_of_extension? hext
  obtain ⟨cs, c, hcs⟩ := (List.eq_nil_or_concat' (Path.below root q)).resolve_left hne
  obtain rfl : c = .name n := by
    obtain ⟨above, habove⟩ := Path.below_suffix root q
    rw [← habove, hcs, ← List.append_assoc, List.getLast?_concat] at hn
    exact Option.some.inj hn
  obtain ⟨stem, hstem⟩ := (sourceEnding_suffix_text (nameExtension?_eq_source_iff.mp hname)).trans
    (text_suffix_spelled cs (.name n))
  exact ⟨dotted stem, moduleName_eq_ok_iff.mpr ⟨stem, hcs ▸ hstem.symm, rfl⟩⟩

/-! ### The root itself -/

/-- One of the source files that are found stands at the root itself. -/
def FindsRoot (v : View) (root : Path) (patterns names : List Text) : Prop :=
  ∃ q, IsFound v root patterns names q ∧ q.components = root.components

theorem IsFound.below_eq_nil_iff (h : IsFound v root patterns names q) :
    Path.below root q = [] ↔ q.components = root.components := by
  obtain ⟨n, hn, -⟩ := exists_name_of_extension? h.isSource
  exact Path.below_eq_nil_iff fun hnil => by simp [hnil] at hn

/-- A directory is not found. -/
theorem FindsRoot.isDirectory_eq_false (ht : v.tree.WellNamed)
    (h : FindsRoot v root patterns names) : v.isDirectory root = false := by
  obtain ⟨q, hq, hroot⟩ := h
  obtain ⟨name, -, visits, hvisits, hmem⟩ := hq.visited
  obtain ⟨⟨loc, contents, hfile⟩, -⟩ := of_mem_visits ht hvisits hmem
  exact hfile.isDirectory_eq_false hroot.symm

section Collected

variable (h : (collect v root patterns names).result = .ok files)
include h

/-- A collected file has a module name, or is the root itself. -/
theorem named_or_root (hf : f ∈ files) :
    (∃ m, moduleName f = .ok m) ∨ f = [] ∧ FindsRoot v root patterns names := by
  obtain ⟨q, hq, rfl⟩ := (mem_collected_iff h).mp hf
  by_cases hbelow : Path.below root q = []
  · exact .inr ⟨by rw [hbelow]; rfl, q, hq, hq.below_eq_nil_iff.mp hbelow⟩
  · exact .inl (exists_moduleName_spelled hq.isSource hbelow)

theorem nil_mem_iff : [] ∈ files ↔ FindsRoot v root patterns names := by
  constructor
  · intro hnil
    obtain ⟨m, hm⟩ | ⟨-, hroot⟩ := named_or_root h hnil
    · cases hm
    · exact hroot
  · rintro ⟨q, hq, hroot⟩
    exact (mem_collected_iff h).mpr ⟨q, hq, by rw [hq.below_eq_nil_iff.mpr hroot]; rfl⟩

theorem exists_moduleName (hf : f ∈ files) (hne : f ≠ []) : ∃ m, moduleName f = .ok m :=
  (named_or_root h hf).resolve_right fun hroot => hne hroot.1

end Collected

end Discovery

/-! ### Indexes and files without a module -/

/-- The first file without a module name is why there is no index. -/
theorem Index.ofFiles_eq_error {before after : List Text} {f : Text} {e : RecordError}
    (hbefore : ∀ g ∈ before, ∃ m, moduleName g = .ok m) (hf : moduleName f = .error e) :
    Index.ofFiles (before ++ f :: after) = .error e := by
  have hnames : (before ++ f :: after).mapM moduleName = .error e := by
    induction before with
    | nil => rw [List.nil_append, List.mapM_cons, hf]; rfl
    | cons g before ih =>
        obtain ⟨⟨m, hm⟩, hbefore⟩ := List.forall_mem_cons.mp hbefore
        rw [List.cons_append, List.mapM_cons, hm, ih hbefore]
        rfl
  unfold ofFiles
  split
  · next hnil => cases before <;> cases hnil
  · rw [hnames]
    rfl

/-- A file that has a module name is never refused for want of one. -/
theorem refusal?_run_file_ne {f m : Text} (hm : moduleName f = .ok m) (x : Index)
    (text g : Text) : (x.run (Plan.file f text)).refusal? ≠ some (.missingExtension g) := by
  intro h
  rw [Index.refusal?_run] at h
  obtain ⟨e, he⟩ := exists_moduleName_eq_error_of_file h
  rw [hm] at he
  cases he

/-- The modules with a list are those that the operations are about. -/
theorem History.exists_target?_of_mem_keys (h : History) {t : Text}
    (ht : t ∈ h.index.all.keys) : ∃ op ∈ h.operations, op.target? = some t := by
  obtain ⟨ms, hstart, -⟩ := h.start_eq_fresh
  rw [h.index_eq_foldl, Index.mem_keys_all_foldl, hstart] at ht
  obtain ⟨a, ha, hat⟩ := List.mem_map.mp (ht.resolve_left List.not_mem_nil)
  obtain ⟨op, hop, haop⟩ := List.mem_flatMap.mp ha
  exact ⟨op, hop, op.touched?_of_mem_plan (List.takeWhile_subset _ haop) hat⟩

namespace Scan

open Discovery (FindsRoot)

variable {v : View} {root : Path} {patterns sources files : List Text} {s : Scan}
  {failure : Failure}

/-! ### Failed scans -/

/-- Reading the files fails because one cannot be read or because one is refused. -/
theorem of_readFiles_eq_error {x : Index} {n : Nat}
    (h : (readFiles v root x n files).result = .error failure) : ∃ f ∈ files,
    (∃ e, failure =
      ⟨["failed to read ".toList ++ (root.join (.ofText f)).display], .io e⟩) ∨
    ∃ text e, Plan.refusal? (Plan.file f text) = some e ∧
      failure = ⟨["failed to scan ".toList ++ f], .record e⟩ := by
  induction files generalizing x n with
  | nil => cases h
  | cons f files ih =>
      obtain hread | ⟨text, -, h⟩ := Traced.result_andThen_eq_error_iff.mp h
      · obtain ⟨e, -, rfl⟩ := Traced.result_ofIo_eq_error_iff.mp hread
        exact ⟨f, List.mem_cons_self, .inl ⟨e, rfl⟩⟩
      obtain hrun | ⟨y, -, h⟩ := Traced.result_andThen_eq_error_iff.mp h
      · obtain ⟨g, hg, rfl⟩ := Traced.result_within_eq_error_iff.mp hrun
        obtain ⟨e, he, rfl⟩ := Index.Run.traced_eq_error_iff.mp hg
        rw [Index.refusal?_run] at he
        exact ⟨f, List.mem_cons_self, .inr ⟨text, e, he, rfl⟩⟩
      · obtain ⟨g, hg, hfailure⟩ := ih h
        exact ⟨g, List.mem_cons_of_mem f hg, hfailure⟩

section Collected

variable (hfiles : (Discovery.collect v root patterns sources).result = .ok files)
include hfiles

/-- Files that are found have an index over them unless the root is among them. -/
theorem exists_index (hroot : ¬ FindsRoot v root patterns sources) :
    ∃ x, Index.ofFiles files = .ok x ∧ files.map moduleName = x.moduleList.map .ok := by
  obtain ⟨x, hx⟩ := (Index.exists_ofFiles_iff files).mpr fun f hf =>
    (Discovery.named_or_root hfiles hf).resolve_right fun h => hroot h.2
  let h : History := ⟨files, x, hx, []⟩
  have hmodules : x.moduleList = h.modules := h.moduleList_index
  exact ⟨x, hx, hmodules ▸ h.map_moduleName⟩

theorem ofFiles_eq_error_of_findsRoot (hroot : FindsRoot v root patterns sources) :
    Index.ofFiles files = .error (.missingExtension []) := by
  have hnil := (Discovery.nil_mem_iff hfiles).mpr hroot
  obtain ⟨before, after, rfl, hbefore⟩ := List.eq_append_cons_of_mem hnil
  refine Index.ofFiles_eq_error (fun g hg => ?_) rfl
  exact Discovery.exists_moduleName hfiles (List.mem_append_left _ hg) fun h => hbefore (h ▸ hg)

theorem run_of_findsRoot (hroot : FindsRoot v root patterns sources) :
    (run v root patterns sources).result = .error
      ⟨["failed to name project modules".toList], .record (.missingExtension [])⟩ := by
  refine Traced.result_andThen_eq_error_iff.mpr (.inr ⟨files, hfiles, ?_⟩)
  refine Traced.result_andThen_eq_error_iff.mpr (.inl ?_)
  rw [result_freshIndex, ofFiles_eq_error_of_findsRoot hfiles hroot]

/-- A scan that does not find the root never fails to name its files. -/
theorem not_naming_of_run_eq_error (hroot : ¬ FindsRoot v root patterns sources)
    (h : (run v root patterns sources).result = .error failure) :
    "failed to name project modules".toList ∉ failure.contexts ∧
      ∀ g, failure.cause ≠ .record (.missingExtension g) := by
  obtain ⟨x, hx, -⟩ := exists_index hfiles hroot
  obtain ⟨y, n, hread⟩ :
      ∃ (y : Index) (n : Nat), (readFiles v root y n files).result = .error failure := by
    obtain hcollect | ⟨files', hfiles', h⟩ := Traced.result_andThen_eq_error_iff.mp h
    · rw [hfiles] at hcollect
      cases hcollect
    obtain rfl : files = files' := Except.ok.inj (hfiles.symm.trans hfiles')
    obtain hfresh | ⟨y, -, h⟩ := Traced.result_andThen_eq_error_iff.mp h
    · rw [result_freshIndex, hx] at hfresh
      cases hfresh
    obtain hread | ⟨done, -, h⟩ := Traced.result_andThen_eq_error_iff.mp h
    · exact ⟨y, 0, hread⟩
    · cases h
  obtain ⟨f, hf, ⟨e, rfl⟩ | ⟨text, e, he, rfl⟩⟩ := of_readFiles_eq_error hread
  · exact ⟨by simp, nofun⟩
  · refine ⟨by simp, fun g hg => ?_⟩
    obtain ⟨m, hm⟩ := (Discovery.named_or_root hfiles hf).resolve_right fun h => hroot h.2
    refine refusal?_run_file_ne hm x text g ?_
    rw [Index.refusal?_run, he]
    exact congrArg some (Cause.record.inj hg)

end Collected

/-- In a scan the modules with a list are modules of its files, and have one inside the project. -/
theorem keys_of_run (hs : (run v root patterns sources).result = .ok s) (t : Text) :
    (t ∈ s.index.all.keys ↔ t ∈ s.index.inProject.keys) ∧
      (t ∈ s.index.all.keys → ∃ f ∈ s.files, moduleName f = .ok t) := by
  obtain ⟨h, hfiles, hops, hindex⟩ := exists_history hs
  have hfile (ht : t ∈ h.index.all.keys) : ∃ f ∈ s.files, moduleName f = .ok t := by
    obtain ⟨op, hop, htarget⟩ := h.exists_target?_of_mem_keys ht
    obtain ⟨f, hf, rfl⟩ := List.mem_map.mp (hops ▸ hop)
    have hname : (moduleName f).toOption = some t := htarget
    cases hm : moduleName f with
    | error e => rw [hm] at hname; cases hname
    | ok m => rw [hm] at hname; cases hname; exact ⟨f, hf, hm⟩
  rw [← hindex, h.mem_keys_inProject]
  refine ⟨⟨fun ht => ⟨ht, ?_⟩, And.left⟩, hfile⟩
  obtain ⟨f, hf, hm⟩ := hfile ht
  have hmem : moduleName f ∈ h.filenames.map moduleName := List.mem_map_of_mem (hfiles ▸ hf)
  rw [h.map_moduleName, hm] at hmem
  exact (List.mem_map_of_injective fun _ _ he => Except.ok.inj he).mp hmem

/-- **What is collected can be named, read and scoped.**  A collected file has a module name, unless
one of the found files stands at the root itself, which is no directory then: that file is collected
as the empty text, there is no index over the files, and the scan fails to name them.  In any other
case there is an index over the files, whose modules are theirs in order, and no scan fails for
want of a name.  No file that has a name is ever refused for want of one, whatever was read before.
After a scan the modules with a list are modules of the files, and have one inside the project. -/
theorem collected_named_and_scoped
    (hfiles : (Discovery.collect v root patterns sources).result = .ok files) :
    ([] ∈ files ↔ FindsRoot v root patterns sources) ∧
    (v.tree.WellNamed → v.isDirectory root = true → ¬ FindsRoot v root patterns sources) ∧
    (FindsRoot v root patterns sources →
      Index.ofFiles files = .error (.missingExtension []) ∧
      (run v root patterns sources).result = .error
        ⟨["failed to name project modules".toList], .record (.missingExtension [])⟩) ∧
    (¬ FindsRoot v root patterns sources →
      (∃ x, Index.ofFiles files = .ok x ∧ files.map moduleName = x.moduleList.map .ok) ∧
      ∀ failure, (run v root patterns sources).result = .error failure →
        "failed to name project modules".toList ∉ failure.contexts ∧
          ∀ g, failure.cause ≠ .record (.missingExtension g)) ∧
    (∀ f ∈ files, f ≠ [] → ∀ (x : Index) text g,
      (x.run (Plan.file f text)).refusal? ≠ some (.missingExtension g)) ∧
    ∀ s, (run v root patterns sources).result = .ok s → s.files = files ∧
      ∀ t, (t ∈ s.index.all.keys ↔ t ∈ s.index.inProject.keys) ∧
        (t ∈ s.index.all.keys → ∃ f ∈ files, moduleName f = .ok t) := by
  refine ⟨Discovery.nil_mem_iff hfiles, fun ht hdir hroot => ?_, fun hroot => ?_, fun hroot => ?_,
    fun f hf hne => ?_, fun s hs => ?_⟩
  · rw [hroot.isDirectory_eq_false ht] at hdir
    cases hdir
  · exact ⟨ofFiles_eq_error_of_findsRoot hfiles hroot, run_of_findsRoot hfiles hroot⟩
  · exact ⟨exists_index hfiles hroot, fun failure => not_naming_of_run_eq_error hfiles hroot⟩
  · obtain ⟨m, hm⟩ := Discovery.exists_moduleName hfiles hf hne
    exact refusal?_run_file_ne hm
  · obtain rfl : files = s.files := Except.ok.inj (hfiles.symm.trans (run_eq_ok hs).1)
    exact ⟨rfl, keys_of_run hs⟩

/-- A project with files `.py`, `.a.py` and `pkg/b.py`, and one whose name is no text. -/
def hiddenFiles : View :=
  let bytes (s : String) : Bytes := Text.utf8 s.toList
  ⟨⟨[([bytes "proj"], .directory), ([bytes "proj", bytes ".py"], .file []),
    ([bytes "proj", bytes ".a.py"], .file (bytes "import os\n")),
    ([bytes "proj", bytes "pkg"], .directory),
    ([bytes "proj", bytes "pkg", bytes "b.py"], .file (bytes "from . import c\n")),
    ([bytes "proj", 0xFE :: bytes ".py"], .file [])]⟩, []⟩

/-- The names in its directories. -/
theorem hiddenFiles_names : hiddenFiles.tree.names [Text.utf8 "proj".toList] =
      [Text.utf8 ".a.py".toList, Text.utf8 ".py".toList, Text.utf8 "pkg".toList,
        0xFE :: Text.utf8 ".py".toList] ∧
    hiddenFiles.tree.names [Text.utf8 "proj".toList, Text.utf8 "pkg".toList] =
      [Text.utf8 "b.py".toList] :=
  ⟨Tree.Holds.names_eq (by decide +kernel), Tree.Holds.names_eq (by decide +kernel)⟩

/-- All files but `.py` are found there, and all of these have names.  Those that can be read are
scanned, and what they import is kept under their modules. -/
theorem hiddenFiles_named :
    (∃ files x, (Discovery.collect hiddenFiles (.ofText "proj".toList) [] [".".toList]).result =
        .ok files ∧ files = [".a.py".toList, "pkg/b.py".toList, "\uFFFD.py".toList] ∧
      Index.ofFiles files = .ok x ∧
      x.moduleList = [".a".toList, "pkg.b".toList, "\uFFFD".toList]) ∧
    ∃ s, (run hiddenFiles (.ofText "proj".toList) [] [".a.py".toList, "pkg/b.py".toList]).result =
        .ok s ∧ s.index.all.keys = [".a".toList, "pkg.b".toList] ∧
      ∀ t, t ∈ s.index.all.keys ↔ t ∈ s.index.inProject.keys := by
  let path (s : String) : Path := .ofText s.toList
  let proj : Path := Discovery.place (.ofText "proj".toList) ".".toList
  have hpkg : hiddenFiles.walk 4095 [[Text.utf8 "proj".toList]] (path "proj/./pkg")
      [Text.utf8 "proj".toList, Text.utf8 "pkg".toList] = [.file (path "proj/./pkg/b.py")] :=
    (View.walk_succ_of_names hiddenFiles_names.2 4094 _ _).trans (by decide +kernel)
  have hwalk : hiddenFiles.walk Tree.maxPath [] proj [Text.utf8 "proj".toList] =
      [.file (path "proj/./.a.py"), .file (path "proj/./.py"), .file (path "proj/./pkg/b.py"),
        .file (proj.join ⟨0xFE :: Text.utf8 ".py".toList⟩)] :=
    (View.walk_succ_of_names hiddenFiles_names.1 4095 _ _).trans
      (congrArg (fun visits => Visit.file (path "proj/./.a.py") ::
        Visit.file (path "proj/./.py") :: visits ++
          [Visit.file (proj.join ⟨0xFE :: Text.utf8 ".py".toList⟩)]) hpkg)
  have hlisted : (Discovery.collect hiddenFiles (.ofText "proj".toList) [] [".".toList]).result =
      .ok [".a.py".toList, "pkg/b.py".toList, "\uFFFD.py".toList] :=
    (Discovery.result_collectBy_singleton (Discovery.visits?_of_walk (by decide +kernel)
      (by decide +kernel) hwalk)).trans (by decide +kernel)
  have hscan : ∃ s, (run hiddenFiles (.ofText "proj".toList) []
      [".a.py".toList, "pkg/b.py".toList]).result = .ok s ∧
        s.index.all.keys = [".a".toList, "pkg.b".toList] := ⟨_, rfl, by decide +kernel⟩
  obtain ⟨s, hs, hkeys⟩ := hscan
  obtain ⟨-, hdirectory, -, hnamed, -⟩ := collected_named_and_scoped hlisted
  obtain ⟨⟨x, hx, hmodules⟩, -⟩ := hnamed (hdirectory (by decide +kernel) (by decide +kernel))
  obtain ⟨-, -, -, -, -, hscoped⟩ := collected_named_and_scoped (run_eq_ok hs).1
  refine ⟨⟨_, x, hlisted, rfl, hx, ?_⟩, s, hs, hkeys, fun t => ((hscoped s hs).2 t).1⟩
  exact (List.map_injective_iff.mpr fun _ _ he => Except.ok.inj he) hmodules.symm

/-- A file `a.py` alone. -/
def soleFile : View :=
  ⟨⟨[([Text.utf8 "a.py".toList], .file (Text.utf8 "import os\n".toList))]⟩, []⟩

/-- Found as its own root, the file is collected as the empty text and cannot be named. -/
theorem soleFile_unnamed :
    (Discovery.collect soleFile (.ofText "/a.py".toList) [] ["/a.py".toList]).result = .ok [[]] ∧
      Index.ofFiles [[]] = .error (.missingExtension []) ∧
      (run soleFile (.ofText "/a.py".toList) [] ["/a.py".toList]).result = .error
        ⟨["failed to name project modules".toList], .record (.missingExtension [])⟩ :=
  ⟨by decide +kernel, rfl, rfl⟩

end Scan

end ImportXref
