import ImportXref.Proofs.Scan.History
import ImportXref.Report.Table
import Mathlib.Data.List.Forall2
import Mathlib.Data.List.Nodup

/-!
# Scans — the files that share a module

The name of a module has a dot for each slash and backslash of its file, and a dot of the file
itself stays: `a/b.py` and `a.b.py` are both the module `a.b`.  Files of one module share its key,
so its list is that of each of these files on its own, one after the other, and the table repeats
its row for each of them.

* `moduleName_eq_iff`: two files have the same name exactly if they are `Alike`, equal but for
  dots, slashes and backslashes.
* `Plain.eq_of_alike`: files without dots and backslashes before their ending are alike only if
  they are equal.
* `Scan.lists_of_module`: the lists of a module are those of its files, one after the other.
* `Scan.modules_identify_iff`: modules identify the files of a scan exactly if no two files are
  alike, and what holds of each module otherwise.
-/

namespace ImportXref

/-! ### Alike files -/

/-- A dot, a slash or a backslash: what stands between the parts of a name. -/
def isJoint (c : Char) : Bool :=
  c = '.' || isSeparator c

/-- The texts are equal, but for what stands between their parts. -/
def Alike (f g : Text) : Prop :=
  List.Forall₂ (fun c d => c = d ∨ isJoint c = true ∧ isJoint d = true) f g

/-- Neither a dot nor a backslash stands before the ending of the file. -/
def Plain (f : Text) : Prop :=
  ∀ stem, f = stem ++ sourceEnding → '.' ∉ stem ∧ '\\' ∉ stem

theorem dotted_eq_iff {f g : Text} : dotted f = dotted g ↔ Alike f g := by
  have hchar (c d : Char) :
      ((if isSeparator c then '.' else c) = if isSeparator d then '.' else d) ↔
        c = d ∨ isJoint c = true ∧ isJoint d = true := by
    by_cases hc : isSeparator c = true <;> by_cases hd : isSeparator d = true
    · simp [isJoint, hc, hd]
    · have hne : c ≠ d := fun h => hd (h ▸ hc)
      simp [isJoint, hc, hd, hne, eq_comm]
    · have hne : c ≠ d := fun h => hc (h ▸ hd)
      simp [isJoint, hc, hd, hne]
    · simp only [isJoint, hc, hd, Bool.or_false, decide_eq_true_eq]
      exact ⟨.inl, fun h => h.elim id fun h => h.1.trans h.2.symm⟩
  rw [dotted, dotted, ← List.forall₂_eq_eq_eq, List.forall₂_map_left_iff,
    List.forall₂_map_right_iff]
  simp only [hchar, Alike]

/-- Two source files have the same module name exactly if they are alike. -/
theorem moduleName_eq_iff {f g m n : Text} (hf : moduleName f = .ok m)
    (hg : moduleName g = .ok n) : moduleName f = moduleName g ↔ Alike f g := by
  rw [hf, hg, Except.ok.injEq]
  obtain ⟨stem, rfl, rfl⟩ := moduleName_eq_ok_iff.mp hf
  obtain ⟨stem', rfl, rfl⟩ := moduleName_eq_ok_iff.mp hg
  rw [← dotted_eq_iff, dotted, dotted, dotted, dotted, List.map_append, List.map_append,
    List.append_left_inj]

/-- Alike texts are equal if nothing but slashes stands between their parts. -/
theorem eq_of_alike {f g : Text} (h : Alike f g) (hf : ∀ c ∈ f, isJoint c = true → c = '/')
    (hg : ∀ c ∈ g, isJoint c = true → c = '/') : f = g := by
  induction h with
  | nil => rfl
  | cons hcd _ ih =>
      obtain ⟨hc, hf⟩ := List.forall_mem_cons.mp hf
      obtain ⟨hd, hg⟩ := List.forall_mem_cons.mp hg
      have heq := hcd.elim id fun h => (hc h.1).trans (hd h.2).symm
      rw [heq, ih hf hg]

/-- In a text without dots and backslashes, slashes stand between the parts. -/
theorem eq_slash_of_isJoint {t : Text} (ht : '.' ∉ t ∧ '\\' ∉ t) {c : Char} (hc : c ∈ t)
    (hj : isJoint c = true) : c = '/' := by
  have hd : c ≠ '.' := fun h => ht.1 (h ▸ hc)
  have hb : c ≠ '\\' := fun h => ht.2 (h ▸ hc)
  simpa [isJoint, isSeparator, hd, hb] using hj

/-- Alike source files are equal if they are plain. -/
theorem Plain.eq_of_alike {f g m n : Text} (hpf : Plain f) (hpg : Plain g)
    (hf : moduleName f = .ok m) (hg : moduleName g = .ok n) (h : Alike f g) : f = g := by
  rw [← moduleName_eq_iff hf hg, hf, hg] at h
  obtain ⟨stem, rfl, rfl⟩ := moduleName_eq_ok_iff.mp hf
  obtain ⟨stem', rfl, rfl⟩ := moduleName_eq_ok_iff.mp hg
  have hstems : Alike stem stem' := dotted_eq_iff.mp (Except.ok.inj h)
  rw [ImportXref.eq_of_alike hstems (fun _ => eq_slash_of_isJoint (hpf stem rfl))
    fun _ => eq_slash_of_isJoint (hpg stem' rfl)]

/-! ### The modules of a scan -/

/-- The terms of some elements make up those of all, if the others have none. -/
theorem flatMap_filter_of {α β : Type} {p : α → Bool} {g : α → List β} {l : List α}
    (h : ∀ a ∈ l, p a = false → g a = []) : (l.filter p).flatMap g = l.flatMap g := by
  induction l with
  | nil => rfl
  | cons a l ih =>
      obtain ⟨ha, hl⟩ := List.forall_mem_cons.mp h
      cases hp : p a with
      | true => rw [List.filter_cons_of_pos hp, List.flatMap_cons, List.flatMap_cons, ih hl]
      | false =>
          rw [List.filter_cons_of_neg (by simp [hp]), List.flatMap_cons, ha hp, ih hl,
            List.nil_append]

namespace Scan

variable {v : View} {root : Path} {patterns sources : List Text} {s : Scan}

/-- The files of the module `m`. -/
def filesOf (s : Scan) (m : Text) : List Text :=
  s.files.filter fun f => moduleName f = .ok m

/-- The module `m` is the file `f`: it has its name from it, one row, and its references. -/
structure IsFile (v : View) (root : Path) (s : Scan) (m f : Text) : Prop where
  name : moduleName f = .ok m
  row : s.index.moduleList.count m = 1
  all : s.index.all.list m = (alone v root s f).all.list m
  inProject : s.index.inProject.list m = (alone v root s f).inProject.list m

theorem map_moduleName (hs : (run v root patterns sources).result = .ok s) :
    s.files.map moduleName = s.index.moduleList.map .ok := by
  obtain ⟨h, hfiles, -, hindex⟩ := exists_history hs
  rw [← hfiles, ← hindex, h.moduleList_index, h.map_moduleName]

theorem exists_name (hs : (run v root patterns sources).result = .ok s) {f : Text}
    (hf : f ∈ s.files) : ∃ m ∈ s.index.moduleList, moduleName f = .ok m := by
  have hmem : moduleName f ∈ s.files.map moduleName := List.mem_map_of_mem hf
  rw [map_moduleName hs] at hmem
  obtain ⟨m, hm, he⟩ := List.mem_map.mp hmem
  exact ⟨m, hm, he.symm⟩

/-- Two files of a scan share a module exactly if they are alike. -/
theorem share_iff (hs : (run v root patterns sources).result = .ok s) {f g : Text}
    (hf : f ∈ s.files) (hg : g ∈ s.files) : moduleName f = moduleName g ↔ Alike f g := by
  obtain ⟨m, -, hm⟩ := exists_name hs hf
  obtain ⟨n, -, hn⟩ := exists_name hs hg
  exact moduleName_eq_iff hm hn

theorem nodup_map_moduleName_iff (hs : (run v root patterns sources).result = .ok s) :
    (s.files.map moduleName).Nodup ↔ s.index.moduleList.Nodup := by
  rw [map_moduleName hs]
  exact List.nodup_map_iff fun _ _ h => Except.ok.inj h

/-- No module is listed twice exactly if no two files are alike. -/
theorem nodup_moduleList_iff (hs : (run v root patterns sources).result = .ok s) :
    s.index.moduleList.Nodup ↔ s.files.Pairwise fun f g => ¬ Alike f g := by
  rw [← nodup_map_moduleName_iff hs, List.Nodup, List.pairwise_map]
  exact List.Pairwise.iff_of_mem fun hf hg => not_congr (share_iff hs hf hg)

/-- The lists of a module are those of its files, each on its own, one after the other. -/
theorem lists_of_module (hs : (run v root patterns sources).result = .ok s) (m : Text) :
    s.index.all.list m = (s.filesOf m).flatMap (fun f => (alone v root s f).all.list m) ∧
      s.index.inProject.list m =
        (s.filesOf m).flatMap fun f => (alone v root s f).inProject.list m := by
  have hnone (f : Text) (hp : decide (moduleName f = .ok m) = false) :
      (alone v root s f).all.list m = [] ∧ (alone v root s f).inProject.list m = [] :=
    list_alone_of_ne s (of_decide_eq_false hp)
  rw [list_all_eq hs, list_inProject_eq hs]
  exact ⟨(flatMap_filter_of fun f _ hp => (hnone f hp).1).symm,
    (flatMap_filter_of fun f _ hp => (hnone f hp).2).symm⟩

/-- A module that is listed once has one file. -/
theorem filesOf_eq_singleton (hs : (run v root patterns sources).result = .ok s)
    (hn : s.index.moduleList.Nodup) {f m : Text} (hf : f ∈ s.files) (hm : moduleName f = .ok m) :
    s.filesOf m = [f] := by
  have hsame (g : Text) (hg : g ∈ s.files) : moduleName g = .ok m ↔ g = f := by
    refine ⟨fun h => ?_, fun h => h ▸ hm⟩
    exact List.inj_on_of_nodup_map ((nodup_map_moduleName_iff hs).mpr hn) hg hf (h.trans hm.symm)
  have hfiles : s.files.Nodup := Discovery.nodup_of_collectBy (run_eq_ok hs).1
  have hfilter : s.filesOf m = s.files.filter (· == f) :=
    List.filter_congr fun g hg => by rw [beq_eq_decide, decide_eq_decide, hsame g hg]
  rw [hfilter, List.filter_beq, List.count_eq_one_of_mem hfiles hf, List.replicate_one]

/-- If no module is listed twice, each file has a module of its own. -/
theorem exists_isFile (hs : (run v root patterns sources).result = .ok s)
    (hn : s.index.moduleList.Nodup) {f : Text} (hf : f ∈ s.files) :
    ∃ m, IsFile v root s m f := by
  obtain ⟨m, hmem, hm⟩ := exists_name hs hf
  obtain ⟨hall, hin⟩ := lists_of_module hs m
  rw [filesOf_eq_singleton hs hn hf hm, List.flatMap_singleton] at hall hin
  exact ⟨m, hm, List.count_eq_one_of_mem hn hmem, hall, hin⟩

/-- The modules are listed in the order of their files. -/
theorem getElem?_moduleList (hs : (run v root patterns sources).result = .ok s) {i : Nat}
    {f m : Text} (hf : s.files[i]? = some f) (hm : moduleName f = .ok m) :
    s.index.moduleList[i]? = some m := by
  have hi : (s.files.map moduleName)[i]? = some (.ok m) := by rw [List.getElem?_map, hf, ← hm]; rfl
  rw [map_moduleName hs, List.getElem?_map] at hi
  obtain ⟨n, hn, he⟩ := Option.map_eq_some_iff.mp hi
  rw [hn, Except.ok.inj he]

/-- The table has a row for each file, that of its module. -/
theorem getElem?_rows (hs : (run v root patterns sources).result = .ok s) {i : Nat} {f m : Text}
    (hf : s.files[i]? = some f) (hm : moduleName f = .ok m) :
    s.index.table.rows[i]? = some (Table.row s.index.headers (s.index.inProject.list m)) := by
  rw [Index.table, List.getElem?_map, getElem?_moduleList hs hf hm]
  rfl

theorem length_rows (hs : (run v root patterns sources).result = .ok s) :
    s.index.table.rows.length = s.files.length := by
  have hlength := congrArg List.length (map_moduleName hs)
  rw [List.length_map, List.length_map] at hlength
  rw [Index.table, List.length_map, hlength]

/-- No two plain files of a scan are alike. -/
theorem not_alike_of_plain (hs : (run v root patterns sources).result = .ok s)
    (hplain : ∀ f ∈ s.files, Plain f) : s.files.Pairwise fun f g => ¬ Alike f g := by
  have hfiles : s.files.Nodup := Discovery.nodup_of_collectBy (run_eq_ok hs).1
  refine hfiles.imp_of_mem fun {f g} hf hg hne halike => hne ?_
  obtain ⟨m, -, hm⟩ := exists_name hs hf
  obtain ⟨n, -, hn⟩ := exists_name hs hg
  exact (hplain f hf).eq_of_alike (hplain g hg) hm hn halike

/-- **Modules identify files exactly if no two files are alike.**  The files of a scan differ, and
two of them have the same module name exactly if they are alike.  So no module is listed twice
exactly if no two files are alike, as is the case where every file is plain; then each file has
a module, a row and references of its own.  In any case the table has a row for each file, that
of its module, and the lists of a module are those of each of its files on its own, in the
order of the files. -/
theorem modules_identify_iff (hs : (run v root patterns sources).result = .ok s) :
    s.files.Nodup ∧
    (∀ f ∈ s.files, (sourceText v root f).result = .ok (textOf v root f)) ∧
    (∀ f ∈ s.files, ∀ g ∈ s.files, moduleName f = moduleName g ↔ Alike f g) ∧
    (s.index.moduleList.Nodup ↔ s.files.Pairwise fun f g => ¬ Alike f g) ∧
    (s.index.moduleList.Nodup → ∀ f ∈ s.files, ∃ m, IsFile v root s m f) ∧
    ((∀ f ∈ s.files, Plain f) → s.index.moduleList.Nodup) ∧
    s.index.table.rows.length = s.files.length ∧
    (∀ (i : Nat) f m, s.files[i]? = some f → moduleName f = .ok m →
      s.index.table.rows[i]? = some (Table.row s.index.headers (s.index.inProject.list m))) ∧
    (∀ m, s.index.all.list m = (s.filesOf m).flatMap (fun f => (alone v root s f).all.list m) ∧
      s.index.inProject.list m =
        (s.filesOf m).flatMap fun f => (alone v root s f).inProject.list m) := by
  obtain ⟨hcollect, hread, -⟩ := run_eq_ok hs
  exact ⟨Discovery.nodup_of_collectBy hcollect, fun f hf => (hread f hf).1,
    fun f hf g hg => share_iff hs hf hg, nodup_moduleList_iff hs,
    fun hn f hf => exists_isFile hs hn hf,
    fun hplain => (nodup_moduleList_iff hs).mpr (not_alike_of_plain hs hplain),
    length_rows hs, fun i f m hf hm => getElem?_rows hs hf hm, lists_of_module hs⟩

/-- A directory `a` with a file `b.py`, beside a file `a.b.py`. -/
def dotBesideSlash : View :=
  let bytes (s : String) : Bytes := Text.utf8 s.toList
  ⟨⟨[([bytes "a"], .directory), ([bytes "a", bytes "b.py"], .file (bytes "import os\n")),
    ([bytes "a.b.py"], .file (bytes "import re\n"))]⟩, []⟩

/-- Both files become the module `a.b`, which is listed twice with the references of both. -/
theorem dotBesideSlash_merged :
    ∃ s, (run dotBesideSlash (.ofText "/".toList) [] ["a/b.py".toList, "a.b.py".toList]).result =
        .ok s ∧ s.files = ["a/b.py".toList, "a.b.py".toList] ∧
      s.index.moduleList = ["a.b".toList, "a.b".toList] ∧
      s.index.all.list "a.b".toList = ["os".toList, "re".toList] ∧
      ¬ s.files.Pairwise fun f g => ¬ Alike f g := by
  have hscan : ∃ s, (run dotBesideSlash (.ofText "/".toList) []
      ["a/b.py".toList, "a.b.py".toList]).result = .ok s ∧
        s.files = ["a/b.py".toList, "a.b.py".toList] ∧
        s.index.moduleList = ["a.b".toList, "a.b".toList] ∧
        s.index.all.list "a.b".toList = ["os".toList, "re".toList] :=
    ⟨_, rfl, by decide +kernel, by decide +kernel, by decide +kernel⟩
  obtain ⟨s, hs, hfiles, hmodules, hlist⟩ := hscan
  refine ⟨s, hs, hfiles, hmodules, hlist, fun hpairwise => ?_⟩
  have hn := (modules_identify_iff hs).2.2.2.1.mpr hpairwise
  rw [hmodules] at hn
  exact absurd hn (by decide)

end Scan

end ImportXref
