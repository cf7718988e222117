import ImportXref.Config
import ImportXref.Proofs.Route
import Mathlib.Data.List.Forall2

/-!
# Configuration — the two ways to load it agree

`loadBy` starts the relative paths of a file from the root that it was given, `ofFileBy` from the
directory of the file it was given, and each has its own way to look for the file.  For the file
under a root they come to the same, whatever the root is and however documents are read: where
`ofFileBy` fails, `loadBy` gives the default, and where it does not, both give the configuration
that is written in the file, up to the spelling of paths.

* `directory_file`: the file under a root is in the directory with the components of that root.
* `placed_rebasePath`: an absolute path stays as written, a relative one is put behind the
  directory once.
* `load_agrees_ofFile`: the two loaders.
-/

namespace ImportXref

/-- The paths have the same components. -/
def Path.Same (p q : Path) : Prop :=
  p.components = q.components

namespace Config

/-- `q` is what the path `p` means in a file of the directory `dir`: an absolute path is kept as
written, a relative one has the components of the directory in front of its own, where its dots do
not count any more. -/
def Placed (dir p q : Path) : Prop :=
  if p.isAbsolute then q = p
  else q.components =
    if dir.bytes = [] then p.components else dir.components ++ Path.plain p.parts

/-- The configurations are the same but for their paths, and these are related by `R`. -/
structure Related (R : Path → Path → Prop) (c d : Config) : Prop where
  exclude : c.exclude = d.exclude
  reportsDir : Option.Rel R c.reportsDir d.reportsDir
  projects : List.Forall₂
    (fun p q => p.name = q.name ∧ R p.root q.root ∧ p.sources = q.sources) c.projects d.projects

variable {R : Path → Path → Prop} {dir root : Path} {v : View}

/-! ### Paths as seen from a directory -/

theorem placed_rebasePath (h : dir.components = root.components) (p : Path) :
    Placed root p (rebasePath dir p) := by
  have hnil : dir.bytes = [] ↔ root.bytes = [] := by
    rw [← Path.components_eq_nil_iff, h, Path.components_eq_nil_iff]
  unfold Placed rebasePath
  cases hp : p.isAbsolute with
  | true => rfl
  | false =>
      by_cases hdir : dir.bytes = []
      · rw [if_neg Bool.false_ne_true, if_neg Bool.false_ne_true, if_pos (hnil.mp hdir),
          Path.join_nil hdir]
      · rw [if_neg Bool.false_ne_true, if_neg Bool.false_ne_true, if_neg (mt hnil.mpr hdir),
          Path.components_join hdir hp, h]

theorem same_rebasePath (h : dir.components = root.components) (p : Path) :
    (rebasePath dir p).Same (rebasePath root p) := by
  unfold rebasePath
  split
  · rfl
  · exact Path.components_join_congr h p

/-! ### Configurations with other paths -/

/-- The configuration with `f` done to each of its paths. -/
def mapPaths (f : Path → Path) (c : Config) : Config :=
  ⟨c.exclude, c.reportsDir.map f, c.projects.map fun p => { p with root := f p.root }⟩

theorem mapPaths_id (c : Config) : c.mapPaths id = c := by
  simp [mapPaths]

theorem related_mapPaths {f g : Path → Path} (h : ∀ p, R (f p) (g p)) (c : Config) :
    Related R (c.mapPaths f) (c.mapPaths g) where
  exclude := rfl
  reportsDir := by
    cases hdir : c.reportsDir with
    | none => simp [mapPaths, hdir]
    | some p => simpa [mapPaths, hdir] using Option.Rel.some (h p)
  projects := by
    rw [mapPaths, mapPaths, List.forall₂_map_left_iff, List.forall₂_map_right_iff,
      List.forall₂_same]
    exact fun p _ => ⟨rfl, h p.root, rfl⟩

/-- A configuration as seen from a directory holds what is written, its paths put there. -/
theorem placed_rebase (h : dir.components = root.components) (c : Config) :
    Related (Placed root) c (c.rebase dir) := by
  have hmap := related_mapPaths (f := id) (g := rebasePath dir) (placed_rebasePath h) c
  rwa [mapPaths_id] at hmap

theorem same_rebase (h : dir.components = root.components) (c : Config) :
    Related Path.Same (c.rebase dir) (c.rebase root) :=
  related_mapPaths (same_rebasePath h) c

/-! ### The file under a root -/

/-- The file under a root is in the directory with the components of that root, however the root
is written. -/
theorem directory_file (root : Path) : (directory (file root)).components = root.components := by
  have hname : IsFileName (Path.ofText fileName).bytes := by decide
  obtain ⟨above, hparent, hcomponents⟩ := Path.exists_parent?_join_name hname root
  have hfile : (file root).parent? = some above := hparent
  rw [directory, hfile, Option.getD_some, hcomponents]

/-- A file that can be read exists. -/
theorem pathExists_of_readText {p : Path} {contents : Text} (h : v.readText p = .ok contents) :
    v.pathExists p = true := by
  unfold View.readText View.read at h
  unfold View.pathExists
  cases hstatus : v.status p with
  | error e => simp [hstatus] at h
  | ok entry => rfl

section

variable {parse? : Text → Option Config}

/-- A named file gives the configuration that its text spells, seen from its directory. -/
theorem ofFileBy_eq_ok_iff {path : Path} {c : Config} : ofFileBy parse? v path = .ok c ↔
    ∃ contents written, v.readText path = .ok contents ∧ parse? contents = some written ∧
      written.rebase (directory path) = c := by
  unfold ofFileBy
  cases v.readText path with
  | error e => simp
  | ok contents => cases hparse : parse? contents <;> simp [hparse]

/-- The file under a root that can be read and understood is loaded as seen from that root. -/
theorem loadBy_of_parse? {contents : Text} {written : Config}
    (hread : v.readText (file root) = .ok contents) (hparse : parse? contents = some written) :
    loadBy parse? v root = ([], written.rebase root) := by
  simp [loadBy, pathExists_of_readText hread, hread, hparse]

/-- Without a configuration file that can be read and understood, the default is loaded. -/
theorem loadBy_of_error {f : Failure} (h : ofFileBy parse? v (file root) = .error f) :
    (loadBy parse? v root).2 = default := by
  unfold loadBy
  dsimp only
  split
  · cases hread : v.readText (file root) with
    | error e => rfl
    | ok contents =>
        cases hparse : parse? contents with
        | none => simp [hparse]
        | some written =>
            -- the file would have been taken
            rw [ofFileBy_eq_ok_iff.mpr ⟨contents, written, hread, hparse, rfl⟩] at h
            cases h
  · rfl

end

/-- **The two loaders agree** on the file under a root, for every reader of documents, tree and
root: where the strict one gives a configuration, the tolerant one gives it too, up to the
spelling of paths, and both hold what is written with its paths put into the directory of the
file; where the strict one fails, the tolerant one gives the default. -/
theorem load_agrees_ofFile (parse? : Text → Option Config) (v : View) (root : Path) :
    (directory (file root)).Same root ∧
    (∀ c, ofFileBy parse? v (file root) = .ok c →
      Related Path.Same c (loadBy parse? v root).2 ∧
      ∃ contents written, v.readText (file root) = .ok contents ∧
        parse? contents = some written ∧ Related (Placed root) written c ∧
        Related (Placed root) written (loadBy parse? v root).2) ∧
    ∀ f, ofFileBy parse? v (file root) = .error f → (loadBy parse? v root).2 = default := by
  refine ⟨directory_file root, fun c hc => ?_, fun f => loadBy_of_error⟩
  obtain ⟨contents, written, hread, hparse, rfl⟩ := ofFileBy_eq_ok_iff.mp hc
  rw [loadBy_of_parse? hread hparse]
  have hdir := directory_file root
  exact ⟨same_rebase hdir written, contents, written, hread, hparse, placed_rebase hdir written,
    placed_rebase rfl written⟩

/-- A tree with a configuration under `proj` and none under `gone`. -/
def oneConfigured : View :=
  ⟨⟨[([Text.utf8 "proj".toList], .directory),
    ([Text.utf8 "proj".toList, Text.utf8 fileName], .file (Text.utf8 ("reports_dir = \"/srv\"\n" ++
      "[[projects]]\nname = \"p\"\nroot = \"./sub\"\nsources = [\"a.py\"]\n").toList))]⟩, []⟩

/-- Both loaders read the file under `proj/.`, and spell the root of its project differently;
under `gone` one fails and the other gives the default. -/
theorem oneConfigured_loaded :
    (∃ c, ofFile oneConfigured (file (.ofText "proj/.".toList)) = .ok c ∧
      c.projects.map Project.root = [.ofText "proj/./sub".toList] ∧
      (load oneConfigured (.ofText "proj/.".toList)).2.projects.map Project.root =
        [.ofText "proj/././sub".toList] ∧
      Related Path.Same c (load oneConfigured (.ofText "proj/.".toList)).2) ∧
    ∃ f, ofFile oneConfigured (file (.ofText "gone".toList)) = .error f ∧
      (load oneConfigured (.ofText "gone".toList)).2 = default := by
  have hproj : ofFile oneConfigured (file (.ofText "proj/.".toList)) =
      .ok ⟨none, some (.ofText "/srv".toList),
        [⟨"p".toList, .ofText "proj/./sub".toList, ["a.py".toList]⟩]⟩ := by decide +kernel
  have hgone : ofFile oneConfigured (file (.ofText "gone".toList)) =
      .error ⟨["failed to read gone/py-xref.toml".toList], .io .notFound⟩ := by decide +kernel
  obtain ⟨-, hagree, -⟩ := load_agrees_ofFile ofText? oneConfigured (.ofText "proj/.".toList)
  obtain ⟨-, -, hdefault⟩ := load_agrees_ofFile ofText? oneConfigured (.ofText "gone".toList)
  exact ⟨⟨_, hproj, rfl, by decide +kernel, (hagree _ hproj).1⟩, _, hgone, hdefault _ hgone⟩

end Config

end ImportXref
