import ImportXref.Discovery
import Mathlib.Data.List.Nodup

/-!
# Discovery — the files that visits offer

A visit offers at most one file: a source file that no pattern excludes, under its name below the
root.  The files are collected from these offers alone, each at its first place.  All of this holds
for any test of patterns, and so for the one of `collect`.

* `considerAll_snd`: the files found after several visits are those found before, and then the
  offered ones that are new.
* `collectBy_eq_ok_iff`, `mem_of_collectBy`: the collected files, if every name exists.
* `nodup_of_collectBy`: no file is collected twice.
-/

namespace ImportXref.Discovery

variable {test? : Text → Option (Text → Bool)} {v : View} {root : Path} {patterns : List Text}

/-- The name under which a visit offers a source file that is not excluded. -/
def offered? (test? : Text → Option (Text → Bool)) (root : Path) (patterns : List Text) :
    Visit → Option Text
  | .start | .skipped => none
  | .file path =>
    let components := Path.below root path
    if path.extension? = some sourceExtension ∧
        (excludedBy test? patterns components).2 = false then
      some (spelled components)
    else none

/-- The files found, with an offered one at the end unless it was found already. -/
def addNew (found : List Text) (name : Text) : List Text :=
  if found.contains name then found else found ++ [name]

theorem mem_addNew_iff {found : List Text} {name f : Text} :
    f ∈ addNew found name ↔ f ∈ found ∨ f = name := by
  unfold addNew
  split
  · next h => simpa using fun he => he ▸ List.contains_iff_mem.mp h
  · simp

/-- Adding files loses none of them, and none that was found before. -/
theorem mem_foldl_addNew_iff {found names : List Text} {f : Text} :
    f ∈ names.foldl addNew found ↔ f ∈ found ∨ f ∈ names := by
  induction names generalizing found with
  | nil => simp
  | cons name names ih => rw [List.foldl_cons, ih, mem_addNew_iff, List.mem_cons, or_assoc]

theorem nodup_addNew {found : List Text} (h : found.Nodup) (name : Text) :
    (addNew found name).Nodup := by
  unfold addNew
  split
  · exact h
  · next hnew =>
    rw [List.contains_iff_mem] at hnew
    exact h.append (List.nodup_singleton name) (List.disjoint_singleton.mpr hnew)

/-- Files that are added come once. -/
theorem nodup_foldl_addNew {found : List Text} (h : found.Nodup) (names : List Text) :
    (names.foldl addNew found).Nodup := by
  induction names generalizing found with
  | nil => exact h
  | cons name names ih => exact ih (nodup_addNew h name)

/-- A visit adds what it offers. -/
theorem consider_snd (found : List Text) (visit : Visit) :
    (consider test? root patterns found visit).2 =
      (offered? test? root patterns visit).toList.foldl addNew found := by
  cases visit with
  | start | skipped => rfl
  | file path =>
      simp only [consider, offered?]
      by_cases hext : path.extension? = some sourceExtension
      · cases hout : (excludedBy test? patterns (Path.below root path)).2 with
        | true => simp [hext]
        | false =>
            by_cases hmem : spelled (Path.below root path) ∈ found <;>
              simp [hext, hmem, addNew]
      · simp [hext]

/-- Visits add what they offer, one after the other. -/
theorem considerAll_snd (found : List Text) (visits : List Visit) :
    (considerAll test? root patterns found visits).2 =
      (visits.filterMap (offered? test? root patterns)).foldl addNew found := by
  induction visits generalizing found with
  | nil => rfl
  | cons visit visits ih =>
      simp only [considerAll, ih, consider_snd]
      cases h : offered? test? root patterns visit <;> simp [h]

/-- Names that all exist lead to what the visits of all of them offer. -/
theorem collectNames_eq_ok_iff {found names files : List Text} :
    (collectNames test? v root patterns found names).result = .ok files ↔
      ∃ visits, names.mapM (visits? v root) = some visits ∧
        files = (visits.flatten.filterMap (offered? test? root patterns)).foldl addNew found := by
  induction names generalizing found with
  | nil => simp [collectNames, Traced.ok, eq_comm]
  | cons name names ih =>
      rw [collectNames, List.mapM_cons]
      cases visits? v root name with
      | none => simp [Traced.fail]
      | some visits =>
          simp only [Traced.result_after, ih, considerAll_snd]
          cases names.mapM (visits? v root) with
          | none => simp
          | some later => simp [List.foldl_append]

theorem collectBy_eq_ok_iff {names files : List Text} :
    (collectBy test? v root patterns names).result = .ok files ↔
      ∃ visits, names.mapM (visits? v root) = some visits ∧
        files = (visits.flatten.filterMap (offered? test? root patterns)).foldl addNew [] :=
  collectNames_eq_ok_iff

/-- A name alone leads to what its visits offer. -/
theorem result_collectBy_singleton {name : Text} {visits : List Visit}
    (h : visits? v root name = some visits) :
    (collectBy test? v root patterns [name]).result =
      .ok ((visits.filterMap (offered? test? root patterns)).foldl addNew []) := by
  refine collectBy_eq_ok_iff.mpr ⟨[visits], ?_, by rw [List.flatten_singleton]⟩
  rw [List.mapM_cons, h]
  rfl

/-- A name leads to visits exactly if it exists. -/
theorem isSome_visits?_iff {name : Text} :
    (visits? v root name).isSome = true ↔ v.pathExists (place root name) = true := by
  unfold visits? View.pathExists
  simp only
  split <;> simp_all

/-- The visits of several names are those of each of them. -/
theorem mem_flatten_of_mapM {names : List Text} {visits : List (List Visit)}
    (h : names.mapM (visits? v root) = some visits) {visit : Visit} :
    visit ∈ visits.flatten ↔
      ∃ name ∈ names, ∃ own, visits? v root name = some own ∧ visit ∈ own := by
  induction names generalizing visits with
  | nil =>
      cases h
      simp
  | cons name names ih =>
      rw [List.mapM_cons] at h
      cases hname : visits? v root name with
      | none => simp [hname] at h
      | some own =>
          cases hnames : names.mapM (visits? v root) with
          | none => simp [hname, hnames] at h
          | some later =>
              obtain rfl : own :: later = visits := by simpa [hname, hnames] using h
              simp [ih hnames, hname]

theorem exists_mapM_visits? {names : List Text}
    (h : ∀ name ∈ names, (visits? v root name).isSome = true) :
    ∃ visits, names.mapM (visits? v root) = some visits := by
  induction names with
  | nil => exact ⟨[], rfl⟩
  | cons name names ih =>
      obtain ⟨hname, hnames⟩ := List.forall_mem_cons.mp h
      obtain ⟨own, hown⟩ := Option.isSome_iff_exists.mp hname
      obtain ⟨later, hlater⟩ := ih hnames
      exact ⟨own :: later, by simp [List.mapM_cons, hown, hlater]⟩

/-- The collected files are those that a visit of one of the names offers. -/
theorem mem_of_collectBy {names files : List Text}
    (h : (collectBy test? v root patterns names).result = .ok files) {f : Text} :
    f ∈ files ↔ ∃ name ∈ names, ∃ visits, visits? v root name = some visits ∧
      ∃ visit ∈ visits, offered? test? root patterns visit = some f := by
  obtain ⟨visits, hvisits, rfl⟩ := collectBy_eq_ok_iff.mp h
  simp only [mem_foldl_addNew_iff, List.not_mem_nil, false_or, List.mem_filterMap,
    mem_flatten_of_mapM hvisits]
  constructor
  · rintro ⟨visit, ⟨name, hname, own, hown, hvisit⟩, hf⟩
    exact ⟨name, hname, own, hown, visit, hvisit, hf⟩
  · rintro ⟨name, hname, own, hown, visit, hvisit, hf⟩
    exact ⟨visit, ⟨name, hname, own, hown, hvisit⟩, hf⟩

/-- No file is collected twice. -/
theorem nodup_of_collectBy {names files : List Text}
    (h : (collectBy test? v root patterns names).result = .ok files) : files.Nodup := by
  obtain ⟨visits, -, rfl⟩ := collectBy_eq_ok_iff.mp h
  exact nodup_foldl_addNew List.nodup_nil _

end ImportXref.Discovery
