import ImportXref.Proofs.Discovery.Found

/-!
# Discovery — several declared names

Names are gone through in their order, and a file keeps the first place where it is found.  So
what is collected is what each name offers, one name after the other, less the repetitions; and a
name that does not exist ends the search, whatever stands behind it.  What a pattern tests a text
for makes no difference to this.

* `foldl_addNew_eq_append`: adding new files is adding those that are not there yet.
* `result_collectBy`: what a list of names leads to, and which missing name is reported.
* `result_collectBy_append`: the files of two lists of names.
* `collect_composes`: a list of names in two parts, with a name more, or in another order.
-/

namespace ImportXref.Discovery

variable {test? : Text → Option (Text → Bool)} {v : View} {root : Path} {patterns : List Text}

/-! ### First places -/

/-- Adding new files one by one is adding those of all of them that are not there yet. -/
theorem foldl_addNew_eq_append (found names : List Text) :
    names.foldl addNew found = found ++ (names.foldl addNew []).filter (· ∉ found) := by
  induction names generalizing found with
  | nil => simp
  | cons name names ih =>
      -- Both sides are brought to the files of `names` alone, which are added to no other file.
      have hself : (name :: names).foldl addNew [] =
          name :: (names.foldl addNew []).filter (· ∉ [name]) := by
        rw [List.foldl_cons, ih (addNew [] name)]
        rfl
      rw [List.foldl_cons, ih (addNew found name), hself]
      by_cases hname : name ∈ found
      · have hadd : addNew found name = found := if_pos (List.contains_iff_mem.mpr hname)
        rw [hadd, List.filter_cons_of_neg (by simpa using hname), List.filter_filter]
        refine congrArg (found ++ ·) (List.filter_congr fun f _ => ?_)
        by_cases hf : f ∈ found
        · simp [hf]
        · have hne : f ≠ name := fun he => hf (he ▸ hname)
          simp [hf, hne]
      · have hadd : addNew found name = found ++ [name] :=
          if_neg (mt List.contains_iff_mem.mp hname)
        rw [hadd, List.filter_cons_of_pos (by simpa using hname), List.filter_filter,
          List.append_assoc, List.singleton_append]
        refine congrArg (found ++ name :: ·) (List.filter_congr fun f _ => ?_)
        simp [Bool.and_comm]

/-- In another order, the same files are added. -/
theorem perm_foldl_addNew {names names' : List Text} (h : names.Perm names') :
    (names.foldl addNew []).Perm (names'.foldl addNew []) := by
  rw [List.perm_ext_iff_of_nodup (nodup_foldl_addNew List.nodup_nil names)
    (nodup_foldl_addNew List.nodup_nil names')]
  intro f
  rw [mem_foldl_addNew_iff, mem_foldl_addNew_iff, h.mem_iff]

/-! ### What names lead to -/

/-- The first of the names that does not exist. -/
def firstMissing? (v : View) (root : Path) (names : List Text) : Option Text :=
  names.find? fun name => !v.pathExists (place root name)

/-- The files that a name offers, excluded ones left out. -/
def offers (test? : Text → Option (Text → Bool)) (v : View) (root : Path) (patterns : List Text)
    (name : Text) : List Text :=
  ((visits? v root name).getD []).filterMap (offered? test? root patterns)

theorem firstMissing?_eq_none_iff {names : List Text} : firstMissing? v root names = none ↔
    ∀ name ∈ names, v.pathExists (place root name) = true := by
  simp [firstMissing?]

/-- A missing name is the first one if those before it exist. -/
theorem firstMissing?_eq_some_iff {names : List Text} {name : Text} :
    firstMissing? v root names = some name ↔ ∃ before after, names = before ++ name :: after ∧
      (∀ n ∈ before, v.pathExists (place root n) = true) ∧
      v.pathExists (place root name) = false := by
  rw [firstMissing?, List.find?_eq_some_iff_append]
  simp only [Bool.not_not, Bool.not_eq_eq_eq_not, Bool.not_true]
  constructor
  · rintro ⟨hmissing, before, after, he, hbefore⟩
    exact ⟨before, after, he, hbefore, hmissing⟩
  · rintro ⟨before, after, he, hbefore, hmissing⟩
    exact ⟨hmissing, before, after, he, hbefore⟩

theorem result_collectNames (found names : List Text) :
    (collectNames test? v root patterns found names).result =
      match firstMissing? v root names with
      | some name => .error (.ofCause (.missingSource (place root name)))
      | none => .ok ((names.flatMap (offers test? v root patterns)).foldl addNew found) := by
  induction names generalizing found with
  | nil => rfl
  | cons name names ih =>
      have hexists : (visits? v root name).isSome = true ↔
          v.pathExists (place root name) = true := isSome_visits?_iff
      rw [collectNames, firstMissing?, List.find?_cons]
      cases hvisits : visits? v root name with
      | none =>
          rw [hvisits, Option.isSome_none, Bool.false_eq_true, false_iff,
            Bool.not_eq_true] at hexists
          simp [hexists, Traced.fail]
      | some visits =>
          rw [hvisits] at hexists
          have hoffers : offers test? v root patterns name =
              visits.filterMap (offered? test? root patterns) := by
            rw [offers, hvisits, Option.getD_some]
          simp only [hexists.mp rfl, Bool.not_true, Traced.result_after, ih, considerAll_snd,
            List.flatMap_cons, List.foldl_append, hoffers]
          rfl

/-- **What names lead to**: the first missing name, or the files that the names offer, each at its
first place. -/
theorem result_collectBy (names : List Text) : (collectBy test? v root patterns names).result =
    match firstMissing? v root names with
    | some name => .error (.ofCause (.missingSource (place root name)))
    | none => .ok ((names.flatMap (offers test? v root patterns)).foldl addNew []) :=
  result_collectNames [] names

theorem collectBy_eq_error_iff {names : List Text} {failure : Failure} :
    (collectBy test? v root patterns names).result = .error failure ↔
      ∃ before name after, names = before ++ name :: after ∧
        (∀ n ∈ before, v.pathExists (place root n) = true) ∧
        v.pathExists (place root name) = false ∧
        failure = .ofCause (.missingSource (place root name)) := by
  rw [result_collectBy]
  cases hmissing : firstMissing? v root names with
  | some name =>
      obtain ⟨before, after, he, hbefore, hname⟩ := firstMissing?_eq_some_iff.mp hmissing
      simp only [Except.error.injEq]
      constructor
      · rintro rfl
        exact ⟨before, name, after, he, hbefore, hname, rfl⟩
      · rintro ⟨before', name', after', he', hbefore', hname', rfl⟩
        have hsame := firstMissing?_eq_some_iff.mpr ⟨before', after', he', hbefore', hname'⟩
        rw [Option.some.inj (hmissing.symm.trans hsame)]
  | none =>
      simp only [reduceCtorEq, false_iff]
      rintro ⟨before, name, after, rfl, -, hname, -⟩
      have hexists := firstMissing?_eq_none_iff.mp hmissing name (by simp)
      rw [hname] at hexists
      cases hexists

theorem collectBy_eq_ok_iff_offers {names files : List Text} :
    (collectBy test? v root patterns names).result = .ok files ↔
      (∀ name ∈ names, v.pathExists (place root name) = true) ∧
        files = (names.flatMap (offers test? v root patterns)).foldl addNew [] := by
  rw [result_collectBy, ← firstMissing?_eq_none_iff]
  cases firstMissing? v root names <;> simp [eq_comm]

/-! ### Lists of names -/

/-- The files of two lists of names: those of the first one, and then the new ones of the
second. -/
theorem result_collectBy_append (names more : List Text) :
    (collectBy test? v root patterns (names ++ more)).result = (do
      let files ← (collectBy test? v root patterns names).result
      let later ← (collectBy test? v root patterns more).result
      return files ++ later.filter (· ∉ files)) := by
  have hfirst : firstMissing? v root (names ++ more) =
      (firstMissing? v root names).or (firstMissing? v root more) := List.find?_append
  simp only [result_collectBy, hfirst]
  cases firstMissing? v root names with
  | some name => rfl
  | none =>
      cases firstMissing? v root more with
      | some name => rfl
      | none =>
          simp only [Option.or_none, List.flatMap_append, List.foldl_append]
          rw [foldl_addNew_eq_append]
          rfl

variable {names files : List Text}

/-- A name that offers nothing new changes nothing. -/
theorem collectBy_concat_of_subset {name : Text} {own : List Text}
    (h : (collectBy test? v root patterns names).result = .ok files)
    (hown : (collectBy test? v root patterns [name]).result = .ok own) (hsubset : own ⊆ files) :
    (collectBy test? v root patterns (names ++ [name])).result = .ok files := by
  have hnone : own.filter (· ∉ files) = [] :=
    List.filter_eq_nil_iff.mpr fun f hf => by simpa using hsubset hf
  rw [result_collectBy_append, h, hown]
  change Except.ok (files ++ own.filter (· ∉ files)) = _
  rw [hnone, List.append_nil]

/-- A name that offers one file, in front of the others, puts this file in front of the others. -/
theorem collectBy_cons_of_singleton {name f : Text}
    (h : (collectBy test? v root patterns names).result = .ok files)
    (hown : (collectBy test? v root patterns [name]).result = .ok [f]) :
    (collectBy test? v root patterns (name :: names)).result = .ok (f :: files.erase f) := by
  have hrest : files.filter (· ∉ [f]) = files.erase f := by
    rw [(nodup_of_collectBy h).erase_eq_filter]
    exact List.filter_congr fun g _ => by simp [bne, beq_eq_decide]
  rw [← List.singleton_append, result_collectBy_append, h, hown]
  change Except.ok ([f] ++ files.filter (· ∉ [f])) = _
  rw [hrest, List.singleton_append]

/-- In another order, names lead to the same files. -/
theorem exists_collectBy_of_perm {names' : List Text} (hperm : names'.Perm names)
    (h : (collectBy test? v root patterns names).result = .ok files) :
    ∃ files', (collectBy test? v root patterns names').result = .ok files' ∧ files'.Perm files := by
  obtain ⟨hexist, rfl⟩ := collectBy_eq_ok_iff_offers.mp h
  exact ⟨_,
    collectBy_eq_ok_iff_offers.mpr ⟨fun name hname => hexist name (hperm.subset hname), rfl⟩,
    perm_foldl_addNew (hperm.flatMap_right _)⟩

/-- **Several names.**  Two lists of names, one after the other, lead to a failure exactly if one
of the names does not exist, and then the first such name is reported; else they lead to the
files of the first list and then those of the second one that are not among them.  So no file
comes twice; a name that offers no other files may be put behind the others without any change; a
name of one of the files, put in front of the others, moves this file to the front and leaves the
others in their order; and in another order the names lead to the same files. -/
theorem collect_composes (v : View) (root : Path) (patterns names more : List Text) :
    (∀ failure, (collect v root patterns (names ++ more)).result = .error failure ↔
      ∃ before name after, names ++ more = before ++ name :: after ∧
        (∀ n ∈ before, v.pathExists (place root n) = true) ∧
        v.pathExists (place root name) = false ∧
        failure = .ofCause (.missingSource (place root name))) ∧
    ((collect v root patterns (names ++ more)).result = do
      let files ← (collect v root patterns names).result
      let later ← (collect v root patterns more).result
      return files ++ later.filter (· ∉ files)) ∧
    ∀ files, (collect v root patterns names).result = .ok files →
      files.Nodup ∧
      (∀ name own, (collect v root patterns [name]).result = .ok own → own ⊆ files →
        (collect v root patterns (names ++ [name])).result = .ok files) ∧
      (∀ name f, (collect v root patterns [name]).result = .ok [f] → f ∈ files →
        (collect v root patterns (name :: names)).result = .ok (f :: files.erase f) ∧
          (f :: files.erase f).Perm files) ∧
      ∀ names', names'.Perm names → ∃ files',
        (collect v root patterns names').result = .ok files' ∧ files'.Perm files := by
  refine ⟨fun failure => collectBy_eq_error_iff, result_collectBy_append names more,
    fun files h => ⟨nodup_of_collectBy h, fun name own => collectBy_concat_of_subset h,
      fun name f hown hf => ⟨collectBy_cons_of_singleton h hown, (List.perm_cons_erase hf).symm⟩,
      fun names' hperm => exists_collectBy_of_perm hperm h⟩⟩

/-- Two files `a.py` and `b.py`. -/
def twoFiles : View :=
  let bytes (s : String) : Bytes := Text.utf8 s.toList
  ⟨⟨[([bytes "a.py"], .file []), ([bytes "b.py"], .file [])]⟩, []⟩

/-- Named once more in front of both, the second file comes first. -/
theorem twoFiles_pinned :
    (collect twoFiles (.ofText "/".toList) [] ["a.py".toList, "b.py".toList]).result =
        .ok ["a.py".toList, "b.py".toList] ∧
      (collect twoFiles (.ofText "/".toList) []
        ["b.py".toList, "a.py".toList, "b.py".toList]).result =
        .ok ["b.py".toList, "a.py".toList] := by
  have hboth : (collect twoFiles (.ofText "/".toList) [] ["a.py".toList, "b.py".toList]).result =
      .ok ["a.py".toList, "b.py".toList] := rfl
  have hown : (collect twoFiles (.ofText "/".toList) [] ["b.py".toList]).result =
      .ok ["b.py".toList] := rfl
  obtain ⟨-, -, hfiles⟩ := collect_composes twoFiles (.ofText "/".toList) []
    ["a.py".toList, "b.py".toList] []
  obtain ⟨-, -, hfront, -⟩ := hfiles _ hboth
  exact ⟨hboth, (hfront _ _ hown (by decide)).1⟩

end ImportXref.Discovery
