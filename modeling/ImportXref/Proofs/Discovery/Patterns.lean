import ImportXref.Proofs.Discovery.Reopening
import ImportXref.Proofs.Discovery.Several

/-!
# Discovery — patterns as a filter

A pattern is asked about every source file by itself, before it is known whether the file was
found already.  In a tree of texts its answer depends on the text of the file alone, so patterns
take files out of what is collected without them and leave the others in their order; a pattern
that cannot be read takes nothing out.  How a pattern is read and what it tests a text for is a
parameter here; `Glob.test?` is one choice of it.

* `leavesOut`: the answer of a pattern on the text of a file.
* `excludedBy_spelled`: whether one of several patterns excludes a file.
* `filter_foldl_addNew`: files may be taken out before or after their repetitions.
* `offers_eq_filter`: the files that a name offers under more patterns.
* `patterns_filter`: more patterns filter what fewer lead to.
-/

namespace ImportXref.Discovery

variable {test? : Text → Option (Text → Bool)} {v : View} {root : Path}
  {names P Q R : List Text}

/-! ### Patterns on one file -/

/-- Whether the pattern `p` can be read and matches the file `f`: the whole text, or one of the
components that it spells. -/
def leavesOut (test? : Text → Option (Text → Bool)) (p f : Text) : Bool :=
  match test? p with
  | none => false
  | some admits => admits f || (Path.ofText f).components.any fun c => admits c.bytes.text

/-- A file is excluded by any pattern that can be read and matches it. -/
theorem excludedBy_snd (patterns : List Text) (cs : List Component) :
    (excludedBy test? patterns cs).2 =
      patterns.any fun p => (test? p).any fun admits => hits admits cs := by
  induction patterns with
  | nil => rfl
  | cons p patterns ih =>
      rw [excludedBy, List.any_cons]
      cases test? p with
      | none => exact ih
      | some admits => cases hhit : hits admits cs <;> simp [hhit, ih]

/-- On a path of texts, a pattern goes by the text of the path. -/
theorem hits_spelled {cs : List Component} (hcs : IsRoute cs) (hutf8 : ∀ c ∈ cs, c.bytes.IsUtf8)
    (admits : Text → Bool) : hits admits cs = (admits (spelled cs) ||
      (Path.ofText (spelled cs)).components.any fun c => admits c.bytes.text) := by
  rw [components_ofText_spelled hcs, map_reread_eq_self_iff.mpr hutf8, hits]
  refine congrArg _ (Bool.eq_iff_iff.mpr ?_)
  rw [List.any_eq_true, List.any_eq_true]
  refine exists_congr fun c => and_congr_right fun hc => ?_
  rw [Bytes.text?_of_isUtf8 (hutf8 c hc)]

/-- On a path of texts, patterns go by the text of the path. -/
theorem excludedBy_spelled {cs : List Component} (hcs : IsRoute cs)
    (hutf8 : ∀ c ∈ cs, c.bytes.IsUtf8) (patterns : List Text) :
    (excludedBy test? patterns cs).2 = patterns.any fun p => leavesOut test? p (spelled cs) := by
  rw [excludedBy_snd]
  refine congrArg (List.any patterns) (funext fun p => ?_)
  unfold leavesOut
  cases test? p with
  | none => rfl
  | some admits => exact hits_spelled hcs hutf8 admits

/-- Patterns exclude what any part of them excludes. -/
theorem any_of_mem_iff (hR : ∀ p, p ∈ R ↔ p ∈ P ∨ p ∈ Q) (excludes : Text → Bool) :
    R.any excludes = (P.any excludes || Q.any excludes) := by
  rw [Bool.eq_iff_iff]
  simp only [Bool.or_eq_true, List.any_eq_true, hR, or_and_right, exists_or]

/-! ### Patterns on what is found -/

/-- Files may be taken out before or after their repetitions. -/
theorem filter_foldl_addNew (keep : Text → Bool) (found new : List Text) :
    (new.foldl addNew found).filter keep = (new.filter keep).foldl addNew (found.filter keep) := by
  induction new generalizing found with
  | nil => rfl
  | cons name new ih =>
      rw [List.foldl_cons, ih]
      cases hkeep : keep name with
      | true =>
          have hadd : (addNew found name).filter keep = addNew (found.filter keep) name := by
            unfold addNew
            by_cases hmem : name ∈ found <;> simp [hmem, hkeep]
          rw [hadd, List.filter_cons_of_pos hkeep, List.foldl_cons]
      | false =>
          have hadd : (addNew found name).filter keep = found.filter keep := by
            unfold addNew
            by_cases hmem : name ∈ found <;> simp [hmem, hkeep]
          rw [hadd, List.filter_cons_of_neg (by simp [hkeep])]

/-- In a tree of texts, what a visit offers under more patterns. -/
theorem offered?_eq_filter (ht : v.tree.WellNamed) (hutf8 : v.tree.Utf8Named)
    (hR : ∀ p, p ∈ R ↔ p ∈ P ∨ p ∈ Q) {name : Text} {visits : List Visit}
    (hvisits : visits? v root name = some visits) {visit : Visit} (hvisit : visit ∈ visits) :
    offered? test? root R visit =
      (offered? test? root P visit).filter fun f => !Q.any (leavesOut test? · f) := by
  cases visit with
  | start | skipped => rfl
  | file path =>
      simp only [offered?]
      by_cases hext : path.extension? = some sourceExtension
      · have hfound : IsFound v root [] [name] path :=
          ⟨⟨name, List.mem_singleton_self name, visits, hvisits, hvisit⟩, hext, rfl⟩
        have hsplit : (excludedBy test? R (Path.below root path)).2 =
            ((excludedBy test? P (Path.below root path)).2 ||
              Q.any (leavesOut test? · (spelled (Path.below root path)))) := by
          have htexts := hfound.isUtf8 ht hutf8
          have hroute := Path.isRoute_below root path
          rw [excludedBy_spelled hroute htexts, excludedBy_spelled hroute htexts,
            any_of_mem_iff hR]
        rw [hsplit]
        cases (excludedBy test? P (Path.below root path)).2 with
        | true => simp [hext]
        | false =>
            simp only [hext, Bool.false_or, true_and, if_true, Option.filter_some,
              Bool.not_eq_true']
      · simp [hext]

/-- The files that a name offers under more patterns. -/
theorem offers_eq_filter (ht : v.tree.WellNamed) (hutf8 : v.tree.Utf8Named)
    (hR : ∀ p, p ∈ R ↔ p ∈ P ∨ p ∈ Q) (name : Text) :
    offers test? v root R name =
      (offers test? v root P name).filter fun f => !Q.any (leavesOut test? · f) := by
  unfold offers
  cases hvisits : visits? v root name with
  | none => rfl
  | some visits =>
      rw [Option.getD_some, List.filter_filterMap]
      exact List.filterMap_congr fun visit hvisit => offered?_eq_filter ht hutf8 hR hvisits hvisit

/-- A pattern that cannot be read takes nothing out, and does not stop those behind it. -/
theorem offers_append_cons {p : Text} (hp : test? p = none) (before after : List Text) :
    offers test? v root (before ++ p :: after) = offers test? v root (before ++ after) := by
  have hsame (cs : List Component) : (excludedBy test? (before ++ p :: after) cs).2 =
      (excludedBy test? (before ++ after) cs).2 := by
    simp [excludedBy_snd, hp]
  funext name
  refine List.filterMap_congr fun visit _ => ?_
  cases visit with
  | start | skipped => rfl
  | file path => simp only [offered?, hsame]

/-- **Patterns are a filter**, whatever a pattern tests a text for.  In a tree of texts, let `R`
hold the patterns of `P` and of `Q`, in any order and any number of times.  Then the names lead
under `R` to what they lead to under `P` without the files that one of the patterns of `Q` leaves
out, the others in their order; if all names exist, they do lead to files.  A pattern that cannot be
read may stand anywhere or be left away. -/
theorem patterns_filter (test? : Text → Option (Text → Bool)) (ht : v.tree.WellNamed)
    (hutf8 : v.tree.Utf8Named) (root : Path) (names : List Text)
    (hR : ∀ p, p ∈ R ↔ p ∈ P ∨ p ∈ Q) :
    (collectBy test? v root R names).result =
        (collectBy test? v root P names).result.map
          (List.filter fun f => !Q.any (leavesOut test? · f)) ∧
      ((∀ name ∈ names, v.pathExists (place root name) = true) →
        ∃ files, (collectBy test? v root P names).result = .ok files) ∧
      ∀ before p after, test? p = none →
        (collectBy test? v root (before ++ p :: after) names).result =
          (collectBy test? v root (before ++ after) names).result := by
  refine ⟨?_, fun hnames => ?_, fun before p after hp => ?_⟩
  · rw [result_collectBy, result_collectBy]
    cases firstMissing? v root names with
    | some name => rfl
    | none =>
        have hoffers : names.flatMap (offers test? v root R) = names.flatMap fun name =>
            (offers test? v root P name).filter fun f => !Q.any (leavesOut test? · f) :=
          List.flatMap_congr fun name _ => offers_eq_filter ht hutf8 hR name
        rw [hoffers, ← List.filter_flatMap]
        exact congrArg Except.ok (filter_foldl_addNew _ [] _).symm
  · exact ⟨_, collectBy_eq_ok_iff_offers.mpr ⟨hnames, rfl⟩⟩
  · rw [result_collectBy, result_collectBy, offers_append_cons hp]

/-- A package with a module and a package of its own. -/
def package : View :=
  let bytes (s : String) : Bytes := Text.utf8 s.toList
  ⟨⟨[([bytes "app"], .directory), ([bytes "app", bytes "__init__.py"], .file []),
    ([bytes "app", bytes "auth"], .directory),
    ([bytes "app", bytes "auth", bytes "forms.py"], .file []),
    ([bytes "app", bytes "routes.py"], .file [])]⟩, []⟩

/-- The names in its directories. -/
theorem package_names : package.tree.names [Text.utf8 "app".toList] =
      [Text.utf8 "__init__.py".toList, Text.utf8 "auth".toList, Text.utf8 "routes.py".toList] ∧
    package.tree.names [Text.utf8 "app".toList, Text.utf8 "auth".toList] =
      [Text.utf8 "forms.py".toList] :=
  ⟨Tree.Holds.names_eq (by decide +kernel), Tree.Holds.names_eq (by decide +kernel)⟩

/-- Without the package inside, which one pattern takes out by its component, the module is taken
out as well by a pattern for its whole path, behind one that cannot be read. -/
theorem package_filtered :
    (collect package (.ofText "/".toList) ["auth".toList] ["app".toList]).result =
        .ok ["app/__init__.py".toList, "app/routes.py".toList] ∧
      (collect package (.ofText "/".toList)
        ["[".toList, "*/routes.py".toList, "auth".toList, "[".toList] ["app".toList]).result =
        .ok ["app/__init__.py".toList] := by
  let path (s : String) : Path := .ofText s.toList
  have hauth : package.walk 4095 [[Text.utf8 "app".toList]] (path "/app/auth")
      [Text.utf8 "app".toList, Text.utf8 "auth".toList] = [.file (path "/app/auth/forms.py")] :=
    (View.walk_succ_of_names package_names.2 4094 _ _).trans (by decide +kernel)
  have hwalk : package.walk Tree.maxPath [] (place (.ofText "/".toList) "app".toList)
      [Text.utf8 "app".toList] = [.file (path "/app/__init__.py"),
        .file (path "/app/auth/forms.py"), .file (path "/app/routes.py")] :=
    (View.walk_succ_of_names package_names.1 4095 _ _).trans
      (congrArg (fun visits => Visit.file (path "/app/__init__.py") :: visits ++
        [Visit.file (path "/app/routes.py")]) hauth)
  have hone : (collect package (.ofText "/".toList) ["auth".toList] ["app".toList]).result =
      .ok ["app/__init__.py".toList, "app/routes.py".toList] :=
    (result_collectBy_singleton (visits?_of_walk (by decide +kernel) (by decide +kernel)
      hwalk)).trans (by decide +kernel)
  have hR : ∀ p, p ∈ ["[".toList, "*/routes.py".toList, "auth".toList, "[".toList] ↔
      p ∈ ["auth".toList] ∨ p ∈ ["[".toList, "*/routes.py".toList] := by
    intro p
    simp only [List.mem_cons, List.not_mem_nil, or_false]
    tauto
  obtain ⟨hfilter, -⟩ := patterns_filter Glob.test? (v := package) (by decide +kernel)
    (by decide +kernel) (.ofText "/".toList) ["app".toList] hR
  rw [collect] at hone
  rw [hone] at hfilter
  exact ⟨hone, hfilter.trans (by decide +kernel)⟩

end ImportXref.Discovery
