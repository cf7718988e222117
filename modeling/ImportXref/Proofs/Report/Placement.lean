import ImportXref.Proofs.Report.Projection

/-!
# Report — where a reference between modules stands

A reference to a symbol of a declared module counts inside the project, so the list of its
importing module holds its entry.  Its column is its source as written, while the headers are
package names: the two agree unless the source is the initializer module of a package.

**Placement** (`History.cited_under_source_iff`): the reference stands under the header of its
source exactly if the source does not end in `.__init__`.  One that does is left out of the
table, unless that very name is the package of another initializer module.
-/

namespace ImportXref

namespace History

/-- A reference from one declared module to another is in the list of the first. -/
theorem entry_mem_inProject (h : History) {r : Reference} (hr : r ∈ h.log)
    (htarget : r.target ∈ h.modules) (hsource : r.source ∈ h.modules) :
    r.entry ∈ h.index.inProject.list r.target := by
  rw [h.list_inProject htarget]
  refine List.mem_flatMap.mpr ⟨r, List.mem_filter.mpr ⟨hr, decide_eq_true rfl⟩, ?_⟩
  refine List.mem_replicate.mpr ⟨?_, rfl⟩
  rw [weight, if_pos hsource]
  omega

/-- A cell of the row of `m` cites an entry exactly if `m` has the entry and the cell's column is
the first of the name that the entry asks for. -/
theorem mem_cell?_iff (h : History) {i c : Nat} {m entry : Text} (hi : h.modules[i]? = some m) :
    (∃ cell, h.index.table.cell? i c = some cell ∧ Citation.ofEntry entry ∈ cell) ↔
      entry ∈ h.index.inProject.list m ∧
        Table.FirstNamed h.index.headers (Citation.column entry) c := by
  rw [← h.moduleList_index] at hi
  by_cases hc : c < h.index.headers.length
  · rw [h.index.cell?_table hi hc]
    simp only [Option.some.injEq, exists_eq_left', List.mem_map, List.mem_filter,
      decide_eq_true_eq]
    constructor
    · rintro ⟨e, he, hee⟩
      obtain rfl : e = entry := congrArg Citation.fullname hee
      exact he
    · exact fun he => ⟨entry, he, rfl⟩
  · have hnone : h.index.table.cell? i c = none := by
      simp [Table.cell?, Index.table, hi, Table.row, hc]
    simp [hnone, Table.FirstNamed, List.getElem?_eq_none (Nat.le_of_not_lt hc)]

/-- The headers are blank or the package names of declared modules. -/
theorem mem_headers_iff (h : History) {key : Text} :
    key ∈ h.index.headers ↔ key = [] ∨ ∃ m ∈ h.modules, packageName m = key := by
  rw [headers_index, List.mem_cons, List.mem_map]

/-- A declared module names a column exactly if it is no initializer module, or the package of
one. -/
theorem source_mem_headers_iff (h : History) {source : Text} (hsource : source ∈ h.modules) :
    source ∈ h.index.headers ↔
      ¬ initializerEnding <:+ source ∨ source ++ initializerEnding ∈ h.modules := by
  rw [mem_headers_iff]
  constructor
  · rintro (rfl | ⟨m, hm, rfl⟩)
    · exact .inl (by decide)
    · by_cases he : initializerEnding <:+ m
      · obtain ⟨p, rfl⟩ := he
        rw [packageName_append]
        exact .inr hm
      · rw [packageName_of_not_suffix he]
        exact .inl he
  · rintro (he | he)
    · exact .inr ⟨source, hsource, packageName_of_not_suffix he⟩
    · exact .inr ⟨_, he, packageName_append source⟩

/-- **Placement.**  Take a recorded reference to a symbol of a declared module, and the row of
its importing module.  It stands in that row under the header of its source exactly if the source
does not end in `.__init__`; and it stands in that row at all exactly if, further, a source that
ends so is the package of another initializer module. -/
theorem cited_under_source_iff (h : History) {r : Reference} {symbol : Text} {i : Nat}
    (hr : r ∈ h.log) (hs : r.symbol = some symbol) (hi : h.modules[i]? = some r.target)
    (hsource : r.source ∈ h.modules) :
    ((∃ c cell, h.index.table.headers[c]? = some (packageName r.source) ∧
        h.index.table.cell? i c = some cell ∧ ⟨symbol, r.source ++ '.' :: symbol⟩ ∈ cell) ↔
      ¬ initializerEnding <:+ r.source) ∧
    ((∃ c cell, h.index.table.cell? i c = some cell ∧
        ⟨symbol, r.source ++ '.' :: symbol⟩ ∈ cell) ↔
      ¬ initializerEnding <:+ r.source ∨ r.source ++ initializerEnding ∈ h.modules) := by
  obtain ⟨hcolumn, hname⟩ := Citation.column_entry (h.refusal?_of_mem_log hr) hs
  have hentry : r.entry = r.source ++ '.' :: symbol := by rw [Reference.entry, hs]
  have hcitation : (⟨symbol, r.source ++ '.' :: symbol⟩ : Citation) = .ofEntry r.entry := by
    rw [← hentry, ← hname]
    rfl
  have hmem : r.entry ∈ h.index.inProject.list r.target :=
    h.entry_mem_inProject hr (List.mem_of_getElem? hi) hsource
  -- where the reference stands in the row
  have hcell (c : Nat) : (∃ cell, h.index.table.cell? i c = some cell ∧
      ⟨symbol, r.source ++ '.' :: symbol⟩ ∈ cell) ↔
        Table.FirstNamed h.index.headers r.source c := by
    rw [hcitation, h.mem_cell?_iff hi, hcolumn]
    exact and_iff_right hmem
  refine ⟨⟨?_, fun he => ?_⟩, ?_⟩
  · rintro ⟨c, cell, hheader, hc⟩ he
    have hfirst := ((hcell c).mp ⟨cell, hc⟩).1
    rw [show h.index.table.headers = h.index.headers from rfl, hfirst] at hheader
    exact packageName_ne_self he (Option.some.inj hheader).symm
  · have hheader := (h.source_mem_headers_iff hsource).mpr (.inl he)
    obtain ⟨c, hc⟩ := Table.exists_firstNamed_iff.mpr hheader
    obtain ⟨cell, hcites⟩ := (hcell c).mpr hc
    exact ⟨c, cell, (packageName_of_not_suffix he).symm ▸ hc.1, hcites⟩
  · exact (exists_congr hcell).trans
      (Table.exists_firstNamed_iff.trans (h.source_mem_headers_iff hsource))

/-- `main.py` imports a symbol from the initializer module of the package `app`. -/
def importOfInitializer : History where
  filenames := ["app/__init__.py".toList, "main.py".toList]
  start := .fresh (some ["app.__init__".toList, "main".toList])
  ofFiles_filenames := rfl
  operations := [.readLine "main.py".toList "from app.__init__ import x".toList]

/-- The reference is recorded between two declared modules, and no cell of its row holds it. -/
theorem importOfInitializer_left_out :
    (⟨"main".toList, "app.__init__".toList, some ['x']⟩ ∈ importOfInitializer.log ∧
      importOfInitializer.modules[1]? = some "main".toList ∧
      "app.__init__".toList ∈ importOfInitializer.modules) ∧
    ¬ ∃ c cell, importOfInitializer.index.table.cell? 1 c = some cell ∧
      ⟨['x'], "app.__init__.x".toList⟩ ∈ cell := by
  have hlog : ⟨"main".toList, "app.__init__".toList, some ['x']⟩ ∈ importOfInitializer.log := by
    decide
  have hrow : importOfInitializer.modules[1]? = some "main".toList := by decide
  have hsource : "app.__init__".toList ∈ importOfInitializer.modules := by decide
  refine ⟨⟨hlog, hrow, hsource⟩, fun hc => ?_⟩
  have hplaced := (cited_under_source_iff importOfInitializer hlog rfl hrow hsource).2.mp hc
  exact absurd hplaced (by decide)

end History

end ImportXref
