import ImportXref.Proofs.Discovery.Listing
import ImportXref.Scan

/-!
# Discovery — opening the files that were found

A found file is kept under a text, and opened later under the path that this text makes with the
root.  That path has the components of the one that was visited as far as these are texts, so it
leads to the same file unless it is empty or too long.  Of a component that is no text U+FFFD is
left: two such files may be kept as one, under a path that leads to neither.

* `components_reopened`: the components of the path under which a file is opened.
* `status_of_components_eq`: paths with the same components lead to the same file.
* `IsFileAt.isDirectory_eq_false`: none of them leads to a directory.
* `exists_isFileAt_of_visit`: what is visited is a file.
* `found_reopened`: which found files are kept apart, and which are opened again.
-/

namespace ImportXref

namespace Tree

theorem undotted_named (p : Path) :
    undotted p.named = (Path.plain p.parts).map Component.bytes := by
  have hparts {parts : List Bytes} (h : ∀ part ∈ parts, 47 ∉ part) :
      undotted (parts.filter (· != [])) = (Path.plain parts).map Component.bytes := by
    induction parts with
    | nil => rfl
    | cons part parts ih =>
        obtain ⟨hpart, h⟩ := List.forall_mem_cons.mp h
        by_cases hnil : part = []
        · rw [hnil]
          exact ih h
        rw [List.filter_cons_of_pos (by simpa using hnil)]
        by_cases hdot : part = [46]
        · rw [hdot]
          exact ih h
        have hslash : part ≠ slash := fun he => hpart (he ▸ List.mem_singleton_self 47)
        obtain ⟨c, hc⟩ := Component.exists_ofPart? hnil hdot
        have hplain : Path.plain (part :: parts) = c :: Path.plain parts :=
          List.filterMap_cons_some hc
        rw [undotted_cons hdot hslash, ih h, hplain, List.map_cons, Component.bytes_of_ofPart? hc]
  exact hparts fun part hpart hmem => (Text.of_mem_splitOn hpart 47 hmem).2 rfl

/-- A path whose last part is a name ends with it. -/
theorem exists_steps_eq_of_getLast? {p : Path} {n : Bytes} (h : p.parts.getLast? = some n)
    (hn : n ≠ []) : ∃ init, steps p = init ++ [n] := by
  obtain ⟨init, hinit⟩ := List.getLast?_eq_some_iff.mp h
  have hnamed : p.parts.filter (· != []) = init.filter (· != []) ++ [n] := by
    rw [hinit, List.filter_append, List.filter_cons_of_pos (by simpa using hn), List.filter_nil]
  have hlast : (p.bytes.getLast? == some 47) = false := by
    refine beq_eq_false_iff_ne.mpr fun hslash => hn ?_
    obtain ⟨bytes, hb⟩ := List.getLast?_eq_some_iff.mp hslash
    have hsplit := List.splitOn_append_cons_self (a := 47) bytes []
    rw [← hb, List.splitOn_nil] at hsplit
    rw [Path.parts, hsplit, List.getLast?_concat] at h
    exact (Option.some.inj h).symm
  exact ⟨_, by simp only [steps, hnamed, hlast, Bool.and_false, Bool.false_eq_true, if_false]; rfl⟩

end Tree

namespace View

open ImportXref.Tree (Leads steps)

variable {v : View} {p q : Path} {loc : Location} {contents n : Bytes}

/-- The path leads to the file at `loc`, whether it is short enough to be opened or not. -/
structure IsFileAt (v : View) (q : Path) (loc : Location) (contents : Bytes) : Prop where
  nul_notMem : 0 ∉ q.bytes
  leads : ∃ k, k ≤ Tree.maxLinks ∧
    Leads v.tree (v.start q) (steps q) k (.entry loc (.file contents))

theorem IsFileAt.of_status (h : v.status q = .ok (loc, .file contents)) :
    v.IsFileAt q loc contents :=
  ⟨nul_notMem_of_status h, (status_eq_ok_iff.mp h).2⟩

/-- A path to a file ends with the name of the file. -/
theorem IsFileAt.exists_steps_eq (h : v.IsFileAt q loc contents)
    (hn : q.components.getLast? = some (.name n)) : ∃ init, steps q = init ++ [n] := by
  obtain ⟨k, -, hleads⟩ := h.leads
  obtain hnil | ⟨init, part, hpart⟩ := List.eq_nil_or_concat' (steps q)
  · rw [hnil] at hleads
    cases hleads
  refine ⟨init, ?_⟩
  rw [hpart] at hleads
  have hcounts : ¬ (part = [46] ∨ part = Tree.slash) := fun hskip => by
    obtain ⟨dir, hdir⟩ := hleads.of_concat_skipped hskip
    cases hdir
  obtain ⟨hdot, hslash⟩ := not_or.mp hcounts
  obtain ⟨above, habove⟩ := List.getLast?_eq_some_iff.mp hn
  have hundotted := (Tree.undotted_steps q).trans (Tree.undotted_named q)
  rw [hpart, Tree.undotted_append, Tree.undotted_cons hdot hslash, ← Path.filter_components, habove,
    List.filter_append, List.map_append] at hundotted
  have hsame : [part] = [n] := (List.append_inj' hundotted rfl).2
  rw [hpart, hsame]

/-- Paths with the same components start at the same directory. -/
theorem start_eq_of_components_eq (hpq : p.components = q.components) : v.start p = v.start q := by
  have habs : p.isAbsolute = q.isAbsolute := by
    rw [Bool.eq_iff_iff, Path.isAbsolute_iff_head?_components, hpq,
      Path.isAbsolute_iff_head?_components]
  rw [start, habs, start]

/-- Only dots and slashes can differ between the steps of paths with the same components. -/
theorem undotted_steps_eq_of_components_eq (hpq : p.components = q.components) :
    Tree.undotted (steps p) = Tree.undotted (steps q) := by
  rw [Tree.undotted_steps, Tree.undotted_named, ← Path.filter_components, hpq,
    Path.filter_components, ← Tree.undotted_named, Tree.undotted_steps]

/-- No directory has the components of a path to a file. -/
theorem IsFileAt.isDirectory_eq_false (h : v.IsFileAt q loc contents)
    (hpq : p.components = q.components) : v.isDirectory p = false := by
  refine Bool.eq_false_iff.mpr fun hdirectory => ?_
  obtain ⟨dir, hdir⟩ := Option.isSome_iff_exists.mp hdirectory
  obtain ⟨-, i, -, hi⟩ := status_eq_ok_iff.mp (directory?_eq_some_iff.mp hdir)
  have hsame := hi.congr_directory (undotted_steps_eq_of_components_eq hpq)
  rw [start_eq_of_components_eq hpq] at hsame
  obtain ⟨j, -, hj⟩ := h.leads
  cases hsame.unique hj

/-- Paths with the same components lead to the same file. -/
theorem status_of_components_eq (h : v.IsFileAt q loc contents)
    (hpq : p.components = q.components) (hn : q.components.getLast? = some (.name n))
    (hlast : p.parts.getLast? = some n) (hlength : p.bytes.length < Tree.maxPath) :
    v.status p = .ok (loc, .file contents) := by
  have hplain : (Component.name n).IsPlain :=
    Path.isPlain_of_mem_components (List.mem_of_getLast? hn)
  have hparts : Path.plain p.parts = Path.plain q.parts := by
    rw [← Path.filter_components, hpq, Path.filter_components]
  have hcheck : check p = .ok () := by
    refine check_eq_ok_iff.mpr ⟨?_, ?_, hlength⟩
    · rw [Path.nul_mem_bytes_iff, hparts, ← Path.nul_mem_bytes_iff]
      exact h.nul_notMem
    · intro hnil
      rw [Path.components_eq_nil_iff.mpr hnil] at hpq
      rw [← hpq] at hn
      cases hn
  obtain ⟨above, habove⟩ := h.exists_steps_eq hn
  obtain ⟨above', habove'⟩ := Tree.exists_steps_eq_of_getLast? hlast hplain.bytes_ne_nil
  -- Only dots and slashes in front of the name can differ between the two paths.
  have hway : Tree.undotted above = Tree.undotted above' := by
    have heq := (undotted_steps_eq_of_components_eq hpq).symm
    rw [habove, habove', Tree.undotted_append, Tree.undotted_append] at heq
    exact List.append_cancel_right heq
  obtain ⟨k, hk, hleads⟩ := h.leads
  refine status_eq_ok_iff.mpr ⟨hcheck, k, hk, ?_⟩
  rw [habove']
  rw [habove] at hleads
  exact start_eq_of_components_eq hpq ▸ (Tree.leads_concat_congr hway).mp hleads

/-! ### What is visited -/

theorem exists_isFileAt_of_shows (ht : v.tree.WellNamed) {dir : Location}
    (hdir : v.status p = .ok (dir, .directory)) (hn : n ∈ v.tree.names dir)
    (h : v.Shows (p.join ⟨n⟩) (dir ++ [n])) :
    ∃ loc contents, v.IsFileAt (p.join ⟨n⟩) loc contents := by
  obtain ⟨hname, hlength⟩ := Tree.isFileName_of_mem_names ht hn
  obtain ⟨contents, hfind⟩ | ⟨-, loc, contents, hstatus⟩ := h
  · obtain ⟨k, hk, hleads⟩ := leads_named_of_status hdir
    refine ⟨dir ++ [n], contents,
      Path.nul_notMem_join_name hname (nul_notMem_of_status hdir), k, hk, ?_⟩
    rw [start_join hname, Tree.steps_join_name hname]
    exact hleads.append (.file (Tree.isLookedUp_of_isFileName ⟨hname, hlength⟩) hfind)
  · exact ⟨loc, contents, .of_status hstatus⟩

/-- What a walk visits is a file. -/
theorem exists_isFileAt_of_mem_walk (ht : v.tree.WellNamed) {depth : Nat} {above : List Location}
    {dir : Location} (hdir : v.status p = .ok (dir, .directory))
    (h : .file q ∈ v.walk depth above p dir) : ∃ loc contents, v.IsFileAt q loc contents := by
  induction depth generalizing above p dir with
  | zero => cases h
  | succ depth ih =>
      obtain ⟨n, hn, ⟨hshows, rfl⟩ | ⟨mid, henters, hq⟩⟩ := mem_walk_succ_iff.mp h
      · exact exists_isFileAt_of_shows ht hdir hn hshows
      · exact ih henters.1 hq

end View

namespace Discovery

variable {v : View} {root q q' : Path} {patterns names : List Text} {name : Text}

/-- The visits of a name that exists. -/
theorem visits?_eq_some_iff {visits : List Visit} : visits? v root name = some visits ↔
    (∃ dir, v.status (place root name) = .ok (dir, .directory) ∧
      visits = .start :: walked v (place root name) dir) ∨
    ∃ loc contents, v.status (place root name) = .ok (loc, .file contents) ∧
      visits = [.file (place root name)] := by
  unfold visits? walked
  simp only
  cases hstatus : v.status (place root name) with
  | error err => simp
  | ok found =>
      obtain ⟨loc, e⟩ := found
      cases e with
      | directory =>
          refine ⟨fun h => .inl ⟨loc, rfl, (Option.some.inj h).symm⟩, ?_⟩
          rintro (⟨dir, hdir, rfl⟩ | ⟨_, _, hfile, -⟩)
          · cases hdir
            rfl
          · cases hfile
      | file contents =>
          refine ⟨fun h => .inr ⟨loc, contents, rfl, (Option.some.inj h).symm⟩, ?_⟩
          rintro (⟨dir, hdir, -⟩ | ⟨_, _, -, rfl⟩)
          · cases hdir
          · rfl
      | link target =>
          obtain ⟨-, k, -, hleads⟩ := View.status_eq_ok_iff.mp hstatus
          exact absurd hleads Tree.Leads.ne_link

/-- A visit leads to a file, below the place of a declared name. -/
theorem of_mem_visits (ht : v.tree.WellNamed) {visits : List Visit}
    (hvisits : visits? v root name = some visits) (h : .file q ∈ visits) :
    (∃ loc contents, v.IsFileAt q loc contents) ∧ (place root name).bytes ≠ [] ∧
      ∃ names, (∀ n ∈ names, IsFileName n ∧ (v.tree.Utf8Named → n.IsUtf8)) ∧
        q = (place root name).descend names := by
  obtain ⟨dir, hdir, rfl⟩ | ⟨loc, contents, hfile, rfl⟩ := visits?_eq_some_iff.mp hvisits
  · have hmem : .file q ∈ walked v (place root name) dir := by simpa using h
    obtain ⟨names, loc, contents, hreaches, -, hq⟩ := (mem_walked_iff ht hdir).mp hmem
    refine ⟨?_, View.bytes_ne_nil_of_status hdir, names, ?_, hq⟩
    · unfold walked at hmem
      split at hmem
      · cases hmem
      · exact View.exists_isFileAt_of_mem_walk ht hdir hmem
    · exact fun n hn => ⟨hreaches.isFileName ht n hn, fun hutf8 => hreaches.isUtf8 hutf8 n hn⟩
  · obtain rfl : q = place root name := by simpa using h
    exact ⟨⟨loc, contents, .of_status hfile⟩, View.bytes_ne_nil_of_status hfile, [], nofun, rfl⟩

/-- A declared name leads to below the root, or to an absolute path. -/
theorem below_or_absolute_of_mem_visits (ht : v.tree.WellNamed) {visits : List Visit}
    (hvisits : visits? v root name = some visits) (h : .file q ∈ visits) :
    root.components <+: q.components ∨ q.isAbsolute = true := by
  obtain ⟨-, hplace, ns, hns, rfl⟩ := of_mem_visits ht hvisits h
  have hcomponents := Path.components_descend (fun n hn => (hns n hn).1) hplace
  cases habs : (Path.ofText name).isAbsolute with
  | false =>
      have hroot : root.components <+: (place root name).components := (Path.below_join habs).1
      exact .inl (hcomponents ▸ hroot.trans (List.prefix_append ..))
  | true =>
      have hsame : place root name = .ofText name := Path.join_of_isAbsolute habs
      obtain ⟨rest, hrest⟩ := List.head?_eq_some_iff.mp
        (Path.isAbsolute_iff_head?_components.mp habs)
      refine .inr (Path.isAbsolute_iff_head?_components.mpr ?_)
      rw [hcomponents, hsame, hrest]
      rfl

/-! ### The path of a found file -/

/-- The path under which a found file is opened. -/
def reopened (root q : Path) : Path :=
  root.join (.ofText (spelled (Path.below root q)))

section Reopened

variable (hroot : root.components <+: q.components ∨ q.isAbsolute = true)
include hroot

/-- Below the root, the components of the path are those that come back from its text. -/
theorem exists_components_reopened : ∃ above,
    q.components = above ++ Path.below root q ∧
      (reopened root q).components = above ++ (Path.below root q).map Component.reread := by
  obtain ⟨hne, hplain, hbelow⟩ | ⟨hjoin, hbelow⟩ := Path.below_cases hroot
  · refine ⟨root.components, hbelow, ?_⟩
    rw [reopened, ofText_spelled, Path.components_join_ofRoute hne]
    exact List.forall_mem_map.mpr fun c hc => (hplain c hc).reread
  · refine ⟨[], hbelow.symm, ?_⟩
    have hread := components_ofText_spelled (Path.isRoute_components q)
    have hsame : reopened root q = .ofText (spelled q.components) := by
      rw [reopened, hbelow]
      obtain hnil | habs := hjoin
      · exact Path.join_nil hnil
      · refine Path.join_of_isAbsolute (Path.isAbsolute_iff_head?_components.mpr ?_)
        rw [hread, List.head?_map, Path.isAbsolute_iff_head?_components.mp habs]
        rfl
    rw [hsame, hread, hbelow, List.nil_append]

/-- The path has the components of the visited one exactly if these are texts below the root. -/
theorem components_reopened_eq_iff :
    (reopened root q).components = q.components ↔ ∀ c ∈ Path.below root q, c.bytes.IsUtf8 := by
  obtain ⟨above, hq, hreopened⟩ := exists_components_reopened hroot
  rw [hreopened, hq, List.append_right_inj, map_reread_eq_self_iff]

/-- The file is opened again under a path of texts. -/
theorem status_reopened {loc : Location} {contents n : Bytes} (hq : v.IsFileAt q loc contents)
    (hn : q.components.getLast? = some (.name n))
    (hutf8 : ∀ c ∈ Path.below root q, c.bytes.IsUtf8) (hne : Path.below root q ≠ [])
    (hlength : (reopened root q).bytes.length < Tree.maxPath) :
    v.status (reopened root q) = .ok (loc, .file contents) := by
  have hcomponents := (components_reopened_eq_iff hroot).mpr hutf8
  refine View.status_of_components_eq hq hcomponents hn ?_ hlength
  obtain ⟨above, habove, -⟩ := exists_components_reopened hroot
  rw [habove, List.getLast?_append_of_ne_nil _ hne] at hn
  rw [reopened, Path.getLast?_parts_join, ofText_spelled, map_reread_eq_self_iff.mpr hutf8,
    Path.getLast?_parts_ofRoute (Path.isRoute_below root q) hn]

/-- Paths that are the same below the root are the same. -/
theorem components_eq_of_below_eq
    (hroot' : root.components <+: q'.components ∨ q'.isAbsolute = true)
    (h : Path.below root q = Path.below root q') : q.components = q'.components := by
  have hmixed {p p' : Path} (hne : root.bytes ≠ []) (hplain : ∀ c ∈ Path.below root p, c.IsPlain)
      (hjoin : root.bytes = [] ∨ p'.isAbsolute = true)
      (h : Path.below root p = p'.components) : False := by
    have habs := Path.isAbsolute_iff_head?_components.mp (hjoin.resolve_left hne)
    exact (hplain _ (h ▸ List.mem_of_head? habs)).ne_root rfl
  obtain ⟨hne, hplain, hq⟩ | ⟨hjoin, hq⟩ := Path.below_cases hroot <;>
    obtain ⟨hne', hplain', hq'⟩ | ⟨hjoin', hq'⟩ := Path.below_cases hroot'
  · rw [hq, hq', h]
  · exact (hmixed hne hplain hjoin' (h.trans hq')).elim
  · exact (hmixed hne' hplain' hjoin (h.symm.trans hq)).elim
  · rw [← hq, h, hq']

end Reopened

/-! ### Found files -/

/-- The walk comes by the source file at the path `q`, and no pattern excludes it. -/
structure IsFound (v : View) (root : Path) (patterns names : List Text) (q : Path) : Prop where
  visited : ∃ name ∈ names, ∃ visits, visits? v root name = some visits ∧ .file q ∈ visits
  isSource : q.extension? = some sourceExtension
  included : (excluded patterns (Path.below root q)).2 = false

theorem exists_name_of_extension? {e : Bytes} (h : q.extension? = some e) :
    ∃ n, q.components.getLast? = some (.name n) ∧ Path.nameExtension? n = some e := by
  obtain ⟨n, hn, he⟩ := Option.bind_eq_some_iff.mp h
  unfold Path.fileName? at hn
  split at hn
  · next n' hlast => exact ⟨n, Option.some.inj hn ▸ hlast, he⟩
  · cases hn

theorem exists_offered_iff {test? : Text → Option (Text → Bool)} {visits : List Visit} {f : Text} :
    (∃ visit ∈ visits, offered? test? root patterns visit = some f) ↔
      ∃ q, .file q ∈ visits ∧ q.extension? = some sourceExtension ∧
        (excludedBy test? patterns (Path.below root q)).2 = false ∧
        f = spelled (Path.below root q) := by
  simp only [offered?_eq, Option.map_eq_some_iff, offeredBelow?_eq_some_iff]
  constructor
  · rintro ⟨_, hmem, _, ⟨q, rfl, hext, hout, rfl⟩, rfl⟩
    exact ⟨q, hmem, hext, hout, rfl⟩
  · rintro ⟨q, hmem, hext, hout, rfl⟩
    exact ⟨_, hmem, _, ⟨q, rfl, hext, hout, rfl⟩, rfl⟩

theorem mem_collected_iff {files : List Text}
    (h : (collect v root patterns names).result = .ok files) {f : Text} :
    f ∈ files ↔ ∃ q, IsFound v root patterns names q ∧ f = spelled (Path.below root q) := by
  simp only [mem_of_collectBy h, exists_offered_iff]
  constructor
  · rintro ⟨name, hname, visits, hvisits, q, hq, hext, hout, rfl⟩
    exact ⟨q, ⟨⟨name, hname, visits, hvisits, hq⟩, hext, hout⟩, rfl⟩
  · rintro ⟨q, ⟨⟨name, hname, visits, hvisits, hq⟩, hext, hout⟩, rfl⟩
    exact ⟨name, hname, visits, hvisits, q, hq, hext, hout, rfl⟩

theorem IsFound.below_or_absolute (ht : v.tree.WellNamed) (h : IsFound v root patterns names q) :
    root.components <+: q.components ∨ q.isAbsolute = true := by
  obtain ⟨name, -, visits, hvisits, hq⟩ := h.visited
  exact below_or_absolute_of_mem_visits ht hvisits hq

/-- In a tree of texts, what is found is a text. -/
theorem IsFound.isUtf8 (ht : v.tree.WellNamed) (hutf8 : v.tree.Utf8Named)
    (h : IsFound v root patterns names q) : ∀ c ∈ Path.below root q, c.bytes.IsUtf8 := by
  obtain ⟨name, -, visits, hvisits, hq⟩ := h.visited
  obtain ⟨-, hplace, ns, hns, rfl⟩ := of_mem_visits ht hvisits hq
  have hnames := fun n hn => (hns n hn).1
  have hbytes : ∀ c ∈ ns.map Component.name, c.bytes.IsUtf8 :=
    List.forall_mem_map.mpr fun n hn => (hns n hn).2 hutf8
  cases habs : (Path.ofText name).isAbsolute with
  | false =>
      rw [Path.below_descend hnames hplace (Path.below_join habs).1]
      exact List.forall_mem_append.mpr ⟨isUtf8_below_place habs, hbytes⟩
  | true =>
      have hsame : place root name = .ofText name := Path.join_of_isAbsolute habs
      intro c hc
      have hmem := Path.mem_of_mem_below hc
      rw [Path.components_descend hnames hplace, hsame] at hmem
      exact List.forall_mem_append.mpr ⟨isUtf8_components_ofText name, hbytes⟩ c hmem

theorem sourceText_of_status {f : Text} {loc : Location} {contents : Bytes}
    (h : v.status (root.join (.ofText f)) = .ok (loc, .file contents)) :
    (Scan.sourceText v root f).result = .ok contents.text := by
  simp [Scan.sourceText, View.read, h, Traced.ofIo, Except.map, Except.mapError]

/-- **Found files are opened again.**  If the declared names exist, their source files are
collected.  A collected file that is a text below the root, is not the root itself and whose path
is not too long is opened as the very file that was visited, and its text is read.  Two files are
kept as one exactly if the same components come back from their texts, which for texts is only so
if they are at the same place.  If the names of the tree are texts, so is all that is found. -/
theorem found_reopened (ht : v.tree.WellNamed) (patterns : List Text)
    (hnames : ∀ name ∈ names, v.pathExists (place root name) = true) :
    ∃ files, (collect v root patterns names).result = .ok files ∧ files.Nodup ∧
      (∀ f, f ∈ files ↔
        ∃ q, IsFound v root patterns names q ∧ f = spelled (Path.below root q)) ∧
      (∀ q, IsFound v root patterns names q → ∃ loc contents, v.IsFileAt q loc contents ∧
        ((reopened root q).components = q.components ↔
          ∀ c ∈ Path.below root q, c.bytes.IsUtf8) ∧
        ((∀ c ∈ Path.below root q, c.bytes.IsUtf8) → Path.below root q ≠ [] →
          (reopened root q).bytes.length < Tree.maxPath →
          v.status (reopened root q) = .ok (loc, .file contents) ∧
            (Scan.sourceText v root (spelled (Path.below root q))).result = .ok contents.text)) ∧
      (∀ q q', IsFound v root patterns names q → IsFound v root patterns names q' →
        (spelled (Path.below root q) = spelled (Path.below root q') ↔
          (Path.below root q).map Component.reread = (Path.below root q').map Component.reread)) ∧
      (∀ q q', IsFound v root patterns names q → IsFound v root patterns names q' →
        (∀ c ∈ Path.below root q, c.bytes.IsUtf8) → (∀ c ∈ Path.below root q', c.bytes.IsUtf8) →
        q.components ≠ q'.components →
          spelled (Path.below root q) ≠ spelled (Path.below root q')) ∧
      (v.tree.Utf8Named → ∀ q, IsFound v root patterns names q →
        ∀ c ∈ Path.below root q, c.bytes.IsUtf8) := by
  obtain ⟨visits, hvisits⟩ :=
    exists_mapM_visits? fun name hname => isSome_visits?_iff.mpr (hnames name hname)
  have hfiles : (collect v root patterns names).result = .ok _ :=
    collectBy_eq_ok_iff.mpr ⟨visits, hvisits, rfl⟩
  refine ⟨_, hfiles, nodup_of_collectBy hfiles, fun f => mem_collected_iff hfiles, ?_, ?_, ?_, ?_⟩
  · intro q hq
    have hroot := hq.below_or_absolute ht
    obtain ⟨name, -, visits, hvisits, hmem⟩ := hq.visited
    obtain ⟨⟨loc, contents, hfile⟩, -⟩ := of_mem_visits ht hvisits hmem
    obtain ⟨n, hn, -⟩ := exists_name_of_extension? hq.isSource
    refine ⟨loc, contents, hfile, components_reopened_eq_iff hroot, fun hutf8 hne hlength => ?_⟩
    have hstatus := status_reopened hroot hfile hn hutf8 hne hlength
    exact ⟨hstatus, sourceText_of_status hstatus⟩
  · exact fun q q' _ _ => spelled_eq_iff (Path.isRoute_below root q) (Path.isRoute_below root q')
  · intro q q' hq hq' hutf8 hutf8' hne heq
    refine hne (components_eq_of_below_eq (hq.below_or_absolute ht) (hq'.below_or_absolute ht) ?_)
    exact eq_of_spelled_eq (Path.isRoute_below ..) (Path.isRoute_below ..) hutf8 hutf8' heq
  · exact fun hutf8 q hq => hq.isUtf8 ht hutf8

/-- A file `a.py`, and two files whose names are no texts: `.py` behind a byte FE and behind FF. -/
def faulty : View :=
  let bytes (s : String) : Bytes := Text.utf8 s.toList
  ⟨⟨[([bytes "proj"], .directory), ([bytes "proj", bytes "a.py"], .file []),
    ([bytes "proj", 0xFE :: bytes ".py"], .file []),
    ([bytes "proj", 0xFF :: bytes ".py"], .file [])]⟩, []⟩

/-- All three files are found.  `a.py` is opened again; of the other two, one is left out and the
other is not opened. -/
theorem faulty_left_out : ∃ files p q q',
    (collect faulty (.ofText "proj".toList) [] [".".toList]).result = .ok files ∧
      (∀ path ∈ [p, q, q'], IsFound faulty (.ofText "proj".toList) [] [".".toList] path) ∧
      (∃ loc contents, faulty.IsFileAt p loc contents ∧
        faulty.status (reopened (.ofText "proj".toList) p) = .ok (loc, .file contents)) ∧
      q.components ≠ q'.components ∧ files = ["a.py".toList, "\uFFFD.py".toList] ∧
      (Scan.sourceText faulty (.ofText "proj".toList) "\uFFFD.py".toList).result =
        .error ⟨["failed to read proj/\uFFFD.py".toList], .io .notFound⟩ := by
  have hexists : ∀ name ∈ [".".toList],
      faulty.pathExists (place (.ofText "proj".toList) name) = true := by decide +kernel
  obtain ⟨files, hfiles, -, -, hopens, -⟩ := found_reopened (by decide +kernel) [] hexists
  let path (start : Bytes) : Path :=
    (place (.ofText "proj".toList) ".".toList).join ⟨start ++ Text.utf8 ".py".toList⟩
  have hnames : faulty.tree.names [Text.utf8 "proj".toList] = [Text.utf8 "a.py".toList,
      0xFE :: Text.utf8 ".py".toList, 0xFF :: Text.utf8 ".py".toList] :=
    Tree.Holds.names_eq (by decide +kernel)
  have hwalk : faulty.walk Tree.maxPath [] (place (.ofText "proj".toList) ".".toList)
      [Text.utf8 "proj".toList] =
      [.file (path [97]), .file (path [0xFE]), .file (path [0xFF])] :=
    (View.walk_succ_of_names hnames 4095 _ _).trans (by decide +kernel)
  have hvisits : visits? faulty (.ofText "proj".toList) ".".toList =
      some [.start, .file (path [97]), .file (path [0xFE]), .file (path [0xFF])] :=
    visits?_of_walk (by decide +kernel) (by decide +kernel) hwalk
  have hfound : ∀ p ∈ [path [97], path [0xFE], path [0xFF]],
      IsFound faulty (.ofText "proj".toList) [] [".".toList] p := by
    intro p hp
    refine ⟨⟨_, List.mem_singleton_self _, _, hvisits, by simpa using hp⟩, ?_, rfl⟩
    have hext : ∀ p ∈ [path [97], path [0xFE], path [0xFF]],
        p.extension? = some sourceExtension := by decide +kernel
    exact hext p hp
  obtain ⟨loc, contents, hfile, -, hopen⟩ := hopens _ (hfound (path [97]) List.mem_cons_self)
  obtain ⟨hstatus, -⟩ := hopen (by decide +kernel) (by decide +kernel) (by decide +kernel)
  have hlisted : (collect faulty (.ofText "proj".toList) [] [".".toList]).result =
      .ok ["a.py".toList, "\uFFFD.py".toList] :=
    (result_collectBy_singleton hvisits).trans (by decide +kernel)
  obtain rfl : _ = files := Except.ok.inj (hlisted.symm.trans hfiles)
  refine ⟨_, path [97], path [0xFE], path [0xFF], hfiles, hfound, ⟨loc, contents, hfile, hstatus⟩,
    by decide +kernel, rfl, ?_⟩
  decide +kernel

end Discovery

end ImportXref
