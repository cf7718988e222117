import ImportXref.Proofs.Tree.Opening
import ImportXref.Tree.Write

/-!
# Trees — what is left of a tree that is written to

Directories are made where nothing stands, and files are written where nothing or a file stands.
So a tree only grows: its directories and links stay what they are, and its files stay files.  A
path that led to a file leads to the same place afterwards.

* `prepares_makeDirectories`: making directories changes no file.
* `status_of_writable`: a path that can be written leads, in every tree that grows out of this one,
  to what is written at its place.
* `Writes.find?_file_iff`, `Writes.read_eq_iff`: the files after several writes, and which of the
  written ones are still there.
-/

namespace ImportXref

namespace Tree

/-- The directories and the links of `t` stand in `t'` too, and where there was a file there is
one. -/
structure Grows (t t' : Tree) : Prop where
  directory : ∀ {loc}, t.find? loc = some .directory → t'.find? loc = some .directory
  link : ∀ {loc target}, t.find? loc = some (.link target) → t'.find? loc = some (.link target)
  file : ∀ {loc contents}, t.find? loc = some (.file contents) →
    ∃ contents', t'.find? loc = some (.file contents')

/-- Nothing or a file stands at the location. -/
def IsVacant (t : Tree) (loc : Location) : Prop :=
  t.find? loc = none ∨ ∃ contents, t.find? loc = some (.file contents)

/-- What a target becomes: a directory stays, and a place for a file holds one. -/
inductive Becomes (t' : Tree) : Target → Target → Prop where
  | directory (loc : Location) : Becomes t' (.entry loc .directory) (.entry loc .directory)
  | made {loc : Location} {contents : Bytes} (h : t'.find? loc = some (.file contents)) :
      Becomes t' (.missing loc) (.entry loc (.file contents))
  | written {loc : Location} {before contents : Bytes}
      (h : t'.find? loc = some (.file contents)) :
      Becomes t' (.entry loc (.file before)) (.entry loc (.file contents))

variable {t t' t'' : Tree} {loc : Location} {contents : Bytes}

theorem Grows.refl (t : Tree) : Grows t t :=
  ⟨id, id, fun h => ⟨_, h⟩⟩

theorem Grows.trans (h : Grows t t') (h' : Grows t' t'') : Grows t t'' where
  directory := h'.directory ∘ h.directory
  link := h'.link ∘ h.link
  file hfile := by
    obtain ⟨_, hfile⟩ := h.file hfile
    exact h'.file hfile

theorem IsVacant.ne_nil (h : t.IsVacant loc) : loc ≠ [] := by
  rintro rfl
  obtain h | ⟨_, h⟩ := h <;> cases h

/-- A file that is written where nothing or a file stands makes a tree grow. -/
theorem grows_insert_file (h : t.IsVacant loc) (contents : Bytes) :
    Grows t (t.insert loc (.file contents)) := by
  have hother {l : Location} {e : Entry} (hl : t.find? l = some e)
      (he : ∀ contents, e ≠ .file contents) :
      (t.insert loc (.file contents)).find? l = some e := by
    rw [find?_insert t h.ne_nil, if_neg, hl]
    rintro rfl
    obtain h | ⟨_, h⟩ := h <;> rw [h] at hl
    · cases hl
    · exact he _ (Option.some.inj hl).symm
  refine ⟨fun hl => hother hl nofun, fun hl => hother hl nofun, fun {l _} hl => ?_⟩
  rw [find?_insert t h.ne_nil]
  split
  · exact ⟨contents, rfl⟩
  · exact ⟨_, hl⟩

/-- A directory that is made where nothing stands makes a tree grow. -/
theorem grows_insert_directory (hne : loc ≠ []) (h : t.find? loc = none) :
    Grows t (t.insert loc .directory) := by
  have hother {l : Location} {e : Entry} (hl : t.find? l = some e) :
      (t.insert loc .directory).find? l = some e := by
    rw [find?_insert t hne, if_neg, hl]
    rintro rfl
    rw [h] at hl
    cases hl
  exact ⟨hother, hother, fun hl => ⟨_, hother hl⟩⟩

/-- In a tree that has grown, parts lead to what their target has become. -/
theorem Leads.of_grows (hgrows : Grows t t') {dir : Location} {parts : List Bytes} {k : Nat}
    {g g' : Target} (h : Leads t dir parts k g) (hg : Becomes t' g g') :
    Leads t' dir parts k g' := by
  induction h with
  | stay dir => cases hg; exact .stay dir
  | skip hpart _ ih => exact .skip hpart (ih hg)
  | up _ ih => exact .up (ih hg)
  | missing hpart _ => cases hg with | made h => exact .file hpart h
  | file hpart _ => cases hg with | written h => exact .file hpart h
  | enter hpart hfind _ ih => exact .enter hpart (hgrows.directory hfind) (ih hg)
  | link hpart hfind htarget _ ih => exact .link hpart (hgrows.link hfind) htarget (ih hg)

end Tree

namespace View

open ImportXref.Tree (Leads steps)

variable {v w x : View} {p : Path} {loc : Location} {contents : Bytes}

/-- The view `w` is `v` with directories that were made. -/
structure Prepares (v w : View) : Prop where
  workingDirectory : w.workingDirectory = v.workingDirectory
  grows : v.tree.Grows w.tree
  files : ∀ loc contents,
    w.tree.find? loc = some (.file contents) ↔ v.tree.find? loc = some (.file contents)

theorem Prepares.refl (v : View) : v.Prepares v :=
  ⟨rfl, .refl _, fun _ _ => .rfl⟩

theorem Prepares.trans (h : v.Prepares w) (h' : w.Prepares x) : v.Prepares x where
  workingDirectory := h'.workingDirectory.trans h.workingDirectory
  grows := h.grows.trans h'.grows
  files loc contents := (h'.files loc contents).trans (h.files loc contents)

/-! ### Directories -/

/-- A directory is made where nothing stands. -/
theorem prepares_put_directory (hne : loc ≠ []) (h : v.tree.find? loc = none) :
    v.Prepares (v.put loc .directory) where
  workingDirectory := rfl
  grows := Tree.grows_insert_directory hne h
  files l contents := by
    rw [put, Tree.find?_insert _ hne]
    split
    · next hl => simp [hl, h]
    · rfl

/-- A new directory stands where nothing stood. -/
theorem vacant_of_newDirectory (h : v.newDirectory p = .ok loc) :
    loc ≠ [] ∧ v.tree.find? loc = none := by
  unfold newDirectory at h
  split at h
  · cases h
  simp only at h
  split at h
  · cases h
  split at h
  · cases h
  · cases h
  · split at h
    · cases h
    split at h
    · cases h
    split at h
    · cases h
    next hfind =>
    cases h
    exact ⟨by simp, by simpa using hfind⟩
  · cases h

/-- Making a directory changes no file. -/
theorem prepares_of_makeDirectory (h : v.makeDirectory p = .ok w) : v.Prepares w := by
  unfold makeDirectory at h
  cases hnew : v.newDirectory p with
  | error e => simp [hnew, Except.map] at h
  | ok loc =>
      obtain rfl : v.put loc .directory = w := by simpa [hnew, Except.map] using h
      obtain ⟨hne, hfind⟩ := vacant_of_newDirectory hnew
      exact prepares_put_directory hne hfind

/-- Making a directory that may be there already changes no file. -/
theorem prepares_of_ensureDirectory (h : v.ensureDirectory p = .ok w) : v.Prepares w := by
  unfold ensureDirectory at h
  split at h
  · next hmake =>
    cases h
    exact prepares_of_makeDirectory hmake
  · split at h
    · cases h
      exact .refl v
    · cases h

/-- Whether the directories could all be made or not, no file has changed. -/
theorem prepares_makeInside (v : View) (ps : List Path) : v.Prepares (v.makeInside ps).1 := by
  induction ps with
  | nil => exact .refl v
  | cons p above ih =>
      unfold makeInside
      split
      · next hmake => exact prepares_of_makeDirectory hmake
      · split
        · exact .refl v
        · rcases hrest : v.makeInside above with ⟨v', e | u⟩ <;> rw [hrest] at ih
          · exact ih
          · simp only
            split
            · next hensure => exact ih.trans (prepares_of_ensureDirectory hensure)
            · exact ih
      · exact .refl v

/-- **Making directories changes no file**, though one of them fails. -/
theorem prepares_makeDirectories (v : View) (p : Path) : v.Prepares (v.makeDirectories p).1 := by
  unfold makeDirectories
  split
  · exact .refl v
  · exact prepares_makeInside v _

/-! ### Files -/

/-- Where a file would be written: nothing or a file stands there, and the path leads there. -/
theorem of_writable (h : v.writable p = .ok loc) : check p = .ok () ∧ v.tree.IsVacant loc ∧
    ∃ k g, k ≤ Tree.maxLinks ∧ Leads v.tree (v.start p) (steps p) k g ∧
      (g = .missing loc ∨ ∃ before, g = .entry loc (.file before)) := by
  unfold writable resolve at h
  cases hcheck : check p with
  | error e => simp [hcheck] at h
  | ok _ =>
      rw [hcheck] at h
      simp only at h
      split at h
      · cases h
      · next hfollow =>
        cases h
        obtain ⟨k, hk, hleads⟩ := Tree.leads_of_followLinks hfollow
        exact ⟨rfl, .inl hleads.find?_missing, k, _, hk, hleads, .inl rfl⟩
      · next before hfollow =>
        cases h
        obtain ⟨k, hk, hleads⟩ := Tree.leads_of_followLinks hfollow
        exact ⟨rfl, .inr ⟨_, hleads.find?_file⟩, k, _, hk, hleads, .inr ⟨_, rfl⟩⟩
      · cases h
      · cases h

/-- A file is written only where nothing or a file stands. -/
theorem isVacant_of_writable (h : v.writable p = .ok loc) : v.tree.IsVacant loc :=
  (of_writable h).2.1

theorem start_eq (hdir : w.workingDirectory = v.workingDirectory) (p : Path) :
    w.start p = v.start p := by
  rw [start, hdir, start]

/-- A path that can be written leads, in a grown tree, to what is written there. -/
theorem status_of_writable (h : v.writable p = .ok loc)
    (hdir : w.workingDirectory = v.workingDirectory) (hgrows : v.tree.Grows w.tree)
    (hfile : w.tree.find? loc = some (.file contents)) :
    w.status p = .ok (loc, .file contents) := by
  obtain ⟨hcheck, -, k, g, hk, hleads, hg⟩ := of_writable h
  have hbecomes : Tree.Becomes w.tree g (.entry loc (.file contents)) := by
    obtain rfl | ⟨before, rfl⟩ := hg
    · exact .made hfile
    · exact .written hfile
  exact status_eq_ok_iff.mpr ⟨hcheck, k, hk, start_eq hdir p ▸ hleads.of_grows hgrows hbecomes⟩

/-- What stands at a location after one was written to. -/
theorem find?_put (h : v.tree.IsVacant loc) (e : Entry) (l : Location) :
    (v.put loc e).tree.find? l = if l = loc then some e else v.tree.find? l :=
  Tree.find?_insert _ h.ne_nil e l

/-- A name in a directory is written there, unless a link stands in its place. -/
theorem place_of_writable {n : Bytes} (hn : IsFileName n) (h : v.writable (p.join ⟨n⟩) = .ok loc)
    (hdir : w.workingDirectory = v.workingDirectory) (hgrows : v.tree.Grows w.tree) :
    ∃ dir k, Leads w.tree (w.start p) p.named k (.entry dir .directory) ∧
      (loc = dir ++ [n] ∨ w.tree.IsLink (dir ++ [n])) := by
  obtain ⟨-, -, k, g, -, hleads, hg⟩ := of_writable h
  rw [start_join hn, Tree.steps_join_name hn] at hleads
  obtain ⟨dir, i, j, hi, hj, -⟩ := hleads.split (List.cons_ne_nil n [])
  refine ⟨dir, i, start_eq hdir p ▸ hi.of_grows hgrows (.directory dir), ?_⟩
  obtain ⟨-, rfl⟩ | ⟨before, -, rfl⟩ | ⟨-, rfl⟩ | ⟨target, hlink⟩ :=
    hj.of_name (hj.isLookedUp hn)
  · obtain hg | ⟨before, hg⟩ := hg <;> cases hg
    exact .inl rfl
  · obtain hg | ⟨before, hg⟩ := hg <;> cases hg
    exact .inl rfl
  · obtain hg | ⟨before, hg⟩ := hg <;> cases hg
  · exact .inr ⟨target, hgrows.link hlink⟩

/-! ### Several files -/

/-- A file that was written: under which path, at which place, and what. -/
structure Write where
  path : Path
  place : Location
  contents : Bytes

/-- What was written last at a place. -/
def lastWrite? (ws : List Write) (loc : Location) : Option Bytes :=
  (ws.reverse.find? (·.place = loc)).map Write.contents

/-- The files of `ws` are written one after the other, and directories are made in between. -/
inductive Writes : View → List Write → View → Prop where
  | nil {v w : View} (h : v.Prepares w) : Writes v [] w
  | cons {v u w : View} {r : Write} {ws : List Write} (hmade : v.Prepares u)
      (hplace : u.writable r.path = .ok r.place)
      (h : Writes (u.put r.place (.file r.contents)) ws w) : Writes v (r :: ws) w

variable {ws ws' : List Write}

theorem Writes.prepend (hmade : v.Prepares w) (h : Writes w ws x) : Writes v ws x := by
  cases h with
  | nil h => exact .nil (hmade.trans h)
  | cons hmade' hplace h => exact .cons (hmade.trans hmade') hplace h

/-- Files may be written in two runs, one after the other. -/
theorem Writes.append (h : Writes v ws w) (h' : Writes w ws' x) : Writes v (ws ++ ws') x := by
  induction h with
  | nil hmade => exact h'.prepend hmade
  | cons hmade hplace _ ih => exact .cons hmade hplace (ih h')

theorem Writes.workingDirectory (h : Writes v ws w) : w.workingDirectory = v.workingDirectory := by
  induction h with
  | nil h => exact h.workingDirectory
  | cons hmade _ _ ih => exact ih.trans hmade.workingDirectory

/-- A tree that is written to grows. -/
theorem Writes.grows (h : Writes v ws w) : v.tree.Grows w.tree := by
  induction h with
  | nil h => exact h.grows
  | cons hmade hplace _ ih =>
      exact (hmade.grows.trans (Tree.grows_insert_file (isVacant_of_writable hplace) _)).trans ih

/-- The last write at a location is one of the later ones, if any is there. -/
theorem lastWrite?_cons (r : Write) (ws : List Write) (loc : Location) :
    lastWrite? (r :: ws) loc =
      (lastWrite? ws loc).or (if r.place = loc then some r.contents else none) := by
  unfold lastWrite?
  rw [List.reverse_cons, List.find?_append]
  cases ws.reverse.find? (·.place = loc) with
  | some found => rfl
  | none => by_cases h : r.place = loc <;> simp [h]

/-- The files afterwards: what was written last, and elsewhere what there was before. -/
theorem Writes.find?_file_iff (h : Writes v ws w) (loc : Location) (contents : Bytes) :
    w.tree.find? loc = some (.file contents) ↔ match lastWrite? ws loc with
      | some last => contents = last
      | none => v.tree.find? loc = some (.file contents) := by
  induction h with
  | nil h => exact h.files loc contents
  | @cons v u w r ws hmade hplace _ ih =>
      rw [ih, lastWrite?_cons]
      cases lastWrite? ws loc with
      | some last => rfl
      | none =>
          rw [find?_put (isVacant_of_writable hplace)]
          by_cases hloc : loc = r.place
          · simp [hloc, eq_comm]
          · simp [hloc, Ne.symm hloc, hmade.files]

/-- There is a last write exactly where something is written. -/
theorem isSome_lastWrite?_iff :
    (lastWrite? ws loc).isSome = true ↔ loc ∈ ws.map Write.place := by
  simp [lastWrite?]

/-- The path of a written file leads to its place, where the last file written there is found. -/
theorem Writes.status_of_mem (h : Writes v ws w) {r : Write} (hr : r ∈ ws) :
    ∃ last, lastWrite? ws r.place = some last ∧
      w.status r.path = .ok (r.place, .file last) := by
  obtain ⟨last, hlast⟩ := Option.isSome_iff_exists.mp
    (isSome_lastWrite?_iff.mpr (List.mem_map_of_mem hr))
  have hfile : w.tree.find? r.place = some (.file last) := by
    rw [h.find?_file_iff, hlast]
  refine ⟨last, hlast, ?_⟩
  -- What stands at the place in the end is all that the induction needs.
  clear hlast
  induction h with
  | nil => cases hr
  | @cons v u w r' ws hmade hplace hrest ih =>
      obtain rfl | hr := List.mem_cons.mp hr
      · have hgrows := Tree.grows_insert_file (isVacant_of_writable hplace) r.contents
        exact status_of_writable hplace hrest.workingDirectory (hgrows.trans hrest.grows) hfile
      · exact ih hr hfile

/-- The place of a file that was written under a name in a directory. -/
theorem Writes.place_of_mem (h : Writes v ws w) {r : Write} (hr : r ∈ ws) {n : Bytes}
    (hn : IsFileName n) (hpath : r.path = p.join ⟨n⟩) :
    ∃ dir k, Leads w.tree (w.start p) p.named k (.entry dir .directory) ∧
      (r.place = dir ++ [n] ∨ w.tree.IsLink (dir ++ [n])) := by
  induction h with
  | nil => cases hr
  | @cons v u w r' ws hmade hplace hrest ih =>
      obtain rfl | hr := List.mem_cons.mp hr
      · have hgrows := Tree.grows_insert_file (isVacant_of_writable hplace) r.contents
        rw [hpath] at hplace
        exact place_of_writable hn hplace hrest.workingDirectory (hgrows.trans hrest.grows)
      · exact ih hr

/-- A written file is kept exactly if nothing else was written at its place later. -/
theorem Writes.read_eq_iff (h : Writes v ws w) {r : Write} (hr : r ∈ ws) :
    w.read r.path = .ok r.contents ↔ lastWrite? ws r.place = some r.contents := by
  obtain ⟨last, hlast, hstatus⟩ := h.status_of_mem hr
  simp [read, hstatus, hlast]

/-- Files at different places are all kept. -/
theorem lastWrite?_of_nodup (h : (ws.map Write.place).Nodup) {r : Write} (hr : r ∈ ws) :
    lastWrite? ws r.place = some r.contents := by
  induction ws with
  | nil => cases hr
  | cons r' ws ih =>
      obtain ⟨hnew, hrest⟩ := List.nodup_cons.mp h
      rw [lastWrite?_cons]
      obtain rfl | hr := List.mem_cons.mp hr
      · have hnone : lastWrite? ws r.place = none := by
          rw [← Option.not_isSome_iff_eq_none, isSome_lastWrite?_iff]
          exact hnew
        simp [hnone]
      · rw [ih hrest hr]
        rfl

end View

end ImportXref
