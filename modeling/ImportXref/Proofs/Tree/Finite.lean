import ImportXref.Proofs.Tree.Walking
import Mathlib.Algebra.Order.BigOperators.Group.List
import Mathlib.Algebra.Order.Group.Nat

/-!
# Trees — no way is endless

A walk ends because paths may not get too long.  It would end without that limit too, whatever
the links of the tree: a link is followed only to a directory that the way is not inside of, of
which there are finitely many, and between two links the way goes down in the tree.

* `Reaches.length_le`: the bound that these two make together.
* `exists_bound`: from each directory there is a bound on the ways through the tree.
-/

namespace ImportXref.Tree

variable {t : Tree}

/-- Locations among which every directory is found that a way can come to. -/
structure Closed (t : Tree) (dirs : List Location) : Prop where
  root : [] ∈ dirs
  up : ∀ loc ∈ dirs, loc.dropLast ∈ dirs
  directory : ∀ loc, t.find? loc = some .directory → loc ∈ dirs

/-- **From each directory, only finitely many others can be reached.** -/
theorem exists_closed (t : Tree) (start : Location) : ∃ dirs, t.Closed dirs ∧ start ∈ dirs := by
  have hmem {l loc : Location} (h : l ∈ start :: t.entries.map (·.1)) (hp : loc <+: l) :
      loc ∈ (start :: t.entries.map (·.1)).flatMap List.inits :=
    List.mem_flatMap.mpr ⟨l, h, (List.mem_inits ..).mpr hp⟩
  have hstart : start ∈ start :: t.entries.map (·.1) := List.mem_cons_self
  refine ⟨_, ⟨hmem hstart List.nil_prefix, fun loc hloc => ?_, fun loc hfind => ?_⟩,
    hmem hstart (List.prefix_refl start)⟩
  · obtain ⟨l, hl, hp⟩ := List.mem_flatMap.mp hloc
    exact hmem hl ((List.dropLast_prefix loc).trans ((List.mem_inits ..).mp hp))
  · cases loc with
    | nil => exact hmem hstart List.nil_prefix
    | cons n loc =>
        obtain ⟨before, after, he, -⟩ := List.lookup_eq_some_iff.mp hfind
        refine hmem (List.mem_cons_of_mem _ ?_) (List.prefix_refl _)
        rw [he]
        simp

/-- A way to a directory stays among closed locations. -/
theorem Leads.mem_of_closed {dirs : List Location} (hdirs : t.Closed dirs) {dir loc : Location}
    {parts : List Bytes} {k : Nat} (h : Leads t dir parts k (.entry loc .directory))
    (hdir : dir ∈ dirs) : loc ∈ dirs := by
  generalize hg : Target.entry loc .directory = g at h
  induction h with
  | stay dir => cases hg; exact hdir
  | missing | file => cases hg
  | skip _ _ ih => exact ih hdir hg
  | up _ ih => exact ih (hdirs.up _ hdir) hg
  | enter _ hfind _ ih => exact ih (hdirs.directory _ hfind) hg
  | link _ _ _ _ ih =>
      refine ih ?_ hg
      split
      · exact hdirs.root
      · exact hdir

/-- How many of the directories are still outside of a way. -/
def room (dirs inside : List Location) : Nat :=
  (dirs.filter (· ∉ inside)).length

theorem room_cons_le (dirs inside : List Location) (loc : Location) :
    room dirs (loc :: inside) ≤ room dirs inside :=
  (List.monotone_filter_right dirs fun l => by simp).length_le

/-- Going into a directory that the way is not inside of leaves less room. -/
theorem room_cons_lt {dirs inside : List Location} {loc : Location} (hloc : loc ∈ dirs)
    (hnew : loc ∉ inside) : room dirs (loc :: inside) < room dirs inside := by
  have hsub : (dirs.filter (· ∉ loc :: inside)).Sublist (dirs.filter (· ∉ inside)) :=
    List.monotone_filter_right dirs fun l => by simp
  refine Nat.lt_of_le_of_ne hsub.length_le fun he => ?_
  have hmem : loc ∈ dirs.filter (· ∉ inside) := List.mem_filter.mpr ⟨hloc, by simpa using hnew⟩
  rw [← hsub.eq_of_length he] at hmem
  simp at hmem

/-- A link leads to a directory that was not on the way, and between two links the way goes down
in the tree: the two together get smaller with each name. -/
theorem Reaches.length_le (ht : t.WellNamed) {dirs : List Location} (hdirs : t.Closed dirs)
    {height : Nat} (hheight : ∀ loc ∈ dirs, loc.length ≤ height) {above : List Location}
    {dir loc : Location} {names : List Bytes} {contents : Bytes}
    (h : Reaches t above dir names loc contents) (hdir : dir ∈ dirs) :
    names.length ≤ room dirs (dir :: above) * (height + 1) + (height - dir.length) + 1 := by
  induction h with
  | file => simp
  | @inside above dir mid loc n contents k names hmem hk hnew _ ih =>
      have hmid : mid ∈ dirs := hk.mem_of_closed hdirs hdir
      have hlength := ih hmid
      rw [List.length_cons]
      obtain ⟨-, hg⟩ | ⟨_, -, hg⟩ | ⟨-, hg⟩ | hlink :=
        hk.of_name (isLookedUp_of_isFileName (isFileName_of_mem_names ht hmem))
      · cases hg
      · cases hg
      · -- Down in the tree: as much room at most, and less height left.
        cases hg
        have hroom := Nat.mul_le_mul_right (height + 1)
          (room_cons_le dirs (dir :: above) (dir ++ [n]))
        have hdown := hheight _ hmid
        rw [List.length_append, List.length_singleton] at hdown hlength
        omega
      · -- Over a link: less room, and the height may start anew.
        have hroom := Nat.mul_le_mul_right (height + 1) (room_cons_lt hmid (hnew hlink))
        rw [Nat.succ_mul] at hroom
        omega

/-- **No way through a tree is endless**, whatever its links. -/
theorem exists_bound (ht : t.WellNamed) (dir : Location) : ∃ bound, ∀ names loc contents,
    Reaches t [] dir names loc contents → names.length ≤ bound := by
  obtain ⟨dirs, hdirs, hdir⟩ := t.exists_closed dir
  have hheight : ∀ loc ∈ dirs, loc.length ≤ (dirs.map List.length).sum := fun loc hloc =>
    List.le_sum_of_mem (List.mem_map_of_mem hloc)
  exact ⟨_, fun names loc contents h => h.length_le ht hdirs hheight hdir⟩

end ImportXref.Tree
