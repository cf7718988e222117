import ImportXref.Tree.Basic

/-!
# Trees — where the parts of a path lead

`Leads t dir parts k g` says that the parts lead from the directory `dir` to `g` over `k` links,
however many these are.  The system follows a path to the same place, over at most `maxLinks` of
them.  A path that goes on from a directory can be followed in two pieces.

* `followLinks_eq_ok_iff`: what is found over at most `n` links.
* `Leads.unique`: the parts lead to one place.
* `Leads.append`, `Leads.split`: the second piece starts from the directory that the first one
  leads to.
* `Leads.congr_directory`, `leads_concat_congr`: dots on the way make no difference.
-/

namespace ImportXref.Tree

variable {t : Tree}

/-- A part that is looked up in a directory, as no dots and no slash are. -/
structure IsLookedUp (part : Bytes) : Prop where
  ne_dot : part ≠ [46]
  ne_slash : part ≠ slash
  ne_up : part ≠ [46, 46]
  length_le : part.length ≤ maxName

/-- The parts lead from the directory `dir` to a target over `k` links. -/
inductive Leads (t : Tree) : Location → List Bytes → Nat → Target → Prop where
  | stay (dir : Location) : Leads t dir [] 0 (.entry dir .directory)
  | skip {dir : Location} {part : Bytes} {rest : List Bytes} {k : Nat} {g : Target}
      (hpart : part = [46] ∨ part = slash) (h : Leads t dir rest k g) :
      Leads t dir (part :: rest) k g
  | up {dir : Location} {rest : List Bytes} {k : Nat} {g : Target}
      (h : Leads t dir.dropLast rest k g) : Leads t dir ([46, 46] :: rest) k g
  | missing {dir : Location} {part : Bytes} (hpart : IsLookedUp part)
      (hfind : t.find? (dir ++ [part]) = none) :
      Leads t dir [part] 0 (.missing (dir ++ [part]))
  | file {dir : Location} {part : Bytes} {contents : Bytes} (hpart : IsLookedUp part)
      (hfind : t.find? (dir ++ [part]) = some (.file contents)) :
      Leads t dir [part] 0 (.entry (dir ++ [part]) (.file contents))
  | enter {dir : Location} {part : Bytes} {rest : List Bytes} {k : Nat} {g : Target}
      (hpart : IsLookedUp part) (hfind : t.find? (dir ++ [part]) = some .directory)
      (h : Leads t (dir ++ [part]) rest k g) : Leads t dir (part :: rest) k g
  | link {dir : Location} {part : Bytes} {rest : List Bytes} {target : Path} {k : Nat} {g : Target}
      (hpart : IsLookedUp part) (hfind : t.find? (dir ++ [part]) = some (.link target))
      (htarget : target.bytes ≠ [])
      (h : Leads t (if target.isAbsolute then [] else dir) (steps target ++ rest) k g) :
      Leads t dir (part :: rest) (k + 1) g

/-! ### Following and leading -/

/-- What is found without going through a link, or over one more link than `onLink` goes over. -/
theorem leads_of_follow {creating : Bool} {n : Nat}
    {onLink : Location → List Bytes → Except IoError Target}
    (honLink : ∀ dir parts g, onLink dir parts = .ok g → ∃ k, k + 1 ≤ n ∧ Leads t dir parts k g)
    {dir : Location} {parts : List Bytes} {g : Target}
    (h : follow t creating onLink dir parts = .ok g) : ∃ k, k ≤ n ∧ Leads t dir parts k g := by
  induction parts generalizing dir with
  | nil =>
      cases h
      exact ⟨0, Nat.zero_le n, .stay dir⟩
  | cons part rest ih =>
      simp only [follow, Bool.or_eq_true, decide_eq_true_eq] at h
      split at h
      · next hpart =>
        obtain ⟨k, hk, hrest⟩ := ih h
        exact ⟨k, hk, .skip hpart hrest⟩
      split at h
      · next hup =>
        obtain ⟨k, hk, hrest⟩ := ih h
        exact ⟨k, hk, hup ▸ .up hrest⟩
      split at h
      · cases h
      split at h
      · cases h
      next hskip hup _ hlength =>
      obtain ⟨hdot, hslash⟩ := not_or.mp hskip
      have hpart : IsLookedUp part := ⟨hdot, hslash, hup, Nat.le_of_not_lt hlength⟩
      split at h
      · next hfind =>
        split at h <;> cases h
        next hrest => exact ⟨0, Nat.zero_le n, hrest ▸ .missing hpart hfind⟩
      · next contents hfind =>
        split at h <;> cases h
        next hrest => exact ⟨0, Nat.zero_le n, hrest ▸ .file hpart hfind⟩
      · next hfind =>
        obtain ⟨k, hk, hrest⟩ := ih h
        exact ⟨k, hk, .enter hpart hfind hrest⟩
      · next target hfind =>
        split at h
        · cases h
        next htarget =>
        obtain ⟨k, hk, hrest⟩ := honLink _ _ _ h
        exact ⟨k + 1, hk, .link hpart hfind htarget hrest⟩

theorem leads_of_followLinks {creating : Bool} {n : Nat} {dir : Location} {parts : List Bytes}
    {g : Target} (h : t.followLinks creating n dir parts = .ok g) :
    ∃ k, k ≤ n ∧ Leads t dir parts k g := by
  induction n generalizing dir parts g with
  | zero => exact leads_of_follow (fun _ _ _ h => by cases h) h
  | succ n ih =>
      refine leads_of_follow (fun dir parts g h => ?_) h
      obtain ⟨k, hk, hleads⟩ := ih h
      exact ⟨k, Nat.succ_le_succ hk, hleads⟩

/-- Following with a link allowed for each one on the way. -/
theorem follow_of_leads {dir : Location} {parts : List Bytes} {k : Nat} {g : Target}
    (h : Leads t dir parts k g) {onLink : Location → List Bytes → Except IoError Target}
    (honLink : ∀ dir parts m, m < k → Leads t dir parts m g → onLink dir parts = .ok g) :
    follow t false onLink dir parts = .ok g := by
  induction h with
  | stay dir => rfl
  | skip hpart h ih => simp [follow, hpart, ih honLink]
  | up h ih => rw [follow, if_neg (by decide), if_pos rfl, ih honLink]
  | missing hpart hfind =>
      simp [follow, hpart.ne_dot, hpart.ne_slash, hpart.ne_up, hpart.length_le, hfind]
  | file hpart hfind =>
      simp [follow, hpart.ne_dot, hpart.ne_slash, hpart.ne_up, hpart.length_le, hfind]
  | enter hpart hfind h ih =>
      simp [follow, hpart.ne_dot, hpart.ne_slash, hpart.ne_up, hpart.length_le, hfind, ih honLink]
  | link hpart hfind htarget h _ =>
      have hon := honLink _ _ _ (Nat.lt_succ_self _) h
      simp [follow, hpart.ne_dot, hpart.ne_slash, hpart.ne_up, hpart.length_le, hfind, htarget, hon]

theorem followLinks_of_leads {dir : Location} {parts : List Bytes} {k n : Nat} {g : Target}
    (h : Leads t dir parts k g) (hk : k ≤ n) : t.followLinks false n dir parts = .ok g := by
  induction n generalizing dir parts k with
  | zero =>
      refine follow_of_leads h fun _ _ m hm _ => ?_
      omega
  | succ n ih => exact follow_of_leads h fun _ _ m hm hleads => ih hleads (by omega)

/-- **What the system finds** over at most `n` links is where the parts lead over as many. -/
theorem followLinks_eq_ok_iff {dir : Location} {parts : List Bytes} {n : Nat} {g : Target} :
    t.followLinks false n dir parts = .ok g ↔ ∃ k, k ≤ n ∧ Leads t dir parts k g :=
  ⟨leads_of_followLinks, fun ⟨_, hk, h⟩ => followLinks_of_leads h hk⟩

/-- The parts lead to one place. -/
theorem Leads.unique {dir : Location} {parts : List Bytes} {k m : Nat} {g g' : Target}
    (h : Leads t dir parts k g) (h' : Leads t dir parts m g') : g = g' := by
  have hg := followLinks_of_leads h (Nat.le_max_left k m)
  rw [followLinks_of_leads h' (Nat.le_max_right k m)] at hg
  exact (Except.ok.inj hg).symm

/-! ### Two pieces -/

/-- Parts that lead to a directory can be gone on from. -/
theorem Leads.append {dir mid : Location} {parts more : List Bytes} {k m : Nat} {g : Target}
    (h : Leads t dir parts k (.entry mid .directory)) (hmore : Leads t mid more m g) :
    Leads t dir (parts ++ more) (k + m) g := by
  generalize he : Target.entry mid .directory = e at h
  induction h with
  | stay dir => cases he; simpa using hmore
  | skip hpart h ih => exact .skip hpart (ih he)
  | up h ih => exact .up (ih he)
  | missing hpart hfind => cases he
  | file hpart hfind => cases he
  | enter hpart hfind h ih => exact .enter hpart hfind (ih he)
  | link hpart hfind htarget h ih =>
      rw [Nat.add_right_comm]
      exact .link hpart hfind htarget (List.append_assoc .. ▸ ih he)

theorem splits_of_nil {dir : Location} {more all : List Bytes} {k : Nat} {g : Target}
    (he : [] ++ more = all) (h : Leads t dir all k g) :
    ∃ mid i j, Leads t dir [] i (.entry mid .directory) ∧ Leads t mid more j g ∧ i + j = k :=
  ⟨dir, 0, k, .stay dir, by rwa [← he] at h, Nat.zero_add k⟩

/-- If more parts are to come, the ones before them lead to a directory. -/
theorem Leads.split {dir : Location} {parts more : List Bytes} {k : Nat} {g : Target}
    (h : Leads t dir (parts ++ more) k g) (hmore : more ≠ []) :
    ∃ mid i j, Leads t dir parts i (.entry mid .directory) ∧ Leads t mid more j g ∧ i + j = k := by
  -- The induction is on the way; behind a link its parts come before those left of `parts`.
  generalize he : parts ++ more = all at h
  induction h generalizing parts with
  | stay dir => exact absurd (List.append_eq_nil_iff.mp he).2 hmore
  | skip hpart h ih =>
      cases parts with
      | nil => exact splits_of_nil he (.skip hpart h)
      | cons part parts =>
          obtain ⟨rfl, rfl⟩ := List.cons_eq_cons.mp he
          obtain ⟨mid, i, j, hi, hj, hk⟩ := ih rfl
          exact ⟨mid, i, j, .skip hpart hi, hj, hk⟩
  | up h ih =>
      cases parts with
      | nil => exact splits_of_nil he (.up h)
      | cons part parts =>
          obtain ⟨rfl, rfl⟩ := List.cons_eq_cons.mp he
          obtain ⟨mid, i, j, hi, hj, hk⟩ := ih rfl
          exact ⟨mid, i, j, .up hi, hj, hk⟩
  | missing hpart hfind =>
      cases parts with
      | nil => exact splits_of_nil he (.missing hpart hfind)
      | cons part parts =>
          obtain ⟨-, hnil⟩ := List.cons_eq_cons.mp he
          exact absurd (List.append_eq_nil_iff.mp hnil).2 hmore
  | file hpart hfind =>
      cases parts with
      | nil => exact splits_of_nil he (.file hpart hfind)
      | cons part parts =>
          obtain ⟨-, hnil⟩ := List.cons_eq_cons.mp he
          exact absurd (List.append_eq_nil_iff.mp hnil).2 hmore
  | enter hpart hfind h ih =>
      cases parts with
      | nil => exact splits_of_nil he (.enter hpart hfind h)
      | cons part parts =>
          obtain ⟨rfl, rfl⟩ := List.cons_eq_cons.mp he
          obtain ⟨mid, i, j, hi, hj, hk⟩ := ih rfl
          exact ⟨mid, i, j, .enter hpart hfind hi, hj, hk⟩
  | link hpart hfind htarget h ih =>
      cases parts with
      | nil => exact splits_of_nil he (.link hpart hfind htarget h)
      | cons part parts =>
          obtain ⟨rfl, rfl⟩ := List.cons_eq_cons.mp he
          obtain ⟨mid, i, j, hi, hj, hk⟩ := ih (List.append_assoc ..)
          exact ⟨mid, i + 1, j, .link hpart hfind htarget hi, hj, by omega⟩

/-! ### Where a way ends -/

/-- The parts lead to an entry that stands there, or to a directory. -/
theorem Leads.find?_eq {dir loc : Location} {parts : List Bytes} {k : Nat} {e : Entry}
    (h : Leads t dir parts k (.entry loc e)) : e = .directory ∨ t.find? loc = some e := by
  generalize hg : Target.entry loc e = g at h
  induction h with
  | stay dir => cases hg; exact .inl rfl
  | missing => cases hg
  | file _ hfind => cases hg; exact .inr hfind
  | skip _ _ ih | up _ ih | enter _ _ _ ih | link _ _ _ _ ih => exact ih hg

theorem Leads.find?_file {dir loc : Location} {parts : List Bytes} {k : Nat} {contents : Bytes}
    (h : Leads t dir parts k (.entry loc (.file contents))) :
    t.find? loc = some (.file contents) :=
  h.find?_eq.resolve_left nofun

/-- A link is followed, never arrived at. -/
theorem Leads.ne_link {dir loc : Location} {parts : List Bytes} {k : Nat} {target : Path} :
    ¬ Leads t dir parts k (.entry loc (.link target)) := by
  intro h
  generalize hg : Target.entry loc (.link target) = g at h
  induction h with
  | stay | missing | file => cases hg
  | skip _ _ ih | up _ ih | enter _ _ _ ih | link _ _ _ _ ih => exact ih hg

/-- Nothing stands where an entry is missing. -/
theorem Leads.find?_missing {dir loc : Location} {parts : List Bytes} {k : Nat}
    (h : Leads t dir parts k (.missing loc)) : t.find? loc = none := by
  generalize hg : Target.missing loc = g at h
  induction h with
  | stay | file => cases hg
  | missing _ hfind => cases hg; exact hfind
  | skip _ _ ih | up _ ih | enter _ _ _ ih | link _ _ _ _ ih => exact ih hg

/-- A dot or a slash at the end leads to a directory. -/
theorem Leads.of_concat_skipped {dir : Location} {parts : List Bytes} {part : Bytes} {k : Nat}
    {g : Target} (hpart : part = [46] ∨ part = slash) (h : Leads t dir (parts ++ [part]) k g) :
    ∃ loc, g = .entry loc .directory := by
  obtain ⟨mid, i, j, -, hj, -⟩ := h.split (List.cons_ne_nil part [])
  cases hj with
  | skip _ hrest => cases hrest with | stay => exact ⟨mid, rfl⟩
  | up => obtain h | h := hpart <;> simp [slash] at h
  | missing hp => exact absurd hpart (not_or.mpr ⟨hp.ne_dot, hp.ne_slash⟩)
  | file hp => exact absurd hpart (not_or.mpr ⟨hp.ne_dot, hp.ne_slash⟩)
  | enter hp => exact absurd hpart (not_or.mpr ⟨hp.ne_dot, hp.ne_slash⟩)
  | link hp => exact absurd hpart (not_or.mpr ⟨hp.ne_dot, hp.ne_slash⟩)

/-- Whether a link stands at a location. -/
def IsLink (t : Tree) (loc : Location) : Prop :=
  ∃ target, t.find? loc = some (.link target)

/-- From a directory, a name leads over a link exactly if a link stands there. -/
theorem Leads.of_name {dir : Location} {n : Bytes} {k : Nat} {g : Target} (hn : IsLookedUp n)
    (h : Leads t dir [n] k g) :
    (t.find? (dir ++ [n]) = none ∧ g = .missing (dir ++ [n])) ∨
      (∃ contents, t.find? (dir ++ [n]) = some (.file contents) ∧
        g = .entry (dir ++ [n]) (.file contents)) ∨
      (t.find? (dir ++ [n]) = some .directory ∧ g = .entry (dir ++ [n]) .directory) ∨
      t.IsLink (dir ++ [n]) := by
  cases h with
  | skip hp => exact absurd hp (not_or.mpr ⟨hn.ne_dot, hn.ne_slash⟩)
  | up => exact absurd rfl hn.ne_up
  | missing _ hfind => exact .inl ⟨hfind, rfl⟩
  | file _ hfind => exact .inr (.inl ⟨_, hfind, rfl⟩)
  | enter _ hfind hrest => cases hrest with | stay => exact .inr (.inr (.inl ⟨hfind, rfl⟩))
  | link _ hfind => exact .inr (.inr (.inr ⟨_, hfind⟩))

/-! ### Dots on the way -/

/-- The parts that are neither a dot nor a slash. -/
def undotted (parts : List Bytes) : List Bytes :=
  parts.filter fun part => part != [46] && part != slash

@[simp] theorem undotted_append (xs ys : List Bytes) :
    undotted (xs ++ ys) = undotted xs ++ undotted ys :=
  List.filter_append ..

theorem undotted_skipped {part : Bytes} (h : part = [46] ∨ part = slash) (rest : List Bytes) :
    undotted (part :: rest) = undotted rest := by
  obtain rfl | rfl := h <;> rfl

theorem undotted_cons {part : Bytes} (hdot : part ≠ [46]) (hslash : part ≠ slash)
    (rest : List Bytes) : undotted (part :: rest) = part :: undotted rest :=
  List.filter_cons_of_pos (by simp [hdot, hslash])

/-- Dots and slashes in front change nothing. -/
theorem Leads.skips {dir : Location} {parts rest : List Bytes} {k : Nat} {g : Target}
    (hparts : undotted parts = []) (h : Leads t dir rest k g) :
    Leads t dir (parts ++ rest) k g := by
  induction parts with
  | nil => exact h
  | cons part parts ih =>
      have hpart : part = [46] ∨ part = slash := Decidable.byContradiction fun hne => by
        obtain ⟨hdot, hslash⟩ := not_or.mp hne
        rw [undotted_cons hdot hslash] at hparts
        cases hparts
      rw [undotted_skipped hpart] at hparts
      exact .skip hpart (ih hparts)

/-- The parts up to the first one that counts. -/
theorem exists_of_undotted_eq_cons {parts rest : List Bytes} {part : Bytes}
    (h : undotted parts = part :: rest) :
    ∃ dots later, parts = dots ++ part :: later ∧ undotted dots = [] ∧ undotted later = rest := by
  obtain ⟨dots, later, he, hdots, -, hlater⟩ := List.filter_eq_cons_iff.mp h
  exact ⟨dots, later, he, List.filter_eq_nil_iff.mpr hdots, hlater⟩

/-- On the way to a directory, dots and slashes make no difference. -/
theorem Leads.congr_directory {dir loc : Location} {xs ys : List Bytes} {k : Nat}
    (h : Leads t dir xs k (.entry loc .directory)) (he : undotted xs = undotted ys) :
    Leads t dir ys k (.entry loc .directory) := by
  generalize hg : Target.entry loc .directory = g at h
  induction h generalizing ys with
  | stay dir =>
      have hstay := Leads.skips he.symm (Leads.stay (t := t) dir)
      rwa [List.append_nil] at hstay
  | skip hpart h ih => exact ih (undotted_skipped hpart _ ▸ he) hg
  | up h ih =>
      obtain ⟨dots, later, rfl, hdots, hlater⟩ := exists_of_undotted_eq_cons
        (he.symm.trans (undotted_cons (by decide) (by decide) _))
      exact .skips hdots (.up (ih hlater.symm hg))
  | missing => cases hg
  | file => cases hg
  | enter hpart hfind h ih =>
      obtain ⟨dots, later, rfl, hdots, hlater⟩ := exists_of_undotted_eq_cons
        (he.symm.trans (undotted_cons hpart.ne_dot hpart.ne_slash _))
      exact .skips hdots (.enter hpart hfind (ih hlater.symm hg))
  | link hpart hfind htarget h ih =>
      obtain ⟨dots, later, rfl, hdots, hlater⟩ := exists_of_undotted_eq_cons
        (he.symm.trans (undotted_cons hpart.ne_dot hpart.ne_slash _))
      refine .skips hdots (.link hpart hfind htarget (ih ?_ hg))
      rw [undotted_append, undotted_append, hlater]

/-- Before a last part, dots and slashes make no difference. -/
theorem leads_concat_congr {dir : Location} {xs ys : List Bytes} {part : Bytes} {k : Nat}
    {g : Target} (he : undotted xs = undotted ys) :
    Leads t dir (xs ++ [part]) k g ↔ Leads t dir (ys ++ [part]) k g := by
  have hone {xs ys : List Bytes} (he : undotted xs = undotted ys)
      (h : Leads t dir (xs ++ [part]) k g) : Leads t dir (ys ++ [part]) k g := by
    obtain ⟨mid, i, j, hi, hj, rfl⟩ := h.split (List.cons_ne_nil part [])
    exact (hi.congr_directory he).append hj
  exact ⟨hone he, hone he.symm⟩

end ImportXref.Tree
