import ImportXref.Text.Order

/-!
# Reference maps — for each module, its list of references

A `RefMap` keeps its keys in ascending order, so its look-ups determine it.  It only grows:
`extend` adds references at the end of one list and creates that list if need be.

* `find?_extend`: what a look-up sees after `extend`;
* `find?_isSome_iff`: the keys are those with a look-up;
* `ext_find?`: two maps with the same look-ups are equal.
-/

namespace ImportXref

/-- A finite map from modules to lists of references, its keys in ascending order. -/
structure RefMap where
  /-- The keys and their lists. -/
  entries : List (Text × List Text)
  /-- The keys ascend. -/
  ascending : entries.Pairwise fun a b => Text.precedes a.1 b.1

namespace RefMap

/-- The map without keys. -/
def empty : RefMap := ⟨[], .nil⟩

instance : Inhabited RefMap := ⟨empty⟩

/-- The list of the key `k`. -/
def find? (m : RefMap) (k : Text) : Option (List Text) :=
  m.entries.lookup k

/-- The list of the key `k`, empty if there is none. -/
def list (m : RefMap) (k : Text) : List Text :=
  (m.find? k).getD []

/-- The keys in ascending order. -/
def keys (m : RefMap) : List Text :=
  m.entries.map (·.1)

/-- The number of references in all lists. -/
def size (m : RefMap) : Nat :=
  (m.entries.flatMap fun e => e.2).length

/-- Adds `xs` at the end of the list of `k` in an ascending list of entries. -/
def extendEntries (k : Text) (xs : List Text) : List (Text × List Text) → List (Text × List Text)
  | [] => [(k, xs)]
  | (h, ys) :: rest =>
    if k = h then (h, ys ++ xs) :: rest
    else if Text.precedes k h then (k, xs) :: (h, ys) :: rest
    else (h, ys) :: extendEntries k xs rest

/-- No key but `k` is new. -/
theorem mem_extendEntries_fst {k : Text} {xs : List Text} {l : List (Text × List Text)}
    {e : Text × List Text} (h : e ∈ extendEntries k xs l) : e.1 = k ∨ ∃ f ∈ l, f.1 = e.1 := by
  induction l with
  | nil => simp_all [extendEntries]
  | cons a l ih =>
    obtain ⟨g, ys⟩ := a
    simp only [extendEntries] at h
    split at h
    · rcases List.mem_cons.mp h with rfl | h
      · exact Or.inr ⟨_, List.mem_cons_self .., rfl⟩
      · exact Or.inr ⟨e, List.mem_cons_of_mem _ h, rfl⟩
    · split at h
      · rcases List.mem_cons.mp h with rfl | h
        · exact Or.inl rfl
        · exact Or.inr ⟨e, h, rfl⟩
      · rcases List.mem_cons.mp h with rfl | h
        · exact Or.inr ⟨_, List.mem_cons_self .., rfl⟩
        · rcases ih h with h | ⟨f, hf, he⟩
          · exact Or.inl h
          · exact Or.inr ⟨f, List.mem_cons_of_mem _ hf, he⟩

/-- The keys stay in order. -/
theorem ascending_extendEntries {k : Text} {xs : List Text} {l : List (Text × List Text)}
    (h : l.Pairwise fun a b => Text.precedes a.1 b.1) :
    (extendEntries k xs l).Pairwise fun a b => Text.precedes a.1 b.1 := by
  induction l with
  | nil => simp [extendEntries]
  | cons a l ih =>
    obtain ⟨g, ys⟩ := a
    obtain ⟨hg, hl⟩ := List.pairwise_cons.mp h
    simp only [extendEntries]
    split
    · exact List.pairwise_cons.mpr ⟨hg, hl⟩
    · next hne =>
      split
      · next hlt =>
        refine List.pairwise_cons.mpr ⟨fun e he => ?_, h⟩
        rcases List.mem_cons.mp he with rfl | he
        · exact hlt
        · exact Text.precedes_trans hlt (hg e he)
      · next hge =>
        refine List.pairwise_cons.mpr ⟨fun e he => ?_, ih hl⟩
        rcases mem_extendEntries_fst he with he | ⟨f, hf, he⟩
        · exact he ▸ Text.precedes_total (by simpa using hge) hne
        · exact he ▸ hg f hf

/-- Adds `xs` at the end of the list of `k`. -/
def extend (m : RefMap) (k : Text) (xs : List Text) : RefMap :=
  ⟨extendEntries k xs m.entries, ascending_extendEntries m.ascending⟩

/-! ### Look-ups -/

theorem lookup_cons_ite (j g : Text) (ys : List Text) (l : List (Text × List Text)) :
    ((g, ys) :: l).lookup j = if j = g then some ys else l.lookup j := by
  by_cases h : j = g
  · subst h; simp
  · rw [List.lookup_cons, beq_eq_false_iff_ne.mpr h, if_neg h]

theorem lookup_eq_none_of_precedes {k : Text} {l : List (Text × List Text)}
    (h : ∀ e ∈ l, Text.precedes k e.1) : l.lookup k = none := by
  induction l with
  | nil => rfl
  | cons a l ih =>
    obtain ⟨g, ys⟩ := a
    have hg := h _ (List.mem_cons_self ..)
    have hne : k ≠ g := by rintro rfl; simp [Text.precedes_irrefl] at hg
    rw [lookup_cons_ite, if_neg hne]
    exact ih fun e he => h e (List.mem_cons_of_mem _ he)

/-- A list that is made longer is found under its key, and the others as before. -/
theorem lookup_extendEntries {k j : Text} {xs : List Text} {l : List (Text × List Text)}
    (h : l.Pairwise fun a b => Text.precedes a.1 b.1) :
    (extendEntries k xs l).lookup j =
      if j = k then some ((l.lookup k).getD [] ++ xs) else l.lookup j := by
  induction l with
  | nil => simp only [extendEntries, lookup_cons_ite]; simp
  | cons a l ih =>
    obtain ⟨g, ys⟩ := a
    obtain ⟨hg, hl⟩ := List.pairwise_cons.mp h
    simp only [extendEntries]
    split
    · next he => subst he; by_cases hj : j = k <;> simp [lookup_cons_ite, hj]
    · next hne =>
      split
      · next hlt =>
        have hnone : l.lookup k = none :=
          lookup_eq_none_of_precedes fun e he => Text.precedes_trans hlt (hg e he)
        by_cases hj : j = k <;> simp [lookup_cons_ite, hj, hne, hnone]
      · by_cases hj : j = k
        · subst hj; simp [lookup_cons_ite, hne, ih hl]
        · by_cases hjg : j = g <;> simp_all [lookup_cons_ite]

/-- What is found after a list was made longer. -/
theorem find?_extend (m : RefMap) (k j : Text) (xs : List Text) :
    (m.extend k xs).find? j = if j = k then some (m.list k ++ xs) else m.find? j :=
  lookup_extendEntries m.ascending

/-- The lists after one was made longer. -/
theorem list_extend (m : RefMap) (k j : Text) (xs : List Text) :
    (m.extend k xs).list j = if j = k then m.list k ++ xs else m.list j := by
  rw [list, find?_extend]
  by_cases h : j = k <;> simp [h, list]

theorem lookup_eq_some_iff_mem {k : Text} {xs : List Text} {l : List (Text × List Text)}
    (h : l.Pairwise fun a b => Text.precedes a.1 b.1) : l.lookup k = some xs ↔ (k, xs) ∈ l := by
  induction l with
  | nil => simp
  | cons a l ih =>
    obtain ⟨g, ys⟩ := a
    obtain ⟨hg, hl⟩ := List.pairwise_cons.mp h
    rw [lookup_cons_ite]
    by_cases hk : k = g
    · subst hk
      have : (k, xs) ∉ l := fun hm => by simpa [Text.precedes_irrefl] using hg _ hm
      simp [this, eq_comm]
    · simp [hk, ih hl]

/-- What is found under a key is its entry. -/
theorem find?_eq_some_iff {m : RefMap} {k : Text} {xs : List Text} :
    m.find? k = some xs ↔ (k, xs) ∈ m.entries :=
  lookup_eq_some_iff_mem m.ascending

theorem find?_isSome_iff {m : RefMap} {k : Text} : (m.find? k).isSome ↔ k ∈ m.keys := by
  simp only [Option.isSome_iff_exists, find?_eq_some_iff, keys, List.mem_map, Prod.exists,
    exists_and_right, exists_eq_right]

/-- The key of a list that is made longer is there, and the others as before. -/
theorem mem_keys_extend {m : RefMap} {k j : Text} {xs : List Text} :
    j ∈ (m.extend k xs).keys ↔ j ∈ m.keys ∨ j = k := by
  rw [← find?_isSome_iff, ← find?_isSome_iff, find?_extend]
  by_cases h : j = k <;> simp [h]

/-- No key comes twice. -/
theorem keys_nodup (m : RefMap) : m.keys.Nodup := by
  refine List.pairwise_map.mpr (m.ascending.imp fun {a b} h he => ?_)
  simp [he, Text.precedes_irrefl] at h

theorem length_extendEntries (k : Text) (xs : List Text) (l : List (Text × List Text)) :
    ((extendEntries k xs l).flatMap fun e => e.2).length =
      (l.flatMap fun e => e.2).length + xs.length := by
  induction l with
  | nil => simp [extendEntries]
  | cons a l ih =>
    obtain ⟨g, ys⟩ := a
    simp only [extendEntries]
    split
    · simp only [List.flatMap_cons, List.length_append]; omega
    · split
      · simp only [List.flatMap_cons, List.length_append]; omega
      · simp only [List.flatMap_cons, List.length_append, ih]; omega

/-- A map holds as many members more as a list was made longer by. -/
theorem size_extend (m : RefMap) (k : Text) (xs : List Text) :
    (m.extend k xs).size = m.size + xs.length :=
  length_extendEntries k xs m.entries

/-- Two ascending lists of entries with the same members are equal. -/
theorem eq_of_mem_iff {l l' : List (Text × List Text)}
    (h : l.Pairwise fun a b => Text.precedes a.1 b.1)
    (h' : l'.Pairwise fun a b => Text.precedes a.1 b.1) (hm : ∀ e, e ∈ l ↔ e ∈ l') : l = l' := by
  have hirrefl {a b : Text × List Text} (hab : Text.precedes a.1 b.1) : a ≠ b := fun he => by
    rw [he, Text.precedes_irrefl] at hab
    cases hab
  have hperm : l.Perm l' :=
    (List.perm_ext_iff_of_nodup (h.imp hirrefl) (h'.imp hirrefl)).mpr hm
  refine hperm.eq_of_pairwise (fun a b _ _ hab hba => ?_) h h'
  exact absurd rfl (hirrefl (Text.precedes_trans hab hba))

/-- A map is determined by its look-ups. -/
theorem ext_find? {m m' : RefMap} (h : ∀ k, m.find? k = m'.find? k) : m = m' := by
  obtain ⟨l, hl⟩ := m
  obtain ⟨l', hl'⟩ := m'
  have : l = l' := eq_of_mem_iff hl hl' fun e => by
    rw [← lookup_eq_some_iff_mem hl, ← lookup_eq_some_iff_mem hl']
    exact iff_of_eq (congrArg (· = some e.2) (h e.1))
  subst this
  rfl

end RefMap

end ImportXref
