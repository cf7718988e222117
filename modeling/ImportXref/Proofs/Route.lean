import ImportXref.Proofs.Path
import ImportXref.Proofs.Text.Edges

/-!
# Routes — the components of a path, and the path they are written as

The components of a path are names and double dots, with a slash or a dot in front at most.  Such
a list is a route.  What is left of the components of a path below another one is a route too, and
every route is read back from the path that has slashes between its components.

* `isRoute_below`: what a path is below another one.
* `components_ofRoute`: a route is read back from its path.
* `components_join_ofRoute`: a route that is joined to a path goes on from it.
* `components_join_congr`: so does a path from all paths with the same components.
* `exists_parent?_join_name`: the path above a name has the components of the path that the name
  was joined to.
-/

namespace ImportXref

namespace Component

variable {c : Component}

/-- A component that may stand behind others: its bytes are read as itself. -/
structure IsPlain (c : Component) : Prop where
  ofPart? : ofPart? c.bytes = some c
  slash_notMem : 47 ∉ c.bytes

theorem IsPlain.bytes_ne_nil (h : c.IsPlain) : c.bytes ≠ [] := fun hnil => by
  have hpart := h.ofPart?
  rw [ofPart?_eq_none_iff.mpr (.inl hnil)] at hpart
  cases hpart

theorem IsPlain.bytes_ne_dot (h : c.IsPlain) : c.bytes ≠ [46] := fun hdot => by
  have hpart := h.ofPart?
  rw [ofPart?_eq_none_iff.mpr (.inr hdot)] at hpart
  cases hpart

theorem IsPlain.ne_root (h : c.IsPlain) : c ≠ root := fun he =>
  h.slash_notMem (he ▸ List.mem_singleton_self 47)

theorem IsPlain.ne_here (h : c.IsPlain) : c ≠ here := fun he =>
  h.bytes_ne_dot (he ▸ rfl)

end Component

open Component (IsPlain)

/-- The components that a path can have. -/
inductive IsRoute : List Component → Prop where
  | plain {cs : List Component} (h : ∀ c ∈ cs, c.IsPlain) : IsRoute cs
  | root {cs : List Component} (h : ∀ c ∈ cs, c.IsPlain) : IsRoute (.root :: cs)
  | here {cs : List Component} (h : ∀ c ∈ cs, c.IsPlain) : IsRoute (.here :: cs)

variable {cs ds : List Component} {p q root : Path}

/-- Behind its first component, a route is plain. -/
theorem IsRoute.isPlain_of_mem_tail (h : IsRoute cs) : ∀ c ∈ cs.tail, c.IsPlain := by
  cases h with
  | plain h => exact fun c hc => h c (List.mem_of_mem_tail hc)
  | root h | here h => exact h

theorem IsRoute.drop (h : IsRoute cs) (k : Nat) : IsRoute (cs.drop k) := by
  cases k with
  | zero => exact h
  | succ k =>
      refine .plain fun c hc => h.isPlain_of_mem_tail c ?_
      rw [← List.drop_one]
      rw [Nat.add_comm, ← List.drop_drop] at hc
      exact List.mem_of_mem_drop hc

namespace Path

/-! ### The routes of paths -/

/-- What stands for parts of a path may stand behind other components. -/
theorem isPlain_of_mem_plain {c : Component} (h : c ∈ plain p.parts) : c.IsPlain := by
  obtain ⟨part, hpart, hc⟩ := List.mem_filterMap.mp h
  have hbytes := Component.bytes_of_ofPart? hc
  refine ⟨hbytes.symm ▸ hc, fun hmem => ?_⟩
  rw [hbytes] at hmem
  exact (Text.of_mem_splitOn hpart 47 hmem).2 rfl

/-- **The components of a path are a route.** -/
theorem isRoute_components (p : Path) : IsRoute p.components := by
  have hplain : ∀ c ∈ plain p.parts, c.IsPlain := fun _ => isPlain_of_mem_plain
  rw [components_eq]
  split
  · exact .root hplain
  split
  · exact .here hplain
  · exact .plain hplain

/-- Behind the slash or the dot in front, the components are those that the parts stand for. -/
theorem filter_components (p : Path) :
    (p.components.filter fun c => c != .root && c != .here) = plain p.parts := by
  have hplain : (plain p.parts).filter (fun c => c != .root && c != .here) = plain p.parts :=
    List.filter_eq_self.mpr fun c hc => by
      simp [(isPlain_of_mem_plain hc).ne_root, (isPlain_of_mem_plain hc).ne_here]
  rw [components_eq]
  split
  · exact hplain
  split
  · exact hplain
  · exact hplain

/-- A name in a path may stand anywhere in another one. -/
theorem isPlain_of_mem_components {n : Bytes} (h : .name n ∈ p.components) :
    (Component.name n).IsPlain := by
  refine isPlain_of_mem_plain (p := p) ?_
  rw [← filter_components]
  exact List.mem_filter.mpr ⟨h, rfl⟩

/-- Between the slashes of a joined path are the bytes of its parts. -/
theorem mem_of_mem_intercalate {x : UInt8} {parts : List Bytes}
    (h : x ∈ [47].intercalate parts) : x = 47 ∨ ∃ part ∈ parts, x ∈ part := by
  induction parts with
  | nil => cases h
  | cons part parts ih =>
      cases parts with
      | nil => exact .inr ⟨part, List.mem_cons_self, by simpa [List.intercalate] using h⟩
      | cons next parts =>
          rw [List.intercalate_cons_cons, List.mem_append, List.mem_append,
            List.mem_singleton] at h
          obtain (h | h) | h := h
          · exact .inr ⟨part, List.mem_cons_self, h⟩
          · exact .inl h
          · obtain h | ⟨found, hfound, hx⟩ := ih h
            · exact .inl h
            · exact .inr ⟨found, List.mem_cons_of_mem _ hfound, hx⟩

/-- The bytes of a path other than slashes and dots are in its components. -/
theorem nul_mem_bytes_iff : 0 ∈ p.bytes ↔ ∃ c ∈ plain p.parts, 0 ∈ c.bytes := by
  constructor
  · intro h
    obtain h | ⟨part, hpart, hmem⟩ := mem_of_mem_intercalate (intercalate_parts p ▸ h)
    · cases h
    · have hdot : part ≠ [46] := fun he => by simp [he] at hmem
      obtain ⟨c, hc⟩ := Component.exists_ofPart? (List.ne_nil_of_mem hmem) hdot
      exact ⟨c, List.mem_filterMap.mpr ⟨part, hpart, hc⟩,
        (Component.bytes_of_ofPart? hc).symm ▸ hmem⟩
  · rintro ⟨c, hc, hmem⟩
    obtain ⟨part, hpart, hc⟩ := List.mem_filterMap.mp hc
    rw [Component.bytes_of_ofPart? hc] at hmem
    exact (Text.of_mem_splitOn hpart 0 hmem).1

/-- What is left of a path below another one is a route. -/
theorem isRoute_below (root p : Path) : IsRoute (below root p) := by
  unfold below
  split
  · exact (isRoute_components p).drop _
  · exact isRoute_components p

/-- A path is absolute if its first part is empty and another one follows. -/
theorem isAbsolute_iff_parts : p.isAbsolute = true ↔ ∃ part rest, p.parts = [] :: part :: rest := by
  rw [isAbsolute_iff]
  constructor
  · intro h
    obtain ⟨bytes, hb⟩ := List.head?_eq_some_iff.mp h
    obtain ⟨part, rest, hr⟩ := List.exists_cons_of_ne_nil (List.splitOn_ne_nil 47 bytes)
    refine ⟨part, rest, ?_⟩
    have hsplit := List.splitOn_append_cons_self (a := 47) [] bytes
    rw [List.nil_append, List.splitOn_nil, hr] at hsplit
    rw [parts, hb, hsplit]
    rfl
  · rintro ⟨part, rest, hparts⟩
    rw [← intercalate_parts, hparts, List.intercalate_cons_cons]
    rfl

theorem components_ne_nil (h : p.bytes ≠ []) : p.components ≠ [] := by
  rw [components_eq]
  split
  · exact List.cons_ne_nil _ _
  next hrelative =>
  split
  · exact List.cons_ne_nil _ _
  next hdot =>
  -- The first part of a relative path is not empty, and it is no dot either.
  obtain ⟨part, rest, hparts⟩ := List.exists_cons_of_ne_nil (parts_ne_nil p)
  have hpart : part ≠ [] := by
    rintro rfl
    cases rest with
    | nil => exact h (intercalate_parts p ▸ hparts ▸ rfl)
    | cons part rest => exact hrelative (isAbsolute_iff_parts.mpr ⟨part, rest, hparts⟩)
  have hdot : part ≠ [46] := fun he => hdot (by rw [hparts, he]; rfl)
  obtain ⟨c, hc⟩ := Component.exists_ofPart? hpart hdot
  rw [hparts, List.nil_append, plain, List.filterMap_cons_some hc]
  exact List.cons_ne_nil _ _

theorem mem_of_mem_below {c : Component} (h : c ∈ below root p) : c ∈ p.components := by
  unfold below at h
  split at h
  · exact List.mem_of_mem_drop h
  · exact h

theorem components_eq_nil_iff : p.components = [] ↔ p.bytes = [] := by
  refine ⟨fun h => Decidable.byContradiction fun hne => components_ne_nil hne h, fun h => ?_⟩
  obtain rfl : p = ⟨[]⟩ := congrArg Path.mk h
  rfl

/-- A path stands below another one behind all of its components, or for itself. -/
theorem below_cases (h : root.components <+: p.components ∨ p.isAbsolute = true) :
    (root.bytes ≠ [] ∧ (∀ c ∈ below root p, c.IsPlain) ∧
      p.components = root.components ++ below root p) ∨
    ((root.bytes = [] ∨ p.isAbsolute = true) ∧ below root p = p.components) := by
  by_cases hroot : root.components <+: p.components
  · have heq := components_append_below hroot
    by_cases hnil : root.bytes = []
    · rw [components_eq_nil_iff.mpr hnil, List.nil_append] at heq
      exact .inr ⟨.inl hnil, heq⟩
    · refine .inl ⟨hnil, fun c hc => ?_, heq.symm⟩
      obtain ⟨first, rest, hfirst⟩ := List.exists_cons_of_ne_nil (components_ne_nil hnil)
      refine (isRoute_components p).isPlain_of_mem_tail c ?_
      rw [← heq, hfirst, List.cons_append, List.tail_cons]
      exact List.mem_append_right _ hc
  · have hbelow : below root p = p.components := by
      rw [below, if_neg (mt List.isPrefixOf_iff_prefix.mp hroot)]
    exact .inr ⟨.inr (h.resolve_left hroot), hbelow⟩

/-! ### The path of a route -/

/-- The path with slashes between the components. -/
def ofRoute (cs : List Component) : Path :=
  ⟨[47].intercalate (cs.map Component.bytes)⟩

/-- Components that may stand behind others are read back from their bytes. -/
theorem plain_map_bytes (h : ∀ c ∈ cs, c.IsPlain) : plain (cs.map Component.bytes) = cs := by
  rw [plain, List.filterMap_map]
  exact (List.filterMap_congr fun c hc => (h c hc).ofPart?).trans List.filterMap_some

/-- The parts of a relative route are the bytes of its components. -/
theorem parts_ofRoute (h : ∀ c ∈ cs, 47 ∉ c.bytes) (hne : cs ≠ []) :
    (ofRoute cs).parts = cs.map Component.bytes := by
  refine List.splitOn_intercalate 47 (fun part hpart => ?_) (by simpa using hne)
  obtain ⟨c, hc, rfl⟩ := List.mem_map.mp hpart
  exact h c hc

/-- The parts of a route from the root: two empty ones in front, for the slash of the root and the
one behind it. -/
theorem parts_ofRoute_root (h : ∀ c ∈ cs, c.IsPlain) (hne : cs ≠ []) :
    (ofRoute (.root :: cs)).parts = [] :: [] :: cs.map Component.bytes := by
  obtain ⟨c, rest, rfl⟩ := List.exists_cons_of_ne_nil hne
  have hbytes : (ofRoute (.root :: c :: rest)).bytes =
      [] ++ 47 :: ([] ++ 47 :: (ofRoute (c :: rest)).bytes) := by
    simp [ofRoute, List.map_cons, List.intercalate_cons_cons, Component.bytes]
  have hparts := parts_ofRoute (fun c hc => (h c hc).slash_notMem) hne
  rw [parts] at hparts
  rw [parts, hbytes, List.splitOn_append_cons_self, List.splitOn_append_cons_self, hparts,
    List.splitOn_nil]
  rfl

/-- A route from the root is an absolute path. -/
theorem isAbsolute_ofRoute_root (cs : List Component) :
    (ofRoute (.root :: cs)).isAbsolute = true := by
  cases cs with
  | nil => rfl
  | cons c cs =>
      rw [isAbsolute_iff, ofRoute, List.map_cons, List.map_cons, List.intercalate_cons_cons]
      rfl

/-- A path whose first part is not empty is relative. -/
theorem isAbsolute_eq_false_of_parts {part : Bytes} {rest : List Bytes}
    (h : p.parts = part :: rest) (hpart : part ≠ []) : p.isAbsolute = false := by
  rw [Bool.eq_false_iff]
  intro habs
  obtain ⟨part', rest', hparts⟩ := isAbsolute_iff_parts.mp habs
  rw [h] at hparts
  exact hpart (List.cons_eq_cons.mp hparts).1

/-- A route is read back from its path. -/
theorem components_ofRoute (h : IsRoute cs) : (ofRoute cs).components = cs := by
  cases h with
  | plain h =>
      by_cases hne : cs = []
      · rw [hne]
        rfl
      have hparts := parts_ofRoute (fun c hc => (h c hc).slash_notMem) hne
      obtain ⟨c, rest, rfl⟩ := List.exists_cons_of_ne_nil hne
      have hc := h c List.mem_cons_self
      have hhead : ¬ (ofRoute (c :: rest)).parts.head? = some [46] := by
        rw [hparts, List.map_cons, List.head?_cons]
        exact fun he => hc.bytes_ne_dot (Option.some.inj he)
      rw [components_eq, isAbsolute_eq_false_of_parts hparts hc.bytes_ne_nil,
        if_neg Bool.false_ne_true, if_neg hhead, hparts, plain_map_bytes h, List.nil_append]
  | @root cs h =>
      by_cases hne : cs = []
      · rw [hne]
        rfl
      · rw [components_eq, if_pos (isAbsolute_ofRoute_root cs), parts_ofRoute_root h hne]
        exact congrArg (Component.root :: ·) (plain_map_bytes h)
  | @here cs h =>
      have hslash : ∀ c ∈ Component.here :: cs, 47 ∉ c.bytes :=
        List.forall_mem_cons.mpr ⟨by decide, fun c hc => (h c hc).slash_notMem⟩
      have hparts := parts_ofRoute hslash (List.cons_ne_nil _ _)
      rw [List.map_cons] at hparts
      rw [components_eq, isAbsolute_eq_false_of_parts hparts (by decide),
        if_neg Bool.false_ne_true, hparts]
      exact congrArg (Component.here :: ·) (plain_map_bytes h)

/-- A path is absolute exactly if its components begin with the root. -/
theorem isAbsolute_iff_head?_components :
    p.isAbsolute = true ↔ p.components.head? = some .root := by
  rw [components_eq]
  by_cases ha : p.isAbsolute = true
  · simp [ha]
  by_cases hh : p.parts.head? = some [46]
  · simp [ha, hh]
  · refine iff_of_false ha fun hroot => ?_
    rw [if_neg ha, if_neg hh, List.nil_append] at hroot
    exact (isPlain_of_mem_plain (List.mem_of_head? hroot)).ne_root rfl

/-- A plain route that is joined to a path goes on from it. -/
theorem components_join_ofRoute (hp : p.bytes ≠ []) (h : ∀ c ∈ cs, c.IsPlain) :
    (p.join (ofRoute cs)).components = p.components ++ cs := by
  have hroute := components_ofRoute (.plain h)
  have hrelative : (ofRoute cs).isAbsolute = false := by
    rw [Bool.eq_false_iff]
    intro habs
    rw [isAbsolute_iff_head?_components, hroute] at habs
    exact (h _ (List.mem_of_head? habs)).ne_root rfl
  rw [components_join hp hrelative]
  rw [components_eq, hrelative, if_neg Bool.false_ne_true] at hroute
  split at hroute
  · exact absurd rfl (h .here (hroute ▸ List.mem_cons_self)).ne_here
  · rw [List.nil_append] at hroute
    rw [hroute]

/-- The path of a route ends with its last component. -/
theorem getLast?_parts_ofRoute (h : IsRoute cs) {n : Bytes} (hn : cs.getLast? = some (.name n)) :
    (ofRoute cs).parts.getLast? = some n := by
  have hne : cs ≠ [] := fun hnil => by simp [hnil] at hn
  cases h with
  | plain h =>
      rw [parts_ofRoute (fun c hc => (h c hc).slash_notMem) hne, List.getLast?_map, hn]
      rfl
  | @root cs h =>
      by_cases hnil : cs = []
      · simp [hnil] at hn
      · rw [List.getLast?_cons_of_ne_nil hnil] at hn
        have hmap : cs.map Component.bytes ≠ [] := by simpa using hnil
        rw [parts_ofRoute_root h hnil, List.getLast?_cons_of_ne_nil (List.cons_ne_nil _ _),
          List.getLast?_cons_of_ne_nil hmap, List.getLast?_map, hn]
        rfl
  | @here cs h =>
      have hslash : ∀ c ∈ Component.here :: cs, 47 ∉ c.bytes :=
        List.forall_mem_cons.mpr ⟨by decide, fun c hc => (h c hc).slash_notMem⟩
      rw [parts_ofRoute hslash hne, List.getLast?_map, hn]
      rfl

/-! ### Paths with the same components -/

theorem isAbsolute_iff_head?_parts (hp : p.bytes ≠ []) :
    p.isAbsolute = true ↔ p.parts.head? = some [] := by
  rw [isAbsolute_iff_parts]
  constructor
  · rintro ⟨part, rest, hparts⟩
    rw [hparts]
    rfl
  · intro hhead
    obtain ⟨rest, hparts⟩ := List.head?_eq_some_iff.mp hhead
    cases rest with
    | nil => exact absurd (intercalate_parts p ▸ hparts ▸ rfl) hp
    | cons part rest => exact ⟨part, rest, hparts⟩

/-- The first part of a path and what its parts stand for settle its components. -/
theorem components_congr (hp : p.bytes ≠ []) (hq : q.bytes ≠ [])
    (hhead : p.parts.head? = q.parts.head?) (hplain : plain p.parts = plain q.parts) :
    p.components = q.components := by
  have habs : p.isAbsolute = q.isAbsolute := by
    rw [Bool.eq_iff_iff, isAbsolute_iff_head?_parts hp, hhead, isAbsolute_iff_head?_parts hq]
  rw [components_eq, components_eq q, habs, hhead, hplain]

/-- A path goes on in the same way from paths with the same components. -/
theorem components_join_congr (h : root.components = p.components) (q : Path) :
    (root.join q).components = (p.join q).components := by
  have hnil : root.bytes = [] ↔ p.bytes = [] := by
    rw [← components_eq_nil_iff, h, components_eq_nil_iff]
  cases hq : q.isAbsolute with
  | true => rw [join_of_isAbsolute hq, join_of_isAbsolute hq]
  | false =>
      by_cases hp : p.bytes = []
      · rw [join_nil hp, join_nil (hnil.mpr hp)]
      · rw [components_join hp hq, components_join (mt hnil.mp hp) hq, h]

/-! ### The path above a name -/

theorem plain_dropWhile (parts : List Bytes) :
    plain (parts.dropWhile isEmptyPart) = plain parts := by
  induction parts with
  | nil => rfl
  | cons part parts ih =>
      cases h : isEmptyPart part with
      | true =>
          rw [List.dropWhile_cons_of_pos h, ih, plain, plain,
            List.filterMap_cons_none (Option.isNone_iff_eq_none.mp h)]
      | false => rw [List.dropWhile_cons_of_neg (by simp [h])]

/-- The parts that are trimmed at the end of a path stand for no components. -/
theorem plain_trimParts (parts : List Bytes) : plain (trimParts parts) = plain parts := by
  have hreverse (parts : List Bytes) : plain parts.reverse = (plain parts).reverse :=
    List.filterMap_reverse
  rw [trimParts, hreverse, plain_dropWhile, hreverse, List.reverse_reverse]

/-- Nothing is trimmed behind a name. -/
theorem trimParts_concat {n : Bytes} (h : IsFileName n) (parts : List Bytes) :
    trimParts (parts ++ [n]) = parts ++ [n] := by
  have hn : ¬ isEmptyPart n = true := by simp [isEmptyPart, Component.ofPart?_of_isFileName h]
  rw [trimParts, List.reverse_concat, List.dropWhile_cons_of_neg hn, ← List.reverse_concat,
    List.reverse_reverse]

theorem mem_of_mem_trimParts {part : Bytes} {parts : List Bytes} (h : part ∈ trimParts parts) :
    part ∈ parts :=
  List.mem_reverse.mp ((List.dropWhile_sublist _).mem (List.mem_reverse.mp h))

/-- No part of a path has a slash in it. -/
theorem slash_notMem_of_mem_front {part : Bytes} (h : part ∈ p.front) : 47 ∉ part := by
  have hpart : part ∈ p.parts := by
    obtain hfront | hfront := parts_eq_front p
    · exact hfront ▸ h
    · exact hfront ▸ List.mem_append_left _ h
  exact fun hmem => (Text.of_mem_splitOn hpart 47 hmem).2 rfl

/-- The path of a first part and others behind it, where an empty one alone is the root. -/
def ofParts (first : Bytes) (rest : List Bytes) : Path :=
  if first = [] ∧ rest = [] then ⟨[47]⟩ else ⟨[47].intercalate (first :: rest)⟩

/-- The path of some parts has the components of any path that begins with the same part and
whose parts stand for the same. -/
theorem components_ofParts {first : Bytes} {rest : List Bytes}
    (hslash : ∀ part ∈ first :: rest, 47 ∉ part) (hp : p.bytes ≠ [])
    (hhead : p.parts.head? = some first) (hplain : plain p.parts = plain (first :: rest)) :
    (ofParts first rest).components = p.components := by
  unfold ofParts
  split
  · next hroot =>
    obtain ⟨rfl, rfl⟩ := hroot
    exact components_congr (List.cons_ne_nil _ _) hp hhead.symm hplain.symm
  · next hroot =>
    have hparts : Path.parts ⟨[47].intercalate (first :: rest)⟩ = first :: rest :=
      List.splitOn_intercalate 47 hslash (List.cons_ne_nil _ _)
    have hbytes : [47].intercalate (first :: rest) ≠ [] := by
      intro hnil
      rw [parts, hnil, List.splitOn_nil] at hparts
      obtain ⟨hfirst, hrest⟩ := List.cons_eq_cons.mp hparts
      exact hroot ⟨hfirst.symm, hrest.symm⟩
    exact components_congr hbytes hp (by rw [hparts, hhead]; rfl) (by rw [hparts, hplain])

/-- Above a name at the end of a path are its first part and the others up to the last one that
counts. -/
theorem parent?_of_parts_concat {first n : Bytes} {rest : List Bytes} (h : IsFileName n)
    (hparts : p.parts = first :: (rest ++ [n])) :
    p.parent? = some (ofParts first (trimParts rest)) := by
  rw [parent?, hparts]
  simp only [trimParts_concat h]
  split
  · next hnil => simp at hnil
  rw [List.dropLast_concat, ofParts]
  split
  · next hrest => rw [hrest, if_pos ⟨rfl, rfl⟩]
  · next hne => rw [if_neg fun ⟨hfirst, hrest⟩ => hne hfirst hrest]

/-- The path above a name that is joined to a path has the components of that path. -/
theorem exists_parent?_join_name {n : Bytes} (h : IsFileName n) (p : Path) :
    ∃ above, (p.join ⟨n⟩).parent? = some above ∧ above.components = p.components := by
  have hparts : (p.join ⟨n⟩).parts = p.front ++ [n] := by
    rw [parts_join (isAbsolute_name h), parts_name h]
  by_cases hp : p.bytes = []
  · have hfront : p.front = [] := by simp [front, parts, hp]
    refine ⟨⟨[]⟩, ?_, congrArg components (congrArg Path.mk hp.symm)⟩
    rw [parent?, hparts, hfront]
    simp [trimParts, h.ne_nil]
  · obtain ⟨hhead, hne⟩ := head?_front hp
    obtain ⟨first, rest, hfront⟩ := List.exists_cons_of_ne_nil hne
    rw [hfront, List.cons_append] at hparts
    rw [hfront, List.head?_cons] at hhead
    refine ⟨_, parent?_of_parts_concat h hparts, components_ofParts ?_ hp hhead.symm ?_⟩
    · intro part hpart
      refine slash_notMem_of_mem_front (p := p) (hfront ▸ ?_)
      rcases List.mem_cons.mp hpart with rfl | hpart
      · exact List.mem_cons_self
      · exact List.mem_cons_of_mem _ (mem_of_mem_trimParts hpart)
    · rw [← plain_front, hfront, ← List.singleton_append, plain_append, ← plain_trimParts rest,
        ← plain_append, List.singleton_append]

end Path

end ImportXref
