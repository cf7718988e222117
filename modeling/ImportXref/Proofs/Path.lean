import ImportXref.Path
import Mathlib.Data.List.Basic

/-!
# Paths — the parts and components of joined paths

A relative path adds its parts to those of the path it is joined to.  So the components of a
joined path are those of the first path and then the names of the second one, whose dots do not
count any more.

* `named_join`, `components_join`: what a joined path is made of.
* `components_join_name`: a name below a path is one more component.
-/

namespace ImportXref

/-- What the system admits as the name of an entry. -/
structure IsFileName (n : Bytes) : Prop where
  ne_nil : n ≠ []
  ne_dot : n ≠ [46]
  ne_up : n ≠ [46, 46]
  slash_notMem : 47 ∉ n
  nul_notMem : 0 ∉ n

instance : DecidablePred IsFileName := fun n =>
  decidable_of_iff (n ≠ [] ∧ n ≠ [46] ∧ n ≠ [46, 46] ∧ 47 ∉ n ∧ 0 ∉ n)
    ⟨fun ⟨hnil, hdot, hup, hslash, hnul⟩ => ⟨hnil, hdot, hup, hslash, hnul⟩,
      fun h => ⟨h.ne_nil, h.ne_dot, h.ne_up, h.slash_notMem, h.nul_notMem⟩⟩

namespace Component

/-- Only an empty part and a dot stand for no component. -/
theorem ofPart?_eq_none_iff {part : Bytes} : ofPart? part = none ↔ part = [] ∨ part = [46] := by
  unfold ofPart?
  split <;> simp_all

theorem exists_ofPart? {part : Bytes} (hnil : part ≠ []) (hdot : part ≠ [46]) :
    ∃ c, ofPart? part = some c :=
  Option.ne_none_iff_exists'.mp fun hnone => (ofPart?_eq_none_iff.mp hnone).elim hnil hdot

/-- A component that a part stands for is spelled like the part. -/
theorem bytes_of_ofPart? {part : Bytes} {c : Component} (h : ofPart? part = some c) :
    c.bytes = part := by
  unfold ofPart? at h
  split at h <;> cases h <;> rfl

/-- A part stands for a name unless it is empty or made up of one or two dots. -/
theorem ofPart?_eq_name_iff {n : Bytes} :
    ofPart? n = some (.name n) ↔ n ≠ [] ∧ n ≠ [46] ∧ n ≠ [46, 46] := by
  unfold ofPart?
  split <;> simp_all

theorem ofPart?_of_isFileName {n : Bytes} (h : IsFileName n) : ofPart? n = some (.name n) :=
  ofPart?_eq_name_iff.mpr ⟨h.ne_nil, h.ne_dot, h.ne_up⟩

end Component

namespace Path

variable {p q : Path}

/-- The non-empty parts of a path. -/
def named (p : Path) : List Bytes :=
  p.parts.filter (· != [])

/-- The components that parts between slashes stand for, a first dot left aside. -/
def plain (parts : List Bytes) : List Component :=
  parts.filterMap Component.ofPart?

/-- Parts stand for their components one by one. -/
@[simp] theorem plain_append (xs ys : List Bytes) : plain (xs ++ ys) = plain xs ++ plain ys :=
  List.filterMap_append

/-- A path is absolute if its first byte is a slash. -/
theorem isAbsolute_iff : p.isAbsolute = true ↔ p.bytes.head? = some 47 := by
  simp [isAbsolute]

/-! ### Joined paths -/

/-- The parts that stay in front of those of a path that is joined. -/
def front (p : Path) : List Bytes :=
  if p.bytes.getLast?.all (· == 47) then p.parts.dropLast else p.parts

theorem bytes_eq_of_getLast? (h : p.bytes.getLast?.all (· == 47) = true) (hne : p.bytes ≠ []) :
    ∃ bytes, p.bytes = bytes ++ [47] := by
  obtain ⟨bytes, b, hb⟩ := (List.eq_nil_or_concat' p.bytes).resolve_left hne
  rw [hb, List.getLast?_concat, Option.all_some, beq_iff_eq] at h
  exact ⟨bytes, h ▸ hb⟩

theorem parts_ne_nil (p : Path) : p.parts ≠ [] :=
  List.splitOn_ne_nil _ _

/-- A path is its parts with slashes between them. -/
theorem intercalate_parts (p : Path) : [47].intercalate p.parts = p.bytes :=
  List.intercalate_splitOn 47

/-- A path has the parts that stay in front, and at most an empty one behind them. -/
theorem parts_eq_front (p : Path) : p.parts = p.front ∨ p.parts = p.front ++ [[]] := by
  unfold front
  split
  · next h =>
    right
    by_cases hne : p.bytes = []
    · simp [parts, hne]
    · obtain ⟨bytes, hb⟩ := bytes_eq_of_getLast? h hne
      have hp : p.parts = bytes.splitOn 47 ++ [[]] := by
        rw [parts, hb, List.splitOn_append_cons_self, List.splitOn_nil]
      rw [hp, List.dropLast_concat]
  · exact .inl rfl

/-- A relative path adds its parts behind those in front. -/
theorem parts_join (hq : q.isAbsolute = false) : (p.join q).parts = p.front ++ q.parts := by
  unfold join front
  rw [hq, if_neg Bool.false_ne_true]
  split
  · next h =>
    by_cases hne : p.bytes = []
    · simp [parts, hne]
    · obtain ⟨bytes, hb⟩ := bytes_eq_of_getLast? h hne
      simp only [parts, hb, List.append_assoc, List.singleton_append,
        List.splitOn_append_cons_self, List.splitOn_nil, List.dropLast_concat]
  · simp only [parts, List.splitOn_append_cons_self]

/-- An absolute path takes the place of the path it is joined to. -/
theorem join_of_isAbsolute (hq : q.isAbsolute = true) : p.join q = q := by
  simp [join, hq]

theorem join_nil (hp : p.bytes = []) : p.join q = q := by
  unfold join
  split
  · rfl
  · simp [hp]

theorem getLast?_parts_join (p q : Path) :
    (p.join q).parts.getLast? = q.parts.getLast? := by
  cases hq : q.isAbsolute with
  | true => rw [join_of_isAbsolute hq]
  | false => rw [parts_join hq, List.getLast?_append_of_ne_nil _ (parts_ne_nil q)]

/-- A relative path, once joined, is absolute if the first path is. -/
theorem isAbsolute_join (hq : q.isAbsolute = false) : (p.join q).isAbsolute = p.isAbsolute := by
  by_cases hp : p.bytes = []
  · rw [join_nil hp, hq]
    simp [isAbsolute, hp]
  · obtain ⟨b, bytes, hb⟩ := List.exists_cons_of_ne_nil hp
    unfold join
    rw [hq, if_neg Bool.false_ne_true]
    split <;> simp [isAbsolute, hb]

theorem mem_bytes_join {b : UInt8} (h : b ∈ q.bytes) : b ∈ (p.join q).bytes := by
  unfold join
  split
  · exact h
  split <;> simp [h]

/-- A relative path adds its non-empty parts. -/
theorem named_join (hq : q.isAbsolute = false) : (p.join q).named = p.named ++ q.named := by
  have hfront : p.front.filter (· != []) = p.named := by
    obtain h | h := parts_eq_front p <;> simp [named, h]
  unfold named
  rw [parts_join hq, List.filter_append, hfront, named]

theorem plain_front (p : Path) : plain p.front = plain p.parts := by
  obtain h | h := parts_eq_front p
  · rw [← h]
  · rw [h, plain_append]
    exact (List.append_nil _).symm

/-- What stands in front of a joined path begins like the first path. -/
theorem head?_front (hp : p.bytes ≠ []) : p.front.head? = p.parts.head? ∧ p.front ≠ [] := by
  obtain h | h := parts_eq_front p
  · exact ⟨by rw [← h], h ▸ parts_ne_nil p⟩
  · have hne : p.front ≠ [] := by
      intro hnil
      have hjoin := intercalate_parts p
      rw [h, hnil] at hjoin
      exact hp hjoin.symm
    obtain ⟨part, rest, hr⟩ := List.exists_cons_of_ne_nil hne
    exact ⟨by rw [h, hr]; rfl, hne⟩

/-- The components of a path: the root or a first dot, and then what its parts stand for. -/
theorem components_eq (p : Path) : p.components =
    (if p.isAbsolute then [.root] else if p.parts.head? = some [46] then [.here] else []) ++
      plain p.parts := by
  unfold components plain
  by_cases ha : p.isAbsolute = true
  · simp [ha]
  · by_cases hh : p.parts.head? = some [46] <;> simp [ha, hh]

/-- A relative path adds its components, its dots left aside. -/
theorem components_join (hp : p.bytes ≠ []) (hq : q.isAbsolute = false) :
    (p.join q).components = p.components ++ plain q.parts := by
  obtain ⟨hhead, hne⟩ := head?_front hp
  have hh : (p.join q).parts.head? = p.parts.head? := by
    rw [parts_join hq, List.head?_append_of_ne_nil _ hne, hhead]
  rw [components_eq, components_eq p, isAbsolute_join hq, hh, parts_join hq, plain_append,
    plain_front, List.append_assoc]

/-! ### A name below a path -/

section Name

variable {n : Bytes} (h : IsFileName n)
include h

theorem isAbsolute_name : (⟨n⟩ : Path).isAbsolute = false := by
  rw [Bool.eq_false_iff]
  intro ha
  exact h.slash_notMem (List.mem_of_head? (isAbsolute_iff.mp ha))

theorem parts_name : (⟨n⟩ : Path).parts = [n] :=
  List.splitOn_eq_singleton h.slash_notMem

/-- A name below a path is one more part. -/
theorem named_join_name : (p.join ⟨n⟩).named = p.named ++ [n] := by
  have hnamed : (⟨n⟩ : Path).named = [n] := by
    simp [named, parts_name h, h.ne_nil]
  rw [named_join (isAbsolute_name h), hnamed]

/-- **A name below a path is one more component.** -/
theorem components_join_name (hp : p.bytes ≠ []) :
    (p.join ⟨n⟩).components = p.components ++ [.name n] := by
  rw [components_join hp (isAbsolute_name h), parts_name h]
  simp [plain, Component.ofPart?_of_isFileName h]

/-- A name stands at the end of the path, behind a slash at most. -/
theorem exists_bytes_join_name :
    ∃ gap, (gap = [] ∨ gap = [47]) ∧ (p.join ⟨n⟩).bytes = p.bytes ++ gap ++ n := by
  unfold join
  rw [isAbsolute_name h, if_neg Bool.false_ne_true]
  split
  · exact ⟨[], .inl rfl, by simp⟩
  · exact ⟨[47], .inr rfl, by simp⟩

/-- A name brings no NUL byte into a path. -/
theorem nul_notMem_join_name (hp : 0 ∉ p.bytes) : 0 ∉ (p.join ⟨n⟩).bytes := by
  obtain ⟨gap, hgap, hb⟩ := exists_bytes_join_name (p := p) h
  rw [hb, List.mem_append, List.mem_append]
  rintro ((hmem | hmem) | hmem)
  · exact hp hmem
  · obtain rfl | rfl := hgap <;> simp at hmem
  · exact h.nul_notMem hmem

theorem length_lt_join_name : p.bytes.length < (p.join ⟨n⟩).bytes.length := by
  obtain ⟨gap, -, hb⟩ := exists_bytes_join_name (p := p) h
  have hn := List.length_pos_of_ne_nil h.ne_nil
  rw [hb, List.length_append, List.length_append]
  omega

theorem bytes_join_name_ne_nil : (p.join ⟨n⟩).bytes ≠ [] :=
  List.ne_nil_of_length_pos (Nat.zero_lt_of_lt (length_lt_join_name h))

end Name

/-! ### Names below a path -/

/-- The path below `p` that the names lead along. -/
def descend (p : Path) (names : List Bytes) : Path :=
  names.foldl (fun p n => p.join ⟨n⟩) p

theorem descend_cons (p : Path) (n : Bytes) (names : List Bytes) :
    p.descend (n :: names) = (p.join ⟨n⟩).descend names :=
  rfl

theorem descend_concat (p : Path) (names : List Bytes) (n : Bytes) :
    p.descend (names ++ [n]) = (p.descend names).join ⟨n⟩ :=
  List.foldl_concat ..

/-- Names along a path are components of it, one by one. -/
theorem components_descend {names : List Bytes} (h : ∀ n ∈ names, IsFileName n)
    (hp : p.bytes ≠ []) : (p.descend names).components = p.components ++ names.map .name := by
  induction names generalizing p with
  | nil => simp [descend]
  | cons n names ih =>
      obtain ⟨hn, hnames⟩ := List.forall_mem_cons.mp h
      rw [descend_cons, ih hnames (bytes_join_name_ne_nil hn), components_join_name hn hp,
        List.map_cons, List.append_assoc, List.singleton_append]

/-- Going along names does not lead to the empty path. -/
theorem bytes_descend_ne_nil {names : List Bytes} (h : ∀ n ∈ names, IsFileName n)
    (hp : p.bytes ≠ []) : (p.descend names).bytes ≠ [] := by
  induction names generalizing p with
  | nil => exact hp
  | cons n names ih =>
      obtain ⟨hn, hnames⟩ := List.forall_mem_cons.mp h
      exact ih hnames (bytes_join_name_ne_nil hn)

theorem named_descend {names : List Bytes} (h : ∀ n ∈ names, IsFileName n) :
    (p.descend names).named = p.named ++ names := by
  induction names generalizing p with
  | nil => simp [descend]
  | cons n names ih =>
      obtain ⟨hn, hnames⟩ := List.forall_mem_cons.mp h
      rw [descend_cons, ih hnames, named_join_name hn, List.append_assoc, List.singleton_append]

/-- Names bring no NUL byte into a path. -/
theorem nul_notMem_descend {names : List Bytes} (h : ∀ n ∈ names, IsFileName n)
    (hp : 0 ∉ p.bytes) : 0 ∉ (p.descend names).bytes := by
  induction names generalizing p with
  | nil => exact hp
  | cons n names ih =>
      obtain ⟨hn, hnames⟩ := List.forall_mem_cons.mp h
      exact ih hnames (nul_notMem_join_name hn hp)

/-! ### Components below a path -/

/-- What is below `root` makes up the path together with it. -/
theorem components_append_below {root : Path} (h : root.components <+: p.components) :
    root.components ++ below root p = p.components := by
  have hb : root.components.isPrefixOf p.components = true := List.isPrefixOf_iff_prefix.mpr h
  obtain ⟨rest, hr⟩ := h
  rw [below, if_pos hb, ← hr, List.drop_left]

/-- Names along a path are as well below `root`, if the path is. -/
theorem below_descend {root : Path} {names : List Bytes} (h : ∀ n ∈ names, IsFileName n)
    (hp : p.bytes ≠ []) (hroot : root.components <+: p.components) :
    below root (p.descend names) = below root p ++ names.map .name := by
  have hcomponents := components_descend h hp
  have hbelow : root.components <+: (p.descend names).components :=
    hcomponents ▸ hroot.trans (List.prefix_append ..)
  have heq : root.components ++ below root (p.descend names) =
      root.components ++ (below root p ++ names.map .name) := by
    rw [components_append_below hbelow, hcomponents, ← List.append_assoc,
      components_append_below hroot]
  exact List.append_cancel_left heq

/-- Below `root`, a relative path is all of itself, its dots left aside. -/
theorem below_join {root : Path} (hq : q.isAbsolute = false) :
    root.components <+: (root.join q).components ∧
      below root (root.join q) = if root.bytes = [] then q.components else plain q.parts := by
  by_cases hr : root.bytes = []
  · have hnil : root.components = [] := by
      have hroot : root = ⟨[]⟩ := congrArg Path.mk hr
      rw [hroot]
      rfl
    rw [join_nil hr, if_pos hr, below, hnil]
    exact ⟨List.nil_prefix, rfl⟩
  · have hcomponents := components_join hr hq
    have hbelow : root.components <+: (root.join q).components :=
      hcomponents ▸ List.prefix_append ..
    rw [← components_append_below hbelow] at hcomponents
    rw [if_neg hr]
    exact ⟨hbelow, List.append_cancel_left hcomponents⟩

/-- The bytes of the components of a path, which say where it stands in the order of paths. -/
def key (p : Path) : List Bytes :=
  p.components.map Component.bytes

/-- Names stand at the end of what the order of paths goes by. -/
theorem key_descend {names : List Bytes} (h : ∀ n ∈ names, IsFileName n) (hp : p.bytes ≠ []) :
    (p.descend names).key = p.key ++ names := by
  have hnames : names.map (Component.bytes ∘ Component.name) = names := List.map_id names
  rw [key, components_descend h hp, List.map_append, List.map_map, hnames, key]

theorem key_join_name {n : Bytes} (h : IsFileName n) (hp : p.bytes ≠ []) :
    (p.join ⟨n⟩).key = p.key ++ [n] :=
  key_descend (List.forall_mem_singleton.mpr h) hp

/-- A common start makes no difference to the order. -/
theorem lt_of_append_lt_append_left {start xs ys : List Bytes} (h : start ++ xs < start ++ ys) :
    xs < ys := by
  induction start with
  | nil => exact h
  | cons n start ih => exact ih (List.cons_lt_cons_self.mp h)

end Path

end ImportXref
