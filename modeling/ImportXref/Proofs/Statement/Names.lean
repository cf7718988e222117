import ImportXref.Proofs.Statement.Layout
import ImportXref.Proofs.Text.Edges

/-!
# Statements — the names in a written list

However a list of names is laid out, the clause that holds it has these names.  A piece between
two commas is the core of an item and what surrounds it; each of the steps that make the piece
bare works on the surroundings only (`bare_around`), and what it leaves of them is nothing.

* `pieceName_item`: the name in a piece, behind the opening parenthesis, before the closing one,
  or both.
* `names_listing`: the names in a list, by induction on its items.
* `names_objects`: the names in the objects of a statement.
-/

namespace ImportXref.Written

open Text (notMem_of_forall dropWhile_append_of_head? dropEndWhile_append_of_getLast?)

/-! ### Characters -/

/-- A character of a dotted name. -/
def isNameChar (c : Char) : Bool :=
  isWordChar c || c == '.'

/-- A character that a piece between two commas may hold. -/
def isPieceChar (c : Char) : Bool :=
  isNameChar c || [' ', '\t', '(', ')'].contains c

variable {c d : Char} {t u v : Text}

/-- No character of a name is blank. -/
theorem isBlank_of_isNameChar (h : isNameChar c = true) : isBlank c = false := by
  rcases Bool.or_eq_true_iff.mp h with hw | hdot
  · simpa using (Bool.and_eq_true_iff.mp hw).1
  · rw [beq_iff_eq.mp hdot]
    decide

theorem ne_of_isNameChar (h : isNameChar c = true) (hd : isNameChar d = false) : c ≠ d := by
  rintro rfl
  rw [h] at hd
  cases hd

theorem isPieceChar_of_isNameChar (h : isNameChar c = true) : isPieceChar c = true :=
  Bool.or_eq_true_iff.mpr (.inl h)

/-- A gap is made of spaces and tabs. -/
theorem of_mem_gap {p : Char → Bool} (hspace : p ' ' = true) (htab : p '\t' = true) (g : Gap) :
    ∀ c ∈ g.text, p c = true := by
  intro c hc
  rcases Bool.or_eq_true_iff.mp (List.all_eq_true.mp g.chars c hc) with h | h
  · rwa [beq_iff_eq.mp h]
  · rwa [beq_iff_eq.mp h]

theorem isBlank_of_mem_gap (g : Gap) : ∀ c ∈ g.text, isBlank c = true :=
  of_mem_gap (by decide) (by decide) g

/-- A gap stands inside of a piece. -/
theorem isPieceChar_of_mem_gap (g : Gap) : ∀ c ∈ g.text, isPieceChar c = true :=
  of_mem_gap (by decide) (by decide) g

/-- A text of name characters, not empty. -/
structure IsName (t : Text) : Prop where
  ne_nil : t ≠ []
  chars : ∀ c ∈ t, isNameChar c = true

/-- A text with name characters at both edges. -/
structure Solid (t : Text) : Prop where
  head : ∃ c, t.head? = some c ∧ isNameChar c = true
  last : ∃ d, t.getLast? = some d ∧ isNameChar d = true

theorem IsName.solid (h : IsName t) : Solid t :=
  ⟨⟨_, List.head?_eq_some_head h.ne_nil, h.chars _ (List.head_mem h.ne_nil)⟩,
    ⟨_, List.getLast?_eq_some_getLast h.ne_nil, h.chars _ (List.getLast_mem h.ne_nil)⟩⟩

/-- What begins and ends solidly is solid, whatever stands between. -/
theorem Solid.append (hu : Solid u) (hv : Solid v) (t : Text) : Solid (u ++ (t ++ v)) := by
  obtain ⟨c, hc, hcn⟩ := hu.head
  obtain ⟨d, hd, hdn⟩ := hv.last
  exact ⟨⟨c, by rw [List.head?_append, hc]; rfl, hcn⟩,
    ⟨d, by rw [List.getLast?_append, List.getLast?_append, hd]; rfl, hdn⟩⟩

theorem Word.isName (w : Word) : IsName w.text :=
  ⟨w.ne_nil, fun c hc => Bool.or_eq_true_iff.mpr (.inl (List.all_eq_true.mp w.chars c hc))⟩

/-- A dot stands in no word. -/
theorem Word.dot_notMem (w : Word) : '.' ∉ w.text :=
  notMem_of_forall (List.all_eq_true.mp w.chars) (by decide)

/-- Words joined by dots are a name. -/
theorem isName_dottedName {ws : List Word} (h : ws ≠ []) :
    IsName (dottedName (ws.map Word.text)) := by
  induction ws with
  | nil => exact absurd rfl h
  | cons w ws ih =>
      cases ws with
      | nil => simpa [dottedName] using w.isName
      | cons v ws =>
          have hrest := ih (by simp)
          rw [List.map_cons, List.map_cons, dottedName_cons_cons]
          refine ⟨by simp, fun c hc => ?_⟩
          rcases List.mem_append.mp hc with hw | hr
          · exact w.isName.chars c hw
          · rcases List.mem_cons.mp hr with rfl | hr
            · decide
            · exact hrest.chars c hr

theorem DottedName.isName (d : DottedName) : IsName d.text :=
  isName_dottedName (by simp)

/-! ### Bare pieces -/

/-- What is dropped before a solid text does not reach into it. -/
theorem Solid.dropWhile_append {p : Char → Bool} (h : Solid t)
    (hp : ∀ c, isNameChar c = true → p c = false) (u v : Text) :
    (u ++ (t ++ v)).dropWhile p = u.dropWhile p ++ (t ++ v) := by
  obtain ⟨c, hc, hcn⟩ := h.head
  exact dropWhile_append_of_head? (by rw [List.head?_append, hc]; rfl) (hp c hcn)

theorem Solid.dropEndWhile_append {p : Char → Bool} (h : Solid t)
    (hp : ∀ c, isNameChar c = true → p c = false) (u v : Text) :
    Text.dropEndWhile p (u ++ (t ++ v)) = u ++ (t ++ Text.dropEndWhile p v) := by
  obtain ⟨d, hd, hdn⟩ := h.last
  have hlast : (u ++ t).getLast? = some d := by rw [List.getLast?_append, hd]; rfl
  rw [← List.append_assoc, dropEndWhile_append_of_getLast? hlast (hp d hdn), List.append_assoc]

/-- Trimming works on both sides of a solid text. -/
theorem Solid.trim_append (h : Solid t) (u v : Text) :
    Text.trim (u ++ (t ++ v)) = Text.trimStart u ++ (t ++ Text.trimEnd v) := by
  obtain ⟨c, hc, hcn⟩ := h.head
  obtain ⟨d, hd, hdn⟩ := h.last
  exact Text.trim_append_append hc (isBlank_of_isNameChar hcn) hd (isBlank_of_isNameChar hdn)

theorem Solid.trimEnd_append (h : Solid t) (u v : Text) :
    Text.trimEnd (u ++ (t ++ v)) = u ++ (t ++ Text.trimEnd v) :=
  h.dropEndWhile_append (fun _ => isBlank_of_isNameChar) u v

/-- Trimming removes the gaps around a solid text. -/
theorem Solid.trim_between (h : Solid t) (g g' : Gap) :
    Text.trim (g.text ++ (t ++ g'.text)) = t := by
  rw [h.trim_append, Text.trimStart_of_blank (isBlank_of_mem_gap g),
    Text.trimEnd_of_blank (isBlank_of_mem_gap g'), List.nil_append, List.append_nil]

theorem Solid.trim (h : Solid t) : Text.trim t = t := by
  simpa using h.trim_between ⟨[], rfl⟩ ⟨[], rfl⟩

/-- Each step of making a piece bare works on what surrounds its core. -/
theorem bare_around (h : Solid t) (u v : Text) :
    Clause.bare (u ++ (t ++ v)) =
      Text.trimStart ((Text.trimStart u).dropWhile (· == '(')) ++ (t ++
        Text.trimEnd (Text.dropEndWhile (· == ')')
          (Text.trimEnd (Text.dropEndWhile (· == '\\') (Text.trimEnd v))))) := by
  have notChar (d : Char) (hd : isNameChar d = false) :
      ∀ c, isNameChar c = true → (c == d) = false :=
    fun c hc => beq_eq_false_iff_ne.mpr (ne_of_isNameChar hc hd)
  rw [Clause.bare, h.trim_append, h.dropWhile_append (notChar '(' (by decide)),
    h.dropEndWhile_append (notChar '\\' (by decide)), h.trimEnd_append,
    h.dropEndWhile_append (notChar ')' (by decide)), h.trim_append]

/-- What stands before a core is dropped: a gap, perhaps behind an opening parenthesis. -/
theorem front_dropped (p : Option Parentheses) (g : Gap) :
    Text.trimStart ((Text.trimStart (opening p ++ g.text)).dropWhile (· == '(')) = [] := by
  have hgap := Text.trimStart_of_blank (isBlank_of_mem_gap g)
  cases p with
  | none => rw [opening, List.nil_append, hgap]; rfl
  | some p =>
      have hfront : Text.trimStart (p.before.text ++ '(' :: g.text) = '(' :: g.text := by
        have hstart := dropWhile_append_of_head? (s := p.before.text) (t := '(' :: g.text)
          (p := isBlank) rfl (by decide)
        rw [Text.trimStart, hstart, ← Text.trimStart,
          Text.trimStart_of_blank (isBlank_of_mem_gap p.before), List.nil_append]
      -- a gap does not begin with a second parenthesis
      have hkept : g.text.dropWhile (· == '(') = g.text := by
        rw [List.dropWhile_eq_self_iff]
        intro hl
        have hb := isBlank_of_mem_gap g _ (List.getElem_mem hl)
        intro he
        rw [beq_iff_eq.mp he] at hb
        exact absurd hb (by decide)
      rw [opening, List.append_assoc, List.singleton_append, hfront,
        List.dropWhile_cons_of_pos rfl, hkept, hgap]

/-- What stands after a core is dropped: a gap, perhaps before a closing parenthesis. -/
theorem back_dropped (g : Gap) (p : Option Parentheses) :
    Text.trimEnd (Text.dropEndWhile (· == ')') (Text.trimEnd (Text.dropEndWhile (· == '\\')
      (Text.trimEnd (g.text ++ closing p))))) = [] := by
  cases p with
  | none =>
      rw [closing, List.append_nil, Text.trimEnd_of_blank (isBlank_of_mem_gap g)]
      rfl
  | some p =>
      -- the parenthesis shields the gap until it is dropped itself
      have shield (q : Char → Bool) (hq : q ')' = false) (v : Text) :
          Text.dropEndWhile q (g.text ++ ')' :: v) = g.text ++ ')' :: Text.dropEndWhile q v := by
        have h := dropEndWhile_append_of_getLast? (t := g.text ++ [')']) (s := v) (p := q)
          List.getLast?_concat hq
        rwa [List.append_assoc, List.append_assoc] at h
      have hclosed : Text.trimEnd (g.text ++ ')' :: p.after.text) = g.text ++ [')'] := by
        rw [Text.trimEnd, shield isBlank (by decide), ← Text.trimEnd,
          Text.trimEnd_of_blank (isBlank_of_mem_gap p.after)]
      have hkept (q : Char → Bool) (hq : q ')' = false) :
          Text.dropEndWhile q (g.text ++ [')']) = g.text ++ [')'] := by
        rw [shield q hq]
        rfl
      have hopen : Text.dropEndWhile (· == ')') (g.text ++ [')']) = g.text := by
        refine (Text.dropEndWhile_append (by simp)).trans (Text.dropEndWhile_of_forall_not ?_)
        intro c hc
        refine beq_eq_false_iff_ne.mpr ?_
        rintro rfl
        exact absurd (isBlank_of_mem_gap g _ hc) (by decide)
      have hblank : Text.trimEnd (g.text ++ [')']) = g.text ++ [')'] := hkept isBlank (by decide)
      rw [closing, hclosed, hkept _ (by decide), hblank, hopen,
        Text.trimEnd_of_blank (isBlank_of_mem_gap g)]

/-- Parentheses and gaps around a solid text are taken away. -/
theorem bare_item (p q : Option Parentheses) (g g' : Gap) (h : Solid t) :
    Clause.bare (opening p ++ (g.text ++ t ++ g'.text) ++ closing q) = t := by
  have hsplit : opening p ++ (g.text ++ t ++ g'.text) ++ closing q =
      (opening p ++ g.text) ++ (t ++ (g'.text ++ closing q)) := by
    simp only [List.append_assoc]
  rw [hsplit, bare_around h, front_dropped, back_dropped, List.nil_append, List.append_nil]

/-! ### Aliases -/

theorem startsAlias_of_head? (hc : t.head? = some c) (h : isBlank c = false) :
    Clause.startsAlias t = false := by
  obtain ⟨r, rfl⟩ := List.head?_eq_some_iff.mp hc
  simp [Clause.startsAlias, h]

/-- A name has no alias. -/
theorem beforeAlias?_of_chars (h : ∀ c ∈ t, isNameChar c = true) :
    Clause.beforeAlias? t = none := by
  induction t with
  | nil => rfl
  | cons c t ih =>
      have hc := isBlank_of_isNameChar (h c (List.mem_cons_self ..))
      rw [Clause.beforeAlias?, startsAlias_of_head? rfl hc,
        ih fun x hx => h x (List.mem_cons_of_mem _ hx)]
      simp

/-- A name ends where an alias starts. -/
theorem beforeAlias?_append (h : ∀ c ∈ u, isNameChar c = true)
    (ha : Clause.startsAlias t = true) : Clause.beforeAlias? (u ++ t) = some u := by
  induction u with
  | nil =>
      cases t with
      | nil => cases ha
      | cons c t => rw [List.nil_append, Clause.beforeAlias?, if_pos ha]
  | cons c u ih =>
      have hc := h c (List.mem_cons_self ..)
      have hlf : c ≠ '\n' := ne_of_isNameChar hc (by decide)
      rw [List.cons_append, Clause.beforeAlias?,
        startsAlias_of_head? rfl (isBlank_of_isNameChar hc),
        ih fun x hx => h x (List.mem_cons_of_mem _ hx)]
      simp [hlf]

theorem startsAlias_text (a : Alias) : Clause.startsAlias a.text = true := by
  obtain ⟨b, r, hb⟩ := List.exists_cons_of_ne_nil a.before_ne_nil
  obtain ⟨b', r', hb'⟩ := List.exists_cons_of_ne_nil a.after_ne_nil
  have hblank := isBlank_of_mem_gap a.before b (hb ▸ List.mem_cons_self ..)
  have hblank' := isBlank_of_mem_gap a.after b' (hb' ▸ List.mem_cons_self ..)
  -- the word is found behind the first gap, and the second gap ends it
  have hstart : Text.trimStart a.text = 'a' :: 's' :: (a.after.text ++ a.word.text) := by
    have h := dropWhile_append_of_head? (s := a.before.text) (p := isBlank)
      (t := 'a' :: 's' :: (a.after.text ++ a.word.text)) rfl (by decide)
    rw [Alias.text, Text.trimStart, h, ← Text.trimStart,
      Text.trimStart_of_blank (isBlank_of_mem_gap a.before), List.nil_append]
  have hcons : a.text = b :: (r ++ 'a' :: 's' :: (a.after.text ++ a.word.text)) := by
    rw [Alias.text, hb, List.cons_append]
  rw [hcons, Clause.startsAlias, ← hcons, hstart, hb']
  simp [hblank, hblank']

/-! ### Pieces -/

section

variable {ν : Type} {write : ν → Text}

theorem solid_core (h : ∀ n, IsName (write n)) (i : Item ν) : Solid (i.core write) := by
  obtain ⟨before, name, alias?, after⟩ := i
  cases alias? with
  | none => simpa [Item.core] using (h name).solid
  | some a =>
      have hsolid := (h name).solid.append a.word.isName.solid
        (a.before.text ++ 'a' :: 's' :: a.after.text)
      simpa [Item.core, Alias.text] using hsolid

/-- The name in a piece. -/
theorem pieceName_item (h : ∀ n, IsName (write n)) (i : Item ν) (p q : Option Parentheses) :
    Clause.pieceName (opening p ++ i.text write ++ closing q) = write i.name := by
  have hbare : Clause.bare (opening p ++ i.text write ++ closing q) = i.core write :=
    bare_item p q i.before i.after (solid_core h i)
  -- what is bare is the name itself, or the name up to its alias
  rw [Clause.pieceName, hbare]
  obtain ⟨before, name, alias?, after⟩ := i
  cases alias? with
  | none =>
      have hcore : Item.core write ⟨before, name, none, after⟩ = write name :=
        List.append_nil _
      rw [hcore, beforeAlias?_of_chars (h name).chars]
  | some a =>
      have hcore : Item.core write ⟨before, name, some a, after⟩ = write name ++ a.text := rfl
      rw [hcore, beforeAlias?_append (h name).chars (startsAlias_text a)]
      exact (h name).solid.trim

/-- Nothing is named between a comma at the end and the end of the list. -/
theorem pieceName_gap (g : Gap) (q : Option Parentheses) :
    Clause.pieceName (g.text ++ closing q) = [] := by
  have hbare : Clause.bare (g.text ++ closing q) = [] := by
    cases q with
    | none =>
        rw [closing, List.append_nil, Clause.bare, Text.trim_of_blank (isBlank_of_mem_gap g)]
        rfl
    | some q =>
        have htrim : Text.trim (g.text ++ ')' :: q.after.text) = [')'] := by
          have h := Text.trim_append_append (u := g.text) (t := [')']) (v := q.after.text)
            rfl (by decide) rfl (by decide)
          rw [Text.trimStart_of_blank (isBlank_of_mem_gap g),
            Text.trimEnd_of_blank (isBlank_of_mem_gap q.after)] at h
          exact h
        rw [closing, Clause.bare, htrim]
        decide
  rw [Clause.pieceName, hbare]
  rfl

/-! ### Characters of a list -/

theorem isPieceChar_of_mem_alias (a : Alias) : ∀ c ∈ a.text, isPieceChar c = true := by
  intro c hc
  rcases List.mem_append.mp hc with hb | hc
  · exact isPieceChar_of_mem_gap a.before c hb
  rcases List.mem_cons.mp hc with rfl | hc
  · decide
  rcases List.mem_cons.mp hc with rfl | hc
  · decide
  rcases List.mem_append.mp hc with ha | hw
  · exact isPieceChar_of_mem_gap a.after c ha
  · exact isPieceChar_of_isNameChar (a.word.isName.chars c hw)

/-- An item has no character that would end its piece. -/
theorem isPieceChar_of_mem_item (h : ∀ n, IsName (write n)) (i : Item ν) :
    ∀ c ∈ i.text write, isPieceChar c = true := by
  obtain ⟨before, name, alias?, after⟩ := i
  intro c hc
  rcases List.mem_append.mp hc with hc | ha
  · rcases List.mem_append.mp hc with hb | hc
    · exact isPieceChar_of_mem_gap before c hb
    rcases List.mem_append.mp hc with hn | hc
    · exact isPieceChar_of_isNameChar ((h name).chars c hn)
    · cases alias? with
      | none => cases hc
      | some a => exact isPieceChar_of_mem_alias a c hc
  · exact isPieceChar_of_mem_gap after c ha

theorem isPieceChar_of_mem_opening (p : Option Parentheses) :
    ∀ c ∈ opening p, isPieceChar c = true := by
  intro c hc
  cases p with
  | none => cases hc
  | some p =>
      rcases List.mem_append.mp hc with hb | hc
      · exact isPieceChar_of_mem_gap p.before c hb
      · rw [List.mem_singleton.mp hc]
        decide

theorem isPieceChar_of_mem_closing (p : Option Parentheses) :
    ∀ c ∈ closing p, isPieceChar c = true := by
  intro c hc
  cases p with
  | none => cases hc
  | some p =>
      rcases List.mem_cons.mp hc with rfl | ha
      · decide
      · exact isPieceChar_of_mem_gap p.after c ha

/-! ### Lists -/

/-- The names in a clause are those before a comma and those after it. -/
theorem names_append_comma (u v : Text) :
    Clause.names (u ++ ',' :: v) = Clause.names u ++ Clause.names v := by
  simp only [Clause.names, List.splitOn_append_cons_self, List.map_append, List.filter_append]

/-- A clause without a comma has the name of its only piece. -/
theorem names_of_piece (h : ∀ c ∈ t, isPieceChar c = true) :
    Clause.names t = if Clause.pieceName t = [] then [] else [Clause.pieceName t] := by
  rw [Clause.names, List.splitOn_eq_singleton (notMem_of_forall h (by decide))]
  by_cases hn : Clause.pieceName t = [] <;> simp [hn]

/-- **An item of a clause is read as its name**, in parentheses or not. -/
theorem names_item (h : ∀ n, IsName (write n)) (i : Item ν) (p q : Option Parentheses) :
    Clause.names (opening p ++ i.text write ++ closing q) = [write i.name] := by
  have hchars : ∀ c ∈ opening p ++ i.text write ++ closing q, isPieceChar c = true :=
    List.forall_mem_append.mpr ⟨List.forall_mem_append.mpr ⟨isPieceChar_of_mem_opening p,
      isPieceChar_of_mem_item h i⟩, isPieceChar_of_mem_closing q⟩
  rw [names_of_piece hchars, pieceName_item h, if_neg (h i.name).ne_nil]

/-- **The names in a list** are its names in order, whatever stands around it. -/
theorem names_listing (h : ∀ n, IsName (write n)) (l : Listing ν) (p q : Option Parentheses) :
    Clause.names (opening p ++ l.text write ++ closing q) = l.names.map write := by
  obtain ⟨first, rest⟩ := l
  induction rest generalizing first p with
  | nil => simpa [Listing.text, Listing.names] using names_item h first p q
  | cons i rest ih =>
      -- the parenthesis before the list belongs to its first piece
      have hsplit : opening p ++ Listing.text write ⟨first, i :: rest⟩ ++ closing q =
          (opening p ++ first.text write ++ closing none) ++
            ',' :: (opening none ++ Listing.text write ⟨i, rest⟩ ++ closing q) := by
        simp [Listing.text, opening, closing]
      rw [hsplit, names_append_comma, names_item h first p none, ih none i]
      rfl

end

/-- **The names in the objects of a statement**, in order, whatever stands around them. -/
theorem names_objects (o : Objects) :
    Clause.names o.text = o.words.names.map Word.text := by
  obtain ⟨words, comma?, parentheses?⟩ := o
  cases comma? with
  | none =>
      have h := names_listing Word.isName words parentheses? parentheses?
      simpa [Objects.text] using h
  | some g =>
      have hsplit : Objects.text ⟨words, some g, parentheses?⟩ =
          (opening parentheses? ++ words.text Word.text ++ closing none) ++
            ',' :: (g.text ++ closing parentheses?) := by
        simp [Objects.text, closing]
      have hchars : ∀ c ∈ g.text ++ closing parentheses?, isPieceChar c = true :=
        List.forall_mem_append.mpr
          ⟨isPieceChar_of_mem_gap g, isPieceChar_of_mem_closing parentheses?⟩
      rw [hsplit, names_append_comma, names_listing Word.isName words parentheses? none,
        names_of_piece hchars, if_pos (pieceName_gap g parentheses?), List.append_nil]

/-- The names in a list of modules. -/
theorem names_modules (l : Listing DottedName) :
    Clause.names (l.text DottedName.text) = l.names.map DottedName.text := by
  simpa [opening, closing] using names_listing DottedName.isName l none none

end ImportXref.Written
