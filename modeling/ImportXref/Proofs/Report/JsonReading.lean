import ImportXref.Report.Json
import ImportXref.Toml.Scalar

/-!
# JSON — reading it back

A strict reader for JSON texts made of strings, natural numbers, lists and objects: white space is
free between the parts, characters below U+0020 stand in a string only as escapes, halves of
surrogate pairs come in pairs, a number has no leading zero, no comma follows the last element,
and nothing but white space follows the value.  The fields of an object are read in the order in
which they are written.

* `stringAfter?_escaped`: a string is read back character by character, whatever follows it.
* `value?_render`: a written value is read back at every level, whatever follows it.
* `ofText?_pretty`: **a written value is valid JSON and is read back as itself.**
-/

namespace ImportXref.Json

/-! ### The reader -/

/-- White space between the parts of a value. -/
def isSpace (c : Char) : Bool :=
  c = ' ' || c = '\t' || c = '\n' || c = '\r'

/-- The text without white space in front. -/
def skip (t : Text) : Text :=
  t.dropWhile isSpace

/-- The character that a letter after a backslash stands for. -/
def escaped? (c : Char) : Option Char :=
  match c with
  | '"' => some '"'
  | '\\' => some '\\'
  | '/' => some '/'
  | 'b' => some '\x08'
  | 'f' => some '\x0c'
  | 'n' => some '\n'
  | 'r' => some '\r'
  | 't' => some '\t'
  | _ => none

/-- The first half of a surrogate pair. -/
def isHighHalf (n : Nat) : Bool :=
  0xD800 ≤ n && n ≤ 0xDBFF

/-- The second half of a surrogate pair. -/
def isLowHalf (n : Nat) : Bool :=
  0xDC00 ≤ n && n ≤ 0xDFFF

/-- The number that hexadecimal digits spell. -/
def hexNumber? (digits : Text) : Option Nat :=
  (digits.mapM Toml.hexValue?).map fun values => values.foldl (fun n d => 16 * n + d) 0

/-- The rest of a string after its opening quote, and after the first half of a surrogate pair if
there is one. -/
def stringAfter? : Option Nat → Text → Option (Text × Text)
  | half, '\\' :: 'u' :: a :: b :: c :: d :: t =>
    match half, hexNumber? [a, b, c, d] with
    | none, some n =>
      if isHighHalf n then stringAfter? (some n) t
      else if isLowHalf n then none
      else Toml.prepend [Char.ofNat n] (stringAfter? none t)
    | some high, some low =>
      if isLowHalf low then
        Toml.prepend [Char.ofNat (0x10000 + (high - 0xD800) * 0x400 + (low - 0xDC00))]
          (stringAfter? none t)
      else none
    | _, none => none
  | none, '"' :: t => some ([], t)
  | none, '\\' :: c :: t => (escaped? c).bind fun x => Toml.prepend [x] (stringAfter? none t)
  | none, c :: t => if c.toNat < 0x20 then none else Toml.prepend [c] (stringAfter? none t)
  | _, _ => none

/-- A natural number.  A zero stands in front of no other digit. -/
def number? (t : Text) : Option (Nat × Text) :=
  match t.takeWhile Char.isDigit with
  | [] => none
  | '0' :: _ :: _ => none
  | digits => some (Nat.ofDigitChars 10 digits 0, t.dropWhile Char.isDigit)

mutual

/-- A value.  `steps` bounds the number of values and elements before it and around it. -/
def value? : Nat → Text → Option (Json × Text)
  | 0, _ => none
  | steps + 1, t =>
    match t with
    | '"' :: t => (stringAfter? none t).map fun (s, rest) => (.text s, rest)
    | '[' :: t =>
      match skip t with
      | ']' :: rest => some (.list [], rest)
      | t => (elements? steps t).map fun (vs, rest) => (.list vs, rest)
    | '\x7b' :: t =>
      match skip t with
      | '\x7d' :: rest => some (.object [], rest)
      | t => (fields? steps t).map fun (fs, rest) => (.object fs, rest)
    | t => (number? t).map fun (n, rest) => (.number n, rest)

/-- The elements of a list, one at least, up to its closing bracket. -/
def elements? : Nat → Text → Option (List Json × Text)
  | 0, _ => none
  | steps + 1, t =>
    match value? steps t with
    | none => none
    | some (v, rest) =>
      match skip rest with
      | ',' :: rest => (elements? steps (skip rest)).map fun (vs, rest) => (v :: vs, rest)
      | ']' :: rest => some ([v], rest)
      | _ => none

/-- The fields of an object, one at least, up to its closing brace. -/
def fields? : Nat → Text → Option (List (Text × Json) × Text)
  | 0, _ => none
  | steps + 1, t =>
    match t with
    | '"' :: t =>
      match stringAfter? none t with
      | none => none
      | some (k, rest) =>
        match skip rest with
        | ':' :: rest =>
          match value? steps (skip rest) with
          | none => none
          | some (v, rest) =>
            match skip rest with
            | ',' :: rest => (fields? steps (skip rest)).map fun (fs, rest) => ((k, v) :: fs, rest)
            | '\x7d' :: rest => some ([(k, v)], rest)
            | _ => none
        | _ => none
    | _ => none

end

/-- The value that a text holds, and nothing besides. -/
def ofText? (t : Text) : Option Json :=
  match value? (2 * t.length + 2) (skip t) with
  | some (v, rest) => if (skip rest).isEmpty then some v else none
  | none => none

/-! ### Strings -/

/-- A hexadecimal digit is read back. -/
theorem hexValue?_hexDigit : ∀ n < 16, Toml.hexValue? (hexDigit n) = some n := by decide

/-- The number of a control character is read back from its four digits. -/
theorem hexNumber?_hexDigits {n : Nat} (h : n < 0x20) :
    hexNumber? ['0', '0', hexDigit (n / 16), hexDigit (n % 16)] = some n := by
  have hzero : Toml.hexValue? '0' = some 0 := rfl
  have hhigh := hexValue?_hexDigit (n / 16) (by omega)
  have hlow := hexValue?_hexDigit (n % 16) (by omega)
  have hsum : 16 * (n / 16) + n % 16 = n := by omega
  simp [hexNumber?, hzero, hhigh, hlow, hsum]

/-- One character of a string, whatever follows. -/
theorem stringAfter?_escapedChar (c : Char) (t : Text) :
    stringAfter? none (escapedChar c ++ t) = Toml.prepend [c] (stringAfter? none t) := by
  unfold escapedChar
  split
  iterate 7 simp [stringAfter?, escaped?]
  next hquote hback _ _ _ _ _ =>
  split
  · next hlt =>
    have hhigh : isHighHalf c.toNat = false := by simp [isHighHalf]; omega
    have hlow : isLowHalf c.toNat = false := by simp [isLowHalf]; omega
    simp [stringAfter?, hexNumber?_hexDigits hlt, hhigh, hlow]
  · next hge =>
    rw [List.singleton_append, stringAfter?, if_neg hge]
    all_goals intros; contradiction

/-- A string up to its closing quote. -/
theorem stringAfter?_escaped (t rest : Text) :
    stringAfter? none (t.flatMap escapedChar ++ '"' :: rest) = some (t, rest) := by
  induction t with
  | nil => simp [stringAfter?]
  | cons c t ih =>
    rw [List.flatMap_cons, List.append_assoc, stringAfter?_escapedChar, ih]
    rfl

/-! ### Numbers -/

/-- No digit follows. -/
def NoDigit (rest : Text) : Prop :=
  ∀ c ∈ rest.head?, c.isDigit = false

theorem noDigit_nil : NoDigit [] := by simp [NoDigit]

theorem noDigit_cons {c : Char} (h : c.isDigit = false) (t : Text) : NoDigit (c :: t) := by
  simpa [NoDigit] using h

theorem takeWhile_of_noDigit {rest : Text} (h : NoDigit rest) :
    rest.takeWhile Char.isDigit = [] := by
  cases rest with
  | nil => rfl
  | cons c t => rw [List.takeWhile_cons, h c rfl]; rfl

theorem dropWhile_of_noDigit {rest : Text} (h : NoDigit rest) :
    rest.dropWhile Char.isDigit = rest := by
  cases rest with
  | nil => rfl
  | cons c t => rw [List.dropWhile_cons, h c rfl]; rfl

/-- A number is written in digits only. -/
theorem isDigit_of_mem_ofNat {n : Nat} {c : Char} (h : c ∈ Text.ofNat n) : c.isDigit = true :=
  Nat.isDigit_of_mem_toDigits (by decide) (by decide) h

theorem exists_digit_cons (n : Nat) : ∃ d ds, Text.ofNat n = d :: ds ∧ d.isDigit = true := by
  obtain ⟨d, ds, hd⟩ := List.exists_cons_of_ne_nil (Nat.toDigits_ne_nil (n := n) (b := 10))
  exact ⟨d, ds, hd, isDigit_of_mem_ofNat (n := n) (by simp [Text.ofNat, hd])⟩

theorem eq_zero_of_digitChar : ∀ n < 10, n.digitChar = '0' → n = 0 := by decide

/-- Only zero is written with a zero in front. -/
theorem eq_zero_of_head?_ofNat {n : Nat} (h : (Text.ofNat n).head? = some '0') : n = 0 := by
  induction n using Nat.strongRecOn with
  | ind n ih =>
    by_cases hn : n < 10
    · rw [Text.ofNat, Nat.toDigits_of_lt_base hn] at h
      exact eq_zero_of_digitChar n hn (Option.some.inj h)
    · obtain ⟨d, ds, hd, -⟩ := exists_digit_cons (n / 10)
      rw [Text.ofNat, Nat.toDigits_of_base_le (by decide) (by omega), ← Text.ofNat, hd] at h
      have hzero : n / 10 = 0 := ih (n / 10) (by omega) (by rw [hd]; exact h)
      omega

/-- A number, whatever follows that is no digit. -/
theorem number?_ofNat (n : Nat) {rest : Text} (h : NoDigit rest) :
    number? (Text.ofNat n ++ rest) = some (n, rest) := by
  have hdigits : ∀ c ∈ Text.ofNat n, c.isDigit = true := fun _ => isDigit_of_mem_ofNat
  have htake : (Text.ofNat n ++ rest).takeWhile Char.isDigit = Text.ofNat n := by
    rw [List.takeWhile_append_of_pos hdigits, takeWhile_of_noDigit h, List.append_nil]
  have hdrop : (Text.ofNat n ++ rest).dropWhile Char.isDigit = rest := by
    rw [List.dropWhile_append_of_pos hdigits, dropWhile_of_noDigit h]
  have hvalue : Nat.ofDigitChars 10 (Text.ofNat n) 0 = n :=
    Nat.ofDigitChars_toDigits (by decide) (by decide)
  rw [number?, htake, hdrop]
  split
  · next hnil => exact absurd hnil Nat.toDigits_ne_nil
  · next c t hzero =>
    have hn : n = 0 := eq_zero_of_head?_ofNat (by rw [hzero]; rfl)
    subst hn
    cases hzero
  · rw [hvalue]

/-! ### White space -/

theorem skip_of_head? {t : Text} {c : Char} (hc : t.head? = some c) (h : isSpace c = false) :
    skip t = t := by
  obtain ⟨r, rfl⟩ := List.head?_eq_some_iff.mp hc
  simp [skip, h]

/-- A line feed and the spaces behind it are passed over. -/
@[simp] theorem skip_newline (level : Nat) (t : Text) : skip (newline level ++ t) = skip t :=
  List.dropWhile_append_of_pos fun c hc => by
    obtain rfl | hc := List.mem_cons.mp hc
    · rfl
    · rw [List.eq_of_mem_replicate hc]
      rfl

/-- White space is passed over up to the character behind it. -/
theorem skip_newline_cons {c : Char} (h : isSpace c = false) (level : Nat) (t : Text) :
    skip (newline level ++ c :: t) = c :: t := by
  rw [skip_newline]
  exact skip_of_head? rfl h

theorem noDigit_newline (level : Nat) (t : Text) : NoDigit (newline level ++ t) :=
  noDigit_cons rfl _

theorem isSpace_of_isDigit {c : Char} (h : c.isDigit = true) : isSpace c = false := by
  refine Bool.eq_false_iff.mpr fun hspace => ?_
  simp only [isSpace, Bool.or_eq_true, decide_eq_true_eq] at hspace
  obtain ((rfl | rfl) | rfl) | rfl := hspace <;> cases h

/-- A written value begins neither with white space nor with a closing bracket. -/
theorem head?_render (level : Nat) (v : Json) :
    ∃ c, (render level v).head? = some c ∧ isSpace c = false ∧ c ≠ ']' := by
  cases v with
  | text t => exact ⟨'"', by simp [render, string], rfl, by decide⟩
  | number n =>
    obtain ⟨d, ds, hd, hdigit⟩ := exists_digit_cons n
    exact ⟨d, by simp [render, hd], isSpace_of_isDigit hdigit, by rintro rfl; cases hdigit⟩
  | list vs => exact ⟨'[', by simp [render], rfl, by decide⟩
  | object fs => exact ⟨'\x7b', by simp [render], rfl, by decide⟩

/-- No value begins with white space. -/
theorem skip_render_append (level : Nat) (v : Json) (t : Text) :
    skip (render level v ++ t) = render level v ++ t := by
  obtain ⟨c, hc, hspace, -⟩ := head?_render level v
  exact skip_of_head? (by simp [hc]) hspace

/-! ### Values -/

section

variable {steps : Nat} {v : Json} {k t t' rest : Text}

/-- A string is read back, whatever follows it. -/
theorem value?_text (steps : Nat) (t rest : Text) :
    value? (steps + 1) (string t ++ rest) = some (.text t, rest) := by
  simp [value?, string, stringAfter?_escaped]

/-- A number is read back if no digit follows it. -/
theorem value?_number (steps n : Nat) (h : NoDigit rest) :
    value? (steps + 1) (Text.ofNat n ++ rest) = some (.number n, rest) := by
  have hread := number?_ofNat n h
  obtain ⟨d, ds, hd, hdigit⟩ := exists_digit_cons n
  rw [hd, List.cons_append] at hread ⊢
  rw [value?, hread]
  · rfl
  all_goals
    intro _ h
    obtain ⟨rfl, -⟩ := List.cons.inj h
    cases hdigit

/-- A list that has elements. -/
theorem value?_list (h : (skip t).head? ≠ some ']') :
    value? (steps + 1) ('[' :: t) =
      (elements? steps (skip t)).map fun (vs, rest) => (.list vs, rest) := by
  simp only [value?]
  split
  · simp_all
  · rfl

/-- An object that has fields. -/
theorem value?_object (h : (skip t).head? ≠ some '\x7d') :
    value? (steps + 1) ('\x7b' :: t) =
      (fields? steps (skip t)).map fun (fs, rest) => (.object fs, rest) := by
  simp only [value?]
  split
  · simp_all
  · rfl

theorem elements?_last (hv : value? steps t = some (v, rest)) (hr : skip rest = ']' :: t') :
    elements? (steps + 1) t = some ([v], t') := by
  simp only [elements?, hv, hr]

/-- Behind a comma, the reader of a list goes on. -/
theorem elements?_more (hv : value? steps t = some (v, rest)) (hr : skip rest = ',' :: t') :
    elements? (steps + 1) t =
      (elements? steps (skip t')).map fun (vs, rest) => (v :: vs, rest) := by
  simp only [elements?, hv, hr]

theorem fields?_last (ht : skip t = t) (hv : value? steps t = some (v, rest))
    (hr : skip rest = '\x7d' :: t') :
    fields? (steps + 1) (string k ++ ':' :: ' ' :: t) = some ([(k, v)], t') := by
  have hcolon : skip (':' :: ' ' :: t) = ':' :: ' ' :: t := skip_of_head? rfl rfl
  have hspace : skip (' ' :: t) = t := ht
  simp [fields?, string, stringAfter?_escaped, hcolon, hspace, hv, hr]

theorem fields?_more (ht : skip t = t) (hv : value? steps t = some (v, rest))
    (hr : skip rest = ',' :: t') :
    fields? (steps + 1) (string k ++ ':' :: ' ' :: t) =
      (fields? steps (skip t')).map fun (fs, rest) => ((k, v) :: fs, rest) := by
  have hcolon : skip (':' :: ' ' :: t) = ':' :: ' ' :: t := skip_of_head? rfl rfl
  have hspace : skip (' ' :: t) = t := ht
  simp [fields?, string, stringAfter?_escaped, hcolon, hspace, hv, hr]

end

/-! ### Writing -/

/-- How a list is written that is not empty: each element on a line of its own. -/
theorem render_list (level : Nat) {vs : List Json} (h : vs ≠ []) (rest : Text) :
    render level (.list vs) ++ rest =
      '[' :: (renderValues (level + 1) vs ++ (newline level ++ ']' :: rest)) := by
  simp [render, lastLine, h]

/-- How an object is written that is not empty: each field on a line of its own. -/
theorem render_object (level : Nat) {fs : List (Text × Json)} (h : fs ≠ []) (rest : Text) :
    render level (.object fs) ++ rest =
      '\x7b' :: (renderFields (level + 1) fs ++ (newline level ++ '\x7d' :: rest)) := by
  simp [render, lastLine, h]

/-- The first element of a list, and what follows it. -/
theorem skip_renderValues (level : Nat) (v : Json) (vs : List Json) (t : Text) :
    skip (renderValues level (v :: vs) ++ t) =
      render level v ++ (comma vs ++ (renderValues level vs ++ t)) := by
  simp [renderValues, skip_render_append]

theorem skip_renderFields (level : Nat) (k : Text) (v : Json) (fs : List (Text × Json))
    (t : Text) : skip (renderFields level ((k, v) :: fs) ++ t) =
      string k ++ ':' :: ' ' :: (render level v ++ (comma fs ++ (renderFields level fs ++ t))) := by
  have hquote (u : Text) : skip (string k ++ u) = string k ++ u := skip_of_head? rfl rfl
  simp [renderFields, hquote]

/-- Each element is shorter than what is left of the list, which has a new line in front. -/
theorem length_of_renderValues {level steps : Nat} {v : Json} {vs : List Json}
    (h : (renderValues level (v :: vs)).length ≤ steps + 1) :
    (render level v).length ≤ steps ∧ (renderValues level vs).length ≤ steps := by
  simp only [renderValues, newline, List.length_append, List.length_cons] at h
  omega

/-- Each field is shorter than what is left of the object, which has a new line in front. -/
theorem length_of_renderFields {level steps : Nat} {k : Text} {v : Json}
    {fs : List (Text × Json)} (h : (renderFields level ((k, v) :: fs)).length ≤ steps + 1) :
    (render level v).length ≤ steps ∧ (renderFields level fs).length ≤ steps := by
  simp only [renderFields, newline, List.length_append, List.length_cons] at h
  omega

/-- Elements do not begin with a closing bracket, so the reader takes them for no empty list. -/
theorem head?_skip_renderValues (level : Nat) {vs : List Json} (h : vs ≠ []) (t : Text) :
    (skip (renderValues level vs ++ t)).head? ≠ some ']' := by
  obtain ⟨v, vs, rfl⟩ := List.exists_cons_of_ne_nil h
  obtain ⟨c, hc, -, hbracket⟩ := head?_render level v
  rw [skip_renderValues, List.head?_append, hc]
  exact fun heq => hbracket (Option.some.inj heq)

/-- Fields do not begin with a closing brace, so the reader takes them for no empty object. -/
theorem head?_skip_renderFields (level : Nat) {fs : List (Text × Json)} (h : fs ≠ [])
    (t : Text) : (skip (renderFields level fs ++ t)).head? ≠ some '\x7d' := by
  obtain ⟨⟨k, v⟩, fs, rfl⟩ := List.exists_cons_of_ne_nil h
  rw [skip_renderFields]
  simp [string]

mutual

/-- **A written value is read back**, whatever follows that is no digit.  By recursion on the
value; `steps` is at least the length of what is read. -/
theorem value?_render : ∀ (v : Json) (level steps : Nat) (rest : Text),
    (render level v).length ≤ steps → NoDigit rest →
      value? steps (render level v ++ rest) = some (v, rest)
  | v, level, 0, rest, hsteps, _ => by
    obtain ⟨c, hc, -, -⟩ := head?_render level v
    rw [List.eq_nil_of_length_eq_zero (Nat.le_zero.mp hsteps)] at hc
    cases hc
  | .text t, level, steps + 1, rest, _, _ => value?_text steps t rest
  | .number n, level, steps + 1, rest, _, hrest => value?_number steps n hrest
  | .list vs, level, steps + 1, rest, hsteps, _ => by
    by_cases hvs : vs = []
    · subst hvs
      have hbracket : skip (']' :: rest) = ']' :: rest := skip_of_head? rfl rfl
      simp [render, renderValues, lastLine, value?, hbracket]
    · have hle : (renderValues (level + 1) vs).length ≤ steps := by
        simp only [render, List.length_append, List.length_cons] at hsteps
        omega
      rw [render_list level hvs, value?_list (head?_skip_renderValues _ hvs _),
        elements?_renderValues vs (level + 1) level steps rest hvs hle]
      rfl
  | .object fs, level, steps + 1, rest, hsteps, _ => by
    by_cases hfs : fs = []
    · subst hfs
      have hbrace : skip ('\x7d' :: rest) = '\x7d' :: rest := skip_of_head? rfl rfl
      simp [render, renderFields, lastLine, value?, hbrace]
    · have hle : (renderFields (level + 1) fs).length ≤ steps := by
        simp only [render, List.length_append, List.length_cons] at hsteps
        omega
      rw [render_object level hfs, value?_object (head?_skip_renderFields _ hfs _),
        fields?_renderFields fs (level + 1) level steps rest hfs hle]
      rfl

/-- The elements of a list are read back up to its closing bracket. -/
theorem elements?_renderValues : ∀ (vs : List Json) (level close steps : Nat) (rest : Text),
    vs ≠ [] → (renderValues level vs).length ≤ steps →
      elements? steps (skip (renderValues level vs ++ (newline close ++ ']' :: rest))) =
        some (vs, rest)
  | [], _, _, _, _, hne, _ => absurd rfl hne
  | v :: vs, level, close, 0, rest, _, hsteps => by
    simp [renderValues, newline] at hsteps
  | [v], level, close, steps + 1, rest, _, hsteps => by
    have hv := value?_render v level steps (newline close ++ ']' :: rest)
      (length_of_renderValues hsteps).1 (noDigit_newline _ _)
    rw [skip_renderValues]
    exact elements?_last hv (skip_newline_cons rfl ..)
  | v :: w :: vs, level, close, steps + 1, rest, _, hsteps => by
    obtain ⟨hfirst, hmore⟩ := length_of_renderValues hsteps
    have hv := value?_render v level steps
      (',' :: (renderValues level (w :: vs) ++ (newline close ++ ']' :: rest))) hfirst
      (noDigit_cons rfl _)
    have hvs := elements?_renderValues (w :: vs) level close steps rest (by simp) hmore
    rw [skip_renderValues]
    exact (elements?_more hv (skip_of_head? rfl rfl)).trans (by rw [hvs]; rfl)

/-- The fields of an object are read back up to its closing brace. -/
theorem fields?_renderFields :
    ∀ (fs : List (Text × Json)) (level close steps : Nat) (rest : Text),
      fs ≠ [] → (renderFields level fs).length ≤ steps →
        fields? steps (skip (renderFields level fs ++ (newline close ++ '\x7d' :: rest))) =
          some (fs, rest)
  | [], _, _, _, _, hne, _ => absurd rfl hne
  | (k, v) :: fs, level, close, 0, rest, _, hsteps => by
    simp [renderFields, newline] at hsteps
  | [(k, v)], level, close, steps + 1, rest, _, hsteps => by
    have hv := value?_render v level steps (newline close ++ '\x7d' :: rest)
      (length_of_renderFields hsteps).1 (noDigit_newline _ _)
    rw [skip_renderFields]
    exact fields?_last (skip_render_append ..) hv (skip_newline_cons rfl ..)
  | (k, v) :: f :: fs, level, close, steps + 1, rest, _, hsteps => by
    obtain ⟨hfirst, hmore⟩ := length_of_renderFields hsteps
    have hv := value?_render v level steps
      (',' :: (renderFields level (f :: fs) ++ (newline close ++ '\x7d' :: rest))) hfirst
      (noDigit_cons rfl _)
    have hfs := fields?_renderFields (f :: fs) level close steps rest (by simp) hmore
    rw [skip_renderFields]
    exact (fields?_more (skip_render_append ..) hv (skip_of_head? rfl rfl)).trans (by rw [hfs]; rfl)

end

/-- **A written value is valid JSON and is read back as itself.** -/
theorem ofText?_pretty (v : Json) : ofText? v.pretty = some v := by
  have hskip : skip v.pretty = v.pretty := by
    simpa [pretty] using skip_render_append 0 v []
  have hread : value? (2 * v.pretty.length + 2) v.pretty = some (v, []) := by
    simpa [pretty] using value?_render v 0 (2 * v.pretty.length + 2) []
      (by rw [pretty]; omega) noDigit_nil
  rw [ofText?, hskip, hread]
  rfl

example : ofText? "[\"\\ud83d\\ude00\", 10 , \x7b\"\\u0061\" : []\x7d]".toList =
    some (.list [.text ['😀'], .number 10, .object [(['a'], .list [])]]) := by cbv
example : ofText? "[1,]".toList = none := by cbv

end ImportXref.Json
