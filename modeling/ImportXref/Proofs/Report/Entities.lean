import ImportXref.Report.Markup
import Mathlib.Data.List.Basic

/-!
# Markup — entities and the characters they stand for

Characters are replaced one after the other.  No entity holds a character that is replaced later,
so nothing that was put in is replaced again, and every character becomes its own entity or stays
(`escapedChar`), whatever entities the text held before.

`Markup.unescape` reads the five entities from left to right and leaves everything else as it is.

* `foldl_replaced`: replacing in turn is replacing at once.
* `escape_eq`, `escape_append`: a text is escaped character by character.
* `notMem_escape`: no angle bracket and no quote is left in an escaped text.
* `exists_entity_of_escape`: an ampersand in an escaped text begins an entity.
* `unescape_escape`: an escaped text is read back, also one that held entities itself.
* `escape_at_once`: all of this together.
-/

namespace ImportXref.Markup

/-! ### Replacing in turn -/

/-- The character as the first of the replacements for it has it. -/
def replacedChar (es : List (Char × Text)) (c : Char) : Text :=
  (es.lookup c).getD [c]

/-- No text that is put in holds a character that is replaced later. -/
def IsOrdered (es : List (Char × Text)) : Prop :=
  es.Pairwise fun earlier later => later.1 ∉ earlier.2

instance : DecidablePred IsOrdered := fun es =>
  inferInstanceAs (Decidable (es.Pairwise _))

variable {es : List (Char × Text)} {c : Char} {t : Text}

/-- A text without a character that is replaced stays as it is. -/
theorem flatMap_replacedChar (h : ∀ e ∈ es, e.1 ∉ t) : t.flatMap (replacedChar es) = t := by
  have hkept : ∀ c ∈ t, replacedChar es c = [c] := by
    intro c hc
    have hnone : es.lookup c = none :=
      List.lookup_eq_none_iff.mpr fun e he => bne_iff_ne.mpr fun hce => h e he (hce ▸ hc)
    rw [replacedChar, hnone, Option.getD_none]
  rw [List.flatMap_congr hkept, List.flatMap_singleton']

/-- **Replacing in turn is replacing at once**, if no text that is put in holds a character that
is replaced later. -/
theorem foldl_replaced (h : IsOrdered es) (t : Text) :
    es.foldl replaced t = t.flatMap (replacedChar es) := by
  induction es generalizing t with
  | nil => exact (flatMap_replacedChar (by simp)).symm
  | cons e es ih =>
      obtain ⟨hfirst, hrest⟩ := List.pairwise_cons.mp h
      rw [List.foldl_cons, ih hrest, replaced, List.flatMap_assoc]
      refine List.flatMap_congr fun c _ => ?_
      by_cases hc : c = e.1
      · -- what is put in first is left alone by all the others
        rw [if_pos hc, flatMap_replacedChar hfirst, replacedChar, List.lookup_cons, hc,
          beq_self_eq_true]
        rfl
      · rw [if_neg hc, List.flatMap_singleton, replacedChar, replacedChar, List.lookup_cons,
          beq_false_of_ne hc]

/-! ### Entities -/

/-- One character of an escaped text. -/
def escapedChar (c : Char) : Text :=
  match c with
  | '&' => ['&', 'a', 'm', 'p', ';']
  | '<' => ['&', 'l', 't', ';']
  | '>' => ['&', 'g', 't', ';']
  | '"' => ['&', 'q', 'u', 'o', 't', ';']
  | '\'' => ['&', '#', '3', '9', ';']
  | c => [c]

theorem replacedChar_entities (c : Char) : replacedChar entities c = escapedChar c := by
  unfold escapedChar
  split
  · rfl
  · rfl
  · rfl
  · rfl
  · rfl
  · next hamp hlt hgt hquot hapos =>
    have hnone : entities.lookup c = none :=
      List.lookup_eq_none_iff.mpr (by simpa [entities] using ⟨hamp, hlt, hgt, hquot, hapos⟩)
    rw [replacedChar, hnone, Option.getD_none]

/-- A text is escaped character by character. -/
theorem escape_eq (t : Text) : escape t = t.flatMap escapedChar := by
  rw [escape, foldl_replaced (by decide), funext replacedChar_entities]

theorem escape_cons (c : Char) (t : Text) : escape (c :: t) = escapedChar c ++ escape t := by
  rw [escape_eq, escape_eq, List.flatMap_cons]

theorem escape_append (s t : Text) : escape (s ++ t) = escape s ++ escape t := by
  rw [escape_eq, escape_eq, escape_eq, List.flatMap_append]

/-- An escaped text holds no character that has an entity, but for the ampersand. -/
@[simp] theorem notMem_escape (t : Text) :
    '<' ∉ escape t ∧ '>' ∉ escape t ∧ '"' ∉ escape t ∧ '\'' ∉ escape t := by
  have hchar (c : Char) :
      '<' ∉ escapedChar c ∧ '>' ∉ escapedChar c ∧ '"' ∉ escapedChar c ∧ '\'' ∉ escapedChar c := by
    unfold escapedChar
    split
    · decide
    · decide
    · decide
    · decide
    · decide
    · next hlt hgt hquot hapos =>
      simp only [List.mem_singleton]
      exact ⟨Ne.symm hlt, Ne.symm hgt, Ne.symm hquot, Ne.symm hapos⟩
  simp only [escape_eq, List.mem_flatMap, not_exists, not_and]
  exact ⟨fun c _ => (hchar c).1, fun c _ => (hchar c).2.1, fun c _ => (hchar c).2.2.1,
    fun c _ => (hchar c).2.2.2⟩

/-! ### Ampersands -/

/-- An escaped character with an ampersand is an entity, and the ampersand begins it. -/
theorem entity_of_escapedChar {u v : Text} (h : escapedChar c = u ++ '&' :: v) :
    u = [] ∧ ∃ e ∈ entities, e.2 = escapedChar c := by
  have htail : '&' ∉ (escapedChar c).tail ∧
      ('&' ∈ escapedChar c → ∃ e ∈ entities, e.2 = escapedChar c) := by
    unfold escapedChar
    split
    · decide
    · decide
    · decide
    · decide
    · decide
    · next hamp _ _ _ _ =>
      exact ⟨by simp, fun hmem => absurd (List.mem_singleton.mp hmem).symm hamp⟩
  refine ⟨?_, htail.2 (h ▸ by simp)⟩
  cases u with
  | nil => rfl
  | cons x u => exact absurd (h ▸ by simp) htail.1

/-- An ampersand in an escaped text begins an entity. -/
theorem exists_entity_of_escape {u v : Text} (h : escape t = u ++ '&' :: v) :
    ∃ e ∈ entities, e.2 <+: '&' :: v := by
  induction t generalizing u with
  | nil => exact absurd h (by simp [escape_eq])
  | cons c t ih =>
      rw [escape_cons] at h
      -- the ampersand stands in what the first character became, or behind it
      obtain ⟨w, rfl, hw⟩ | ⟨w, hc, hw⟩ := List.append_eq_append_iff.mp h
      · exact ih hw
      · cases w with
        | nil => exact ih (u := []) hw.symm
        | cons x w =>
            obtain ⟨rfl, hv⟩ := List.cons_eq_cons.mp hw
            obtain ⟨rfl, e, he, heq⟩ := entity_of_escapedChar hc
            refine ⟨e, he, ?_⟩
            rw [heq, hc, hv]
            exact List.prefix_append ..

/-! ### Reading back -/

/-- The text with the characters that its entities stand for. -/
def unescape : Text → Text
  | '&' :: 'a' :: 'm' :: 'p' :: ';' :: t => '&' :: unescape t
  | '&' :: 'l' :: 't' :: ';' :: t => '<' :: unescape t
  | '&' :: 'g' :: 't' :: ';' :: t => '>' :: unescape t
  | '&' :: 'q' :: 'u' :: 'o' :: 't' :: ';' :: t => '"' :: unescape t
  | '&' :: '#' :: '3' :: '9' :: ';' :: t => '\'' :: unescape t
  | c :: t => c :: unescape t
  | [] => []

theorem unescape_cons {c : Char} (h : c ≠ '&') (t : Text) :
    unescape (c :: t) = c :: unescape t := by
  rw [unescape.eq_def]
  split <;> simp_all

/-- An escaped character is read back, whatever follows it. -/
theorem unescape_escapedChar (c : Char) (t : Text) :
    unescape (escapedChar c ++ t) = c :: unescape t := by
  unfold escapedChar
  split
  · rfl
  · rfl
  · rfl
  · rfl
  · rfl
  · next hne _ _ _ _ => exact unescape_cons hne t

/-- **An escaped text is read back.** -/
theorem unescape_escape (t : Text) : unescape (escape t) = t := by
  induction t with
  | nil => rfl
  | cons c t ih => rw [escape_cons, unescape_escapedChar, ih]

/-- **Escaping in turn is escaping at once**: each character becomes its entity or stays, so
no special character is left but ampersands that begin an entity, reading the entities gives the
text back, and a text is escaped part by part. -/
theorem escape_at_once (s t : Text) :
    escape s = s.flatMap escapedChar ∧
      ('<' ∉ escape s ∧ '>' ∉ escape s ∧ '"' ∉ escape s ∧ '\'' ∉ escape s) ∧
      (∀ u v, escape s = u ++ '&' :: v → ∃ e ∈ entities, e.2 <+: '&' :: v) ∧
      unescape (escape s) = s ∧
      escape (s ++ t) = escape s ++ escape t :=
  ⟨escape_eq s, notMem_escape s, fun _ _ => exists_entity_of_escape, unescape_escape s,
    escape_append s t⟩

/-- A quote and an entity that stands in the text already are escaped once, and the ampersand of
that entity begins another one. -/
theorem quotedEntity_escaped :
    escape "\"&lt;'".toList = "&quot;&amp;lt;&#39;".toList ∧
      unescape (escape "\"&lt;'".toList) = "\"&lt;'".toList ∧
      ∃ e ∈ entities, e.2 <+: "&amp;lt;&#39;".toList := by
  have hescaped : escape "\"&lt;'".toList = "&quot;".toList ++ '&' :: "amp;lt;&#39;".toList := by
    decide
  obtain ⟨-, -, hentity, hread, -⟩ := escape_at_once "\"&lt;'".toList []
  exact ⟨hescaped, hread, hentity _ _ hescaped⟩

end ImportXref.Markup
