/-!
# Texts — lists of characters

Everything the library reads or writes is a `Text`, so every recogniser is a recursion on the
characters.  Here are the cuts that the other modules share: after a fixed start, before a fixed
ending, around the last occurrence of a character, around the first occurrence of a keyword.

* `dropStart?_eq_some_iff`, `dropEnd?_eq_some_iff`: a start or ending is removed exactly where it
  stands;
* `splitAtLast?_append`, `breakOn?_append`: a cut loses nothing but what it cuts at.
-/

namespace ImportXref

/-- A text is the list of its characters. -/
abbrev Text := List Char

namespace Text

/-- The part before the first `c`, or all of the text where there is no `c`. -/
def before (c : Char) (t : Text) : Text :=
  t.takeWhile (· != c)

/-- The text without the longest ending whose characters are all in the class `p`. -/
def dropEndWhile (p : Char → Bool) (t : Text) : Text :=
  (t.reverse.dropWhile p).reverse

/-- What follows the start `s`; nothing if the text starts otherwise. -/
def dropStart? : Text → Text → Option Text
  | [], t => some t
  | _ :: _, [] => none
  | x :: s, c :: t => if x = c then dropStart? s t else none

/-- What stands before the ending `s`; nothing if the text ends otherwise. -/
def dropEnd? (s t : Text) : Option Text :=
  (dropStart? s.reverse t.reverse).map List.reverse

/-- The two parts around the last `c`. -/
def splitAtLast? (c : Char) : Text → Option (Text × Text)
  | [] => none
  | x :: t =>
    match splitAtLast? c t with
    | some (u, v) => some (x :: u, v)
    | none => if x = c then some ([], t) else none

/-- The two parts around the first occurrence of the keyword `key`. -/
def breakOn? (key : Text) : Text → Option (Text × Text)
  | [] => (dropStart? key []).map ([], ·)
  | c :: t =>
    match dropStart? key (c :: t) with
    | some rest => some ([], rest)
    | none => (breakOn? key t).map fun (u, v) => (c :: u, v)

/-- Whether the keyword `key` stands somewhere in the text. -/
def mentions (key t : Text) : Bool :=
  (breakOn? key t).isSome

/-- A number in decimal digits. -/
def ofNat (n : Nat) : Text :=
  Nat.toDigits 10 n

/-- A number in lower-case hexadecimal digits without leading zeros. -/
def ofNatHex (n : Nat) : Text :=
  Nat.toDigits 16 n

/-! ### What the cuts keep -/

/-- What is left behind a start. -/
theorem dropStart?_eq_some_iff {s t r : Text} : dropStart? s t = some r ↔ t = s ++ r := by
  induction s generalizing t with
  | nil => simp [dropStart?]
  | cons x s ih =>
    cases t with
    | nil => simp [dropStart?]
    | cons c t =>
      by_cases h : x = c
      · simp [dropStart?, h, ih]
      · simp [dropStart?, h, Ne.symm h]

/-- What is left before an end. -/
theorem dropEnd?_eq_some_iff {s t r : Text} : dropEnd? s t = some r ↔ t = r ++ s := by
  simp only [dropEnd?, Option.map_eq_some_iff, dropStart?_eq_some_iff]
  constructor
  · rintro ⟨u, hu, rfl⟩
    simpa using congrArg List.reverse hu
  · rintro rfl
    exact ⟨r.reverse, by simp, by simp⟩

theorem splitAtLast?_append {c : Char} {t u v : Text} (h : splitAtLast? c t = some (u, v)) :
    t = u ++ c :: v := by
  induction t generalizing u with
  | nil => simp [splitAtLast?] at h
  | cons x t ih =>
    simp only [splitAtLast?] at h
    split at h
    · next u' v' hs => cases h; simp [ih hs]
    · split at h
      · cases h; simp_all
      · cases h

/-- Only a text without the character is not split. -/
theorem splitAtLast?_eq_none_iff {c : Char} {t : Text} : splitAtLast? c t = none ↔ c ∉ t := by
  induction t with
  | nil => simp [splitAtLast?]
  | cons x t ih =>
    simp only [splitAtLast?]
    split
    · next u v hs =>
      have : c ∈ t := by rw [splitAtLast?_append hs]; simp
      simp [this]
    · next hn =>
      rw [hn] at ih
      by_cases h : x = c
      · simp [h]
      · simpa [h, Ne.symm h] using ih

theorem notMem_of_splitAtLast? {c : Char} {t u v : Text} (h : splitAtLast? c t = some (u, v)) :
    c ∉ v := by
  induction t generalizing u with
  | nil => simp [splitAtLast?] at h
  | cons x t ih =>
    simp only [splitAtLast?] at h
    split at h
    · next u' v' hs => cases h; exact ih hs
    · next hn =>
      split at h
      · cases h; exact splitAtLast?_eq_none_iff.mp hn
      · cases h

/-- The cut around the last `c` undoes joining at a `c` with no other after it. -/
theorem splitAtLast?_join {c : Char} (u : Text) {v : Text} (h : c ∉ v) :
    splitAtLast? c (u ++ c :: v) = some (u, v) := by
  induction u with
  | nil => simp [splitAtLast?, splitAtLast?_eq_none_iff.mpr h]
  | cons x u ih => simp [splitAtLast?, ih]

/-- The parts around a keyword make up the text. -/
theorem breakOn?_append {key t u v : Text} (h : breakOn? key t = some (u, v)) :
    t = u ++ key ++ v := by
  induction t generalizing u with
  | nil =>
    obtain ⟨r, hr, he⟩ := Option.map_eq_some_iff.mp h
    cases he
    simpa using dropStart?_eq_some_iff.mp hr
  | cons c t ih =>
    simp only [breakOn?] at h
    split at h
    · next rest hp => cases h; simpa using dropStart?_eq_some_iff.mp hp
    · obtain ⟨⟨u', v'⟩, hs, he⟩ := Option.map_eq_some_iff.mp h
      cases he
      simp [ih hs]

end Text

end ImportXref
