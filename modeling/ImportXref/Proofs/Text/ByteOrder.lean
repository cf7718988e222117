import ImportXref.Text.Order
import ImportXref.Text.Utf8

/-!
# The order of texts — by their bytes

The order by code points is the order by UTF-8 bytes: a longer encoding has a greater first byte,
and in encodings of the same length the bits of the number stand in their order.

* `utf8EncodeChar_lt`: a smaller character has smaller bytes, whatever follows.
* `utf8_lt_of_precedes`: a text that comes first by code points comes first by its bytes.
-/

namespace ImportXref.Text

/-- Two byte strings are compared at their first bytes, which are given as numbers. -/
theorem ofNat_cons_lt {m n : Nat} {a b : Bytes} (hn : n < 256) (h : m < n ∨ m = n ∧ a < b) :
    UInt8.ofNat m :: a < UInt8.ofNat n :: b := by
  refine List.cons_lt_cons_iff.mpr (h.imp (fun hlt => ?_) fun h => ⟨by rw [h.1], h.2⟩)
  have hm : m < 256 := Nat.lt_trans hlt hn
  have hm' : (UInt8.ofNat m).toNat = m := UInt8.toNat_ofNat_of_lt hm
  have hn' : (UInt8.ofNat n).toNat = n := UInt8.toNat_ofNat_of_lt hn
  rw [UInt8.lt_iff_toNat_lt, hm', hn']
  exact hlt

/-- The last six bits of a number are compared after the bits before them. -/
theorem sixBits_lt {v w : Nat} (h : v < w) :
    v / 64 < w / 64 ∨ v / 64 = w / 64 ∧ v % 64 < w % 64 := by
  omega

section

variable {v w : Nat} (h : v < w)
include h

/-- Encodings of two bytes. -/
theorem two_lt (hw : w ≤ 0x7FF) (a b : Bytes) :
    UInt8.ofNat (v / 64 % 32 + 192) :: UInt8.ofNat (v % 64 + 128) :: a <
      UInt8.ofNat (w / 64 % 32 + 192) :: UInt8.ofNat (w % 64 + 128) :: b := by
  refine ofNat_cons_lt (by omega) ?_
  obtain hlt | ⟨heq, hlt⟩ := sixBits_lt h
  · exact .inl (by omega)
  · exact .inr ⟨by rw [heq], ofNat_cons_lt (by omega) (.inl (by omega))⟩

/-- Encodings of three bytes. -/
theorem three_lt (hw : w ≤ 0xFFFF) (a b : Bytes) :
    UInt8.ofNat (v / 4096 % 16 + 224) :: UInt8.ofNat (v / 64 % 64 + 128) ::
        UInt8.ofNat (v % 64 + 128) :: a <
      UInt8.ofNat (w / 4096 % 16 + 224) :: UInt8.ofNat (w / 64 % 64 + 128) ::
        UInt8.ofNat (w % 64 + 128) :: b := by
  refine ofNat_cons_lt (by omega) ?_
  obtain hlt | ⟨heq, hlt⟩ := sixBits_lt h
  · obtain hhigh | ⟨hhigh, hlow⟩ := sixBits_lt hlt
    · exact .inl (by omega)
    · exact .inr ⟨by omega, ofNat_cons_lt (by omega) (.inl (by omega))⟩
  · refine .inr ⟨by omega, ofNat_cons_lt (by omega) (.inr ⟨by rw [heq], ?_⟩)⟩
    exact ofNat_cons_lt (by omega) (.inl (by omega))

/-- Encodings of four bytes. -/
theorem four_lt (hw : w < 0x110000) (a b : Bytes) :
    UInt8.ofNat (v / 262144 % 8 + 240) :: UInt8.ofNat (v / 4096 % 64 + 128) ::
        UInt8.ofNat (v / 64 % 64 + 128) :: UInt8.ofNat (v % 64 + 128) :: a <
      UInt8.ofNat (w / 262144 % 8 + 240) :: UInt8.ofNat (w / 4096 % 64 + 128) ::
        UInt8.ofNat (w / 64 % 64 + 128) :: UInt8.ofNat (w % 64 + 128) :: b := by
  refine ofNat_cons_lt (by omega) ?_
  obtain hlt | ⟨heq, hlt⟩ := sixBits_lt h
  · obtain hhigh | ⟨hhigh, hlow⟩ := sixBits_lt hlt
    · obtain htop | ⟨htop, hmid⟩ := sixBits_lt hhigh
      · exact .inl (by omega)
      · exact .inr ⟨by omega, ofNat_cons_lt (by omega) (.inl (by omega))⟩
    · refine .inr ⟨by omega, ofNat_cons_lt (by omega) (.inr ⟨by omega, ?_⟩)⟩
      exact ofNat_cons_lt (by omega) (.inl (by omega))
  · refine .inr ⟨by omega, ofNat_cons_lt (by omega) (.inr ⟨by omega, ?_⟩)⟩
    refine ofNat_cons_lt (by omega) (.inr ⟨by rw [heq], ?_⟩)
    exact ofNat_cons_lt (by omega) (.inl (by omega))

end

/-- A smaller character has smaller bytes, whatever follows. -/
theorem utf8EncodeChar_lt {x y : Char} (h : x < y) (a b : Bytes) :
    String.utf8EncodeChar x ++ a < String.utf8EncodeChar y ++ b := by
  have hlt : x.val.toNat < y.val.toNat := h
  have hvalid : y.val.toNat < 0xD800 ∨ 0xDFFF < y.val.toNat ∧ y.val.toNat < 0x110000 := y.valid
  unfold String.utf8EncodeChar
  generalize x.val.toNat = v at hlt
  generalize y.val.toNat = w at hlt hvalid
  simp only
  -- By the length of the smaller one's encoding; the other is as long or longer.
  split
  · split
    · exact ofNat_cons_lt (by omega) (.inl hlt)
    split
    · exact ofNat_cons_lt (by omega) (.inl (by omega))
    split
    · exact ofNat_cons_lt (by omega) (.inl (by omega))
    · exact ofNat_cons_lt (by omega) (.inl (by omega))
  rw [if_neg (by omega : ¬w ≤ 0x7F)]
  split
  · split
    · exact two_lt hlt ‹_› a b
    split
    · exact ofNat_cons_lt (by omega) (.inl (by omega))
    · exact ofNat_cons_lt (by omega) (.inl (by omega))
  rw [if_neg (by omega : ¬w ≤ 0x7FF)]
  split
  · split
    · exact three_lt hlt ‹_› a b
    · exact ofNat_cons_lt (by omega) (.inl (by omega))
  rw [if_neg (by omega : ¬w ≤ 0xFFFF)]
  exact four_lt hlt (by omega) a b

theorem utf8_cons (c : Char) (t : Text) : utf8 (c :: t) = String.utf8EncodeChar c ++ utf8 t :=
  List.flatMap_cons

/-- A text that comes first by code points comes first by its bytes. -/
theorem utf8_lt_of_precedes {s t : Text} (h : precedes s t = true) : s.utf8 < t.utf8 := by
  induction s generalizing t with
  | nil =>
    cases t with
    | nil => simp [precedes] at h
    | cons y t =>
      rw [utf8_cons]
      have hpos : 0 < (String.utf8EncodeChar y).length :=
        String.length_utf8EncodeChar y ▸ Char.utf8Size_pos y
      obtain ⟨b, bs, hb⟩ := List.exists_cons_of_length_pos hpos
      rw [hb]
      exact List.nil_lt_cons ..
  | cons x s ih =>
    cases t with
    | nil => simp [precedes] at h
    | cons y t =>
      rw [utf8_cons, utf8_cons]
      simp only [precedes, Bool.or_eq_true, decide_eq_true_eq, Bool.and_eq_true, beq_iff_eq] at h
      obtain hxy | ⟨rfl, hst⟩ := h
      · exact utf8EncodeChar_lt hxy _ _
      · exact List.append_left_lt (ih hst)

end ImportXref.Text
