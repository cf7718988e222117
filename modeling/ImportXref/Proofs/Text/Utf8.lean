import ImportXref.Text.Utf8
import ImportXref.Proofs.Text.Edges

/-!
# UTF-8 — reading what was encoded

The bytes of a text are read back as that text, so a byte string that is the encoding of a text
is that of its own reading.  Texts that go into a byte string with slashes between them come out
of it part by part, since no byte of a longer character is a slash.

* `text_utf8`: reading undoes encoding.
* `utf8_text_iff`: a byte string is read without loss exactly if it is the encoding of a text.
* `slash_mem_of_text`, `utf8_text_of_dots`: neither slashes nor dots come out of faults.
* `text_append_cons`: a byte of a single character ends whatever precedes it.
* `splitOn_utf8`: slashes stay slashes.
-/

namespace ImportXref

/-- The byte string is the encoding of a text. -/
def Bytes.IsUtf8 (b : Bytes) : Prop :=
  ∃ t : Text, t.utf8 = b

namespace Bytes

/-! ### One character -/

/-- What a first byte is, by its number. -/
theorem Start.ofByte_eq {n : Nat} (hn : n < 256) : Start.ofByte (UInt8.ofNat n) =
    if n < 128 then .single (Char.ofNat n)
    else if n < 194 then .fault
    else if n < 224 then .lead ⟨n - 192, 0, 0x80, 0xBF⟩
    else if n = 224 then .lead ⟨0, 1, 0xA0, 0xBF⟩
    else if n = 237 then .lead ⟨13, 1, 0x80, 0x9F⟩
    else if n < 240 then .lead ⟨n - 224, 1, 0x80, 0xBF⟩
    else if n = 240 then .lead ⟨0, 2, 0x90, 0xBF⟩
    else if n < 244 then .lead ⟨n - 240, 2, 0x80, 0xBF⟩
    else if n = 244 then .lead ⟨4, 2, 0x80, 0x8F⟩
    else .fault := by
  have hnat : (UInt8.ofNat n).toNat = n := UInt8.toNat_ofNat_of_lt hn
  simp only [Start.ofByte, UInt8.lt_iff_toNat_lt, ← UInt8.toNat_inj, hnat]
  rfl

/-- The last byte of a character. -/
theorem decodeAfter_last {bits n : Nat} {lo hi : UInt8} {bs : Bytes} (hn : n < 256)
    (hlo : lo.toNat ≤ n) (hhi : n ≤ hi.toNat) :
    decodeAfter (some ⟨bits, 0, lo, hi⟩) (UInt8.ofNat n :: bs) =
      some (Char.ofNat (bits * 64 + (n - 128))) :: decodeAfter none bs := by
  have hnat : (UInt8.ofNat n).toNat = n := UInt8.toNat_ofNat_of_lt hn
  simp [decodeAfter, UInt8.le_iff_toNat_le, hnat, hlo, hhi]

/-- A byte inside of a character. -/
theorem decodeAfter_more {bits more n : Nat} {lo hi : UInt8} {bs : Bytes} (hn : n < 256)
    (hlo : lo.toNat ≤ n) (hhi : n ≤ hi.toNat) :
    decodeAfter (some ⟨bits, more + 1, lo, hi⟩) (UInt8.ofNat n :: bs) =
      decodeAfter (some ⟨bits * 64 + (n - 128), more, 0x80, 0xBF⟩) bs := by
  have hnat : (UInt8.ofNat n).toNat = n := UInt8.toNat_ofNat_of_lt hn
  simp [decodeAfter, UInt8.le_iff_toNat_le, hnat, hlo, hhi]

theorem decodeAfter_lead {n : Nat} {p : Partial} {bs : Bytes}
    (h : Start.ofByte (UInt8.ofNat n) = .lead p) :
    decodeAfter none (UInt8.ofNat n :: bs) = decodeAfter (some p) bs := by
  simp [decodeAfter, h]

/-- Two bytes are decoded to the character they encode. -/
theorem decode_two {v : Nat} (hlo : 0x80 ≤ v) (hhi : v ≤ 0x7FF) (bs : Bytes) :
    decodeAfter none (UInt8.ofNat (v / 64 % 32 + 192) :: UInt8.ofNat (v % 64 + 128) :: bs) =
      some (Char.ofNat v) :: decodeAfter none bs := by
  have hs := Start.ofByte_eq (n := v / 64 % 32 + 192) (by omega)
  rw [if_neg (by omega), if_neg (by omega), if_pos (by omega)] at hs
  rw [decodeAfter_lead hs, decodeAfter_last (by omega) (by simp) (by simp; omega)]
  have hv : (v / 64 % 32 + 192 - 192) * 64 + (v % 64 + 128 - 128) = v := by omega
  rw [hv]

/-- Three bytes are decoded to the character they encode, surrogates left out. -/
theorem decode_three {v : Nat} (hlo : 0x800 ≤ v) (hhi : v ≤ 0xFFFF)
    (hvalid : v < 0xD800 ∨ 0xDFFF < v) (bs : Bytes) :
    decodeAfter none (UInt8.ofNat (v / 4096 % 16 + 224) :: UInt8.ofNat (v / 64 % 64 + 128) ::
      UInt8.ofNat (v % 64 + 128) :: bs) = some (Char.ofNat v) :: decodeAfter none bs := by
  have hrest {lo hi : UInt8}
      (hs : Start.ofByte (UInt8.ofNat (v / 4096 % 16 + 224)) = .lead ⟨v / 4096, 1, lo, hi⟩)
      (hle : lo.toNat ≤ v / 64 % 64 + 128) (hge : v / 64 % 64 + 128 ≤ hi.toNat) :
      decodeAfter none (UInt8.ofNat (v / 4096 % 16 + 224) :: UInt8.ofNat (v / 64 % 64 + 128) ::
        UInt8.ofNat (v % 64 + 128) :: bs) = some (Char.ofNat v) :: decodeAfter none bs := by
    rw [decodeAfter_lead hs, decodeAfter_more (by omega) hle hge,
      decodeAfter_last (by omega) (by simp) (by simp; omega)]
    have hv : (v / 4096 * 64 + (v / 64 % 64 + 128 - 128)) * 64 + (v % 64 + 128 - 128) = v := by
      omega
    rw [hv]
  have hs := Start.ofByte_eq (n := v / 4096 % 16 + 224) (by omega)
  rw [if_neg (by omega), if_neg (by omega), if_neg (by omega)] at hs
  -- Two first bytes narrow the second one: overlong forms and surrogates.
  by_cases h0 : v / 4096 = 0
  · rw [if_pos (by omega), ← h0] at hs
    exact hrest hs (by simp; omega) (by simp; omega)
  by_cases h13 : v / 4096 = 13
  · rw [if_neg (by omega), if_pos (by omega), ← h13] at hs
    exact hrest hs (by simp) (by simp; omega)
  · have hbits : v / 4096 % 16 + 224 - 224 = v / 4096 := by omega
    rw [if_neg (by omega), if_neg (by omega), if_pos (by omega), hbits] at hs
    exact hrest hs (by simp) (by simp; omega)

/-- Four bytes are decoded to the character they encode. -/
theorem decode_four {v : Nat} (hlo : 0x10000 ≤ v) (hhi : v < 0x110000) (bs : Bytes) :
    decodeAfter none (UInt8.ofNat (v / 262144 % 8 + 240) :: UInt8.ofNat (v / 4096 % 64 + 128) ::
      UInt8.ofNat (v / 64 % 64 + 128) :: UInt8.ofNat (v % 64 + 128) :: bs) =
      some (Char.ofNat v) :: decodeAfter none bs := by
  have hrest {lo hi : UInt8}
      (hs : Start.ofByte (UInt8.ofNat (v / 262144 % 8 + 240)) = .lead ⟨v / 262144, 2, lo, hi⟩)
      (hle : lo.toNat ≤ v / 4096 % 64 + 128) (hge : v / 4096 % 64 + 128 ≤ hi.toNat) :
      decodeAfter none (UInt8.ofNat (v / 262144 % 8 + 240) ::
        UInt8.ofNat (v / 4096 % 64 + 128) :: UInt8.ofNat (v / 64 % 64 + 128) ::
        UInt8.ofNat (v % 64 + 128) :: bs) = some (Char.ofNat v) :: decodeAfter none bs := by
    rw [decodeAfter_lead hs, decodeAfter_more (by omega) hle hge,
      decodeAfter_more (by omega) (by simp) (by simp; omega),
      decodeAfter_last (by omega) (by simp) (by simp; omega)]
    have hv : ((v / 262144 * 64 + (v / 4096 % 64 + 128 - 128)) * 64 +
        (v / 64 % 64 + 128 - 128)) * 64 + (v % 64 + 128 - 128) = v := by omega
    rw [hv]
  have hs := Start.ofByte_eq (n := v / 262144 % 8 + 240) (by omega)
  rw [if_neg (by omega), if_neg (by omega), if_neg (by omega), if_neg (by omega),
    if_neg (by omega), if_neg (by omega)] at hs
  -- The second byte is narrowed by overlong forms and by the last code point.
  by_cases h0 : v / 262144 = 0
  · rw [if_pos (by omega), ← h0] at hs
    exact hrest hs (by simp; omega) (by simp; omega)
  by_cases h4 : v / 262144 = 4
  · rw [if_neg (by omega), if_neg (by omega), if_pos (by omega), ← h4] at hs
    exact hrest hs (by simp) (by simp; omega)
  · have hbits : v / 262144 % 8 + 240 - 240 = v / 262144 := by omega
    rw [if_neg (by omega), if_pos (by omega), hbits] at hs
    exact hrest hs (by simp) (by simp; omega)

/-- A character is decoded from its encoding, whatever follows. -/
theorem decode_char (c : Char) (bs : Bytes) :
    decodeAfter none (String.utf8EncodeChar c ++ bs) = some c :: decodeAfter none bs := by
  have hc : Char.ofNat c.val.toNat = c := Char.ofNat_toNat c
  have hvalid : c.val.toNat < 0xD800 ∨ 0xDFFF < c.val.toNat ∧ c.val.toNat < 0x110000 := c.valid
  unfold String.utf8EncodeChar
  generalize c.val.toNat = v at hc hvalid
  simp only
  rw [← hc]
  split
  · have hs : Start.ofByte (UInt8.ofNat v) = .single (Char.ofNat v) := by
      rw [Start.ofByte_eq (by omega), if_pos (by omega)]
    simp [decodeAfter, hs]
  split
  · exact decode_two (by omega) (by omega) bs
  split
  · exact decode_three (by omega) (by omega) (by omega) bs
  · exact decode_four (by omega) (by omega) bs

/-! ### Texts -/

/-- **A text is decoded from its encoding.** -/
theorem decode_utf8 (t : Text) : decode t.utf8 = t.map some := by
  rw [decode]
  induction t with
  | nil => rfl
  | cons c t ih => rw [Text.utf8, List.flatMap_cons, decode_char, ← Text.utf8, ih, List.map_cons]

/-- Reading undoes encoding. -/
theorem text_utf8 (t : Text) : Bytes.text t.utf8 = t := by
  rw [text, decode_utf8, List.map_map]
  exact List.map_id t

/-- The encoding of a text has no fault. -/
theorem text?_of_isUtf8 {b : Bytes} (h : b.IsUtf8) : b.text? = some b.text := by
  obtain ⟨t, rfl⟩ := h
  rw [text_utf8, text?, decode_utf8]
  induction t with
  | nil => rfl
  | cons c t ih =>
      rw [List.map_cons, List.mapM_cons, ih]
      rfl

/-- A byte string is read without loss exactly if it is the encoding of a text. -/
theorem utf8_text_iff {b : Bytes} : Text.utf8 b.text = b ↔ b.IsUtf8 := by
  refine ⟨fun h => ⟨b.text, h⟩, ?_⟩
  rintro ⟨t, rfl⟩
  rw [text_utf8]

instance : DecidablePred IsUtf8 := fun _ => decidable_of_iff _ utf8_text_iff

/-! ### Bytes that are no text -/

/-- What can come of the part `p` is no character of one byte. -/
structure Partial.IsLong (p : Partial) : Prop where
  last : p.more = 0 → 2 ≤ p.bits
  inner : p.more ≠ 0 → 2 ≤ p.bits * 64 + (p.lo.toNat - 128)

theorem Partial.isLong_of_two {bits : Nat} (h : 2 ≤ bits) : IsLong ⟨bits, 0, 0x80, 0xBF⟩ :=
  ⟨fun _ => h, fun hmore => absurd rfl hmore⟩

theorem Partial.isLong_of_more {bits more : Nat} {lo hi : UInt8}
    (h : 2 ≤ bits * 64 + (lo.toNat - 128)) : IsLong ⟨bits, more + 1, lo, hi⟩ :=
  ⟨fun hmore => absurd hmore (Nat.succ_ne_zero more), fun _ => h⟩

theorem Start.isLong_of_lead {b : UInt8} {p : Partial} (h : Start.ofByte b = .lead p) :
    p.IsLong := by
  rw [← UInt8.ofNat_toNat (x := b), Start.ofByte_eq b.toNat_lt] at h
  split at h
  · exact absurd h nofun
  split at h
  · exact absurd h nofun
  split at h
  · exact Start.lead.inj h ▸ Partial.isLong_of_two (by omega)
  split at h
  · exact Start.lead.inj h ▸ Partial.isLong_of_more (by decide)
  split at h
  · exact Start.lead.inj h ▸ Partial.isLong_of_more (by decide)
  split at h
  · exact Start.lead.inj h ▸ Partial.isLong_of_more (by omega)
  split at h
  · exact Start.lead.inj h ▸ Partial.isLong_of_more (by decide)
  split at h
  · exact Start.lead.inj h ▸ Partial.isLong_of_more (by omega)
  split at h
  · exact Start.lead.inj h ▸ Partial.isLong_of_more (by decide)
  · exact absurd h nofun

/-- A character that is not read from one byte is neither a dot nor a slash. -/
theorem ofNat_ne {v : Nat} (hv : 128 ≤ v) : Char.ofNat v ≠ '.' ∧ Char.ofNat v ≠ '/' := by
  have hnat : (Char.ofNat v).toNat = v ∨ (Char.ofNat v).toNat = 0 := by
    by_cases hvalid : v.isValidChar
    · rw [Char.ofNat, dif_pos hvalid]
      exact .inl rfl
    · rw [Char.ofNat, dif_neg hvalid]
      exact .inr rfl
  have hne {c : Char} (hpos : 0 < c.toNat) (hlt : c.toNat < 128) : Char.ofNat v ≠ c := by
    rintro rfl
    omega
  exact ⟨hne (by decide) (by decide), hne (by decide) (by decide)⟩

/-- Behind a part of a character, either a long character or a fault is read. -/
theorem decodeAfter_some {p : Partial} (hp : p.IsLong) (bs : Bytes) : ∃ x bs',
    decodeAfter (some p) bs = x :: decodeAfter none bs' ∧ bs' <:+ bs ∧
      ∀ c, x = some c → c ≠ '.' ∧ c ≠ '/' := by
  induction bs generalizing p with
  | nil => exact ⟨none, [], rfl, List.suffix_rfl, nofun⟩
  | cons b bs ih =>
      rw [decodeAfter]
      split
      · next hb =>
        have hlo := UInt8.le_iff_toNat_le.mp hb.1
        simp only
        split
        · next hmore =>
          have hbits := hp.last hmore
          have hlong : 128 ≤ p.bits * 64 + (b.toNat - 0x80) := by omega
          exact ⟨_, bs, rfl, List.suffix_cons b bs, fun _ hc => Option.some.inj hc ▸ ofNat_ne hlong⟩
        · next hmore =>
          have hbits := hp.inner hmore
          have hlong : 2 ≤ p.bits * 64 + (b.toNat - 0x80) := by omega
          have hstep : Partial.IsLong ⟨p.bits * 64 + (b.toNat - 0x80), p.more - 1, 0x80, 0xBF⟩ :=
            ⟨fun _ => hlong, fun _ =>
              Nat.le_add_right_of_le (hlong.trans (Nat.le_mul_of_pos_right _ (by decide)))⟩
          obtain ⟨x, bs', heq, hsuffix, hx⟩ := ih hstep
          exact ⟨x, bs', heq, hsuffix.trans (List.suffix_cons b bs), hx⟩
      · exact ⟨none, b :: bs, by rw [decodeAfter], List.suffix_rfl, nofun⟩

theorem utf8EncodeChar_of_single {b : UInt8} {c : Char} (h : Start.ofByte b = .single c) :
    String.utf8EncodeChar c = [b] := by
  have hb : b.toNat < 128 ∧ c = Char.ofNat b.toNat := by
    rw [← UInt8.ofNat_toNat (x := b), Start.ofByte_eq b.toNat_lt] at h
    split at h
    · next hlt => exact ⟨hlt, (Start.single.inj h).symm⟩
    · repeat (split at h; exact absurd h nofun)
      exact absurd h nofun
  have hval : c.val.toNat = b.toNat := by
    have hvalid : b.toNat.isValidChar := .inl (by omega)
    rw [hb.2, Char.ofNat, dif_pos hvalid]
    rfl
  unfold String.utf8EncodeChar
  simp only [hval]
  rw [if_pos (by omega), UInt8.ofNat_toNat]

/-- A byte is a character of its own, or something else than a dot or a slash begins with it. -/
theorem text_cons (b : UInt8) (bs : Bytes) :
    (∃ c, text (b :: bs) = c :: text bs ∧ String.utf8EncodeChar c = [b]) ∨
      ∃ c bs', text (b :: bs) = c :: text bs' ∧ bs' <:+ bs ∧ c ≠ '.' ∧ c ≠ '/' := by
  have hdecode : text (b :: bs) = (decodeAfter none (b :: bs)).map (·.getD '\uFFFD') := rfl
  rw [decodeAfter] at hdecode
  cases hstart : Start.ofByte b with
  | single c =>
      rw [hstart] at hdecode
      exact .inl ⟨c, hdecode, utf8EncodeChar_of_single hstart⟩
  | lead p =>
      obtain ⟨x, bs', heq, hsuffix, hx⟩ := decodeAfter_some (Start.isLong_of_lead hstart) bs
      rw [hstart] at hdecode
      simp only [heq] at hdecode
      refine .inr ⟨_, bs', hdecode, hsuffix, ?_⟩
      cases x with
      | none => decide
      | some c => exact hx c rfl
  | fault =>
      rw [hstart] at hdecode
      exact .inr ⟨_, bs, hdecode, List.suffix_rfl, by decide, by decide⟩

/-- Nothing but the byte of a slash is read as one. -/
theorem slash_mem_of_text {bs : Bytes} (h : '/' ∈ text bs) : 47 ∈ bs := by
  induction hlength : bs.length using Nat.strongRecOn generalizing bs with
  | ind k ih =>
      cases bs with
      | nil => cases h
      | cons b bs =>
          obtain ⟨c, ht, hc⟩ | ⟨c, bs', ht, hsuffix, -, hc⟩ := text_cons b bs <;>
            rw [ht, List.mem_cons] at h
          · obtain rfl | h := h
            · have hslash : String.utf8EncodeChar '/' = [47] := by decide
              rw [hslash, List.singleton_inj] at hc
              exact hc ▸ List.mem_cons_self
            · exact List.mem_cons_of_mem _ (ih _ (hlength ▸ Nat.lt_succ_self _) h rfl)
          · have hless : bs'.length < k := hlength ▸ Nat.lt_succ_of_le hsuffix.length_le
            have hmem := ih _ hless (h.resolve_left (Ne.symm hc)) rfl
            exact List.mem_cons_of_mem _ (hsuffix.subset hmem)

/-- A text of dots is read from dots only. -/
theorem utf8_text_of_dots {bs : Bytes} (h : ∀ c ∈ text bs, c = '.') : Text.utf8 (text bs) = bs := by
  induction bs with
  | nil => rfl
  | cons b bs ih =>
      obtain ⟨c, ht, hc⟩ | ⟨c, bs', ht, -, hc, -⟩ := text_cons b bs <;>
        rw [ht, List.forall_mem_cons] at h
      · rw [ht, Text.utf8, List.flatMap_cons, ← Text.utf8, ih h.2, hc, List.singleton_append]
      · exact absurd h.1 hc

/-! ### Bytes that end what precedes them -/

/-- The bytes that may come next in a character are no characters of their own. -/
theorem Start.le_lo_of_lead {b : UInt8} {p : Partial} (h : Start.ofByte b = .lead p) :
    0x80 ≤ p.lo := by
  rw [ofByte] at h
  split_ifs at h
  all_goals
    rw [← Start.lead.inj h]
    dsimp only
    decide

/-- A byte that goes on with a character. -/
theorem decodeAfter_of_mem {p : Partial} {b : UInt8} (hb : p.lo ≤ b ∧ b ≤ p.hi) (bs : Bytes) :
    decodeAfter (some p) (b :: bs) =
      if p.more = 0 then some (Char.ofNat (p.bits * 64 + (b.toNat - 0x80))) :: decodeAfter none bs
      else decodeAfter (some ⟨p.bits * 64 + (b.toNat - 0x80), p.more - 1, 0x80, 0xBF⟩) bs := by
  simp only [decodeAfter, if_pos hb]

/-- A byte that does not is a fault before it. -/
theorem decodeAfter_of_not_mem {p : Partial} {b : UInt8} (hb : ¬ (p.lo ≤ b ∧ b ≤ p.hi))
    (bs : Bytes) : decodeAfter (some p) (b :: bs) = none :: decodeAfter none (b :: bs) := by
  simp only [decodeAfter, if_neg hb]

/-- Whatever was read in part, a character of one byte is read after it. -/
theorem decodeAfter_append_cons {b : UInt8} (hb : b < 0x80) (bs cs : Bytes) {p? : Option Partial}
    (hp : ∀ p, p? = some p → 0x80 ≤ p.lo) :
    decodeAfter p? (bs ++ b :: cs) = decodeAfter p? bs ++ decodeAfter none (b :: cs) := by
  induction bs generalizing p? with
  | nil =>
      cases p? with
      | none => rfl
      | some p =>
          have hlt : b < p.lo := UInt8.lt_of_lt_of_le hb (hp p rfl)
          exact decodeAfter_of_not_mem (fun hmem => UInt8.not_le.mpr hlt hmem.1) cs
  | cons a bs ih =>
      have hfresh : decodeAfter none (bs ++ b :: cs) =
          decodeAfter none bs ++ decodeAfter none (b :: cs) := ih fun _ => nofun
      have hnone : decodeAfter none (a :: (bs ++ b :: cs)) =
          decodeAfter none (a :: bs) ++ decodeAfter none (b :: cs) := by
        cases hstart : Start.ofByte a with
        | single c | fault => simp only [decodeAfter, hstart, hfresh, List.cons_append]
        | lead q =>
            have hlo := Start.le_lo_of_lead hstart
            simp only [decodeAfter, hstart, ih fun p hq => Option.some.inj hq ▸ hlo]
      rw [List.cons_append]
      cases p? with
      | none => exact hnone
      | some p =>
          by_cases ha : p.lo ≤ a ∧ a ≤ p.hi
          · rw [decodeAfter_of_mem ha, decodeAfter_of_mem ha]
            split
            · exact congrArg _ hfresh
            · exact ih fun q hq => Option.some.inj hq ▸ UInt8.le_refl _
          · rw [decodeAfter_of_not_mem ha, decodeAfter_of_not_mem ha, hnone, List.cons_append]

/-- A byte of a single character ends whatever precedes it. -/
theorem text_append_cons {b : UInt8} (hb : b < 0x80) (bs cs : Bytes) :
    text (bs ++ b :: cs) = text bs ++ text (b :: cs) := by
  have hfresh : ∀ p, (none : Option Partial) = some p → 0x80 ≤ p.lo := fun _ => nofun
  rw [text, decode, decodeAfter_append_cons hb bs cs hfresh, List.map_append]
  rfl

end Bytes

namespace Text

theorem utf8_append (s t : Text) : utf8 (s ++ t) = utf8 s ++ utf8 t :=
  List.flatMap_append

/-- A slash is the only character with the byte of a slash. -/
theorem slash_mem_utf8EncodeChar {c : Char} (h : 47 ∈ String.utf8EncodeChar c) : c = '/' := by
  have hvalid : c.val.toNat < 0xD800 ∨ 0xDFFF < c.val.toNat ∧ c.val.toNat < 0x110000 := c.valid
  have hbyte {n : Nat} (hn : n < 256) (he : 47 = UInt8.ofNat n) : n = 47 := by
    have hnat : (UInt8.ofNat n).toNat = n := UInt8.toNat_ofNat_of_lt hn
    rw [← hnat, ← he]
    rfl
  unfold String.utf8EncodeChar at h
  simp only at h
  split at h
  · have hv := hbyte (by omega) (List.mem_singleton.mp h)
    exact Char.ext (UInt32.toNat_inj.mp hv)
  split at h
  · simp only [List.mem_cons, List.not_mem_nil, or_false] at h
    obtain h | h := h <;> exact absurd (hbyte (by omega) h) (by omega)
  split at h
  · simp only [List.mem_cons, List.not_mem_nil, or_false] at h
    obtain h | h | h := h <;> exact absurd (hbyte (by omega) h) (by omega)
  · simp only [List.mem_cons, List.not_mem_nil, or_false] at h
    obtain h | h | h | h := h <;> exact absurd (hbyte (by omega) h) (by omega)

theorem slash_mem_utf8_iff {t : Text} : 47 ∈ t.utf8 ↔ '/' ∈ t := by
  refine ⟨fun h => ?_, fun h => List.mem_flatMap.mpr ⟨'/', h, by decide⟩⟩
  obtain ⟨c, hc, hmem⟩ := List.mem_flatMap.mp h
  exact slash_mem_utf8EncodeChar hmem ▸ hc

theorem utf8_intercalate (ts : List Text) :
    utf8 (['/'].intercalate ts) = [47].intercalate (ts.map utf8) := by
  induction ts with
  | nil => rfl
  | cons t ts ih =>
      cases ts with
      | nil => simp [List.intercalate]
      | cons u ts =>
          rw [List.map_cons, List.map_cons, List.intercalate_cons_cons, List.intercalate_cons_cons,
            utf8_append, utf8_append, ih]
          rfl

/-- Slashes stay slashes, and nothing else becomes one. -/
theorem splitOn_utf8 (t : Text) : t.utf8.splitOn 47 = (t.splitOn '/').map utf8 := by
  have hjoin : [47].intercalate ((t.splitOn '/').map utf8) = t.utf8 := by
    rw [← utf8_intercalate, List.intercalate_splitOn]
  rw [← hjoin]
  refine List.splitOn_intercalate 47 (fun b hb hmem => ?_) (by simp)
  obtain ⟨s, hs, rfl⟩ := List.mem_map.mp hb
  exact (of_mem_splitOn hs '/' (slash_mem_utf8_iff.mp hmem)).2 rfl

end Text

end ImportXref
