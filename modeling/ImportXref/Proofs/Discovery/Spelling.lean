import ImportXref.Discovery
import ImportXref.Proofs.Route
import ImportXref.Proofs.Text.Utf8

/-!
# Discovery — how found files are spelled

A file is found under the text of its components below the root, with slashes between them.  A
component whose bytes are no encoding of a text is spelled with U+FFFD in it, and comes back from
that text as another component.

* `components_ofText_spelled`: the components that come back from a spelled route.
* `spelled_eq_iff`: which routes are spelled the same.
* `map_reread_eq_self_iff`, `isUtf8_below_place`: what comes back unchanged.
-/

namespace ImportXref

namespace Component

variable {c : Component}

/-- What comes back of a component from the text that spells it. -/
def reread : Component → Component
  | name n => name (Text.utf8 n.text)
  | c => c

theorem bytes_reread (c : Component) : c.reread.bytes = Text.utf8 c.bytes.text := by
  cases c with
  | root | here | up => decide
  | name n => rfl

theorem reread_eq_self_iff : c.reread = c ↔ c.bytes.IsUtf8 := by
  rw [← Bytes.utf8_text_iff, ← bytes_reread]
  cases c with
  | root | here | up => exact iff_of_true rfl rfl
  | name n => simp [reread, bytes]

/-- A plain component stays plain: neither a dot nor a slash comes out of what is no text. -/
theorem IsPlain.reread (h : c.IsPlain) : c.reread.IsPlain := by
  cases c with
  | root => exact absurd rfl h.ne_root
  | here => exact absurd rfl h.ne_here
  | up => exact h
  | name n =>
      have hslash : 47 ∉ Text.utf8 n.text := fun hmem =>
        h.slash_notMem (Bytes.slash_mem_of_text (Text.slash_mem_utf8_iff.mp hmem))
      have hdots {d : Text} (hd : ∀ c ∈ d, c = '.') (h : Text.utf8 n.text = Text.utf8 d) :
          n = Text.utf8 d := by
        have htext : n.text = d := by
          rw [← Bytes.text_utf8 n.text, h, Bytes.text_utf8]
        rw [← h, Bytes.utf8_text_of_dots (htext ▸ hd)]
      obtain ⟨hnil, hdot, hup⟩ := ofPart?_eq_name_iff.mp h.ofPart?
      refine ⟨ofPart?_eq_name_iff.mpr ⟨?_, ?_, ?_⟩, hslash⟩
      · exact fun he => hnil (hdots (d := []) nofun he)
      · exact fun he => hdot (hdots (d := ['.']) (by simp) he)
      · exact fun he => hup (hdots (d := ['.', '.']) (by simp) he)

end Component

/-- A route comes back as a route. -/
theorem IsRoute.reread {cs : List Component} (h : IsRoute cs) :
    IsRoute (cs.map Component.reread) := by
  have hplain {cs : List Component} (h : ∀ c ∈ cs, c.IsPlain) :
      ∀ c ∈ cs.map Component.reread, c.IsPlain :=
    List.forall_mem_map.mpr fun c hc => (h c hc).reread
  cases h with
  | plain h => exact .plain (hplain h)
  | root h => exact .root (hplain h)
  | here h => exact .here (hplain h)

namespace Discovery

variable {cs ds : List Component}

/-- A spelled path has slashes between the components that come back from it. -/
theorem ofText_spelled (cs : List Component) :
    Path.ofText (spelled cs) = Path.ofRoute (cs.map Component.reread) := by
  have hbytes : cs.map (Text.utf8 ∘ fun c => c.bytes.text) =
      (cs.map Component.reread).map Component.bytes := by
    rw [List.map_map]
    exact List.map_congr_left fun c _ => (Component.bytes_reread c).symm
  rw [Path.ofText, spelled, Text.utf8_intercalate, List.map_map, hbytes, Path.ofRoute]

/-- The components that come back from a spelled route. -/
theorem components_ofText_spelled (h : IsRoute cs) :
    (Path.ofText (spelled cs)).components = cs.map Component.reread := by
  rw [ofText_spelled, Path.components_ofRoute h.reread]

/-- Routes are spelled the same exactly if the same components come back from them. -/
theorem spelled_eq_iff (hcs : IsRoute cs) (hds : IsRoute ds) :
    spelled cs = spelled ds ↔ cs.map Component.reread = ds.map Component.reread := by
  constructor
  · intro h
    rw [← components_ofText_spelled hcs, h, components_ofText_spelled hds]
  · intro h
    have hpath := (ofText_spelled cs).trans (h ▸ (ofText_spelled ds).symm)
    have htext := congrArg (fun p => Bytes.text p.bytes) hpath
    simpa only [Path.ofText, Bytes.text_utf8] using htext

theorem map_reread_eq_self_iff :
    cs.map Component.reread = cs ↔ ∀ c ∈ cs, c.bytes.IsUtf8 := by
  rw [← forall₂_congr fun c (_ : c ∈ cs) => Component.reread_eq_self_iff, ← List.map_inj_left,
    List.map_id']

/-- Routes that are texts are spelled apart. -/
theorem eq_of_spelled_eq (hcs : IsRoute cs) (hds : IsRoute ds) (hcs' : ∀ c ∈ cs, c.bytes.IsUtf8)
    (hds' : ∀ c ∈ ds, c.bytes.IsUtf8) (h : spelled cs = spelled ds) : cs = ds := by
  rw [← map_reread_eq_self_iff.mpr hcs', (spelled_eq_iff hcs hds).mp h,
    map_reread_eq_self_iff.mpr hds']

/-- The components of a path that a text spells are texts. -/
theorem isUtf8_components_ofText (t : Text) :
    ∀ c ∈ (Path.ofText t).components, c.bytes.IsUtf8 := by
  have hplain : ∀ c ∈ Path.plain (Path.ofText t).parts, c.bytes.IsUtf8 := by
    intro c hc
    obtain ⟨part, hpart, hc⟩ := List.mem_filterMap.mp hc
    have hparts : (Path.ofText t).parts = (t.splitOn '/').map Text.utf8 := Text.splitOn_utf8 t
    obtain ⟨s, -, rfl⟩ := List.mem_map.mp (hparts ▸ hpart)
    exact Component.bytes_of_ofPart? hc ▸ ⟨s, rfl⟩
  rw [Path.components_eq]
  split
  · exact List.forall_mem_cons.mpr ⟨by decide, hplain⟩
  split
  · exact List.forall_mem_cons.mpr ⟨by decide, hplain⟩
  · exact hplain

/-- Below the root, the components of a declared name are texts. -/
theorem isUtf8_below_place {root : Path} {name : Text}
    (hname : (Path.ofText name).isAbsolute = false) :
    ∀ c ∈ Path.below root (place root name), c.bytes.IsUtf8 := by
  intro c hc
  rw [place, (Path.below_join hname).2] at hc
  refine isUtf8_components_ofText name c ?_
  split at hc
  · exact hc
  · rw [Path.components_eq]
    exact List.mem_append_right _ hc

end Discovery

end ImportXref
