import ImportXref.Proofs.Report.JsonReading
import ImportXref.Proofs.Text.ByteOrder

/-!
# The JSON report — what it says of an index

The report of an index holds one field for each key of the reported map, with the references of
that key in their order, and nothing else, so the map is known from the text.

* `Json.ofRefMap_injective`: different maps have different values.
* `RefMap.utf8_ascending`: the keys of a map ascend by their bytes.
* `Index.json_decodes`: **the report is valid JSON that decodes to the reported map**, with the
  keys in ascending order of their bytes, and tells different maps apart.
-/

namespace ImportXref

theorem Json.ofTexts_injective {ts us : List Text} (h : Json.ofTexts ts = Json.ofTexts us) :
    ts = us :=
  (List.map_inj_right fun _ _ ht => Json.text.inj ht).mp (Json.list.inj h)

/-- Different maps have different values. -/
theorem Json.ofRefMap_injective {m m' : RefMap} (h : Json.ofRefMap m = Json.ofRefMap m') :
    m = m' := by
  have hentries : m.entries = m'.entries := by
    refine (List.map_inj_right fun e e' he => ?_).mp (Json.object.inj h)
    obtain ⟨hkey, hlist⟩ := Prod.mk.inj he
    exact Prod.ext hkey (Json.ofTexts_injective hlist)
  cases m
  cases m'
  cases hentries
  rfl

/-- The keys of a map ascend by their bytes. -/
theorem RefMap.utf8_ascending (m : RefMap) : (m.keys.map Text.utf8).Pairwise (· < ·) := by
  rw [RefMap.keys, List.map_map]
  exact List.pairwise_map.mpr (m.ascending.imp Text.utf8_lt_of_precedes)

/-- **The report decodes to the index**: to the map of the project or to the map of all
references, key by key and reference by reference, with the keys in ascending order of their
bytes.  Hence two reports are the same text exactly if they show the same map. -/
theorem Index.json_decodes (x : Index) (unscoped : Bool) :
    ∃ fields : List (Text × Json),
      Json.ofText? (x.json unscoped) = some (.object fields) ∧
      fields = (if unscoped then x.all else x.inProject).entries.map
        (fun e => (e.1, .list (e.2.map .text))) ∧
      (fields.map fun f => f.1.utf8).Pairwise (· < ·) ∧
      ∀ (y : Index) (unscoped' : Bool),
        x.json unscoped = y.json unscoped' ↔
          (if unscoped then x.all else x.inProject) =
            (if unscoped' then y.all else y.inProject) := by
  have hread (y : Index) (u : Bool) :
      Json.ofText? (y.json u) = some (Json.ofRefMap (y.reported u)) := Json.ofText?_pretty _
  refine ⟨_, hread x unscoped, rfl, ?_, fun y unscoped' => ⟨fun heq => ?_, fun hmap => ?_⟩⟩
  · have hasc := (x.reported unscoped).utf8_ascending
    rw [RefMap.keys, List.map_map] at hasc
    rw [List.map_map]
    exact hasc
  · have hsame := hread x unscoped
    rw [heq, hread y unscoped'] at hsame
    exact Json.ofRefMap_injective (Option.some.inj hsame).symm
  · have hreported : x.reported unscoped = y.reported unscoped' := hmap
    rw [Index.json, Index.json, hreported]

end ImportXref
