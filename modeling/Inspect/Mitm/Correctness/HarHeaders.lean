import Inspect.Flow.Correctness.StoredHeaders
import Inspect.Mitm.Har

/-!
# `Mitm.Correctness.HarHeaders` — the headers in a HAR file

The export reads the headers of a message from a column, where each name has one value or an array of values, and
writes an entry for every value.
-/

namespace Inspect.Mitm

open Http Inspect.Flow

section Headers

variable {N : Type} {serde : SerdeJson N}

/-- The headers in a column are read back. -/
theorem parseHeaders_column {serde : SerdeJson N} (hreads : serde.ReadsBack 2) (headers : HeaderMap) :
    parseHeaders serde (some (serde.toString (headersToJson headers))) = headersToJson headers := by
  obtain ⟨fields, hjson, hfields⟩ := @headersToJson_eq_ofFields N headers
  have hwf : (headersToJson headers : Json N).WellFormed := by
    rw [hjson]
    exact Json.wellFormed_ofFields hfields.keys
  have hdepth : (headersToJson headers : Json N).depth ≤ 2 := by
    rw [hjson]
    exact Json.depth_ofFields_le fields
  have hnumbers : (headersToJson headers : Json N).numbers = [] := by
    rw [hjson]
    exact Json.numbers_ofFields fields
  unfold parseHeaders
  dsimp only
  rw [hreads.toString_of_numbers hwf hdepth hnumbers]
  rfl

/-- The entries of a HAR file, one for each value of a field. -/
def harEntries (fields : List (Str × List Str)) : List (Str × Str) :=
  fields.flatMap fun field => field.2.map fun value => (field.1, value)

/-- An entry as JSON. -/
def harEntry (entry : Str × Str) : Json N :=
  .object [("name".toList, .string entry.1), ("value".toList, .string entry.2)]

/-- A field is written with an entry for each value, be it a text or an array. -/
theorem harHeader_ofTexts (name : Str) (values : List Str) :
    (match (Json.ofTexts values : Json N) with
      | .array values => values.map (harHeader serde name)
      | value => [harHeader serde name value])
      = values.map fun value => harEntry (name, value) := by
  match values with
  | [] => rfl
  | [value] => rfl
  | value :: value' :: values =>
      show List.map _ (List.map _ (value :: value' :: values)) = _
      rw [List.map_map]
      rfl

theorem headersToHarArray_column (hreads : serde.ReadsBack 2) {headers : HeaderMap} {fields : List (Str × List Str)}
    (hjson : (headersToJson headers : Json N) = Json.ofFields fields) :
    headersToHarArray serde (some (serde.toString (headersToJson headers)))
      = .array ((harEntries fields).map harEntry) := by
  unfold headersToHarArray harEntries
  rw [parseHeaders_column hreads, hjson, Json.ofFields, List.map_flatMap]
  dsimp only
  rw [List.flatMap_map]
  congr 2
  funext field
  rw [List.map_map]
  exact harHeader_ofTexts field.1 field.2

/-- The values under a name. -/
def valuesOf (entries : List (Str × Str)) (name : Str) : List Str :=
  (entries.filter fun entry => entry.1 = name).map Prod.snd

/-- The entries with a name are the values of its field. -/
theorem valuesOf_harEntries (fields : List (Str × List Str)) (name : Str) :
    valuesOf (harEntries fields) name = (fields.filter fun field => field.1 = name).flatMap Prod.snd := by
  induction fields with
  | nil => rfl
  | cons field fields ih =>
      have hcons : harEntries (field :: fields) = field.2.map (fun value => (field.1, value)) ++ harEntries fields := rfl
      unfold valuesOf at ih ⊢
      rw [hcons, List.filter_append, List.map_append, ih]
      by_cases hname : field.1 = name
      · have hall : (field.2.map fun value => (field.1, value)).filter (fun entry => entry.1 = name)
            = field.2.map fun value => (field.1, value) := by
          refine List.filter_eq_self.mpr fun entry hmem => ?_
          obtain ⟨value, -, rfl⟩ := List.mem_map.mp hmem
          exact decide_eq_true hname
        rw [hall, List.filter_cons_of_pos (by simpa using hname), List.flatMap_cons, List.map_map]
        exact congrArg (· ++ _) (List.map_id _)
      · have hnone : (field.2.map fun value => (field.1, value)).filter (fun entry => entry.1 = name) = [] := by
          refine List.filter_eq_nil_iff.mpr fun entry hmem => ?_
          obtain ⟨value, -, rfl⟩ := List.mem_map.mp hmem
          simpa using hname
        rw [hnone, List.filter_cons_of_neg (by simpa using hname)]
        rfl

/-- **The headers survive the way into a HAR file**: under every name are its values, in their order and as often, with
    those that are no visible ASCII as Base64. -/
theorem headersToHarArray_faithful (hreads : serde.ReadsBack 2) (headers : HeaderMap) :
    ∃ entries : List (Str × Str),
      headersToHarArray serde (some (serde.toString (headersToJson headers))) = .array (entries.map harEntry)
        ∧ ∀ name, valuesOf entries name
            = (headers.filter fun header => header.1.text = name).map fun header =>
                header.2.toStr.getD (Bytes.base64 header.2.bytes) := by
  obtain ⟨fields, hjson, hfields⟩ := @headersToJson_eq_ofFields N headers
  refine ⟨harEntries fields, headersToHarArray_column hreads hjson, fun name => ?_⟩
  show valuesOf (harEntries fields) name = shownValues headers name
  rw [valuesOf_harEntries, hfields.filter_name]
  split
  · rename_i hnone
    rw [hnone]
    rfl
  · exact List.append_nil _

/-- A name with two values, one of which is no visible ASCII. -/
theorem headersToHarArray_faithful_repeated :
    ∃ entries : List (Str × Str),
      headersToHarArray JsonCodec.codec (some (JsonCodec.codec.toString (headersToJson
          [(contentEncoding, ⟨[103], by decide⟩), (contentEncoding, ⟨[255], by decide⟩)])))
        = .array (entries.map harEntry)
        ∧ ∀ name, valuesOf entries name
            = ([(contentEncoding, ⟨[103], by decide⟩), (contentEncoding, ⟨[255], by decide⟩)].filter
                fun header : HeaderName × HeaderValue => header.1.text = name).map fun header =>
                header.2.toStr.getD (Bytes.base64 header.2.bytes) :=
  headersToHarArray_faithful (JsonCodec.codec_faithful.readsBack 2) _

end Headers

end Inspect.Mitm
