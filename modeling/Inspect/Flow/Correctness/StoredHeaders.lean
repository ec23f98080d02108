import Inspect.Flow.Correctness.ContentEncoding
import Inspect.Lib.Json.Layout

/-!
# `Flow.Correctness.StoredHeaders` — the headers of a message as JSON

`headers_to_json` makes an object of the headers: under each name its value, or the array of its values. Whoever reads
the column finds these fields, and their texts are plain enough to survive any printer.
-/

namespace Inspect.Flow

open Http

/-! ## Headers as fields -/

/-- The fields of the headers of a message: under each name, once, its shown values. -/
structure FieldsOf (headers : HeaderMap) (fields : List (Str × List Str)) : Prop where
  keys : (Members.Keys fields).Nodup
  values : ∀ field ∈ fields, field.2 = shownValues headers field.1 ∧ field.2 ≠ []
  all : ∀ key, shownValues headers key ≠ [] → key ∈ Members.Keys fields

section Fields

variable {N : Type} {headers : HeaderMap} {fields : List (Str × List Str)}

theorem keys_nodup_foldl_pushHeaderJson (headers : HeaderMap) :
    (Members.Keys (headers.foldl pushHeaderJson [] : List (Str × Json N))).Nodup := by
  induction headers using List.reverseRecOn with
  | nil => exact List.nodup_nil
  | append_singleton headers header ih =>
      rw [List.foldl_concat]
      unfold pushHeaderJson
      dsimp only
      split
      · exact Members.keys_insert_nodup ih _ _
      · exact Members.keys_insert_nodup ih _ _
      · exact Members.keys_insert_nodup ih _ _

/-- A member of the object has the shown values of its name. -/
theorem member_foldl_pushHeaderJson {member : Str × Json N}
    (hmem : member ∈ (headers.foldl pushHeaderJson [] : List (Str × Json N))) :
    shownValues headers member.1 ≠ [] ∧ member.2 = Json.ofTexts (shownValues headers member.1) := by
  have hlookup := Members.lookup_of_mem (keys_nodup_foldl_pushHeaderJson headers) hmem
  rw [lookup_headersToJson] at hlookup
  cases hvalues : shownValues headers member.1 with
  | nil =>
      rw [hvalues] at hlookup
      cases hlookup
  | cons value values =>
      rw [hvalues] at hlookup
      refine ⟨List.cons_ne_nil _ _, ?_⟩
      cases values with
      | nil => exact (Option.some.inj hlookup).symm
      | cons value' values => exact (Option.some.inj hlookup).symm

/-- **The headers of a message are an object of texts and lists of texts**: under each name its shown values. -/
theorem headersToJson_eq_ofFields (headers : HeaderMap) :
    ∃ fields, (headersToJson headers : Json N) = Json.ofFields fields ∧ FieldsOf headers fields := by
  refine ⟨(headers.foldl pushHeaderJson [] : List (Str × Json N)).map fun member =>
    (member.1, shownValues headers member.1), ?_, ?_, ?_, ?_⟩
  · unfold headersToJson Json.ofFields
    rw [List.map_map]
    congr 1
    refine ((List.map_congr_left ?_).trans (List.map_id _)).symm
    intro member hmem
    exact Prod.ext rfl (member_foldl_pushHeaderJson hmem).2.symm
  · rw [Members.Keys, List.map_map]
    exact keys_nodup_foldl_pushHeaderJson headers
  · intro field hfield
    obtain ⟨member, hmem, rfl⟩ := List.mem_map.mp hfield
    exact ⟨rfl, (member_foldl_pushHeaderJson hmem).1⟩
  · intro key hkey
    rw [Members.Keys, List.map_map]
    refine Members.mem_keys_iff.mpr ?_
    rw [lookup_headersToJson]
    cases hvalues : shownValues headers key with
    | nil => exact absurd hvalues hkey
    | cons value values =>
        cases values with
        | nil => exact ⟨_, rfl⟩
        | cons value' values => exact ⟨_, rfl⟩

/-- A field has the name of a header. -/
theorem FieldsOf.exists_header (h : FieldsOf headers fields) {field : Str × List Str} (hmem : field ∈ fields) :
    ∃ header ∈ headers, header.1.text = field.1 := by
  obtain ⟨hvalues, hne⟩ := h.values field hmem
  rw [hvalues] at hne
  obtain ⟨shown, hshown⟩ := List.exists_mem_of_ne_nil _ hne
  obtain ⟨header, hheader, -⟩ := List.mem_map.mp hshown
  exact ⟨header, (List.mem_filter.mp hheader).1, by simpa using (List.mem_filter.mp hheader).2⟩

/-- **The fields with a name** are one with its values, or none. -/
theorem FieldsOf.filter_name (h : FieldsOf headers fields) (name : Str) :
    fields.filter (fun field => field.1 = name)
      = if shownValues headers name = [] then [] else [(name, shownValues headers name)] := by
  split
  · rename_i hnone
    refine List.filter_eq_nil_iff.mpr fun field hmem heq => ?_
    obtain ⟨hvalues, hne⟩ := h.values field hmem
    rw [of_decide_eq_true heq, hnone] at hvalues
    exact hne hvalues
  · rename_i hsome
    obtain ⟨field, hmem, hkey⟩ := List.mem_map.mp (h.all name hsome)
    have hfield : field = (name, shownValues headers name) := by
      rw [← hkey]
      exact Prod.ext rfl (h.values field hmem).1
    have hnodup : fields.Pairwise fun field field' => field.1 ≠ field'.1 := List.pairwise_map.mp h.keys
    obtain ⟨front, rest, rfl⟩ := List.append_of_mem hmem
    rw [List.pairwise_append, List.pairwise_cons] at hnodup
    have hfront : front.filter (fun field => field.1 = name) = [] := by
      refine List.filter_eq_nil_iff.mpr fun other hother heq => ?_
      exact hnodup.2.2 other hother field List.mem_cons_self ((of_decide_eq_true heq).trans hkey.symm)
    have hrest : rest.filter (fun field => field.1 = name) = [] := by
      refine List.filter_eq_nil_iff.mpr fun other hother heq => ?_
      exact hnodup.2.1.1 other hother (hkey.trans (of_decide_eq_true heq).symm)
    rw [List.filter_append, hfront, List.nil_append, List.filter_cons_of_pos (by simpa using hkey), hrest, hfield]

/-! ## Plain texts -/

/-- The text of a header has no control characters but tabs. -/
theorem plainText_toStr {value : HeaderValue} {text : Str} (h : value.toStr = some text) : PlainText text := by
  unfold HeaderValue.toStr at h
  split at h
  · rename_i hvisible
    rw [← Option.some.inj h]
    intro c hc
    obtain ⟨byte, hbyte, rfl⟩ := List.mem_map.mp hc
    have hbyte := List.all_eq_true.mp hvisible byte hbyte
    have hnat : ∀ n < 256, (Char.ofNat n).toNat = n := by decide +kernel
    have hnat := hnat byte.toNat byte.toNat_lt
    simp only [Bool.or_eq_true, Bool.and_eq_true, decide_eq_true_eq, beq_iff_eq] at hbyte
    rcases hbyte with ⟨hlow, -⟩ | htab
    · left
      rw [hnat]
      exact UInt8.le_iff_toNat_le.mp hlow
    · right
      rw [htab]
      rfl
  · cases h

theorem plainText_base64 (bytes : Bytes) : PlainText (Bytes.base64 bytes) := by
  have halphabet : ∀ c ∈ Bytes.base64Alphabet, 32 ≤ c.toNat := by decide
  intro c hc
  rcases Bytes.mem_base64 hc with rfl | hc
  · exact Or.inl (by decide)
  · exact Or.inl (halphabet c hc)

/-- A shown value has none either. -/
theorem plainText_display (value : HeaderValue) : PlainText value.display := by
  unfold HeaderValue.display
  cases htext : value.toStr with
  | none => exact plainText_base64 value.bytes
  | some text => exact plainText_toStr htext

theorem plainText_name (name : HeaderName) : PlainText name.text := by
  have hsymbols : ∀ c ∈ "!#$%&'*+-.^_`|~".toList, 32 ≤ c.toNat := by decide
  have hchars := name.valid
  simp only [isHeaderName, Bool.and_eq_true, List.all_eq_true] at hchars
  intro c hc
  have htoken := (hchars.2 c hc).1
  unfold isTokenChar at htoken
  rw [Bool.or_eq_true, List.contains_iff_mem] at htoken
  left
  rcases htoken with halpha | hsymbol
  · have hrange := Text.toNat_of_isAlphanum halpha
    omega
  · exact hsymbols c hsymbol

/-- The fields of a message are plain. -/
theorem FieldsOf.plain (h : FieldsOf headers fields) : PlainFields fields := by
  intro field hmem
  constructor
  · obtain ⟨header, -, hkey⟩ := h.exists_header hmem
    rw [← hkey]
    exact plainText_name header.1
  · intro text htext
    rw [(h.values field hmem).1] at htext
    obtain ⟨header, -, rfl⟩ := List.mem_map.mp htext
    exact plainText_display header.2

end Fields

end Inspect.Flow
