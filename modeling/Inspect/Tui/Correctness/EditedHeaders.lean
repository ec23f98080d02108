import Inspect.Tui.Correctness.ContentType

/-!
# `Tui.Correctness.EditedHeaders` — the headers that are edited

The editor reads the headers of a message out of the text of its metadata. Every field comes back, but a field that is
an array of values comes back as one entry, the text of the array.
-/

namespace Inspect.Tui

open Filters Http JsonCodec

/-- The values that are edited under a name. -/
def editedValues (entries : List EditableHttpHeader) (name : Str) : List Str :=
  (entries.filter fun entry => entry.name = name).map EditableHttpHeader.value

/-- The entries are the headers, each value by itself and under its name. -/
def HeadersSurvive (headers : HeaderMap) (entries : List EditableHttpHeader) : Prop :=
  ∀ name, (editedValues entries name).map some
    = (headers.filter fun header => header.1.text = name).map fun header => header.2.toStr

section Edited

variable {N : Type} {serde : SerdeJson N} {canonicalReason : StatusCode → Option Str}

/-- Sorting the entries moves those of one name nowhere if there is only one. -/
theorem editedValues_fields {headers : HeaderMap} {fields : List (Str × List Str)} (h : Flow.FieldsOf headers fields)
    (name : Str) :
    editedValues ((headersFromJson serde (Json.ofFields fields)).mergeSort
        fun left right => (compare left.name right.name).isLE) name
      = if Flow.shownValues headers name = [] then []
        else [headerJsonText serde (Json.ofTexts (Flow.shownValues headers name))] := by
  have hunsorted : (headersFromJson serde (Json.ofFields fields)).filter (fun entry => entry.name = name)
      = if Flow.shownValues headers name = [] then []
        else [⟨name, headerJsonText serde (Json.ofTexts (Flow.shownValues headers name))⟩] := by
    rw [headersFromJson_ofFields, List.filter_map]
    show (fields.filter fun field => field.1 = name).map _ = _
    rw [h.filter_name]
    split <;> rfl
  have hperm := (List.mergeSort_perm (headersFromJson serde (Json.ofFields fields))
    fun left right => (compare left.name right.name).isLE).filter fun entry => entry.name = name
  rw [hunsorted] at hperm
  unfold editedValues
  split at hperm
  · rename_i hnone
    rw [if_pos hnone, hperm.eq_nil]
    rfl
  · rename_i hsome
    rw [if_neg hsome, List.perm_singleton.mp hperm]
    rfl

/-- The values of a name, all of them visible, as they are shown. -/
theorem shownValues_visible {headers : HeaderMap} (hvisible : ∀ header ∈ headers, header.2.toStr.isSome) (name : Str) :
    (headers.filter fun header => header.1.text = name).map (fun header => header.2.toStr)
      = (Flow.shownValues headers name).map some := by
  unfold Flow.shownValues
  rw [List.map_map]
  refine List.map_congr_left fun header hmem => ?_
  obtain ⟨text, htext⟩ := Option.isSome_iff_exists.mp (hvisible header (List.mem_filter.mp hmem).1)
  show header.2.toStr = some header.2.display
  rw [HeaderValue.display_of_some htext, htext]

theorem nodup_names_iff (headers : HeaderMap) :
    (headers.map fun header => header.1.text).Nodup ↔ ∀ name, (Flow.shownValues headers name).length ≤ 1 := by
  rw [List.nodup_iff_count_le_one]
  refine forall_congr' fun name => ?_
  have hfilter : headers.filter ((· == name) ∘ fun header => header.1.text)
      = headers.filter fun header => header.1.text = name :=
    List.filter_congr fun header _ => Bool.beq_eq_decide_eq header.1.text name
  rw [List.count_eq_countP, List.countP_map, List.countP_eq_length_filter, hfilter, Flow.shownValues,
    List.length_map]

/-- The fields of the headers, sorted, are the headers if no name has two values. -/
theorem headersSurvive_fields_iff {headers : HeaderMap} {fields : List (Str × List Str)}
    (h : Flow.FieldsOf headers fields) (hvisible : ∀ header ∈ headers, header.2.toStr.isSome) :
    HeadersSurvive headers ((headersFromJson serde (Json.ofFields fields)).mergeSort
        fun left right => (compare left.name right.name).isLE)
      ↔ (headers.map fun header => header.1.text).Nodup := by
  rw [nodup_names_iff]
  refine forall_congr' fun name => ?_
  rw [shownValues_visible hvisible, editedValues_fields h]
  match Flow.shownValues headers name with
  | [] => exact iff_of_true rfl (Nat.zero_le 1)
  | [value] => exact iff_of_true rfl (Nat.le_refl 1)
  | value :: value' :: values =>
      refine iff_of_false ?_ ?_
      · rw [if_neg (List.cons_ne_nil _ _)]
        simp
      · simp

/-- **When the headers survive the way into the editor**: no name has two values. -/
theorem parseHeadersFromMeta_survive_iff (hserde : serde.StandardLayout)
    (hreason : ∀ status reason, canonicalReason status = some reason → OneLine reason)
    {row : Flow.ResponseMetadata N} {parts : ResponseParts} {remote : Option RemoteAddr}
    (hrow : StoresResponse row parts remote) (hvisible : ∀ header ∈ parts.headers, header.2.toStr.isSome) :
    HeadersSurvive parts.headers
        (parseHeadersFromMeta serde ((selectResponse serde row).display serde canonicalReason))
      ↔ (parts.headers.map fun header => header.1.text).Nodup := by
  obtain ⟨fields, hfields, hparse⟩ := parseHeadersFromMeta_display serde canonicalReason hserde hreason hrow
  rw [hparse]
  exact headersSurvive_fields_iff hfields hvisible

end Edited

/-- A page with a single header. -/
theorem parseHeadersFromMeta_survive_page :
    HeadersSurvive (page lowerCaseHtml).headers
        (parseHeadersFromMeta codec ((selectResponse codec (pageRow lowerCaseHtml)).display codec fun _ => none))
      ↔ ((page lowerCaseHtml).headers.map fun header => header.1.text).Nodup :=
  @parseHeadersFromMeta_survive_iff Int codec (fun _ => none) codec_standardLayout (fun _ _ h => by cases h)
    (pageRow lowerCaseHtml) (page lowerCaseHtml) none ⟨rfl, rfl, rfl⟩ (by decide +kernel)

/-- A response that sets two cookies. -/
def cookies : ResponseParts where
  status := StatusCode.ok
  version := .http11
  headers := [(⟨"set-cookie".toList, by decide⟩, ⟨Text.bytes "a=1".toList, by decide⟩),
    (⟨"set-cookie".toList, by decide⟩, ⟨Text.bytes "b=2".toList, by decide⟩)]

/-- The two cookies are edited as one. -/
theorem two_cookies_become_one_entry :
    ¬ HeadersSurvive cookies.headers (parseHeadersFromMeta codec ((selectResponse codec
        { pageRow lowerCaseHtml with headers := Flow.headersToJson cookies.headers }).display codec fun _ => none)) := by
  obtain ⟨fields, hfields, hparse⟩ := @parseHeadersFromMeta_display Int codec (fun _ => none) codec_standardLayout
    (fun _ _ h => by cases h) { pageRow lowerCaseHtml with headers := Flow.headersToJson cookies.headers } cookies none
    ⟨rfl, rfl, rfl⟩
  rw [hparse, headersSurvive_fields_iff hfields (by decide +kernel)]
  decide +kernel

end Inspect.Tui
