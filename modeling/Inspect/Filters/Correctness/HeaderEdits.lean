import Inspect.Filters.Editor
import Inspect.Flow.Correctness.PatchHeaders

/-!
# `Filters.Correctness.HeaderEdits` — the header actions of an edit

`EditableHttpMessage::diff` compares the headers in three passes, each by a search for the name without regard to case;
`header_actions` turns the three lists into actions, and `apply_header_patch` removes and sets by name. For messages
whose names are pairwise distinct the way back is exact: name by name the result is the edited message.
-/

namespace Inspect.Filters

open Http Inspect.Flow

/-! ## Headers as a map -/

/-- A valid header, as an entry of a header map. -/
def headerEntry (header : EditableHttpHeader) : Option (HeaderName × HeaderValue) :=
  (HeaderName.fromBytes header.name).bind fun name => (HeaderValue.fromStr header.value).map fun value => (name, value)

/-- The header map of a message. -/
def headerMapOf (headers : List EditableHttpHeader) : HeaderMap := headers.filterMap headerEntry

/-- The name of a header without regard to case. -/
def headerKey (header : EditableHttpHeader) : Str := Text.toAsciiLowercase header.name

/-- Names and values are valid, and no name is there twice. -/
structure ValidHeaders (headers : List EditableHttpHeader) : Prop where
  names : ∀ header ∈ headers, (HeaderName.fromBytes header.name).isSome = true
  values : ∀ header ∈ headers, (HeaderValue.fromStr header.value).isSome = true
  distinct : (headers.map headerKey).Nodup

/-- A name is parsed to the name that it is in lower case. -/
theorem fromBytes_eq_some_iff {text : Str} {name : HeaderName} :
    HeaderName.fromBytes text = some name ↔ Text.toAsciiLowercase text = name.text := by
  unfold HeaderName.fromBytes
  constructor
  · intro h
    split_ifs at h
    cases h
    rfl
  · intro h
    have hvalid : isHeaderName (Text.toAsciiLowercase text) = true := by
      rw [h]
      exact name.valid
    rw [dif_pos hvalid]
    congr 1
    cases name
    cases h
    rfl

/-- The header that `find_header` finds has the name. -/
theorem findHeader_some {headers : List EditableHttpHeader} {name : Str} {header : EditableHttpHeader}
    (h : findHeader headers name = some header) :
    header ∈ headers ∧ headerKey header = Text.toAsciiLowercase name := by
  refine ⟨List.mem_of_find?_eq_some h, ?_⟩
  have heq := List.find?_some h
  unfold Text.eqIgnoreAsciiCase at heq
  exact eq_of_beq heq

theorem findHeader_none {headers : List EditableHttpHeader} {name : Str} :
    findHeader headers name = none ↔ ∀ header ∈ headers, headerKey header ≠ Text.toAsciiLowercase name := by
  unfold findHeader
  rw [List.find?_eq_none]
  refine forall₂_congr fun header _ => ?_
  unfold Text.eqIgnoreAsciiCase headerKey
  rw [beq_iff_eq]

section Valid

variable {headers : List EditableHttpHeader}

/-- Of one name there is one header. -/
theorem ValidHeaders.eq_of_key (h : ValidHeaders headers) {header header' : EditableHttpHeader}
    (hmem : header ∈ headers) (hmem' : header' ∈ headers) (hkey : headerKey header = headerKey header') :
    header = header' :=
  List.inj_on_of_nodup_map h.distinct hmem hmem' hkey

/-- A search for the name of a header finds it. -/
theorem ValidHeaders.findHeader_eq (h : ValidHeaders headers) {header : EditableHttpHeader} {name : Str}
    (hmem : header ∈ headers) (hkey : headerKey header = Text.toAsciiLowercase name) :
    findHeader headers name = some header := by
  cases hfound : findHeader headers name with
  | none => exact absurd hkey (findHeader_none.mp hfound header hmem)
  | some found =>
      obtain ⟨hmem', hkey'⟩ := findHeader_some hfound
      rw [h.eq_of_key hmem' hmem (hkey'.trans hkey.symm)]

/-- The values of a name are those of the headers that have it. -/
theorem getAll_headerMapOf (headers : List EditableHttpHeader) (name : HeaderName) :
    HeaderMap.getAll (headerMapOf headers) name
      = headers.filterMap fun header => setValue name ⟨header.name, header.value⟩ := by
  induction headers with
  | nil => rfl
  | cons header headers ih =>
      unfold headerMapOf setValue at ih ⊢
      rw [List.filterMap_cons, List.filterMap_cons]
      unfold headerEntry at ih ⊢
      cases HeaderName.fromBytes header.name with
      | none =>
          rw [if_neg (by simp)]
          exact ih
      | some valid =>
          cases HeaderValue.fromStr header.value with
          | none =>
              rw [ite_self]
              exact ih
          | some value =>
              show HeaderMap.getAll ([(valid, value)] ++ _) name = _
              rw [HeaderMap.getAll_append]
              by_cases hname : valid = name
              · rw [if_pos (congrArg some hname), ih, hname]
                simp [HeaderMap.getAll]
              · rw [if_neg (fun heq => hname (Option.some.inj heq)), ih]
                simp [HeaderMap.getAll, hname]

/-- A name that no header has, has no value. -/
theorem getAll_headerMapOf_of_absent {name : HeaderName} (h : ∀ header ∈ headers, headerKey header ≠ name.text) :
    HeaderMap.getAll (headerMapOf headers) name = [] := by
  rw [getAll_headerMapOf]
  apply List.filterMap_eq_nil_iff.mpr
  intro header hmem
  unfold setValue
  exact if_neg (fun heq => h header hmem (fromBytes_eq_some_iff.mp heq))

/-- What a header sets for its own name. -/
theorem setValue_of_key {header : EditableHttpHeader} {name : HeaderName} (hkey : headerKey header = name.text)
    (value : Str) : setValue name ⟨header.name, value⟩ = HeaderValue.fromStr value :=
  if_pos (fromBytes_eq_some_iff.mpr hkey)

/-- A name that a header has, has its value alone. -/
theorem ValidHeaders.getAll_of_mem (h : ValidHeaders headers) {header : EditableHttpHeader} {name : HeaderName}
    {value : HeaderValue} (hmem : header ∈ headers) (hkey : headerKey header = name.text)
    (hvalue : HeaderValue.fromStr header.value = some value) :
    HeaderMap.getAll (headerMapOf headers) name = [value] := by
  obtain ⟨front, back, rfl⟩ := List.append_of_mem hmem
  -- the other headers have other names
  have hother : ∀ other ∈ front ++ back, headerKey other ≠ name.text := by
    intro other hother heq
    have hdistinct := h.distinct
    rw [List.map_append, List.map_cons, List.nodup_middle, List.nodup_cons, ← List.map_append] at hdistinct
    exact hdistinct.1 (List.mem_map.mpr ⟨other, hother, heq.trans hkey.symm⟩)
  have hnone : ∀ part : List EditableHttpHeader, (∀ other ∈ part, headerKey other ≠ name.text) →
      part.filterMap (fun header => setValue name ⟨header.name, header.value⟩) = [] := by
    intro part hpart
    rw [← getAll_headerMapOf, getAll_headerMapOf_of_absent hpart]
  rw [getAll_headerMapOf, List.filterMap_append, List.filterMap_cons, setValue_of_key hkey, hvalue,
    hnone front (fun other hmem => hother other (List.mem_append_left _ hmem)),
    hnone back (fun other hmem => hother other (List.mem_append_right _ hmem))]
  rfl

end Valid

/-! ## Actions as a patch -/

/-- The headers that the actions set, in order. -/
def setHeadersOf (actions : List GeneratedFilterAction) : List FilterHeader :=
  actions.filterMap fun
    | .setRequestHeader name value | .setResponseHeader name value => some ⟨name, value⟩
    | _ => none

/-- The names that the actions remove, in order. -/
def removeHeadersOf (actions : List GeneratedFilterAction) : List Str :=
  actions.filterMap fun
    | .removeRequestHeader name | .removeResponseHeader name => some name
    | _ => none

/-- The patch of the header actions of a difference. -/
theorem headerActions_patch (diff : EditableHttpMessageDiff) :
    setHeadersOf diff.headerActions
        = diff.changedHeaders.map (fun header => ⟨header.name, header.editedValue⟩)
          ++ diff.addedHeaders.map (fun header => ⟨header.name, header.value⟩)
      ∧ removeHeadersOf diff.headerActions = diff.removedHeaders.map EditableHttpHeader.name := by
  unfold setHeadersOf removeHeadersOf EditableHttpMessageDiff.headerActions
    EditableHttpMessageDiff.headerActionsWith
  cases diff.kind with
  | request => simp [List.filterMap_append, List.filterMap_map]
  | response => simp [List.filterMap_append, List.filterMap_map]

/-! ## One name of an edited message -/

/-- If all valid entries for a name set one value, that is the value set. -/
theorem lastSetValue_eq_some {set : List FilterHeader} {name : HeaderName} {value : HeaderValue}
    (hmem : ∃ entry ∈ set, setValue name entry = some value)
    (hall : ∀ entry ∈ set, ∀ other, setValue name entry = some other → other = value) :
    lastSetValue set name = some value := by
  unfold lastSetValue
  obtain ⟨entry, hentry, hvalue⟩ := hmem
  have hne : set.filterMap (setValue name) ≠ [] :=
    List.ne_nil_of_mem (List.mem_filterMap.mpr ⟨entry, hentry, hvalue⟩)
  rw [List.getLast?_eq_some_getLast hne]
  obtain ⟨last, hlast, heq⟩ := List.mem_filterMap.mp (List.getLast_mem hne)
  exact congrArg some (hall last hlast _ heq)

theorem lastSetValue_eq_none {set : List FilterHeader} {name : HeaderName}
    (h : ∀ entry ∈ set, setValue name entry = none) : lastSetValue set name = none := by
  unfold lastSetValue
  rw [List.filterMap_eq_nil_iff.mpr h]
  rfl

section Diff

variable {original edited : EditableHttpMessage}

/-- The patch that the header actions of an edit amount to. -/
abbrev setsOf (original edited : EditableHttpMessage) : List FilterHeader :=
  setHeadersOf (original.diff edited).headerActions

/-- The names that the header actions of an edit remove. -/
abbrev removalsOf (original edited : EditableHttpMessage) : List Str :=
  removeHeadersOf (original.diff edited).headerActions

/-- The headers that are set: those that are new, and those with a new value under their old name. -/
theorem mem_setsOf {entry : FilterHeader} :
    entry ∈ setsOf original edited
      ↔ (∃ header ∈ original.headers, ∃ found, findHeader edited.headers header.name = some found
          ∧ header.value ≠ found.value ∧ entry = ⟨header.name, found.value⟩)
        ∨ ∃ header ∈ edited.headers, findHeader original.headers header.name = none
          ∧ entry = ⟨header.name, header.value⟩ := by
  unfold setsOf
  rw [(headerActions_patch _).1, List.mem_append, List.mem_map, List.mem_map]
  unfold EditableHttpMessage.diff EditableHttpMessage.headerValue
  dsimp only
  constructor
  · rintro (⟨change, hchange, rfl⟩ | ⟨header, hheader, rfl⟩)
    · obtain ⟨header, hmem, hbind⟩ := List.mem_filterMap.mp hchange
      obtain ⟨value, hvalue, hchange⟩ := Option.bind_eq_some_iff.mp hbind
      obtain ⟨found, hfound, rfl⟩ := Option.map_eq_some_iff.mp hvalue
      split_ifs at hchange with hsame
      cases hchange
      exact Or.inl ⟨header, hmem, found, hfound, hsame, rfl⟩
    · obtain ⟨hmem, hnone⟩ := List.mem_filter.mp hheader
      rw [Option.isNone_iff_eq_none, Option.map_eq_none_iff] at hnone
      exact Or.inr ⟨header, hmem, hnone, rfl⟩
  · rintro (⟨header, hmem, found, hfound, hdiffers, rfl⟩ | ⟨header, hmem, hnone, rfl⟩)
    · refine Or.inl ⟨⟨header.name, header.value, found.value⟩, List.mem_filterMap.mpr ⟨header, hmem, ?_⟩, rfl⟩
      rw [hfound, Option.map_some, Option.bind_some, if_neg hdiffers]
    · refine Or.inr ⟨header, List.mem_filter.mpr ⟨hmem, ?_⟩, rfl⟩
      rw [hnone]
      rfl

/-- The headers that are removed: those whose name is gone. -/
theorem isRemoved_removalsOf {name : HeaderName} :
    isRemoved (removalsOf original edited) name = true
      ↔ ∃ header ∈ original.headers, headerKey header = name.text ∧ findHeader edited.headers header.name = none := by
  unfold isRemoved removalsOf
  rw [(headerActions_patch _).2, List.any_eq_true]
  unfold EditableHttpMessage.diff EditableHttpMessage.headerValue
  constructor
  · rintro ⟨text, htext, hname⟩
    obtain ⟨header, hheader, rfl⟩ := List.mem_map.mp htext
    obtain ⟨hmem, hnone⟩ := List.mem_filter.mp hheader
    rw [Option.isNone_iff_eq_none, Option.map_eq_none_iff] at hnone
    exact ⟨header, hmem, fromBytes_eq_some_iff.mp (of_decide_eq_true hname), hnone⟩
  · rintro ⟨header, hmem, hkey, hnone⟩
    refine ⟨header.name, List.mem_map.mpr ⟨header, List.mem_filter.mpr ⟨hmem, ?_⟩, rfl⟩,
      decide_eq_true (fromBytes_eq_some_iff.mpr hkey)⟩
    rw [hnone]
    rfl

/-- Whatever is set for a name is its value in the edited message. -/
theorem setValue_of_mem_setsOf {entry : FilterHeader} {name : HeaderName} {value : HeaderValue}
    (hmem : entry ∈ setsOf original edited) (hset : setValue name entry = some value) :
    ∃ header ∈ edited.headers, headerKey header = name.text ∧ HeaderValue.fromStr header.value = some value := by
  unfold setValue at hset
  split_ifs at hset with hname
  rw [fromBytes_eq_some_iff] at hname
  rcases mem_setsOf.mp hmem with ⟨header, -, found, hfound, -, rfl⟩ | ⟨header, hheader, -, rfl⟩
  · obtain ⟨hfoundMem, hkey⟩ := findHeader_some hfound
    exact ⟨found, hfoundMem, hkey.trans hname, hset⟩
  · exact ⟨header, hheader, hname, hset⟩

/-- A name of the edited message gets its value there. -/
theorem patchedValues_of_mem (horiginal : ValidHeaders original.headers) (hedited : ValidHeaders edited.headers)
    {header : EditableHttpHeader} {name : HeaderName} {value : HeaderValue} (hmem : header ∈ edited.headers)
    (hkey : headerKey header = name.text) (hvalue : HeaderValue.fromStr header.value = some value) :
    patchedValues (headerMapOf original.headers) (setsOf original edited) (removalsOf original edited) name
      = [value] := by
  unfold patchedValues
  by_cases hset : ∃ entry ∈ setsOf original edited, (setValue name entry).isSome = true
  · -- whatever is set for the name is the value of the one header that has it
    obtain ⟨entry, hentry, hsome⟩ := hset
    obtain ⟨first, hfirst⟩ := Option.isSome_iff_exists.mp hsome
    have hall : ∀ entry ∈ setsOf original edited, ∀ other, setValue name entry = some other → other = value := by
      intro entry hentry other hother
      obtain ⟨header', hmem', hkey', hvalue'⟩ := setValue_of_mem_setsOf hentry hother
      rw [hedited.eq_of_key hmem' hmem (hkey'.trans hkey.symm), hvalue] at hvalue'
      exact (Option.some.inj hvalue').symm
    rw [lastSetValue_eq_some ⟨entry, hentry, by rw [hfirst, hall entry hentry first hfirst]⟩ hall]
  · -- nothing is set: the original has the same value
    have hnone : ∀ entry ∈ setsOf original edited, setValue name entry = none := by
      intro entry hentry
      by_contra hsome
      exact hset ⟨entry, hentry, Option.isSome_iff_ne_none.mpr hsome⟩
    obtain ⟨old, hold, holdKey⟩ : ∃ old ∈ original.headers, headerKey old = name.text := by
      by_contra hno
      have habsent : findHeader original.headers header.name = none := by
        apply findHeader_none.mpr
        intro old hold heq
        exact hno ⟨old, hold, heq.trans hkey⟩
      have hadded := hnone _ (mem_setsOf.mpr (Or.inr ⟨header, hmem, habsent, rfl⟩))
      rw [setValue_of_key hkey, hvalue] at hadded
      cases hadded
    have hfound : findHeader edited.headers old.name = some header :=
      hedited.findHeader_eq hmem (hkey.trans holdKey.symm)
    have hsame : old.value = header.value := by
      by_contra hdiffers
      have hchanged := hnone _ (mem_setsOf.mpr (Or.inl ⟨old, hold, header, hfound, hdiffers, rfl⟩))
      rw [setValue_of_key holdKey, hvalue] at hchanged
      cases hchanged
    have hkept : isRemoved (removalsOf original edited) name = false := by
      rw [← Bool.not_eq_true, isRemoved_removalsOf]
      rintro ⟨removed, hremoved, hremovedKey, hgone⟩
      rw [horiginal.eq_of_key hremoved hold (hremovedKey.trans holdKey.symm), hfound] at hgone
      cases hgone
    rw [lastSetValue_eq_none hnone, hkept]
    exact horiginal.getAll_of_mem hold holdKey (by rw [hsame]; exact hvalue)

/-- A name that is not in the edited message is gone. -/
theorem patchedValues_of_absent {name : HeaderName} (habsent : ∀ header ∈ edited.headers, headerKey header ≠ name.text) :
    patchedValues (headerMapOf original.headers) (setsOf original edited) (removalsOf original edited) name = [] := by
  have hnone : ∀ entry ∈ setsOf original edited, setValue name entry = none := by
    intro entry hentry
    cases hvalue : setValue name entry with
    | none => rfl
    | some value =>
        obtain ⟨header, hmem, hkey, -⟩ := setValue_of_mem_setsOf hentry hvalue
        exact absurd hkey (habsent header hmem)
  unfold patchedValues
  rw [lastSetValue_eq_none hnone]
  by_cases hold : ∃ old ∈ original.headers, headerKey old = name.text
  · obtain ⟨old, hmem, hkey⟩ := hold
    have hgone : findHeader edited.headers old.name = none := by
      apply findHeader_none.mpr
      intro header hheader heq
      exact habsent header hheader (heq.trans hkey)
    exact if_pos (isRemoved_removalsOf.mpr ⟨old, hmem, hkey, hgone⟩)
  · have hnever : ∀ old ∈ original.headers, headerKey old ≠ name.text := fun old hmem hkey => hold ⟨old, hmem, hkey⟩
    dsimp only
    rw [getAll_headerMapOf_of_absent hnever, ite_self]

end Diff

/-! ## Main results -/

/-- **Header edits are reproduced.** The header actions of an edit, applied to the original headers, give the headers of
    the edited message: every name has the values that it has there. -/
theorem headerEdits_reproduced {original edited : EditableHttpMessage} (horiginal : ValidHeaders original.headers)
    (hedited : ValidHeaders edited.headers) (name : HeaderName) :
    HeaderMap.getAll (applyHeaderPatch (headerMapOf original.headers)
        (setHeadersOf (original.diff edited).headerActions) (removeHeadersOf (original.diff edited).headerActions)) name
      = HeaderMap.getAll (headerMapOf edited.headers) name := by
  rw [getAll_applyHeaderPatch]
  by_cases hpresent : ∃ header ∈ edited.headers, headerKey header = name.text
  · obtain ⟨header, hmem, hkey⟩ := hpresent
    obtain ⟨value, hvalue⟩ := Option.isSome_iff_exists.mp (hedited.values header hmem)
    rw [hedited.getAll_of_mem hmem hkey hvalue]
    exact patchedValues_of_mem horiginal hedited hmem hkey hvalue
  · have habsent : ∀ header ∈ edited.headers, headerKey header ≠ name.text :=
      fun header hmem hkey => hpresent ⟨header, hmem, hkey⟩
    rw [getAll_headerMapOf_of_absent habsent]
    exact patchedValues_of_absent habsent

section Renamed

/-- A request with two headers. -/
def headersOf (headers : List (String × String)) : EditableHttpMessage where
  kind := .request
  method := none
  scheme := none
  host := []
  path := []
  query := []
  status := none
  headers := headers.map fun header => ⟨header.1.toList, header.2.toList⟩
  body := .empty

/-- One header changed in case and value, one removed, one added. -/
theorem headerEdits_reproduced_mixed :
    HeaderMap.getAll (applyHeaderPatch (headerMapOf (headersOf [("Accept", "a"), ("X-Old", "b")]).headers)
        (setHeadersOf ((headersOf [("Accept", "a"), ("X-Old", "b")]).diff
          (headersOf [("X-New", "c"), ("accept", "d")])).headerActions)
        (removeHeadersOf ((headersOf [("Accept", "a"), ("X-Old", "b")]).diff
          (headersOf [("X-New", "c"), ("accept", "d")])).headerActions)) ⟨"accept".toList, by decide⟩
      = HeaderMap.getAll (headerMapOf (headersOf [("X-New", "c"), ("accept", "d")]).headers) ⟨"accept".toList, by decide⟩ := by
  have horiginal : ValidHeaders (headersOf [("Accept", "a"), ("X-Old", "b")]).headers :=
    ⟨by decide +kernel, by decide +kernel, by decide +kernel⟩
  have hedited : ValidHeaders (headersOf [("X-New", "c"), ("accept", "d")]).headers :=
    ⟨by decide +kernel, by decide +kernel, by decide +kernel⟩
  exact headerEdits_reproduced horiginal hedited _

end Renamed

end Inspect.Filters
