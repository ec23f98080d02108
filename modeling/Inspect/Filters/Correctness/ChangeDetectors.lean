import Inspect.Filters.Correctness.EditorJsonPatch

/-!
# `Filters.Correctness.ChangeDetectors` — `has_changes` and `semantic_diff`

An edit is compared twice: `diff` sets flags, and `has_changes` decides on them whether a filter is drafted;
`semantic_diff` pushes events, which the preview shows and the filter's patch is made of. Each of the two is
characterised on its own, in terms of the parts of a message. They share all parts but the scheme and the body: of a
body `diff` compares the text as it stands, `semantic_diff` the JSON value, if it is one.
-/

namespace Inspect.Filters

/-! ## The parts both compare -/

/-- Some header is new, is gone or has another value. -/
def HeadersChanged (original edited : EditableHttpMessage) : Prop :=
  (∃ header ∈ original.headers, edited.headerValue header.name ≠ some header.value)
    ∨ ∃ header ∈ edited.headers, original.headerValue header.name = none

/-- A part that both detectors compare is changed. -/
def SharedPartChanged (original edited : EditableHttpMessage) : Prop :=
  original.method ≠ edited.method ∨ original.host ≠ edited.host ∨ original.path ≠ edited.path
    ∨ original.query ≠ edited.query ∨ original.status ≠ edited.status ∨ HeadersChanged original edited

theorem pushOptionalReplace_eq_nil {A : Type} [DecidableEq A] {path : DiffPath} {node : A → DiffNode}
    {old new : Option A} {source : DiffSource} : pushOptionalReplace path node old new source = [] ↔ old = new := by
  unfold pushOptionalReplace
  constructor
  · intro h
    split_ifs at h with heq
    · exact heq
    · cases old <;> cases new <;> first | rfl | cases h
  · intro h
    rw [if_pos h]

theorem pushStringReplace_eq_nil {path : DiffPath} {old new : Str} {source : DiffSource} :
    pushStringReplace path old new source = [] ↔ old = new := by
  unfold pushStringReplace
  constructor
  · intro h
    split_ifs at h with heq
    exact heq
  · intro h
    rw [if_pos h]

/-- The three lists of `diff` are empty when no header is changed. -/
theorem diff_headers_isEmpty (original edited : EditableHttpMessage) :
    ((original.diff edited).addedHeaders = [] ∧ (original.diff edited).removedHeaders = []
        ∧ (original.diff edited).changedHeaders = []) ↔ ¬ HeadersChanged original edited := by
  unfold EditableHttpMessage.diff HeadersChanged
  simp only [List.filter_eq_nil_iff, List.filterMap_eq_nil_iff, Option.isNone_iff_eq_none, not_or, not_exists,
    not_and, not_not]
  constructor
  · rintro ⟨hadded, hremoved, hchanged⟩
    refine ⟨fun header hmem => ?_, hadded⟩
    cases hvalue : edited.headerValue header.name with
    | none => exact absurd hvalue (hremoved header hmem)
    | some value =>
        have h := hchanged header hmem
        rw [hvalue, Option.bind_some] at h
        split_ifs at h with heq
        rw [heq]
  · rintro ⟨hkept, hadded⟩
    refine ⟨hadded, fun header hmem => ?_, fun header hmem => ?_⟩
    · rw [hkept header hmem]
      exact Option.some_ne_none _
    · rw [hkept header hmem, Option.bind_some, if_pos rfl]

/-- The header events are empty when no header is changed. -/
theorem pushHeaderDiffEvents_eq_nil (original edited : EditableHttpMessage) :
    pushHeaderDiffEvents original.headers edited.headers = [] ↔ ¬ HeadersChanged original edited := by
  unfold pushHeaderDiffEvents HeadersChanged EditableHttpMessage.headerValue
  simp only [List.append_eq_nil_iff, List.flatMap_eq_nil_iff, not_or, not_exists, not_and, not_not]
  refine and_congr (forall₂_congr fun header _ => ?_) (forall₂_congr fun header _ => ?_)
  · -- the two searches are one: the value of the header that is found
    cases findHeader edited.headers header.name with
    | none => simp
    | some found =>
        rw [Option.map_some, Option.some.injEq]
        dsimp only
        constructor
        · intro h
          by_contra hne
          rw [if_pos hne] at h
          cases h
        · intro h
          rw [if_neg (not_not.mpr h)]
  · cases findHeader original.headers header.name with
    | none => simp
    | some found => simp

/-- **What `has_changes` compares**: the shared parts and the text of the body. -/
theorem hasChanges_iff (original edited : EditableHttpMessage) :
    (original.diff edited).hasChanges = true
      ↔ SharedPartChanged original edited ∨ original.bodyText ≠ edited.bodyText := by
  have hheaders := diff_headers_isEmpty original edited
  have hflags : (original.diff edited).hasChanges = false ↔ ¬ (SharedPartChanged original edited
      ∨ original.bodyText ≠ edited.bodyText) := by
    unfold EditableHttpMessageDiff.hasChanges SharedPartChanged
    simp only [Bool.or_eq_false_iff, Bool.not_eq_false', List.isEmpty_iff, not_or, ← hheaders]
    simp only [EditableHttpMessage.diff, bne_eq_false_iff_eq, not_not]
    tauto
  rw [← not_iff_not, Bool.not_eq_true]
  exact hflags

/-! ## The body -/

section Body

variable {N : Type} [BEq N] {serde : SerdeJson N}

/-- The diff of two values is empty when they are equal. -/
theorem diffJsonValue_eq_nil (hlaws : serde.Laws) {original edited : Str} {originalJson editedJson : Json N}
    (horiginal : serde.fromStr original = some originalJson) (hedited : serde.fromStr edited = some editedJson) :
    diffJsonValue serde [] originalJson editedJson = [] ↔ originalJson.beq editedJson = true := by
  constructor
  · intro hnil
    by_contra hdiffers
    refine jsonDiffOperations_ne_nil hlaws (hlaws.fromStr_wellFormed horiginal) (hlaws.fromStr_wellFormed hedited)
      (Bool.not_eq_true _ ▸ hdiffers) ?_
    unfold jsonDiffOperations
    rw [hnil]
    rfl
  · intro h
    unfold diffJsonValue
    rw [if_pos h]

/-- The bodies are texts of the same JSON value, and the texts differ. -/
def LayoutOnly (serde : SerdeJson N) : EditableHttpBody → EditableHttpBody → Prop
  | .text original contentType, .text edited contentType' =>
      original ≠ edited ∧ ∃ originalJson editedJson,
        DiffedAsJson serde original edited (contentType.or contentType') originalJson editedJson
          ∧ originalJson.beq editedJson = true
  | _, _ => False

/-- The bodies differ, but not in a text: in the content type of a text that is not diffed as JSON, or in what is
    known of bodies without text. -/
def BesidesText (serde : SerdeJson N) : EditableHttpBody → EditableHttpBody → Prop
  | .text original contentType, .text edited contentType' =>
      original = edited ∧ contentType ≠ contentType'
        ∧ pushJsonBodyDiffEvents serde original edited (contentType.or contentType') = none
  | .text _ _, _ | _, .text _ _ => False
  | original, edited => original ≠ edited

/-- A text is never diffed against itself with events. -/
theorem pushJsonBodyDiffEvents_self (hlaws : serde.Laws) {text : Str} {contentType : Option Str}
    {events : List DiffEvent} (h : pushJsonBodyDiffEvents serde text text contentType = some events) :
    events = [] := by
  obtain ⟨originalJson, editedJson, ⟨-, horiginal, hedited⟩, rfl⟩ := pushJsonBodyDiffEvents_eq_some_iff.mp h
  obtain rfl := Option.some.inj (horiginal.symm.trans hedited)
  rw [diffJsonValue_eq_nil hlaws horiginal hedited]
  exact Json.beq_refl hlaws.number_refl (hlaws.fromStr_wellFormed horiginal)

/-- Two texts: the events are none if the texts are one body, or the values are equal. -/
theorem pushBodyDiffEvents_text_eq_nil (hlaws : serde.Laws) (original edited : Str)
    (contentType contentType' : Option Str) :
    pushBodyDiffEvents serde (.text original contentType) (.text edited contentType') = []
      ↔ (original = edited ∨ LayoutOnly serde (.text original contentType) (.text edited contentType'))
        ∧ ¬ BesidesText serde (.text original contentType) (.text edited contentType') := by
  unfold pushBodyDiffEvents LayoutOnly BesidesText
  split_ifs with hbodies
  · cases hbodies
    simp
  · have hparts : original = edited → contentType ≠ contentType' := by
      rintro rfl rfl
      exact hbodies rfl
    dsimp only
    cases hpush : pushJsonBodyDiffEvents serde original edited (contentType.or contentType') with
    | some events =>
        obtain ⟨originalJson, editedJson, hjson, rfl⟩ := pushJsonBodyDiffEvents_eq_some_iff.mp hpush
        have hnil := diffJsonValue_eq_nil hlaws hjson.2.1 hjson.2.2
        constructor
        · intro h
          refine ⟨?_, fun hbesides => by cases hbesides.2.2⟩
          by_cases htext : original = edited
          · exact Or.inl htext
          · exact Or.inr ⟨htext, originalJson, editedJson, hjson, hnil.mp h⟩
        · rintro ⟨rfl | ⟨-, originalJson', editedJson', hjson', hbeq⟩, -⟩
          · exact pushJsonBodyDiffEvents_self hlaws hpush
          · obtain rfl := Option.some.inj (hjson.2.1.symm.trans hjson'.2.1)
            obtain rfl := Option.some.inj (hjson.2.2.symm.trans hjson'.2.2)
            exact hnil.mpr hbeq
    | none =>
        refine iff_of_false (by simp) ?_
        rintro ⟨htext | ⟨-, originalJson, editedJson, hjson, -⟩, hnot⟩
        · exact hnot ⟨htext, hparts htext, rfl⟩
        · rw [pushJsonBodyDiffEvents_eq_some_iff.mpr ⟨originalJson, editedJson, hjson, rfl⟩] at hpush
          cases hpush

/-- **What `semantic_diff` compares of a body**: all of it, but of JSON texts only the values. -/
theorem pushBodyDiffEvents_eq_nil (hlaws : serde.Laws) (original edited : EditableHttpBody) :
    pushBodyDiffEvents serde original edited = []
      ↔ (original.bodyText = edited.bodyText ∨ LayoutOnly serde original edited)
        ∧ ¬ BesidesText serde original edited := by
  cases original with
  | text originalText contentType =>
      cases edited with
      | text editedText contentType' =>
          rw [pushBodyDiffEvents_text_eq_nil hlaws]
          simp only [EditableHttpBody.bodyText, Option.some.injEq]
      | binary bytesLen contentType' => simp [pushBodyDiffEvents, EditableHttpBody.bodyText, LayoutOnly]
      | empty =>
          simp only [pushBodyDiffEvents]
          cases pushJsonBodyDeleteEvent serde originalText contentType <;>
            simp [EditableHttpBody.bodyText, LayoutOnly]
  | binary bytesLen contentType =>
      cases edited <;> simp [pushBodyDiffEvents, EditableHttpBody.bodyText, LayoutOnly, BesidesText]
  | empty =>
      cases edited with
      | text editedText contentType' =>
          simp only [pushBodyDiffEvents]
          cases pushJsonBodyInsertEvent serde editedText contentType' <;>
            simp [EditableHttpBody.bodyText, LayoutOnly]
      | binary bytesLen contentType' =>
          simp [pushBodyDiffEvents, EditableHttpBody.bodyText, LayoutOnly, BesidesText]
      | empty => simp [pushBodyDiffEvents, EditableHttpBody.bodyText, BesidesText]

/-- **What `semantic_diff` compares**: the shared parts, the scheme and the body. -/
theorem semanticDiff_ne_nil_iff (hlaws : serde.Laws) (original edited : EditableHttpMessage) :
    original.semanticDiff serde edited ≠ []
      ↔ SharedPartChanged original edited ∨ original.scheme ≠ edited.scheme
        ∨ original.bodyText ≠ edited.bodyText ∧ ¬ LayoutOnly serde original.body edited.body
        ∨ BesidesText serde original.body edited.body := by
  have hbody := pushBodyDiffEvents_eq_nil hlaws original.body edited.body
  have hheaders := pushHeaderDiffEvents_eq_nil original edited
  unfold EditableHttpMessage.semanticDiff SharedPartChanged EditableHttpMessage.bodyText
  simp only [ne_eq, List.append_eq_nil_iff, pushOptionalReplace_eq_nil, pushStringReplace_eq_nil, hheaders, hbody,
    not_and_or, not_or, not_not, or_assoc]
  by_cases hscheme : original.scheme = edited.scheme
  · simp only [hscheme, not_true, false_or]
  · simp only [hscheme, not_false_eq_true, true_or, or_true]

/-! ## Where the two agree -/

/-- Texts that differ in layout only differ as texts. -/
theorem LayoutOnly.bodyText_ne {original edited : EditableHttpBody} (h : LayoutOnly serde original edited) :
    original.bodyText ≠ edited.bodyText := by
  cases original <;> cases edited <;> first | exact h.elim | skip
  rw [EditableHttpBody.bodyText, EditableHttpBody.bodyText, ne_eq, Option.some.injEq]
  exact h.1

/-- **The two change detectors agree up to the layout of JSON**: in an edit of parts that both compare,
    `has_changes` is true if and only if `semantic_diff` has an event or the body is the same JSON value in another
    layout. -/
theorem hasChanges_iff_semanticDiff (hlaws : serde.Laws) {original edited : EditableHttpMessage}
    (hscheme : original.scheme = edited.scheme) (hbody : ¬ BesidesText serde original.body edited.body) :
    (original.diff edited).hasChanges = true
      ↔ original.semanticDiff serde edited ≠ [] ∨ LayoutOnly serde original.body edited.body := by
  rw [hasChanges_iff, semanticDiff_ne_nil_iff hlaws]
  constructor
  · rintro (hshared | htext)
    · exact Or.inl (Or.inl hshared)
    · by_cases hlayout : LayoutOnly serde original.body edited.body
      · exact Or.inr hlayout
      · exact Or.inl (Or.inr (Or.inr (Or.inl ⟨htext, hlayout⟩)))
  · rintro ((hshared | hne | ⟨htext, -⟩ | hbesides) | hlayout)
    · exact Or.inl hshared
    · exact absurd hscheme hne
    · exact Or.inr htext
    · exact absurd hbesides hbody
    · exact Or.inr hlayout.bodyText_ne

end Body

/-- An item added to a JSON body: both detectors see it. -/
theorem hasChanges_iff_semanticDiff_item :
    ((jsonRequest "[1]").diff (jsonRequest "[1,2]")).hasChanges = true
      ↔ (jsonRequest "[1]").semanticDiff JsonCodec.codec (jsonRequest "[1,2]") ≠ []
        ∨ LayoutOnly JsonCodec.codec (jsonRequest "[1]").body (jsonRequest "[1,2]").body :=
  hasChanges_iff_semanticDiff JsonCodec.codec_laws rfl fun h => absurd h.1 (by decide)

/-- A blank in a JSON body is a change to `has_changes` and none to `semantic_diff`. -/
theorem layout_seen_by_one_detector :
    (jsonRequest "[1]").kind = (jsonRequest "[ 1]").kind
      ∧ ¬ (((jsonRequest "[1]").diff (jsonRequest "[ 1]")).hasChanges = true
        ↔ (jsonRequest "[1]").semanticDiff JsonCodec.codec (jsonRequest "[ 1]") ≠ []) := by
  have hchanges : ((jsonRequest "[1]").diff (jsonRequest "[ 1]")).hasChanges = true := by decide +kernel
  have hnil : (jsonRequest "[1]").semanticDiff JsonCodec.codec (jsonRequest "[ 1]") = [] := by decide +kernel
  exact ⟨rfl, fun h => h.mp hchanges hnil⟩

end Inspect.Filters
