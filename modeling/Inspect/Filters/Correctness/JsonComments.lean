import Inspect.Filters.Correctness.JsonChanges

/-!
# `Filters.Correctness.JsonComments` — the comments of a JSON patch

`write_json_patch_comments` writes the pointers of the operations into comment lines as they are, and a pointer
holds the keys of the body with `~` and `/` escaped and nothing else. A newline in a key therefore ends the
comment. `commentsOnly_iff_safePath` says for which bodies every line still is a comment: a newline in a key may
only be followed by spaces, and the next two steps of the path must write the two slashes of the next comment.
-/

namespace Inspect.Filters

open Rfc6902 GeneratedJsonPatchOperation

/-! ## Comment lines -/

/-- The line is a comment: after its leading spaces it starts with `//`. -/
def isComment (line : Str) : Bool := "//".toList.isPrefixOf (line.dropWhile (· == ' '))

/-- Every line that starts within the text is a comment; the part before the first newline belongs to the line
    the text is appended to. -/
def CommentsOnly (text : Str) : Prop := ∀ line ∈ (text.splitOn '\n').tail, isComment line = true

instance (text : Str) : Decidable (CommentsOnly text) :=
  inferInstanceAs (Decidable (∀ line ∈ (text.splitOn '\n').tail, isComment line = true))

theorem isComment_space (line : Str) : isComment (' ' :: line) = isComment line := by
  simp [isComment]

theorem isComment_slash (line : Str) : isComment ('/' :: line) = (line.head? == some '/') := by
  cases line with
  | nil => rfl
  | cons c line =>
      show ('/' == c && true) = (some c == some '/')
      rw [Bool.and_true]
      by_cases hc : c = '/' <;> simp [hc, eq_comm]

theorem isComment_other {c : Char} (hspace : c ≠ ' ') (hslash : c ≠ '/') (line : Str) :
    isComment (c :: line) = false := by
  have hdrop : (c :: line).dropWhile (· == ' ') = c :: line := by simp [hspace]
  have hne : ('/' == c) = false := by simpa using Ne.symm hslash
  rw [isComment, hdrop]
  show ('/' == c && _) = false
  rw [hne, Bool.false_and]

/-- A line break decides nothing about the line before it. -/
theorem isComment_append_newline (line rest : Str) :
    isComment (line ++ '\n' :: rest) = isComment line := by
  induction line with
  | nil => rfl
  | cons c line ih =>
      rw [List.cons_append]
      by_cases hspace : c = ' '
      · rw [hspace, isComment_space, isComment_space, ih]
      by_cases hslash : c = '/'
      · rw [hslash, isComment_slash, isComment_slash]
        cases line <;> rfl
      · rw [isComment_other hspace hslash, isComment_other hspace hslash]

theorem commentsOnly_nil : CommentsOnly [] := by
  intro line hmem
  cases hmem

theorem commentsOnly_cons {c : Char} (hc : c ≠ '\n') (text : Str) :
    CommentsOnly (c :: text) ↔ CommentsOnly text := by
  unfold CommentsOnly
  rw [List.splitOn_cons_eq_if_modifyHead, if_neg (by simpa using hc), List.tail_modifyHead]

/-- A text after a line break: its first line counts as well. -/
theorem commentsOnly_newline (text : Str) :
    CommentsOnly ('\n' :: text) ↔ isComment text = true ∧ CommentsOnly text := by
  have hsplit : ('\n' :: text).splitOn '\n' = [] :: text.splitOn '\n' := by
    rw [List.splitOn_cons_eq_if_modifyHead, if_pos (by simp)]
  have hfirst : isComment ((text.splitOn '\n').headI) = isComment text := by
    by_cases hmem : '\n' ∈ text
    · obtain ⟨line, rest, rfl, hline⟩ := List.eq_append_cons_of_mem hmem
      rw [List.splitOn_append_cons_self_of_not_mem hline, isComment_append_newline]
      rfl
    · rw [List.splitOn_eq_singleton hmem]
      rfl
  unfold CommentsOnly
  rw [hsplit, List.tail_cons, ← hfirst]
  cases hlines : text.splitOn '\n' with
  | nil => exact absurd hlines (List.splitOn_ne_nil _ _)
  | cons line lines => rw [List.forall_mem_cons]; rfl

theorem commentsOnly_append {part : Str} (hpart : '\n' ∉ part) (text : Str) :
    CommentsOnly (part ++ text) ↔ CommentsOnly text := by
  induction part with
  | nil => rfl
  | cons c part ih =>
      obtain ⟨hc, hpart⟩ := not_or.mp (fun h => hpart (List.mem_cons.mpr h))
      rw [List.cons_append, commentsOnly_cons (Ne.symm hc), ih hpart]

/-- A text without line breaks. -/
theorem commentsOnly_of_not_mem {text : Str} (h : '\n' ∉ text) : CommentsOnly text := by
  have happend := commentsOnly_append h []
  rw [List.append_nil] at happend
  exact happend.mpr commentsOnly_nil

/-- The text is empty or starts with a line break. -/
def StartsLine (text : Str) : Prop := ∀ c ∈ text.head?, c = '\n'

/-- Two texts, the second of which starts a line. -/
theorem commentsOnly_append_startsLine (text : Str) {text' : Str} (h : StartsLine text') :
    CommentsOnly (text ++ text') ↔ CommentsOnly text ∧ CommentsOnly text' := by
  cases text' with
  | nil => simp [commentsOnly_nil]
  | cons c' text' =>
      obtain rfl : c' = '\n' := h c' rfl
      induction text with
      | nil => simp [commentsOnly_nil]
      | cons c text ih =>
          rw [List.cons_append]
          by_cases hc : c = '\n'
          · rw [hc, commentsOnly_newline, commentsOnly_newline text, isComment_append_newline, ih, and_assoc]
          · rw [commentsOnly_cons hc, commentsOnly_cons hc, ih]

/-- Texts that all start a line. -/
theorem commentsOnly_flatMap {A : Type} (items : List A) {block : A → Str}
    (h : ∀ item, StartsLine (block item)) :
    StartsLine (items.flatMap block)
      ∧ (CommentsOnly (items.flatMap block) ↔ ∀ item ∈ items, CommentsOnly (block item)) := by
  induction items with
  | nil => exact ⟨fun c hc => (Option.not_mem_none c hc).elim, by simp [commentsOnly_nil]⟩
  | cons item items ih =>
      rw [List.flatMap_cons, commentsOnly_append_startsLine _ ih.1, ih.2, List.forall_mem_cons]
      refine ⟨?_, Iff.rfl⟩
      have hitem := h item
      cases hblock : block item with
      | nil => exact ih.1
      | cons c block => rw [hblock] at hitem; exact hitem

/-- A comment stays one, whatever is written after it. -/
theorem isComment_append {label : Str} (h : isComment label = true) (rest : Str) :
    isComment (label ++ rest) = true := by
  induction label with
  | nil => cases h
  | cons c label ih =>
      rw [List.cons_append]
      by_cases hspace : c = ' '
      · rw [hspace, isComment_space] at h ⊢
        exact ih h
      by_cases hslash : c = '/'
      · rw [hslash, isComment_slash] at h ⊢
        cases label with
        | nil => cases h
        | cons c' label => exact h
      · rw [isComment_other hspace hslash] at h
        cases h

/-- A line break and a comment label, and what is written after them. -/
theorem commentsOnly_label {label : Str} (h : isComment label = true) (hlabel : '\n' ∉ label) (rest : Str) :
    CommentsOnly ('\n' :: label ++ rest) ↔ CommentsOnly rest := by
  rw [List.cons_append, commentsOnly_newline, commentsOnly_append hlabel, isComment_append h rest]
  simp

/-! ## A pointer in a comment -/

/-- The reference tokens leave the comment they are written into a comment: only spaces follow a newline in a
    token, and then come an empty token and one more. -/
def SafeTokens : List Str → Prop
  | [] => True
  | token :: tokens =>
      ('\n' ∈ token →
        (∀ c ∈ (token.dropWhile (· ≠ '\n')).tail, c = ' ') ∧ ∃ next rest, tokens = [] :: next :: rest)
      ∧ SafeTokens tokens

/-- What may follow a pointer on its line: the end of the text, or a space and no comment. -/
def Suffix (text : Str) : Prop := '\n' ∉ text ∧ text.head? ≠ some '/' ∧ isComment text = false

theorem isComment_renderPointer (tokens : List Str) {suffix : Str} (h : Suffix suffix) :
    isComment (renderPointer tokens ++ suffix) = true ↔ ∃ next rest, tokens = [] :: next :: rest := by
  cases tokens with
  | nil =>
      rw [show renderPointer [] = [] from rfl, List.nil_append, h.2.2]
      simp
  | cons token tokens =>
      rw [show renderPointer (token :: tokens) = '/' :: (escapeToken token ++ renderPointer tokens) from rfl,
        List.cons_append, isComment_slash, beq_iff_eq]
      cases token with
      | nil =>
          cases tokens with
          | nil => simpa [escapeToken, renderPointer] using h.2.1
          | cons next rest => simp [escapeToken, renderPointer]
      | cons c token =>
          have hhead : (escapeToken (c :: token)).head? ≠ some '/' := by
            intro hhead
            exact slash_not_mem_escapeToken _ (List.mem_of_head? hhead)
          have hne : escapeToken (c :: token) ≠ [] := by
            unfold escapeToken
            rw [List.flatMap_cons]
            split
            · simp
            · split <;> simp
          obtain ⟨d, escaped, hescaped⟩ := List.exists_cons_of_ne_nil hne
          rw [hescaped] at hhead ⊢
          simpa using hhead

/-- Spaces are not escaped, and what is no space does not become one. -/
theorem isComment_escapeToken (token : Str) {rest : Str} :
    isComment (escapeToken token ++ rest) = true ↔ (∀ c ∈ token, c = ' ') ∧ isComment rest = true := by
  induction token with
  | nil => simp [escapeToken]
  | cons c token ih =>
      rw [List.forall_mem_cons]
      unfold escapeToken at ih ⊢
      rw [List.flatMap_cons]
      by_cases htilde : c = '~'
      · subst htilde
        rw [if_pos rfl, List.cons_append, List.cons_append, isComment_other (by decide) (by decide)]
        simp
      by_cases hslash : c = '/'
      · subst hslash
        rw [if_neg (by decide), if_pos rfl, List.cons_append, List.cons_append,
          isComment_other (by decide) (by decide)]
        simp
      rw [if_neg htilde, if_neg hslash, List.singleton_append, List.cons_append]
      by_cases hspace : c = ' '
      · rw [hspace, isComment_space, ih]
        simp
      · rw [isComment_other hspace hslash]
        simp [hspace]

/-- One token, and what follows it. -/
theorem commentsOnly_escapeToken (token rest : Str) :
    CommentsOnly (escapeToken token ++ rest)
      ↔ ('\n' ∈ token →
          (∀ c ∈ (token.dropWhile (· ≠ '\n')).tail, c = ' ') ∧ isComment rest = true)
        ∧ CommentsOnly rest := by
  induction token with
  | nil => simp [escapeToken]
  | cons c token ih =>
      have hescape : escapeToken (c :: token) = escapeToken [c] ++ escapeToken token := by
        simp [escapeToken]
      by_cases hc : c = '\n'
      · -- after the newline, all spaces: then there is no newline in the rest of the token
        subst hc
        have hnewline : escapeToken ('\n' :: token) = '\n' :: escapeToken token := rfl
        rw [hnewline, List.cons_append, commentsOnly_newline, isComment_escapeToken, ih]
        simp only [List.mem_cons, true_or, true_implies, ne_eq, not_true_eq_false, decide_false,
          List.dropWhile_cons, Bool.false_eq_true, if_false, List.tail_cons]
        constructor
        · rintro ⟨⟨hspaces, hrest⟩, -, hcomments⟩
          exact ⟨⟨hspaces, hrest⟩, hcomments⟩
        · rintro ⟨⟨hspaces, hrest⟩, hcomments⟩
          refine ⟨⟨hspaces, hrest⟩, fun hmem => ?_, hcomments⟩
          exact absurd (hspaces _ hmem) (by decide)
      · have hnot : '\n' ∉ escapeToken [c] := by
          unfold escapeToken
          rw [List.flatMap_singleton]
          split
          · decide
          · split
            · decide
            · simpa using Ne.symm hc
        rw [hescape, List.append_assoc, commentsOnly_append hnot, ih]
        simp [hc, Ne.symm hc]

/-- **A pointer in a comment**: the lines it breaks into are comments exactly if its tokens are safe. -/
theorem commentsOnly_renderPointer (tokens : List Str) {suffix : Str} (h : Suffix suffix) :
    CommentsOnly (renderPointer tokens ++ suffix) ↔ SafeTokens tokens := by
  induction tokens with
  | nil =>
      have hnil : renderPointer [] = [] := rfl
      rw [hnil, List.nil_append]
      exact ⟨fun _ => trivial, fun _ => commentsOnly_of_not_mem h.1⟩
  | cons token tokens ih =>
      have hcons : renderPointer (token :: tokens) ++ suffix
          = '/' :: (escapeToken token ++ (renderPointer tokens ++ suffix)) := by
        show '/' :: (escapeToken token ++ renderPointer tokens) ++ suffix = _
        rw [List.cons_append, List.append_assoc]
      rw [hcons, commentsOnly_cons (by decide), commentsOnly_escapeToken, ih,
        isComment_renderPointer tokens h]
      rfl

/-! ## The comments of a diff -/

section Changes

variable {N : Type} [BEq N] {serde : SerdeJson N}

/-- The steps of a path leave the comment it is written into a comment: only spaces follow a newline in a key,
    and the key is followed by an empty key and one more step. -/
def SafePath (steps : List JsonStep) : Prop := SafeTokens (steps.map JsonStep.token)

theorem newline_not_mem_value (hlaws : serde.Laws) (value : Json N) :
    '\n' ∉ diffNodeToJsonPatchValue serde (jsonValueToDiffNode serde value) := by
  have hraw : ∀ raw, '\n' ∉ diffNodeToJsonPatchValue serde (.json raw) := by
    intro raw
    unfold diffNodeToJsonPatchValue
    dsimp only
    split
    · exact hlaws.toString_newline _
    · exact hlaws.toString_newline _
  cases value with
  | null =>
      show '\n' ∉ "null".toList
      decide
  | bool b =>
      show '\n' ∉ if b then "true".toList else "false".toList
      cases b <;> decide
  | number n => exact hlaws.toString_newline _
  | string text => exact hlaws.toString_newline _
  | array items => exact hraw _
  | object members => exact hraw _

omit [BEq N] in
theorem suffix_value {value : Str} (h : '\n' ∉ value) : Suffix (" = ".toList ++ value) := by
  refine ⟨?_, by simp, ?_⟩
  · intro hmem
    rcases List.mem_append.mp hmem with hmem | hmem
    · exact absurd hmem (by decide)
    · exact h hmem
  · show isComment (' ' :: '=' :: (' ' :: value)) = false
    rw [isComment_space, isComment_other (by decide) (by decide)]

omit [BEq N] in
theorem suffix_nil : Suffix [] := ⟨by simp, by simp, rfl⟩

/-- **The comment of one event** is safe exactly if its path is. -/
theorem commentsOnly_event (hlaws : serde.Laws) {steps : List JsonStep} {event : DiffEvent}
    (h : EventAt serde steps event) :
    ∃ operation, jsonPatchOperationFromDiffEvent serde event = some operation
      ∧ (CommentsOnly (operationComment operation) ↔ SafePath steps) := by
  rcases h with ⟨old, rfl⟩ | ⟨node, rfl⟩ | ⟨old, new, rfl⟩
  · refine ⟨.remove (renderPointer (steps.map JsonStep.token)), ?_, ?_⟩
    · simp [jsonPatchOperationFromDiffEvent, deleteEvent, DiffEvent.source,
        jsonPointerFromDiffPath_bodyJson]
    · show CommentsOnly ('\n' :: "            // - remove ".toList ++ _) ↔ _
      rw [commentsOnly_label (by decide) (by decide), SafePath, ← commentsOnly_renderPointer _ suffix_nil,
        List.append_nil]
  · have hsuffix := suffix_value (newline_not_mem_value hlaws node)
    refine ⟨.add (renderPointer (steps.map JsonStep.token))
      (diffNodeToJsonPatchValue serde (jsonValueToDiffNode serde node)), ?_, ?_⟩
    · simp [jsonPatchOperationFromDiffEvent, insertEvent, DiffEvent.source,
        jsonPointerFromDiffPath_bodyJson]
    · show CommentsOnly ('\n' :: "            // - add ".toList ++ _ ++ _ ++ _) ↔ _
      rw [List.append_assoc, List.append_assoc, commentsOnly_label (by decide) (by decide),
        commentsOnly_renderPointer _ hsuffix]
      rfl
  · have hsuffix := suffix_value (newline_not_mem_value hlaws new)
    refine ⟨.replace (renderPointer (steps.map JsonStep.token))
      (diffNodeToJsonPatchValue serde (jsonValueToDiffNode serde new)), ?_, ?_⟩
    · simp [jsonPatchOperationFromDiffEvent, replaceEvent, DiffEvent.source,
        jsonPointerFromDiffPath_bodyJson]
    · show CommentsOnly ('\n' :: "            // - replace ".toList ++ _ ++ _ ++ _) ↔ _
      rw [List.append_assoc, List.append_assoc, commentsOnly_label (by decide) (by decide),
        commentsOnly_renderPointer _ hsuffix]
      rfl

omit [BEq N] in
/-- The lines written around the operations are comments; those of the operations may not be. -/
theorem commentsOnly_writeJsonPatchComments (operations : List GeneratedJsonPatchOperation) :
    CommentsOnly (writeJsonPatchComments serde operations)
      ↔ ∀ operation ∈ operations, CommentsOnly (operationComment operation) := by
  have hstarts : ∀ text : Str, StartsLine ('\n' :: text) :=
    fun text c hc => (Option.mem_some.mp hc).symm
  obtain ⟨hoperations, hoperationsOnly⟩ := commentsOnly_flatMap operations
    (show ∀ operation, StartsLine (operationComment operation) by
      intro operation
      cases operation <;> exact hstarts _)
  obtain ⟨hlines, hlinesOnly⟩ := commentsOnly_flatMap
    (Text.lines (jsonPatchOperationsToRfc6902Json serde operations))
    (show ∀ line : Str, StartsLine ("\n            // ".toList ++ line) from fun line => hstarts _)
  have hlabel : ∀ label : Str, isComment label = true → '\n' ∉ label → CommentsOnly ('\n' :: label) := by
    intro label hcomment hnot
    have happend := commentsOnly_label hcomment hnot []
    rw [List.append_nil] at happend
    exact happend.mpr commentsOnly_nil
  have hpatch : StartsLine "\n            // RFC6902 JSON Patch:".toList := hstarts _
  unfold writeJsonPatchComments
  rw [commentsOnly_append_startsLine _ hlines, hlinesOnly, commentsOnly_append_startsLine _ hpatch,
    commentsOnly_append_startsLine _ hoperations, hoperationsOnly]
  constructor
  · rintro ⟨⟨⟨-, h⟩, -⟩, -⟩
    exact h
  · intro h
    refine ⟨⟨⟨hlabel _ (by decide) (by decide), h⟩, hlabel _ (by decide) (by decide)⟩, ?_⟩
    intro line hmem
    refine (commentsOnly_label (by decide) (by decide) line).mpr ?_
    exact commentsOnly_of_not_mem (Text.newline_not_mem_lines hmem)

/-- **When the comments of a diff are comments**: exactly if the path of every change is safe. -/
theorem commentsOnly_iff_safePath (hlaws : serde.Laws) {original edited : Json N}
    (horiginal : original.WellFormed) (hedited : edited.WellFormed) :
    CommentsOnly (writeJsonPatchComments serde (jsonDiffOperations serde original edited))
      ↔ ∀ steps, ChangedAt original edited steps → SafePath steps := by
  rw [commentsOnly_writeJsonPatchComments]
  constructor
  · intro h steps hchanged
    obtain ⟨event, hmem, hevent⟩ := @exists_event_of_changedAt N _ serde _ _ horiginal _ hchanged []
    obtain ⟨operation, hoperation, hsafe⟩ := commentsOnly_event hlaws hevent
    exact hsafe.mp (h operation (List.mem_filterMap.mpr ⟨event, hmem, hoperation⟩))
  · intro h operation hmem
    obtain ⟨event, hmem, hoperation⟩ := List.mem_filterMap.mp hmem
    obtain ⟨steps, hchanged, hevent⟩ :=
      @changedAt_of_mem_diffJsonValue N _ serde _ _ horiginal hedited [] _ hmem
    obtain ⟨operation', hoperation', hsafe⟩ := commentsOnly_event hlaws hevent.eventAt
    rw [hoperation] at hoperation'
    cases hoperation'
    exact hsafe.mpr (h steps hchanged)

/-- An object nested in an object below one key each. -/
def nested (key key' key'' : Str) (n : Int) : Json Int :=
  .object [(key, .object [(key', .object [(key'', .number n)])])]

theorem nested_wellFormed (key key' key'' : Str) (n : Int) : (nested key key' key'' n).WellFormed := by
  have hsingle : ∀ (key : Str) {value : Json Int}, value.WellFormed → (Json.object [(key, value)]).WellFormed :=
    fun key value h => Json.WellFormed.object (by simp [Members.Keys]) (by simpa using h)
  exact hsingle key (hsingle key' (hsingle key'' (Json.WellFormed.number n)))

/-- A newline before an empty key does no harm: the slashes of the pointer start the next comment. -/
theorem commentsOnly_newline_then_empty_key :
    JsonCodec.codec.Laws ∧ ∀ steps, ChangedAt (nested "\n".toList [] "x".toList 1)
      (nested "\n".toList [] "x".toList 2) steps → SafePath steps :=
  ⟨JsonCodec.codec_laws, (commentsOnly_iff_safePath JsonCodec.codec_laws (nested_wellFormed _ _ _ _)
    (nested_wellFormed _ _ _ _)).mp (by decide +kernel)⟩

/-- A newline in a key takes the rest of the key out of the comment: of `// - replace /` and `.drop() = 2`, the
    second is code. -/
theorem newline_key_breaks_comment :
    ¬ CommentsOnly (writeJsonPatchComments JsonCodec.codec (jsonDiffOperations JsonCodec.codec
      (.object [("\n.drop()".toList, .number 1)]) (.object [("\n.drop()".toList, .number 2)]))) := by
  decide +kernel

end Changes

end Inspect.Filters
