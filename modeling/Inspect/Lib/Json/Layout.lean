import Inspect.Lib.Json.Codec

/-!
# `Lib.Json.Layout` — the layout of printed JSON

A printer also promises how its text looks: `StandardLayout` says so for objects of texts and of lists of texts, the
JSON that header maps are written as. The texts are those of `JsonCodec.print`, and a parser reads them with any white
space between the tokens. Two layouts of a value differ in their white space only (`print_ofFields_rel`); whatever is
said about a printed text, piece by piece, follows from that.
-/

namespace Inspect

variable {N : Type}

namespace Json

/-- A text, or the list of several. -/
def ofTexts : List Str → Json N
  | [text] => .string text
  | texts => .array (texts.map .string)

/-- An object of texts and lists of texts. -/
def ofFields (fields : List (Str × List Str)) : Json N :=
  .object (fields.map fun field => (field.1, ofTexts field.2))

theorem wellFormed_ofTexts (texts : List Str) : (ofTexts texts : Json N).WellFormed := by
  have harray : ∀ texts : List Str, (Json.array (texts.map .string) : Json N).WellFormed := by
    intro texts
    refine .array ?_
    intro item hitem
    obtain ⟨text, -, rfl⟩ := List.mem_map.mp hitem
    exact .string text
  match texts with
  | [] => exact harray []
  | [text] => exact .string text
  | text :: text' :: texts => exact harray _

theorem wellFormed_ofFields {fields : List (Str × List Str)} (hkeys : (Members.Keys fields).Nodup) :
    (ofFields fields : Json N).WellFormed := by
  refine .object ?_ ?_
  · rw [Members.Keys, List.map_map]
    exact hkeys
  · intro member hmember
    obtain ⟨field, -, rfl⟩ := List.mem_map.mp hmember
    exact wellFormed_ofTexts field.2

theorem depth_ofTexts_le (texts : List Str) : (ofTexts texts : Json N).depth ≤ 1 := by
  have harray : ∀ texts : List Str, (Json.array (texts.map .string) : Json N).depth ≤ 1 := by
    intro texts
    refine depth_array_le_iff.mpr ?_
    intro item hitem
    obtain ⟨text, -, rfl⟩ := List.mem_map.mp hitem
    exact Nat.le_refl 0
  match texts with
  | [] => exact harray []
  | [text] => exact Nat.zero_le 1
  | text :: text' :: texts => exact harray _

theorem depth_ofFields_le (fields : List (Str × List Str)) : (ofFields fields : Json N).depth ≤ 2 := by
  refine depth_object_le_iff.mpr ?_
  intro member hmember
  obtain ⟨field, -, rfl⟩ := List.mem_map.mp hmember
  exact depth_ofTexts_le field.2

theorem numbers_ofTexts (texts : List Str) : (ofTexts texts : Json N).numbers = [] := by
  rw [List.eq_nil_iff_forall_not_mem]
  intro n hn
  cases texts with
  | nil => cases hn
  | cons text texts =>
      cases texts with
      | nil => cases hn
      | cons text' texts =>
          obtain ⟨item, hitem, hn⟩ := mem_numbersItems.mp hn
          obtain ⟨text, -, rfl⟩ := List.mem_map.mp hitem
          cases hn

/-- There are no numbers in fields. -/
theorem numbers_ofFields (fields : List (Str × List Str)) : (ofFields fields : Json N).numbers = [] := by
  rw [List.eq_nil_iff_forall_not_mem]
  intro n hn
  obtain ⟨member, hmember, hn⟩ := mem_numbersMembers.mp hn
  obtain ⟨field, -, rfl⟩ := List.mem_map.mp hmember
  rw [numbers_ofTexts] at hn
  cases hn

end Json

/-- A text without control characters, except for tabs. -/
def PlainText (text : Str) : Prop := ∀ c ∈ text, 32 ≤ c.toNat ∨ c = '\t'

/-- Fields whose keys and texts are plain. -/
def PlainFields (fields : List (Str × List Str)) : Prop :=
  ∀ field ∈ fields, PlainText field.1 ∧ ∀ text ∈ field.2, PlainText text

/-- How a printer writes texts, and that a parser reads them with any white space. -/
structure SerdeJson.StandardLayout (serde : SerdeJson N) : Prop where
  toString_texts : ∀ {texts : List Str}, (∀ text ∈ texts, PlainText text) →
    serde.toString (Json.ofTexts texts) = JsonCodec.toString (Json.ofTexts texts)
  toString_fields : ∀ {fields : List (Str × List Str)}, PlainFields fields →
    serde.toString (Json.ofFields fields) = JsonCodec.toString (Json.ofFields fields)
  toStringPretty_fields : ∀ {fields : List (Str × List Str)}, PlainFields fields →
    serde.toStringPretty (Json.ofFields fields) = JsonCodec.toStringPretty (Json.ofFields fields)
  fromStr_fields : ∀ {fields : List (Str × List Str)} {ws : Nat → Str} {sep : Str}, PlainFields fields →
    (Members.Keys fields).Nodup → (∀ depth, ∀ c ∈ ws depth, JsonCodec.isWs c = true) →
    (∀ c ∈ sep, JsonCodec.isWs c = true) →
    serde.fromStr (JsonCodec.print ws sep 0 (Json.ofFields fields)) = some (Json.ofFields fields)

namespace JsonCodec

/-- The codec has the layout. -/
theorem codec_standardLayout : codec.StandardLayout where
  toString_texts _ := rfl
  toString_fields _ := rfl
  toStringPretty_fields _ := rfl
  fromStr_fields _ hkeys hws hsep := fromStr_print hws hsep (Json.wellFormed_ofFields hkeys)

/-! ## Two layouts of a value -/

section Layouts

variable {ws ws' : Nat → Str} {sep sep' : Str} {R : Str → Str → Prop}

/-- What is needed of a relation between two texts to hold of two layouts: it holds of the same tokens and of the
    white space, and texts can be appended. -/
structure LayoutRel (R : Str → Str → Prop) (ws ws' : Nat → Str) (sep sep' : Str) : Prop where
  nil : R [] []
  append : ∀ {front front' rest rest'}, R front front' → R rest rest' → R (front ++ rest) (front' ++ rest')
  quote : ∀ text, R (quote text) (quote text)
  punctuation : ∀ c ∈ ['[', ']', ',', ':'], R [c] [c]
  white : ∀ depth, R (ws depth) (ws' depth)
  separator : R sep sep'

namespace LayoutRel

variable (h : LayoutRel R ws ws' sep sep')

include h

/-- One token in front. -/
theorem cons {c : Char} (hc : c ∈ ['[', ']', ',', ':']) {rest rest' : Str} (hrest : R rest rest') :
    R (c :: rest) (c :: rest') :=
  h.append (h.punctuation c hc) hrest

theorem printItems_texts (depth : Nat) (texts : List Str) :
    R (printItems ws sep depth (texts.map .string)) (printItems ws' sep' depth (texts.map .string)) := by
  induction texts with
  | nil => exact h.nil
  | cons text texts ih =>
      exact h.cons (by simp) (h.append (h.white depth) (h.append (h.quote text) ih))

theorem print_ofTexts (depth : Nat) (texts : List Str) :
    R (print ws sep depth (Json.ofTexts texts)) (print ws' sep' depth (Json.ofTexts texts)) := by
  have harray : ∀ texts : List Str,
      R (print ws sep depth (.array (texts.map .string))) (print ws' sep' depth (.array (texts.map .string))) := by
    intro texts
    cases texts with
    | nil => exact h.cons (by simp) (h.punctuation ']' (by simp))
    | cons text texts =>
        exact h.cons (by simp) (h.append (h.white _) (h.append (h.quote text)
          (h.append (h.printItems_texts _ texts) (h.append (h.white depth) (h.punctuation ']' (by simp))))))
  match texts with
  | [] => exact harray []
  | [text] => exact h.quote text
  | text :: text' :: texts => exact harray _

theorem printMembers_fields (depth : Nat) (fields : List (Str × List Str)) :
    R (printMembers ws sep depth (fields.map fun field => (field.1, Json.ofTexts field.2)))
      (printMembers ws' sep' depth (fields.map fun field => (field.1, Json.ofTexts field.2))) := by
  induction fields with
  | nil => exact h.nil
  | cons field fields ih =>
      exact h.cons (by simp) (h.append (h.white depth) (h.append (h.quote field.1) (h.cons (by simp)
        (h.append h.separator (h.append (h.print_ofTexts depth field.2) ih)))))

/-- **Two layouts of an object are related between their braces.** -/
theorem print_ofFields (fields : List (Str × List Str)) :
    ∃ inner inner', R inner inner'
      ∧ print ws sep 0 (Json.ofFields fields) = '{' :: (inner ++ ['}'])
      ∧ print ws' sep' 0 (Json.ofFields fields) = '{' :: (inner' ++ ['}']) := by
  cases fields with
  | nil => exact ⟨[], [], h.nil, rfl, rfl⟩
  | cons field fields =>
      refine ⟨_, _, h.append (h.white 1) (h.append (h.quote field.1) (h.cons (c := ':') (by simp)
        (h.append h.separator (h.append (h.print_ofTexts 1 field.2)
          (h.append (h.printMembers_fields 1 fields) (h.white 0)))))), ?_, ?_⟩
      · show '{' :: _ = _
        simp only [List.append_assoc, List.cons_append]
      · show '{' :: _ = _
        simp only [List.append_assoc, List.cons_append]

end LayoutRel

end Layouts

end JsonCodec

end Inspect
