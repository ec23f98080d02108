import Inspect.Filters.Correctness.JsonDiff

/-!
# `Filters.Correctness.JsonPatchValidation` — when a patch validates

A value that comes into a body is printed and read several times until the patched body is compared with the edited
one: for the operation (`patchRounds`), in the patch document and in the patched body; what stays in place is printed
and read once, in the patched body. `Misses` says when something is lost on these ways, and `validate_diff_iff` that
the patch does not validate exactly then.
-/

namespace Inspect.Filters

open Rfc6902

variable {N : Type} {serde : SerdeJson N}

/-! ## The way of a value into the patch -/

/-- How many times a value is printed and read before it is in an operation. A container is read into the event once
    more. -/
def patchRounds : Json N → Nat
  | .array _ | .object _ => 2
  | _ => 1

variable [BEq N] {limit : Nat} {value : Json N}

/-- **What a value is in the operation**: what it was, its numbers read a few times over, or else its text. -/
theorem readBack_eq (hlaws : serde.Laws) (hlimit : serde.RecursionLimit limit) (hwf : value.WellFormed)
    (hdepth : value.depth ≤ limit) :
    ∃ text, readBack serde value = (value.mapNumbers (serde.reread (patchRounds value))).getD (.string text) := by
  have hread := hlimit.fromStr_toString hwf hdepth
  have hcontainer : ∃ text, parseJsonPatchValue serde (diffNodeToJsonPatchValue serde (.json (serde.toString value)))
      = (value.mapNumbers (serde.reread 2)).getD (.string text) := by
    have hraw : diffNodeToJsonPatchValue serde (.json (serde.toString value))
        = serde.toString ((value.mapNumbers (serde.reread 1)).getD (.string (serde.toString value))) := by
      unfold diffNodeToJsonPatchValue
      dsimp only
      rw [hread]
      cases value.mapNumbers (serde.reread 1) <;> rfl
    rw [← SerdeJson.mapNumbers_reread_succ, hraw, parseJsonPatchValue]
    cases hvalue : value.mapNumbers (serde.reread 1) with
    | none =>
        rw [Option.getD_none, hlimit.toString_of_numbers (.string _) (Nat.zero_le _) rfl]
        exact ⟨serde.toString value, rfl⟩
    | some read =>
        rw [Option.getD_some, hlimit.fromStr_toString (Json.wellFormed_mapNumbers hwf hvalue)
          ((Json.depth_mapNumbers hvalue).trans_le hdepth)]
        exact ⟨serde.toString read, rfl⟩
  cases value with
  | null => exact ⟨[], readBack_eq_self hlaws hread⟩
  | bool b => exact ⟨[], readBack_eq_self hlaws hread⟩
  | string text => exact ⟨[], readBack_eq_self hlaws hread⟩
  | number n => exact ⟨serde.toString (.number n), congrArg (Option.getD · _) hread⟩
  | array items => exact hcontainer
  | object members => exact hcontainer

/-! ## The way into the patched body -/

/-- What a value of an operation is in the patch document, when that is read. -/
def inDocument (serde : SerdeJson N) (value : Json N) : Option (Json N) :=
  (readBack serde value).mapNumbers (serde.reread 1)

/-- What a value is when it is put into the body. -/
def arrived (serde : SerdeJson N) (value : Json N) : Json N := (inDocument serde value).getD value

theorem arrived_wellFormed (hlaws : serde.Laws) (hwf : value.WellFormed) : (arrived serde value).WellFormed := by
  unfold arrived
  cases hdocument : inDocument serde value with
  | none => exact hwf
  | some arrived => exact Json.wellFormed_mapNumbers (parseJsonPatchValue_wellFormed hlaws _) hdocument

/-- The comparison of a number in the patched body, when that is read, with one of the edited body. -/
def readsAs (serde : SerdeJson N) (n m : N) : Bool := (serde.reread 1 n).any (· == m)

/-- **A value that comes in arrives** if none of its numbers drifts on the way. -/
theorem inDocument_arrives_iff (hlaws : serde.Laws) (hlimit : serde.RecursionLimit limit) (hwf : value.WellFormed)
    (hdepth : value.depth ≤ limit) :
    ((inDocument serde value).isSome ∧ (arrived serde value).beqBy (readsAs serde) value = true)
      ↔ ∀ n ∈ value.numbers, ¬ serde.Drifts (patchRounds value + 2) n n := by
  have hnumbers : (∀ n ∈ value.numbers, ¬ serde.Drifts (patchRounds value + 2) n n)
      ↔ ∃ read, value.mapNumbers (serde.reread (patchRounds value + 2)) = some read ∧ read.beq value = true := by
    rw [Json.beq_mapNumbers_iff, Json.beqBy_self_iff hwf]
    simp only [SerdeJson.Drifts, Bool.not_eq_false]
  obtain ⟨text, hoperation⟩ := readBack_eq hlaws hlimit hwf hdepth
  rw [hnumbers, ← SerdeJson.mapNumbers_reread_succ, ← SerdeJson.mapNumbers_reread_succ, arrived, inDocument, hoperation]
  cases hread : value.mapNumbers (serde.reread (patchRounds value)) with
  | none =>
      -- a value with a number that cannot be read is there as a text, which it is not
      refine iff_of_false ?_ (by simp)
      rintro ⟨-, htext⟩
      cases value <;> first | cases hread | cases htext
  | some read =>
      rw [Option.getD_some, Option.bind_some]
      cases hdocument : read.mapNumbers (serde.reread 1) with
      | none => simp
      | some arrived =>
          rw [Option.getD_some, Option.bind_some, Json.beq_mapNumbers_iff]
          exact and_iff_right rfl

/-- A value none of whose numbers drifts lies in the operation as deep as it is. -/
theorem depth_readBack (hlaws : serde.Laws) (hlimit : serde.RecursionLimit limit) (hwf : value.WellFormed)
    (hdepth : value.depth ≤ limit) (h : ∀ n ∈ value.numbers, ¬ serde.Drifts (patchRounds value + 2) n n) :
    (readBack serde value).depth = value.depth := by
  obtain ⟨text, hoperation⟩ := readBack_eq hlaws hlimit hwf hdepth
  have hsome : (value.mapNumbers (serde.reread (patchRounds value))).isSome := by
    refine Json.isSome_mapNumbers_iff.mpr fun n hn => ?_
    by_contra hnone
    refine h n hn ?_
    rw [SerdeJson.Drifts, SerdeJson.reread_succ, SerdeJson.reread_succ, Option.not_isSome_iff_eq_none.mp hnone]
    rfl
  obtain ⟨read, hread⟩ := Option.isSome_iff_exists.mp hsome
  rw [hoperation, hread]
  exact Json.depth_mapNumbers hread

/-! ## Validation -/

/-- Something is lost between two bodies and the patched body: an array loses two items or more; a value comes in that
    is nested too deep for the patch document, where it lies two levels deeper; a value comes in of which a number is
    another one after it was printed and read for the operation, in the document and in the patched body; or a number
    that stays in place is another one after it was printed and read in the patched body. -/
def Misses (serde : SerdeJson N) (limit : Nat) (original edited : Json N) : Prop :=
  Shrinks original edited
    ∨ BringsIn (fun value => limit < value.depth + 2) original edited
    ∨ BringsIn (fun value => ∃ n ∈ value.numbers, serde.Drifts (patchRounds value + 2) n n) original edited
    ∨ Keeps (serde.Drifts 1) original edited

/-- A patch validates if it gives a body that is read as the edited one. -/
theorem validateJsonPatchOperations_iff {original edited : Str} {operations : List GeneratedJsonPatchOperation} :
    validateJsonPatchOperations serde original edited operations = true
      ↔ ∃ patched value value',
        applyJsonPatchRfc6902Json serde original (jsonPatchOperationsToRfc6902Json serde operations) = some patched
          ∧ serde.fromStr patched = some value ∧ serde.fromStr edited = some value' ∧ value.beq value' = true := by
  unfold validateJsonPatchOperations
  cases applyJsonPatchRfc6902Json serde original (jsonPatchOperationsToRfc6902Json serde operations) with
  | none => simp
  | some patched =>
      dsimp only
      cases hvalue : serde.fromStr patched with
      | none => simp [hvalue]
      | some value => cases hvalue' : serde.fromStr edited <;> simp [hvalue]

section Validate

variable {original edited : Str} {originalJson editedJson : Json N}
  (hlaws : serde.Laws) (hlimit : serde.RecursionLimit limit)
  (horiginal : serde.fromStr original = some originalJson) (hedited : serde.fromStr edited = some editedJson)

include hlaws hlimit horiginal hedited

/-- What a patch carries is a part of the edited body, which was read. -/
theorem patchOf_read : ∀ operation ∈ patchOf originalJson editedJson, ∀ value ∈ operation.value?,
    value.WellFormed ∧ value.depth ≤ limit :=
  patchOf_values (fun _ h item hitem => ⟨h.1.items item hitem, (Json.depth_item_lt hitem).le.trans h.2⟩)
    (fun _ h member hmember => ⟨h.1.members member hmember, (Json.depth_member_lt hmember).le.trans h.2⟩)
    (hlaws.fromStr_wellFormed horiginal) ⟨hlaws.fromStr_wellFormed hedited, hlimit.fromStr_depth hedited⟩

omit horiginal hedited in
/-- The document is read as the patch with its values as they are read, if it is not nested too deep. -/
theorem readDocument (originalJson editedJson : Json N) :
    (serde.fromStr (serde.toStringPretty (patchDocument serde originalJson editedJson))).bind decodePatch
      = if (patchDocument serde originalJson editedJson).depth ≤ limit
        then (patchOf originalJson editedJson).mapM (Operation.mapValueM (inDocument serde)) else none := by
  have hwf := patchDocument_wellFormed hlaws originalJson editedJson
  split_ifs with hdepth
  · rw [hlimit.fromStr_toStringPretty hwf hdepth]
    exact decodePatch_mapNumbers (serde.reread 1) originalJson editedJson
  · rw [hlimit.fromStr_toStringPretty_deep hwf (not_le.mp hdepth)]
    rfl

/-- Everything can be read and arrives if nothing drifts. -/
theorem arrives_iff_not_drifts :
    (∀ operation ∈ patchOf originalJson editedJson, ∀ value ∈ operation.value?, (inDocument serde value).isSome)
        ∧ Arrives (arrived serde) (readsAs serde) originalJson editedJson
      ↔ ¬ BringsIn (fun value => ∃ n ∈ value.numbers, serde.Drifts (patchRounds value + 2) n n) originalJson editedJson
        ∧ ¬ Keeps (serde.Drifts 1) originalJson editedJson := by
  have hwf := hlaws.fromStr_wellFormed horiginal
  have hread := patchOf_read hlaws hlimit horiginal hedited
  have hvalue : ∀ operation ∈ patchOf originalJson editedJson, ∀ value ∈ operation.value?,
      ((inDocument serde value).isSome ∧ (arrived serde value).beqBy (readsAs serde) value = true)
        ↔ ¬ ∃ n ∈ value.numbers, serde.Drifts (patchRounds value + 2) n n := by
    intro operation hmem value hvalue
    obtain ⟨hvalueWf, hdepth⟩ := hread operation hmem value hvalue
    rw [inDocument_arrives_iff hlaws hlimit hvalueWf hdepth]
    push Not
    rfl
  rw [not_bringsIn_iff hwf]
  constructor
  · rintro ⟨hall, harrives⟩
    refine ⟨fun operation hmem value hmem' => (hvalue operation hmem value hmem').mp ⟨hall _ hmem _ hmem', ?_⟩,
      harrives.kept⟩
    rw [← Bool.not_eq_false]
    exact (not_bringsIn_iff hwf).mp harrives.brought operation hmem value hmem'
  · rintro ⟨hdrifts, hkept⟩
    have harrives := fun operation hmem value hmem' =>
      (hvalue operation hmem value hmem').mpr (hdrifts operation hmem value hmem')
    refine ⟨fun operation hmem value hmem' => (harrives operation hmem value hmem').1, hkept, ?_⟩
    rw [not_bringsIn_iff hwf]
    intro operation hmem value hmem'
    rw [Bool.not_eq_false]
    exact (harrives operation hmem value hmem').2

/-- Where nothing drifts, the document is too deep if a value comes in that is. -/
theorem depth_patchDocument_iff (htwo : 2 ≤ limit)
    (h : ¬ BringsIn (fun value => ∃ n ∈ value.numbers, serde.Drifts (patchRounds value + 2) n n) originalJson
      editedJson) :
    (patchDocument serde originalJson editedJson).depth ≤ limit
      ↔ ¬ BringsIn (fun value => limit < value.depth + 2) originalJson editedJson := by
  have hwf := hlaws.fromStr_wellFormed horiginal
  rw [not_bringsIn_iff hwf] at h
  rw [depth_patchDocument_le_iff htwo, not_bringsIn_iff hwf]
  refine forall₂_congr fun operation hmem => forall₂_congr fun value hvalue => ?_
  obtain ⟨hvalueWf, hdepth⟩ := patchOf_read hlaws hlimit horiginal hedited operation hmem value hvalue
  rw [depth_readBack hlaws hlimit hvalueWf hdepth fun n hn hdrifts => h operation hmem value hvalue ⟨n, hn, hdrifts⟩,
    not_lt]

omit hlaws horiginal in
/-- The patched body is read as the edited one if its numbers are read so. -/
theorem readPatched_iff {patched : Json N} (hwf : patched.WellFormed) :
    (∃ value, serde.fromStr (serde.toString patched) = some value ∧ value.beq editedJson = true)
      ↔ patched.beqBy (readsAs serde) editedJson = true := by
  by_cases hdepth : patched.depth ≤ limit
  · rw [hlimit.fromStr_toString hwf hdepth]
    exact Json.beq_mapNumbers_iff
  · rw [hlimit.fromStr_toString_deep hwf (not_le.mp hdepth)]
    refine iff_of_false (by simp) fun h => hdepth ?_
    exact (Json.depth_le_of_beqBy h).trans (hlimit.fromStr_depth hedited)

/-- **A patch validates on exactly the bodies of which it misses nothing.** -/
theorem validate_diff_iff (htwo : 2 ≤ limit) :
    validateJsonPatchOperations serde original edited (jsonDiffOperations serde originalJson editedJson) = true
      ↔ ¬ Misses serde limit originalJson editedJson := by
  have hpatched : Patched (arrived serde) (readsAs serde) originalJson editedJson
      (applyAll (arriving (arrived serde) (patchOf originalJson editedJson)) originalJson) :=
    patched_patchOf (fun _ => arrived_wellFormed hlaws) (hlaws.fromStr_wellFormed horiginal)
      (hlaws.fromStr_wellFormed hedited)
  have harrives := arrives_iff_not_drifts hlaws hlimit horiginal hedited
  rw [Misses, not_or, not_or, not_or, validateJsonPatchOperations_iff, applyJsonPatch_diff, horiginal, Option.bind_some,
    readDocument hlaws hlimit]
  constructor
  · rintro ⟨text, value, value', happly, hvalue, hvalue', hbeq⟩
    cases hedited.symm.trans hvalue'
    obtain ⟨patch, hpatch, happly⟩ := Option.bind_eq_some_iff.mp happly
    obtain ⟨patched, hresult, rfl⟩ := Option.map_eq_some_iff.mp happly
    split_ifs at hpatch with hdepth
    obtain ⟨hall, rfl⟩ := mapM_mapValueM_eq_some_iff.mp hpatch
    rcases hpatched.cases with ⟨-, hnone⟩ | ⟨hnot, found, hfound, hwf, hequal⟩
    · cases hnone.symm.trans hresult
    · cases hfound.symm.trans hresult
      have hread := (readPatched_iff hlimit hedited hwf).mp ⟨value, hvalue, hbeq⟩
      obtain ⟨hdrifts, hkept⟩ := harrives.mp ⟨hall, hequal.mp hread⟩
      exact ⟨hnot, (depth_patchDocument_iff hlaws hlimit horiginal hedited htwo hdrifts).mp hdepth, hdrifts, hkept⟩
  · rintro ⟨hnot, hdeep, hdrifts, hkept⟩
    obtain ⟨hall, hequal⟩ := harrives.mpr ⟨hdrifts, hkept⟩
    obtain ⟨patched, hresult, hwf, hiff⟩ := hpatched.2 hnot
    obtain ⟨value, hvalue, hbeq⟩ := (readPatched_iff hlimit hedited hwf).mpr (hiff.mpr hequal)
    refine ⟨serde.toString patched, value, editedJson, ?_, hvalue, hedited, hbeq⟩
    rw [if_pos ((depth_patchDocument_iff hlaws hlimit horiginal hedited htwo hdrifts).mpr hdeep),
      mapM_mapValueM_eq_some_iff.mpr ⟨hall, rfl⟩, Option.bind_some]
    exact congrArg (Option.map serde.toString) hresult

end Validate

end Inspect.Filters
