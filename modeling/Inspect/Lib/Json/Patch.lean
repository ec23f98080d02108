import Inspect.Lib.Json.Value
import Inspect.Lib.Sorting

/-!
# `Lib.Json.Patch` — JSON Pointer and JSON Patch

RFC 6901 pointers and RFC 6902 patches. A pointer is parsed into its reference tokens; an operation acts on
the value its tokens lead to. Every operation of interest is a `modifyAt`: walk down the tokens, replace the
value found there by a function of it, and rebuild the containers on the way up. `modifyAt_append` and
`applyAll_under_member` / `applyAll_under_item` say how operations below one member or item act on the
container, so that a patch can be followed through a document level by level.
-/

namespace Inspect.Rfc6902

/-! ## Pointers -/

/-- Escape one reference token: `~` as `~0`, `/` as `~1`. -/
def escapeToken (token : Str) : Str :=
  token.flatMap fun c => if c = '~' then ['~', '0'] else if c = '/' then ['~', '1'] else [c]

/-- Undo `escapeToken`. A `~` that starts no escape is an error. -/
def unescapeToken : Str → Option Str
  | [] => some []
  | '~' :: '0' :: rest => (unescapeToken rest).map ('~' :: ·)
  | '~' :: '1' :: rest => (unescapeToken rest).map ('/' :: ·)
  | '~' :: _ => none
  | c :: rest => (unescapeToken rest).map (c :: ·)

/-- The text of a pointer. -/
def renderPointer (tokens : List Str) : Str :=
  tokens.flatMap fun token => '/' :: escapeToken token

/-- The reference tokens of a pointer: none for the empty text, else one after every `/`. -/
def parsePointer : Str → Option (List Str)
  | [] => some []
  | '/' :: rest => (rest.splitOn '/').mapM unescapeToken
  | _ :: _ => none

/-- An array index: decimal digits without a leading zero. -/
def parseIndex (token : Str) : Option Nat :=
  if token = ['0'] then some 0
  else if token = [] ∨ token.head? = some '0' ∨ token.all Char.isDigit = false then none
  else some (Nat.ofDigitChars 10 token 0)

theorem unescapeToken_escapeToken (token : Str) : unescapeToken (escapeToken token) = some token := by
  induction token with
  | nil => rfl
  | cons c token ih =>
      unfold escapeToken at ih ⊢
      rw [List.flatMap_cons]
      by_cases htilde : c = '~'
      · subst htilde
        simp [unescapeToken, ih]
      by_cases hslash : c = '/'
      · subst hslash
        simp [unescapeToken, ih]
      · rw [if_neg htilde, if_neg hslash, List.singleton_append, unescapeToken]
        · rw [ih]; rfl
        · intro rest hc
          exact absurd hc htilde
        · intro rest hc
          exact absurd hc htilde
        · exact htilde

theorem slash_not_mem_escapeToken (token : Str) : '/' ∉ escapeToken token := by
  unfold escapeToken
  rw [List.mem_flatMap]
  rintro ⟨c, -, hmem⟩
  split at hmem
  · simp at hmem
  · split at hmem
    · simp at hmem
    · rename_i hslash
      exact hslash (List.mem_singleton.mp hmem).symm

/-- The rendered tokens after the first, split at the slashes. -/
theorem splitOn_renderPointer (token : Str) (tokens : List Str) :
    (escapeToken token ++ renderPointer tokens).splitOn '/' = (token :: tokens).map escapeToken := by
  induction tokens generalizing token with
  | nil =>
      rw [renderPointer, List.flatMap_nil, List.append_nil,
        List.splitOn_eq_singleton (slash_not_mem_escapeToken token)]
      rfl
  | cons next tokens ih =>
      have hrender : renderPointer (next :: tokens) = '/' :: (escapeToken next ++ renderPointer tokens) := rfl
      rw [hrender, List.splitOn_append_cons_self_of_not_mem (slash_not_mem_escapeToken token), ih next]
      rfl

/-- **Pointers are faithful**: parsing a rendered pointer gives its tokens back. -/
theorem parsePointer_renderPointer (tokens : List Str) :
    parsePointer (renderPointer tokens) = some tokens := by
  cases tokens with
  | nil => rfl
  | cons token tokens =>
      have hrender : renderPointer (token :: tokens) = '/' :: (escapeToken token ++ renderPointer tokens) := rfl
      rw [hrender, parsePointer, splitOn_renderPointer]
      generalize token :: tokens = all
      induction all with
      | nil => rfl
      | cons token all ih =>
          rw [List.map_cons, List.mapM_cons, unescapeToken_escapeToken, ih]
          rfl

/-! ### Decoding by replacement -/

/-- A reference token as RFC 6901 has it decoded: first every `~1` becomes a `/`, then every `~0` a `~`. -/
def decodeToken (token : Str) : Str :=
  Text.replaceAll "~0".toList ['~'] 0 (Text.replaceAll "~1".toList ['/'] 0 token)

/-- The decoded reference tokens of a pointer. -/
def decodePointer : Str → Option (List Str)
  | [] => some []
  | '/' :: rest => some ((rest.splitOn '/').map decodeToken)
  | _ :: _ => none

/-- An escape is at the front, or the character in front stays. -/
theorem replaceAll_escape (digit : Char) (new rest : Str) :
    Text.replaceAll ['~', digit] new 0 ('~' :: digit :: rest) = new ++ Text.replaceAll ['~', digit] new 0 rest := by
  rw [Text.replaceAll, if_pos (by simp)]
  rfl

theorem replaceAll_other {digit c : Char} (hc : c ≠ '~') (new rest : Str) :
    Text.replaceAll ['~', digit] new 0 (c :: rest) = c :: Text.replaceAll ['~', digit] new 0 rest := by
  rw [Text.replaceAll, if_neg]
  simpa using fun heq => absurd heq.symm hc

/-- The second replacement takes back the first escape. -/
theorem replaceAll_tilde (token : Str) :
    Text.replaceAll "~0".toList ['~'] 0 (Text.replaceChar '~' "~0".toList token) = token := by
  induction token with
  | nil => rfl
  | cons c token ih =>
      unfold Text.replaceChar at ih ⊢
      rw [List.flatMap_cons]
      by_cases htilde : c = '~'
      · subst htilde
        exact (replaceAll_escape '0' ['~'] _).trans (congrArg _ ih)
      · rw [if_neg htilde]
        exact (replaceAll_other htilde ['~'] _).trans (congrArg _ ih)

/-- The first replacement takes back the second escape: no other `~` is followed by a `1`. -/
theorem replaceAll_slash (token : Str) :
    Text.replaceAll "~1".toList ['/'] 0 (escapeToken token) = Text.replaceChar '~' "~0".toList token := by
  induction token with
  | nil => rfl
  | cons c token ih =>
      unfold escapeToken Text.replaceChar at ih ⊢
      rw [List.flatMap_cons, List.flatMap_cons]
      by_cases htilde : c = '~'
      · subst htilde
        have hskip : ∀ rest, Text.replaceAll "~1".toList ['/'] 0 ('~' :: '0' :: rest)
            = '~' :: Text.replaceAll "~1".toList ['/'] 0 ('0' :: rest) := by
          intro rest
          rw [Text.replaceAll, if_neg (by simp)]
        exact (hskip _).trans (congrArg _ ((replaceAll_other (by decide) ['/'] _).trans (congrArg _ ih)))
      rw [if_neg htilde, if_neg htilde]
      by_cases hslash : c = '/'
      · subst hslash
        exact (replaceAll_escape '1' ['/'] _).trans (congrArg _ ih)
      · rw [if_neg hslash]
        exact (replaceAll_other htilde ['/'] _).trans (congrArg _ ih)

theorem decodeToken_escapeToken (token : Str) : decodeToken (escapeToken token) = token := by
  rw [decodeToken, replaceAll_slash, replaceAll_tilde]

/-- **Pointers are faithful** to this reader, too. -/
theorem decodePointer_renderPointer (tokens : List Str) : decodePointer (renderPointer tokens) = some tokens := by
  cases tokens with
  | nil => rfl
  | cons token tokens =>
      have hrender : renderPointer (token :: tokens) = '/' :: (escapeToken token ++ renderPointer tokens) := rfl
      have hdecoded : decodeToken ∘ escapeToken = id := funext decodeToken_escapeToken
      rw [hrender, decodePointer, splitOn_renderPointer, List.map_map, hdecoded, List.map_id]

/-! ### Indices -/

/-- A positive number is not written with a leading zero. -/
theorem toDigits_head_ne_zero {n : Nat} (h : 0 < n) : (Nat.toDigits 10 n).head? ≠ some '0' := by
  induction n using Nat.strongRecOn with
  | _ n ih =>
      by_cases hlt : n < 10
      · rw [Nat.toDigits_of_lt_base hlt]
        interval_cases n <;> decide
      · rw [Nat.toDigits_of_base_le (by omega) (by omega), List.head?_append]
        have hhead := ih (n / 10) (by omega) (by omega)
        cases hdigits : Nat.toDigits 10 (n / 10) with
        | nil => exact absurd hdigits Nat.toDigits_ne_nil
        | cons digit digits =>
            rw [hdigits] at hhead
            simpa using hhead

/-- **Indices are faithful**: a number written in decimal is read back. -/
theorem parseIndex_toDigits (n : Nat) : parseIndex (Nat.toDigits 10 n) = some n := by
  unfold parseIndex
  by_cases hzero : n = 0
  · subst hzero; rfl
  · have hhead := toDigits_head_ne_zero (Nat.pos_of_ne_zero hzero)
    have hdigits : (Nat.toDigits 10 n).all Char.isDigit = true := List.all_eq_true.mpr Text.isDigit_of_mem_decimal
    rw [if_neg, if_neg, Nat.ofDigitChars_ten_toDigits]
    · simp [hhead, hdigits, Nat.toDigits_ne_nil]
    · intro heq
      rw [heq] at hhead
      exact hhead rfl

/-! ## Operations -/

variable {N : Type}

/-- One operation of a patch, its pointers parsed. -/
inductive Operation (N : Type)
  | add (path : List Str) (value : Json N)
  | remove (path : List Str)
  | replace (path : List Str) (value : Json N)
  | move (source path : List Str)
  | copy (source path : List Str)
  | test (path : List Str) (value : Json N)

/-- Replace the value at `path` by a function of it. The path must exist. -/
def modifyAt (f : Json N → Option (Json N)) : List Str → Json N → Option (Json N)
  | [], value => f value
  | token :: path, .object members =>
      (members.lookup token).bind fun child =>
        (modifyAt f path child).map fun child => .object (Members.insert token child members)
  | token :: path, .array items =>
      (parseIndex token).bind fun index => items[index]?.bind fun child =>
        (modifyAt f path child).map fun child => .array (items.set index child)
  | _ :: _, _ => none

/-- The value at `path`. -/
def get : List Str → Json N → Option (Json N)
  | [], value => some value
  | token :: path, .object members => (members.lookup token).bind (get path)
  | token :: path, .array items =>
      (parseIndex token).bind fun index => items[index]?.bind (get path)
  | _ :: _, _ => none

/-- Add a member to an object, or insert an item into an array; `-` stands for the end of an array. -/
def addChild (token : Str) (value : Json N) : Json N → Option (Json N)
  | .object members => some (.object (Members.insert token value members))
  | .array items =>
      (if token = ['-'] then some items.length else parseIndex token).bind fun index =>
        if index ≤ items.length then some (.array (items.insertIdx index value)) else none
  | _ => none

/-- Remove a member or an item; the later items move down. -/
def removeChild (token : Str) : Json N → Option (Json N)
  | .object members =>
      if (members.lookup token).isSome then some (.object (Members.erase token members)) else none
  | .array items =>
      (parseIndex token).bind fun index =>
        if index < items.length then some (.array (items.eraseIdx index)) else none
  | _ => none

/-- Add at a path: at the root the whole value is replaced. -/
def addAt (path : List Str) (value : Json N) (doc : Json N) : Option (Json N) :=
  match path.getLast? with
  | none => some value
  | some token => modifyAt (addChild token value) path.dropLast doc

/-- Remove at a path; the root cannot be removed. -/
def removeAt (path : List Str) (doc : Json N) : Option (Json N) :=
  match path.getLast? with
  | none => none
  | some token => modifyAt (removeChild token) path.dropLast doc

variable [BEq N]

/-- What one operation makes of a document. -/
def Operation.apply : Operation N → Json N → Option (Json N)
  | .add path value, doc => addAt path value doc
  | .remove path, doc => removeAt path doc
  | .replace path value, doc => modifyAt (fun _ => some value) path doc
  | .move source path, doc =>
      -- a value cannot be moved into itself
      if source.isPrefixOf path && source != path then none
      else (get source doc).bind fun value => (removeAt source doc).bind (addAt path value)
  | .copy source path, doc => (get source doc).bind fun value => addAt path value doc
  | .test path value, doc =>
      (get path doc).bind fun found => if found.beq value then some doc else none

/-- Apply the operations in order; the first failure fails the patch. -/
def applyAll (operations : List (Operation N)) (doc : Json N) : Option (Json N) :=
  operations.foldlM (fun doc operation => operation.apply doc) doc

@[simp] theorem applyAll_nil (doc : Json N) : applyAll [] doc = some doc := rfl

theorem applyAll_cons (operation : Operation N) (operations : List (Operation N)) (doc : Json N) :
    applyAll (operation :: operations) doc = (operation.apply doc).bind (applyAll operations) := rfl

theorem applyAll_append (operations operations' : List (Operation N)) (doc : Json N) :
    applyAll (operations ++ operations') doc
      = (applyAll operations doc).bind (applyAll operations') := by
  unfold applyAll
  rw [List.foldlM_append]
  rfl

/-! ## Operations below one token -/

/-- The operation with `token` put before its paths. -/
def Operation.under (token : Str) : Operation N → Operation N
  | .add path value => .add (token :: path) value
  | .remove path => .remove (token :: path)
  | .replace path value => .replace (token :: path) value
  | .move source path => .move (token :: source) (token :: path)
  | .copy source path => .copy (token :: source) (token :: path)
  | .test path value => .test (token :: path) value

/-- The value that an operation carries. -/
def Operation.value? : Operation N → Option (Json N)
  | .add _ value | .replace _ value | .test _ value => some value
  | .remove _ | .move _ _ | .copy _ _ => none

/-- The operation with another value in place of its own. -/
def Operation.mapValue (f : Json N → Json N) : Operation N → Operation N
  | .add path value => .add path (f value)
  | .remove path => .remove path
  | .replace path value => .replace path (f value)
  | .move source path => .move source path
  | .copy source path => .copy source path
  | .test path value => .test path (f value)

/-- The operation with another value in place of its own, if there is one. -/
def Operation.mapValueM (f : Json N → Option (Json N)) : Operation N → Option (Operation N)
  | .add path value => (f value).map (.add path)
  | .remove path => some (.remove path)
  | .replace path value => (f value).map (.replace path)
  | .move source path => some (.move source path)
  | .copy source path => some (.copy source path)
  | .test path value => (f value).map (.test path)

omit [BEq N] in
@[simp] theorem Operation.value?_under (token : Str) (operation : Operation N) :
    (operation.under token).value? = operation.value? := by
  cases operation <;> rfl

omit [BEq N] in
theorem Operation.mapValue_under (f : Json N → Json N) (token : Str) (operation : Operation N) :
    (operation.under token).mapValue f = (operation.mapValue f).under token := by
  cases operation <;> rfl

omit [BEq N] in
/-- A function that keeps the value of an operation keeps the operation. -/
theorem Operation.mapValue_eq_self {f : Json N → Json N} {operation : Operation N}
    (h : ∀ value ∈ operation.value?, f value = value) : operation.mapValue f = operation := by
  cases operation with
  | add path value => exact congrArg _ (h value rfl)
  | replace path value => exact congrArg _ (h value rfl)
  | test path value => exact congrArg _ (h value rfl)
  | remove path => rfl
  | move source path => rfl
  | copy source path => rfl

omit [BEq N] in
@[simp] theorem Operation.value?_mapValue (f : Json N → Json N) (operation : Operation N) :
    (operation.mapValue f).value? = operation.value?.map f := by
  cases operation <;> rfl

omit [BEq N] in
theorem Operation.mapValueM_mapValue (f : Json N → Json N) (f' : Json N → Option (Json N)) (operation : Operation N) :
    (operation.mapValue f).mapValueM f' = operation.mapValueM fun value => f' (f value) := by
  cases operation <;> rfl

omit [BEq N] in
theorem Operation.mapValueM_eq_some_iff {f : Json N → Option (Json N)} {operation operation' : Operation N} :
    operation.mapValueM f = some operation'
      ↔ (∀ value ∈ operation.value?, (f value).isSome)
        ∧ operation.mapValue (fun value => (f value).getD value) = operation' := by
  cases operation with
  | remove path => simp [mapValueM, mapValue, value?]
  | move source path => simp [mapValueM, mapValue, value?]
  | copy source path => simp [mapValueM, mapValue, value?]
  | add path value => cases hvalue : f value <;> simp [mapValueM, mapValue, value?, hvalue]
  | replace path value => cases hvalue : f value <;> simp [mapValueM, mapValue, value?, hvalue]
  | test path value => cases hvalue : f value <;> simp [mapValueM, mapValue, value?, hvalue]

omit [BEq N] in
/-- The values of a patch are replaced if all of them can be. -/
theorem mapM_mapValueM_eq_some_iff {f : Json N → Option (Json N)} {operations operations' : List (Operation N)} :
    operations.mapM (Operation.mapValueM f) = some operations'
      ↔ (∀ operation ∈ operations, ∀ value ∈ operation.value?, (f value).isSome)
        ∧ operations.map (·.mapValue fun value => (f value).getD value) = operations' := by
  rw [Sorting.mapM_eq_some_iff]
  simp only [Operation.mapValueM_eq_some_iff]
  induction operations generalizing operations' with
  | nil =>
      rw [List.forall₂_nil_left_iff]
      exact ⟨fun h => ⟨by simp, h.symm⟩, fun h => h.2.symm⟩
  | cons operation operations ih =>
      rw [List.forall₂_cons_left_iff, List.forall_mem_cons, List.map_cons]
      simp only [ih]
      constructor
      · rintro ⟨_, _, ⟨hvalue, rfl⟩, ⟨hvalues, rfl⟩, rfl⟩
        exact ⟨⟨hvalue, hvalues⟩, rfl⟩
      · rintro ⟨⟨hvalue, hvalues⟩, rfl⟩
        exact ⟨_, _, ⟨hvalue, rfl⟩, ⟨hvalues, rfl⟩, rfl⟩

/-- The operations that act on the value a path leads to, whatever is around it: replacing, and adding to or
    removing from a container below the root. -/
inductive Local : Operation N → Prop
  | add (path : List Str) (token : Str) (value : Json N) : Local (.add (path ++ [token]) value)
  | remove (path : List Str) (token : Str) : Local (.remove (path ++ [token]))
  | replace (path : List Str) (value : Json N) : Local (.replace path value)

omit [BEq N] in
theorem Local.under {operation : Operation N} (h : Local operation) (token : Str) :
    Local (operation.under token) := by
  cases h with
  | add path last value => exact Local.add (token :: path) last value
  | remove path last => exact Local.remove (token :: path) last
  | replace path value => exact Local.replace (token :: path) value

omit [BEq N] in
theorem addAt_concat (path : List Str) (token : Str) (value doc : Json N) :
    addAt (path ++ [token]) value doc = modifyAt (addChild token value) path doc := by
  simp [addAt]

omit [BEq N] in
theorem removeAt_concat (path : List Str) (token : Str) (doc : Json N) :
    removeAt (path ++ [token]) doc = modifyAt (removeChild token) path doc := by
  simp [removeAt]

/-- A local operation, put below a token, acts on what the token leads to. -/
theorem Local.apply_under {operation : Operation N} (h : Local operation) (token : Str)
    (doc : Json N) : (operation.under token).apply doc = modifyAt operation.apply [token] doc := by
  have hstep : ∀ (f : Json N → Option (Json N)) (path : List Str),
      modifyAt f (token :: path) doc = modifyAt (modifyAt f path) [token] doc := by
    intro f path
    cases doc <;> simp [modifyAt]
  cases h with
  | add path last value =>
      have happly : (Operation.add (path ++ [last]) value).apply
          = modifyAt (addChild last value) path := funext fun doc => addAt_concat path last value doc
      rw [happly, ← hstep, ← addAt_concat]
      rfl
  | remove path last =>
      have happly : (Operation.remove (path ++ [last]) : Operation N).apply
          = modifyAt (removeChild last) path := funext fun doc => removeAt_concat path last doc
      rw [happly, ← hstep, ← removeAt_concat]
      rfl
  | replace path value => exact hstep _ path

/-- **Operations below a member** act on the member and leave the rest of the object alone. -/
theorem applyAll_under_member {operations : List (Operation N)}
    (h : ∀ operation ∈ operations, Local operation) {members : List (Str × Json N)} {key : Str}
    {value : Json N} (hlookup : members.lookup key = some value) :
    applyAll (operations.map (·.under key)) (.object members)
      = (applyAll operations value).map fun value => .object (Members.insert key value members) := by
  induction operations generalizing members value with
  | nil => simp [Members.insert_of_lookup hlookup]
  | cons operation operations ih =>
      rw [List.map_cons, applyAll_cons, applyAll_cons,
        (h operation List.mem_cons_self).apply_under, modifyAt, hlookup]
      simp only [Option.bind_some, modifyAt]
      cases operation.apply value with
      | none => rfl
      | some after =>
          have hafter : (Members.insert key after members).lookup key = some after := by
            rw [Members.lookup_insert, if_pos rfl]
          simp only [Option.map_some, Option.bind_some]
          rw [ih (fun operation hmem => h operation (List.mem_cons_of_mem _ hmem)) hafter]
          simp only [Members.insert_insert]

/-- **Operations below an item** act on the item and leave the rest of the array alone. -/
theorem applyAll_under_item {operations : List (Operation N)}
    (h : ∀ operation ∈ operations, Local operation) {items : List (Json N)} {index : Nat}
    {item : Json N} (hitem : items[index]? = some item) :
    applyAll (operations.map (·.under (Nat.toDigits 10 index))) (.array items)
      = (applyAll operations item).map fun item => .array (items.set index item) := by
  induction operations generalizing items item with
  | nil =>
      obtain ⟨hlt, rfl⟩ := List.getElem?_eq_some_iff.mp hitem
      simp
  | cons operation operations ih =>
      rw [List.map_cons, applyAll_cons, applyAll_cons,
        (h operation List.mem_cons_self).apply_under, modifyAt, parseIndex_toDigits]
      simp only [Option.bind_some, hitem, modifyAt]
      cases operation.apply item with
      | none => rfl
      | some after =>
          have hafter : (items.set index after)[index]? = some after := by
            obtain ⟨hlt, -⟩ := List.getElem?_eq_some_iff.mp hitem
            simp [hlt]
          simp only [Option.map_some, Option.bind_some]
          rw [ih (fun operation hmem => h operation (List.mem_cons_of_mem _ hmem)) hafter]
          simp only [List.set_set]

/-! ## Patch documents -/

/-- The text of a string value. -/
def asStr : Json N → Option Str
  | .string text => some text
  | _ => none

/-- The member `key` of an object. -/
def field (value : Json N) (key : Str) : Option (Json N) :=
  match value with
  | .object members => members.lookup key
  | _ => none

/-- The pointer in the member `key` of an object. -/
def pointerField (value : Json N) (key : Str) : Option (List Str) :=
  ((field value key).bind asStr).bind parsePointer

/-- Read one operation of a patch document. -/
def decodeOperation (value : Json N) : Option (Operation N) :=
  ((field value "op".toList).bind asStr).bind fun op =>
    if op = "add".toList then
      (pointerField value "path".toList).bind fun path =>
        (field value "value".toList).map (.add path)
    else if op = "remove".toList then (pointerField value "path".toList).map .remove
    else if op = "replace".toList then
      (pointerField value "path".toList).bind fun path =>
        (field value "value".toList).map (.replace path)
    else if op = "move".toList then
      (pointerField value "from".toList).bind fun source =>
        (pointerField value "path".toList).map (.move source)
    else if op = "copy".toList then
      (pointerField value "from".toList).bind fun source =>
        (pointerField value "path".toList).map (.copy source)
    else if op = "test".toList then
      (pointerField value "path".toList).bind fun path =>
        (field value "value".toList).map (.test path)
    else none

/-- Read a patch document: an array of operations. -/
def decodePatch : Json N → Option (List (Operation N))
  | .array items => items.mapM decodeOperation
  | _ => none

end Inspect.Rfc6902
