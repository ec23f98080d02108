import Inspect.Lib.Json.Serde

/-!
# `Lib.Json.Codec` — a printer and parser with integer numbers

A JSON printer and parser that satisfy `SerdeJson.Laws`, with integers as numbers. The printer takes the
white space of its layout as a parameter: `ws depth` goes before every item and member at that depth and
before the closing bracket, `sep` after the colon. One round trip then serves both the compact and the
indented layout.
-/

namespace Inspect.JsonCodec

/-! ## Strings -/

/-- The letter that stands for a character after a backslash. -/
def escapeLetter (c : Char) : Option Char :=
  [('"', '"'), ('\\', '\\'), ('\n', 'n'), ('\r', 'r'), ('\t', 't')].lookup c

/-- The character a letter after a backslash stands for. -/
def unescapeLetter (c : Char) : Option Char :=
  [('"', '"'), ('\\', '\\'), ('n', '\n'), ('r', '\r'), ('t', '\t')].lookup c

/-- One character of a string literal. -/
@[grind =]
def escapeChar (c : Char) : Str :=
  match escapeLetter c with
  | some letter => ['\\', letter]
  | none =>
      if c.toNat < 0x20 then
        ['\\', 'u', '0', '0', Nat.digitChar (c.toNat / 16), Nat.digitChar (c.toNat % 16)]
      else [c]

/-- A string literal. -/
def quote (text : Str) : Str := '"' :: text.flatMap escapeChar ++ ['"']

/-- The value of a hexadecimal digit. -/
def hexValue (c : Char) : Option Nat :=
  if '0' ≤ c ∧ c ≤ '9' then some (c.toNat - '0'.toNat)
  else if 'a' ≤ c ∧ c ≤ 'f' then some (c.toNat - 'a'.toNat + 10)
  else none

/-- The body of a string literal after its opening quote, and what follows the closing one. -/
@[grind =]
def parseString : Str → Option (Str × Str)
  | [] => none
  | '"' :: rest => some ([], rest)
  | '\\' :: 'u' :: '0' :: '0' :: high :: low :: rest =>
      (hexValue high).bind fun high => (hexValue low).bind fun low =>
        (parseString rest).map fun (text, rest) => (Char.ofNat (16 * high + low) :: text, rest)
  | '\\' :: letter :: rest =>
      (unescapeLetter letter).bind fun c =>
        (parseString rest).map fun (text, rest) => (c :: text, rest)
  | c :: rest => (parseString rest).map fun (text, rest) => (c :: text, rest)

theorem hexValue_digitChar : ∀ d, d < 16 → hexValue (Nat.digitChar d) = some d := by decide

/-- The two tables are inverse to each other, and none of their letters starts a longer escape. -/
theorem unescapeLetter_escapeLetter {c letter : Char} (h : escapeLetter c = some letter) :
    unescapeLetter letter = some c ∧ letter ≠ 'u' := by
  simp only [escapeLetter, List.lookup_cons, List.lookup_nil] at h
  repeat'
    split at h
    · cases h
      rename_i heq
      rw [beq_iff_eq] at heq
      subst heq
      decide
  cases h

/-- A character without an escape is neither a quote nor a backslash. -/
theorem escapeLetter_none {c : Char} (h : escapeLetter c = none) : c ≠ '"' ∧ c ≠ '\\' := by
  constructor
  all_goals
    rintro rfl
    exact absurd h (by decide)

theorem parseString_escapeChar (c : Char) (rest : Str) :
    parseString (escapeChar c ++ rest)
      = (parseString rest).map fun (text, rest) => (c :: text, rest) := by
  unfold escapeChar
  cases hletter : escapeLetter c with
  | some letter =>
      obtain ⟨hback, hu⟩ := unescapeLetter_escapeLetter hletter
      show parseString ('\\' :: letter :: rest) = _
      rw [parseString]
      · rw [hback, Option.bind_some]
      · intro high low rest' hc
        exact absurd hc hu
  | none =>
      obtain ⟨hquote, hbackslash⟩ := escapeLetter_none hletter
      dsimp only
      split
      · have hhigh := hexValue_digitChar (c.toNat / 16) (by omega)
        have hlow := hexValue_digitChar (c.toNat % 16) (by omega)
        have hc : Char.ofNat (16 * (c.toNat / 16) + c.toNat % 16) = c := by
          rw [Nat.div_add_mod, Char.ofNat_toNat]
        simp only [List.cons_append, List.nil_append, parseString, hhigh, hlow, Option.bind_some, hc]
      · rw [List.singleton_append, parseString]
        · exact hquote
        · intro high low rest' hc
          exact absurd hc hbackslash
        · intro letter rest' hc
          exact absurd hc hbackslash

theorem parseString_quote (text rest : Str) :
    parseString (text.flatMap escapeChar ++ '"' :: rest) = some (text, rest) := by
  induction text with
  | nil => rfl
  | cons c text ih =>
      rw [List.flatMap_cons, List.append_assoc, parseString_escapeChar, ih]
      rfl

/-! ## Numbers -/

def printInt (n : Int) : Str :=
  if n < 0 then '-' :: Nat.toDigits 10 n.natAbs else Nat.toDigits 10 n.natAbs

def parseNat (text : Str) : Option (Nat × Str) :=
  match text.takeWhile Char.isDigit with
  | [] => none
  | digits => some (Nat.ofDigitChars 10 digits 0, text.dropWhile Char.isDigit)

/-- A text that does not go on with a digit. -/
def NoDigit (text : Str) : Prop := ∀ c ∈ text.head?, Char.isDigit c = false

theorem takeWhile_digits {text rest : Str} (htext : ∀ c ∈ text, Char.isDigit c = true)
    (hrest : NoDigit rest) : (text ++ rest).takeWhile Char.isDigit = text ∧
      (text ++ rest).dropWhile Char.isDigit = rest := by
  induction text with
  | nil =>
      cases rest with
      | nil => simp
      | cons c rest =>
          have hc : Char.isDigit c = false := hrest c rfl
          simp [hc]
  | cons c text ih =>
      have hc := htext c List.mem_cons_self
      have hih := ih fun c hmem => htext c (List.mem_cons_of_mem _ hmem)
      simp [hc, hih]

theorem parseNat_toDigits (n : Nat) {rest : Str} (hrest : NoDigit rest) :
    parseNat (Nat.toDigits 10 n ++ rest) = some (n, rest) := by
  obtain ⟨htake, hdrop⟩ := takeWhile_digits Text.isDigit_of_mem_decimal hrest
  unfold parseNat
  rw [htake, hdrop]
  cases hnil : Nat.toDigits 10 n with
  | nil => exact absurd hnil Nat.toDigits_ne_nil
  | cons c digits =>
      dsimp only
      rw [← hnil, Nat.ofDigitChars_ten_toDigits]

/-! ## Printing -/

section Print

variable (ws : Nat → Str) (sep : Str)

mutual

/-- The text of a value at a depth. -/
def print (depth : Nat) : Json Int → Str
  | .null => "null".toList
  | .bool b => if b then "true".toList else "false".toList
  | .number n => printInt n
  | .string text => quote text
  | .array [] => ['[', ']']
  | .array (item :: items) =>
      '[' :: (ws (depth + 1) ++ (print (depth + 1) item ++ (printItems (depth + 1) items
        ++ (ws depth ++ [']']))))
  | .object [] => ['{', '}']
  | .object ((key, value) :: members) =>
      '{' :: (ws (depth + 1) ++ (quote key ++ (':' :: (sep ++ (print (depth + 1) value
        ++ (printMembers (depth + 1) members ++ (ws depth ++ ['}'])))))))

/-- The further items of an array. -/
def printItems (depth : Nat) : List (Json Int) → Str
  | [] => []
  | item :: items => ',' :: (ws depth ++ (print depth item ++ printItems depth items))

/-- The further members of an object. -/
def printMembers (depth : Nat) : List (Str × Json Int) → Str
  | [] => []
  | (key, value) :: members =>
      ',' :: (ws depth ++ (quote key ++ (':' :: (sep ++ (print depth value
        ++ printMembers depth members)))))

end

attribute [grind =] print printItems printMembers

end Print

/-! ## Parsing -/

/-- The white space of JSON. -/
def isWs (c : Char) : Bool := c == ' ' || c == '\n' || c == '\r' || c == '\t'

def skipWs (text : Str) : Str := text.dropWhile isWs

mutual

/-- A value, and what follows it. Every nesting takes one unit of fuel. -/
def parseValue : Nat → Str → Option (Json Int × Str)
  | 0, _ => none
  | fuel + 1, text =>
      match skipWs text with
      | 'n' :: 'u' :: 'l' :: 'l' :: rest => some (.null, rest)
      | 't' :: 'r' :: 'u' :: 'e' :: rest => some (.bool true, rest)
      | 'f' :: 'a' :: 'l' :: 's' :: 'e' :: rest => some (.bool false, rest)
      | '"' :: rest => (parseString rest).map fun (text, rest) => (.string text, rest)
      | '[' :: rest =>
          match skipWs rest with
          | ']' :: rest => some (.array [], rest)
          | rest => (parseItems fuel rest).map fun (items, rest) => (.array items, rest)
      | '{' :: rest =>
          match skipWs rest with
          | '}' :: rest => some (.object [], rest)
          | rest =>
              (parseMembers fuel rest).map fun (members, rest) =>
                -- a key that comes again replaces the earlier value
                (.object (members.foldl (fun object (key, value) =>
                  Members.insert key value object) []), rest)
      | '-' :: rest => (parseNat rest).map fun (n, rest) => (.number (-(n : Int)), rest)
      | text => (parseNat text).map fun (n, rest) => (.number (n : Int), rest)

/-- The items of an array up to its closing bracket. -/
def parseItems : Nat → Str → Option (List (Json Int) × Str)
  | 0, _ => none
  | fuel + 1, text =>
      (parseValue fuel text).bind fun (item, rest) =>
        match skipWs rest with
        | ',' :: rest => (parseItems fuel rest).map fun (items, rest) => (item :: items, rest)
        | ']' :: rest => some ([item], rest)
        | _ => none

/-- The members of an object up to its closing bracket. -/
def parseMembers : Nat → Str → Option (List (Str × Json Int) × Str)
  | 0, _ => none
  | fuel + 1, text =>
      match skipWs text with
      | '"' :: rest =>
          (parseString rest).bind fun (key, rest) =>
            match skipWs rest with
            | ':' :: rest =>
                (parseValue fuel rest).bind fun (value, rest) =>
                  match skipWs rest with
                  | ',' :: rest =>
                      (parseMembers fuel rest).map fun (members, rest) => ((key, value) :: members, rest)
                  | '}' :: rest => some ([(key, value)], rest)
                  | _ => none
            | _ => none
      | _ => none

end

attribute [grind =] parseValue parseItems parseMembers

/-- A text that is one value, with white space around it. -/
def fromStr (text : Str) : Option (Json Int) :=
  (parseValue (text.length + 1) text).bind fun (value, rest) =>
    if skipWs rest = [] then some value else none

/-- The compact layout. -/
def toString (value : Json Int) : Str := print (fun _ => []) [] 0 value

/-- The layout with two spaces a level. -/
def toStringPretty (value : Json Int) : Str :=
  print (fun depth => '\n' :: List.replicate (2 * depth) ' ') [' '] 0 value

/-- The printer and parser together. -/
def codec : SerdeJson Int := ⟨toString, toStringPretty, fromStr⟩

/-! ## Round trip -/

theorem skipWs_append {w : Str} (hw : ∀ c ∈ w, isWs c = true) (text : Str) :
    skipWs (w ++ text) = skipWs text := by
  induction w with
  | nil => rfl
  | cons c w ih =>
      have hc := hw c List.mem_cons_self
      have hskip : skipWs (c :: (w ++ text)) = skipWs (w ++ text) := by simp [skipWs, hc]
      rw [List.cons_append, hskip]
      exact ih fun c hmem => hw c (List.mem_cons_of_mem _ hmem)

theorem skipWs_cons {c : Char} (hc : isWs c = false) (rest : Str) : skipWs (c :: rest) = c :: rest := by
  simp [skipWs, hc]

theorem parseValue_skip {w : Str} (hw : ∀ c ∈ w, isWs c = true) (fuel : Nat) (text : Str) :
    parseValue fuel (w ++ text) = parseValue fuel text := by
  cases fuel with
  | zero => rfl
  | succ fuel => rw [parseValue, parseValue, skipWs_append hw]

theorem parseItems_skip {w : Str} (hw : ∀ c ∈ w, isWs c = true) (fuel : Nat) (text : Str) :
    parseItems fuel (w ++ text) = parseItems fuel text := by
  cases fuel with
  | zero => rfl
  | succ fuel => rw [parseItems, parseItems, parseValue_skip hw]

theorem parseMembers_skip {w : Str} (hw : ∀ c ∈ w, isWs c = true) (fuel : Nat) (text : Str) :
    parseMembers fuel (w ++ text) = parseMembers fuel text := by
  cases fuel with
  | zero => rfl
  | succ fuel => rw [parseMembers, parseMembers, skipWs_append hw]

theorem isWs_of_isDigit {c : Char} (hc : Char.isDigit c = true) : isWs c = false := by
  by_contra hblank
  simp only [Bool.not_eq_false, isWs, Bool.or_eq_true, beq_iff_eq] at hblank
  rcases hblank with ((rfl | rfl) | rfl) | rfl
  all_goals exact absurd hc (by decide)

/-- White space and then something that is no digit. -/
theorem noDigit_append {w : Str} (hw : ∀ c ∈ w, isWs c = true) {c : Char} (hc : Char.isDigit c = false)
    (rest : Str) : NoDigit (w ++ c :: rest) := by
  intro c' hc'
  cases w with
  | nil =>
      cases hc'
      exact hc
  | cons d w =>
      cases hc'
      by_contra hdigit
      have hblank := isWs_of_isDigit (Bool.not_eq_false _ ▸ hdigit)
      rw [hw c' List.mem_cons_self] at hblank
      cases hblank

mutual

/-- The fuel a value takes. -/
def size : Json Int → Nat
  | .array items => 1 + sizeItems items
  | .object members => 1 + sizeMembers members
  | _ => 1

def sizeItems : List (Json Int) → Nat
  | [] => 0
  | item :: items => 1 + size item + sizeItems items

def sizeMembers : List (Str × Json Int) → Nat
  | [] => 0
  | (_, value) :: members => 1 + size value + sizeMembers members

end

section RoundTrip

variable {ws : Nat → Str} {sep : Str} (hws : ∀ depth, ∀ c ∈ ws depth, isWs c = true)
  (hsep : ∀ c ∈ sep, isWs c = true)

/-- A printed value starts with neither white space nor a closing bracket. -/
theorem print_head (depth : Nat) (value : Json Int) :
    ∃ c rest, print ws sep depth value = c :: rest ∧ isWs c = false ∧ c ≠ ']' := by
  cases value with
  | null => exact ⟨'n', _, rfl, by decide, by decide⟩
  | bool b =>
      cases b
      · exact ⟨'f', _, rfl, by decide, by decide⟩
      · exact ⟨'t', _, rfl, by decide, by decide⟩
  | number n =>
      by_cases hneg : n < 0
      · exact ⟨'-', Nat.toDigits 10 n.natAbs, by simp [print, printInt, hneg], by decide, by decide⟩
      · have hdigits := @Text.isDigit_of_mem_decimal n.natAbs
        cases hprint : Nat.toDigits 10 n.natAbs with
        | nil => exact absurd hprint Nat.toDigits_ne_nil
        | cons c digits =>
            rw [hprint] at hdigits
            have hc := hdigits c List.mem_cons_self
            refine ⟨c, digits, by simp [print, printInt, hneg, hprint], ?_, ?_⟩
            · exact isWs_of_isDigit hc
            · rintro rfl
              exact absurd hc (by decide)
  | string text => exact ⟨'"', _, rfl, by decide, by decide⟩
  | array items =>
      cases items with
      | nil => exact ⟨'[', _, rfl, by decide, by decide⟩
      | cons item items => exact ⟨'[', _, by rw [print], by decide, by decide⟩
  | object members =>
      cases members with
      | nil => exact ⟨'{', _, rfl, by decide, by decide⟩
      | cons member members => exact ⟨'{', _, by rw [print], by decide, by decide⟩

/-- What a value's round trip is, whatever is around it. -/
def RoundTrips (ws : Nat → Str) (sep : Str) (value : Json Int) : Prop :=
  ∀ depth fuel rest, size value ≤ fuel → NoDigit rest →
    parseValue fuel (print ws sep depth value ++ rest) = some (value, rest)

include hws in
theorem parseItems_print (depth : Nat) {w : Str} (hw : ∀ c ∈ w, isWs c = true) (rest : Str)
    (item : Json Int) (items : List (Json Int)) (ih : ∀ value ∈ item :: items, RoundTrips ws sep value)
    {fuel : Nat} (hfuel : sizeItems (item :: items) ≤ fuel) :
    parseItems fuel (print ws sep depth item ++ (printItems ws sep depth items ++ (w ++ ']' :: rest)))
      = some (item :: items, rest) := by
  induction items generalizing item fuel with
  | nil =>
      obtain ⟨fuel, rfl⟩ : ∃ n, fuel = n + 1 := ⟨fuel - 1, by simp [sizeItems] at hfuel; omega⟩
      rw [printItems, List.nil_append, parseItems,
        ih item List.mem_cons_self depth fuel _ (by simp [sizeItems] at hfuel; omega)
          (noDigit_append hw rfl rest)]
      simp only [Option.bind_some, skipWs_append hw, skipWs_cons (c := ']') rfl]
  | cons next items ihItems =>
      obtain ⟨fuel, rfl⟩ : ∃ n, fuel = n + 1 := ⟨fuel - 1, by simp [sizeItems] at hfuel; omega⟩
      have hnext := ihItems next (fun value hmem => ih value (List.mem_cons_of_mem _ hmem))
        (show sizeItems (next :: items) ≤ fuel by simp [sizeItems] at hfuel ⊢; omega)
      have hhead : NoDigit (',' :: (ws depth ++ (print ws sep depth next
          ++ printItems ws sep depth items)) ++ (w ++ ']' :: rest)) := by
        intro c hc
        cases hc
        rfl
      rw [printItems, parseItems, ih item List.mem_cons_self depth fuel _
        (by simp [sizeItems] at hfuel; omega) hhead]
      simp only [Option.bind_some, List.cons_append, skipWs_cons (c := ',') rfl, List.append_assoc]
      rw [parseItems_skip (hws depth), hnext]
      rfl

include hws hsep in
theorem parseMembers_print (depth : Nat) {w : Str} (hw : ∀ c ∈ w, isWs c = true) (rest : Str)
    (key : Str) (value : Json Int) (members : List (Str × Json Int))
    (ih : ∀ member ∈ (key, value) :: members, RoundTrips ws sep member.2)
    {fuel : Nat} (hfuel : sizeMembers ((key, value) :: members) ≤ fuel) :
    parseMembers fuel (quote key ++ (':' :: (sep ++ (print ws sep depth value
        ++ (printMembers ws sep depth members ++ (w ++ '}' :: rest))))))
      = some ((key, value) :: members, rest) := by
  have hquote : ∀ key tail, quote key ++ tail = '"' :: (key.flatMap escapeChar ++ '"' :: tail) := by
    intro key tail
    simp [quote]
  induction members generalizing key value fuel with
  | nil =>
      obtain ⟨fuel, rfl⟩ : ∃ n, fuel = n + 1 := ⟨fuel - 1, by simp [sizeMembers] at hfuel; omega⟩
      have hvalue := ih (key, value) List.mem_cons_self depth fuel (w ++ '}' :: rest)
        (show size value ≤ fuel by simp [sizeMembers] at hfuel; omega) (noDigit_append hw rfl rest)
      rw [printMembers, List.nil_append, parseMembers, hquote]
      simp only [skipWs_cons (c := '"') rfl, parseString_quote, Option.bind_some,
        skipWs_cons (c := ':') rfl]
      rw [parseValue_skip hsep, hvalue]
      simp only [Option.bind_some, skipWs_append hw, skipWs_cons (c := '}') rfl]
  | cons next members ihMembers =>
      obtain ⟨nextKey, nextValue⟩ := next
      obtain ⟨fuel, rfl⟩ : ∃ n, fuel = n + 1 := ⟨fuel - 1, by simp [sizeMembers] at hfuel; omega⟩
      have hnext := ihMembers nextKey nextValue
        (fun member hmem => ih member (List.mem_cons_of_mem _ hmem))
        (show sizeMembers ((nextKey, nextValue) :: members) ≤ fuel by
          simp [sizeMembers] at hfuel ⊢; omega)
      have hhead : NoDigit (printMembers ws sep depth ((nextKey, nextValue) :: members)
          ++ (w ++ '}' :: rest)) := by
        intro c hc
        cases hc
        rfl
      have hvalue := ih (key, value) List.mem_cons_self depth fuel _
        (show size value ≤ fuel by simp [sizeMembers] at hfuel; omega) hhead
      rw [parseMembers, hquote]
      simp only [skipWs_cons (c := '"') rfl, parseString_quote, Option.bind_some,
        skipWs_cons (c := ':') rfl]
      rw [parseValue_skip hsep, hvalue]
      simp only [Option.bind_some, printMembers, List.cons_append, skipWs_cons (c := ',') rfl,
        List.append_assoc]
      rw [parseMembers_skip (hws depth), hnext]
      rfl

/-- Members with unique keys, set one after the other, are the members. -/
theorem foldl_insert {V : Type} (members object : List (Str × V))
    (hkeys : (Members.Keys (object ++ members)).Nodup) :
    members.foldl (fun object (member : Str × V) => Members.insert member.1 member.2 object) object
      = object ++ members := by
  have hinsert : ∀ (key : Str) (value : V) (object : List (Str × V)), key ∉ Members.Keys object →
      Members.insert key value object = object ++ [(key, value)] := by
    intro key value object hkey
    induction object with
    | nil => rfl
    | cons member object ih =>
        obtain ⟨key', value'⟩ := member
        simp only [List.map_cons, List.mem_cons, not_or] at hkey
        rw [Members.insert, if_neg hkey.1, ih hkey.2]
        rfl
  induction members generalizing object with
  | nil => simp
  | cons member members ih =>
      have hfresh : member.1 ∉ Members.Keys object := by
        intro hmem
        have hsplit : (Members.Keys object ++ Members.Keys (member :: members)).Nodup := by
          simpa using hkeys
        exact List.disjoint_of_nodup_append hsplit hmem List.mem_cons_self
      rw [List.foldl_cons, hinsert _ _ _ hfresh, ih]
      · simp
      · simpa using hkeys

/-- A digit starts a number and nothing else. -/
theorem parseValue_digit {c : Char} (hc : Char.isDigit c = true) (fuel : Nat) (text : Str) :
    parseValue (fuel + 1) (c :: text)
      = (parseNat (c :: text)).map fun (n, rest) => (.number (n : Int), rest) := by
  rw [parseValue, skipWs_cons (isWs_of_isDigit hc)]
  split
  all_goals first
    | rfl
    | (rename_i heq
       have hhead := (List.cons.inj heq).1
       subst hhead
       exact absurd hc (by decide))

theorem roundTrips_number (n : Int) : RoundTrips ws sep (.number n) := by
  intro depth fuel rest hfuel hrest
  obtain ⟨fuel, rfl⟩ : ∃ m, fuel = m + 1 := ⟨fuel - 1, by simp [size] at hfuel; omega⟩
  by_cases hneg : n < 0
  · have hprint : print ws sep depth (.number n) = '-' :: Nat.toDigits 10 n.natAbs := by
      simp [print, printInt, hneg]
    have habs : -(n.natAbs : Int) = n := by omega
    rw [hprint, List.cons_append, parseValue]
    simp only [skipWs_cons (c := '-') rfl, parseNat_toDigits n.natAbs hrest, Option.map_some, habs]
  · have hprint : print ws sep depth (.number n) = Nat.toDigits 10 n.natAbs := by
      simp [print, printInt, hneg]
    have hparse := parseNat_toDigits n.natAbs hrest
    have habs : (n.natAbs : Int) = n := by omega
    rw [hprint]
    cases hdigits : Nat.toDigits 10 n.natAbs with
    | nil => exact absurd hdigits Nat.toDigits_ne_nil
    | cons c digits =>
        have hc : Char.isDigit c = true :=
          @Text.isDigit_of_mem_decimal n.natAbs c (by rw [hdigits]; exact List.mem_cons_self)
        rw [hdigits] at hparse
        rw [List.cons_append, parseValue_digit hc, ← List.cons_append, hparse]
        simp only [Option.map_some, habs]

include hws in
theorem roundTrips_array {items : List (Json Int)} (ih : ∀ item ∈ items, RoundTrips ws sep item) :
    RoundTrips ws sep (.array items) := by
  intro depth fuel rest hfuel hrest
  obtain ⟨fuel, rfl⟩ : ∃ m, fuel = m + 1 := ⟨fuel - 1, by simp [size] at hfuel; omega⟩
  cases items with
  | nil =>
      rw [print, parseValue]
      simp only [List.cons_append, List.nil_append, skipWs_cons (c := '[') rfl,
        skipWs_cons (c := ']') rfl]
  | cons item items =>
      have hitems := parseItems_print hws (depth + 1) (hws depth) rest item items ih
        (show sizeItems (item :: items) ≤ fuel by simp [size] at hfuel; omega)
      obtain ⟨c, text, hprint, hc, hbracket⟩ := @print_head ws sep (depth + 1) item
      rw [print, parseValue]
      simp only [List.cons_append, List.append_assoc, List.nil_append, skipWs_cons (c := '[') rfl,
        skipWs_append (hws (depth + 1))]
      rw [hprint] at hitems ⊢
      rw [List.cons_append, skipWs_cons hc, ← List.cons_append]
      split
      · rename_i heq
        cases heq
        exact absurd rfl hbracket
      · rw [hitems]
        rfl

include hws hsep in
theorem roundTrips_object {members : List (Str × Json Int)} (hkeys : (Members.Keys members).Nodup)
    (ih : ∀ member ∈ members, RoundTrips ws sep member.2) : RoundTrips ws sep (.object members) := by
  intro depth fuel rest hfuel hrest
  obtain ⟨fuel, rfl⟩ : ∃ m, fuel = m + 1 := ⟨fuel - 1, by simp [size] at hfuel; omega⟩
  cases members with
  | nil =>
      rw [print, parseValue]
      simp only [List.cons_append, List.nil_append, skipWs_cons (c := '{') rfl,
        skipWs_cons (c := '}') rfl]
  | cons member members =>
      obtain ⟨key, value⟩ := member
      have hmembers := parseMembers_print hws hsep (depth + 1) (hws depth) rest key value members ih
        (show sizeMembers ((key, value) :: members) ≤ fuel by simp [size] at hfuel; omega)
      rw [print, parseValue]
      simp only [List.cons_append, List.append_assoc, List.nil_append, skipWs_cons (c := '{') rfl,
        skipWs_append (hws (depth + 1))]
      have hquote : ∀ tail, quote key ++ tail = '"' :: (key.flatMap escapeChar ++ '"' :: tail) := by
        intro tail
        simp [quote]
      have hskip : ∀ tail, skipWs (quote key ++ tail) = quote key ++ tail := by
        intro tail
        rw [hquote, skipWs_cons rfl]
      rw [hskip]
      split
      · rename_i heq
        rw [hquote] at heq
        cases heq
      · rw [hmembers, Option.map_some, foldl_insert _ [] (by simpa using hkeys), List.nil_append]

include hws hsep in
/-- **Round trip**: what is printed is read back, whatever the layout. -/
theorem roundTrips {value : Json Int} (h : value.WellFormed) : RoundTrips ws sep value := by
  induction value using Json.induction with
  | null =>
      intro depth fuel rest hfuel hrest
      obtain ⟨fuel, rfl⟩ : ∃ m, fuel = m + 1 := ⟨fuel - 1, by simp [size] at hfuel; omega⟩
      rw [print, parseValue]
      rfl
  | bool b =>
      intro depth fuel rest hfuel hrest
      obtain ⟨fuel, rfl⟩ : ∃ m, fuel = m + 1 := ⟨fuel - 1, by simp [size] at hfuel; omega⟩
      rw [print, parseValue]
      cases b <;> rfl
  | number n => exact roundTrips_number n
  | string text =>
      intro depth fuel rest hfuel hrest
      obtain ⟨fuel, rfl⟩ : ∃ m, fuel = m + 1 := ⟨fuel - 1, by simp [size] at hfuel; omega⟩
      have hquote : quote text ++ rest = '"' :: (text.flatMap escapeChar ++ '"' :: rest) := by
        simp [quote]
      rw [print, parseValue, hquote]
      simp only [skipWs_cons (c := '"') rfl, parseString_quote, Option.map_some]
  | array items ih => exact roundTrips_array hws fun item hmem => ih item hmem (h.items item hmem)
  | object members ih =>
      exact roundTrips_object hws hsep h.keys fun member hmem => ih member hmem (h.members member hmem)

/-- A printed value is at least as long as the fuel it takes. -/
theorem size_le_length (depth : Nat) (value : Json Int) :
    size value ≤ (print ws sep depth value).length := by
  induction value using Json.induction generalizing depth with
  | array items ih =>
      have hitems : ∀ items : List (Json Int),
          (∀ item ∈ items, ∀ depth, size item ≤ (print ws sep depth item).length) →
          ∀ depth, sizeItems items ≤ (printItems ws sep depth items).length := by
        intro items ih depth
        induction items with
        | nil => simp [sizeItems]
        | cons item items ihItems =>
            have hitem := ih item List.mem_cons_self depth
            have hrest := ihItems fun item hmem => ih item (List.mem_cons_of_mem _ hmem)
            simp only [sizeItems, printItems, List.length_cons, List.length_append]
            omega
      cases items with
      | nil => simp [size, sizeItems, print]
      | cons item items =>
          have hitem := ih item List.mem_cons_self (depth + 1)
          have hrest := hitems items (fun item hmem => ih item (List.mem_cons_of_mem _ hmem)) (depth + 1)
          simp only [size, sizeItems, print, List.length_cons, List.length_append, List.length_nil]
          omega
  | object members ih =>
      have hmembers : ∀ members : List (Str × Json Int),
          (∀ member ∈ members, ∀ depth, size member.2 ≤ (print ws sep depth member.2).length) →
          ∀ depth, sizeMembers members ≤ (printMembers ws sep depth members).length := by
        intro members ih depth
        induction members with
        | nil => simp [sizeMembers]
        | cons member members ihMembers =>
            have hmember := ih member List.mem_cons_self depth
            have hrest := ihMembers fun member hmem => ih member (List.mem_cons_of_mem _ hmem)
            simp only [sizeMembers, printMembers, List.length_cons, List.length_append]
            omega
      cases members with
      | nil => simp [size, sizeMembers, print]
      | cons member members =>
          have hmember := ih member List.mem_cons_self (depth + 1)
          have hrest := hmembers members (fun member hmem => ih member (List.mem_cons_of_mem _ hmem))
            (depth + 1)
          simp only [size, sizeMembers, print, List.length_cons, List.length_append, List.length_nil]
          omega
  | _ =>
      obtain ⟨c, rest, hprint, -⟩ := @print_head ws sep depth _
      rw [hprint]
      simp [size]

include hws hsep in
theorem fromStr_print {value : Json Int} (h : value.WellFormed) :
    fromStr (print ws sep 0 value) = some value := by
  have hparse := roundTrips hws hsep h 0 ((print ws sep 0 value).length + 1) []
    (by have := @size_le_length ws sep 0 value; omega) (by intro c hc; cases hc)
  rw [List.append_nil] at hparse
  rw [fromStr, hparse]
  rfl

end RoundTrip

/-! ## The other laws -/

/-- The letters of escapes are visible. -/
theorem escapeLetter_visible {c letter : Char} (h : escapeLetter c = some letter) : 32 ≤ letter.toNat := by
  simp only [escapeLetter, List.lookup_cons, List.lookup_nil] at h
  repeat'
    split at h
    · cases h
      decide
  cases h

/-- A control character is never written as it is. -/
theorem control_not_mem_quote {control : Char} (hcontrol : control.toNat < 32) (text : Str) :
    control ∉ quote text := by
  have hvisible : ∀ {c : Char}, 32 ≤ c.toNat → control ≠ c := by
    rintro c hc rfl
    omega
  have hchar : ∀ c : Char, control ∉ escapeChar c := by
    intro c hmem
    unfold escapeChar at hmem
    cases hletter : escapeLetter c with
    | some letter =>
        rw [hletter] at hmem
        simp only [List.mem_cons, List.not_mem_nil, or_false] at hmem
        rcases hmem with h | h
        · exact hvisible (by decide) h
        · exact hvisible (escapeLetter_visible hletter) h
    | none =>
        rw [hletter] at hmem
        dsimp only at hmem
        have hdigit : ∀ d, d < 16 → 32 ≤ (Nat.digitChar d).toNat := by decide
        split at hmem
        · rename_i hlow
          simp only [List.mem_cons, List.not_mem_nil, or_false] at hmem
          rcases hmem with h | h | h | h | h | h
          · exact hvisible (by decide) h
          · exact hvisible (by decide) h
          · exact hvisible (by decide) h
          · exact hvisible (by decide) h
          · exact hvisible (hdigit _ (by omega)) h
          · exact hvisible (hdigit _ (by omega)) h
        · rename_i hhigh
          rw [← List.mem_singleton.mp hmem] at hhigh
          omega
  simp only [quote, List.cons_append, List.mem_cons, List.mem_append, List.mem_flatMap,
    List.not_mem_nil, or_false]
  rintro (h | ⟨c, -, h⟩ | h)
  · exact hvisible (by decide) h
  · exact hchar c h
  · exact hvisible (by decide) h

theorem newline_not_mem_quote (text : Str) : '\n' ∉ quote text := control_not_mem_quote (by decide) text

theorem newline_not_mem_printInt (n : Int) : '\n' ∉ printInt n := by
  have hdigits : '\n' ∉ Nat.toDigits 10 n.natAbs := Text.not_mem_decimal (by decide) _
  unfold printInt
  split
  · simp [hdigits]
  · exact hdigits

/-- The compact layout is one line. -/
theorem newline_not_mem_print (depth : Nat) (value : Json Int) :
    '\n' ∉ print (fun _ => []) [] depth value := by
  induction value using Json.induction generalizing depth with
  | null => rw [print]; decide
  | bool b => cases b <;> (rw [print]; decide)
  | number n => exact newline_not_mem_printInt n
  | string text => exact newline_not_mem_quote text
  | array items ih =>
      have hitems : ∀ items : List (Json Int),
          (∀ item ∈ items, ∀ depth, '\n' ∉ print (fun _ => []) [] depth item) →
          ∀ depth, '\n' ∉ printItems (fun _ => []) [] depth items := by
        intro items ih depth
        induction items with
        | nil => simp [printItems]
        | cons item items ihItems =>
            have hrest := ihItems fun item hmem => ih item (List.mem_cons_of_mem _ hmem)
            simp [printItems, ih item List.mem_cons_self depth, hrest]
      cases items with
      | nil => rw [print]; decide
      | cons item items =>
          have hrest := hitems items (fun item hmem => ih item (List.mem_cons_of_mem _ hmem)) (depth + 1)
          simp [print, ih item List.mem_cons_self (depth + 1), hrest]
  | object members ih =>
      have hmembers : ∀ members : List (Str × Json Int),
          (∀ member ∈ members, ∀ depth, '\n' ∉ print (fun _ => []) [] depth member.2) →
          ∀ depth, '\n' ∉ printMembers (fun _ => []) [] depth members := by
        intro members ih depth
        induction members with
        | nil => simp [printMembers]
        | cons member members ihMembers =>
            have hrest := ihMembers fun member hmem => ih member (List.mem_cons_of_mem _ hmem)
            simp [printMembers, ih member List.mem_cons_self depth, hrest, newline_not_mem_quote]
      cases members with
      | nil => rw [print]; decide
      | cons member members =>
          have hrest := hmembers members (fun member hmem => ih member (List.mem_cons_of_mem _ hmem))
            (depth + 1)
          simp [print, ih member List.mem_cons_self (depth + 1), hrest, newline_not_mem_quote]

/-- Whatever members are set one after the other, the keys stay unique and the values well formed. -/
theorem wellFormed_foldl_insert {members object : List (Str × Json Int)}
    (hmembers : ∀ member ∈ members, member.2.WellFormed) (hobject : Json.WellFormed (.object object)) :
    Json.WellFormed (.object (members.foldl (fun object (member : Str × Json Int) =>
      Members.insert member.1 member.2 object) object)) := by
  induction members generalizing object with
  | nil => exact hobject
  | cons member members ih =>
      exact ih (fun member hmem => hmembers member (List.mem_cons_of_mem _ hmem))
        (hobject.insert member.1 (hmembers member List.mem_cons_self))

/-- What is parsed is well formed: values, items and members at once, by induction on the fuel. -/
theorem parse_wellFormed (fuel : Nat) :
    (∀ text value rest, parseValue fuel text = some (value, rest) → value.WellFormed) ∧
    (∀ text items rest, parseItems fuel text = some (items, rest) → ∀ item ∈ items, item.WellFormed) ∧
    (∀ text members rest, parseMembers fuel text = some (members, rest) →
      ∀ member ∈ members, member.2.WellFormed) := by
  induction fuel with
  | zero =>
      refine ⟨?_, ?_, ?_⟩
      · intro text value rest h; cases h
      · intro text items rest h; cases h
      · intro text members rest h; cases h
  | succ fuel ih =>
      obtain ⟨ihValue, ihItems, ihMembers⟩ := ih
      refine ⟨?_, ?_, ?_⟩
      · intro text value rest h
        rw [parseValue] at h
        split at h
        · cases h; exact .null
        · cases h; exact .bool true
        · cases h; exact .bool false
        · obtain ⟨p, -, hp⟩ := Option.map_eq_some_iff.mp h
          cases hp
          exact .string _
        · split at h
          · cases h
            exact .array (by simp)
          · obtain ⟨p, hparse, hp⟩ := Option.map_eq_some_iff.mp h
            cases hp
            exact .array (ihItems _ _ _ hparse)
        · split at h
          · cases h
            exact .object (by simp) (by simp)
          · obtain ⟨p, hparse, hp⟩ := Option.map_eq_some_iff.mp h
            cases hp
            -- a key that comes again replaces its value, so no key is left twice
            exact wellFormed_foldl_insert (ihMembers _ _ _ hparse) (.object (by simp) (by simp))
        · obtain ⟨p, -, hp⟩ := Option.map_eq_some_iff.mp h
          cases hp
          exact .number _
        · obtain ⟨p, -, hp⟩ := Option.map_eq_some_iff.mp h
          cases hp
          exact .number _
      · intro text items rest h
        rw [parseItems] at h
        obtain ⟨⟨item, rest'⟩, hparse, h⟩ := Option.bind_eq_some_iff.mp h
        have hitem := ihValue _ _ _ hparse
        dsimp only at h
        split at h
        · obtain ⟨p, hparse, hp⟩ := Option.map_eq_some_iff.mp h
          cases hp
          intro value hmem
          rcases List.mem_cons.mp hmem with rfl | hmem
          · exact hitem
          · exact ihItems _ _ _ hparse value hmem
        · cases h
          intro value hmem
          rw [List.mem_singleton.mp hmem]
          exact hitem
        · cases h
      · intro text members rest h
        rw [parseMembers] at h
        split at h
        · obtain ⟨⟨key, rest'⟩, -, h⟩ := Option.bind_eq_some_iff.mp h
          dsimp only at h
          split at h
          · obtain ⟨⟨value, rest'⟩, hparse, h⟩ := Option.bind_eq_some_iff.mp h
            have hvalue := ihValue _ _ _ hparse
            dsimp only at h
            split at h
            · obtain ⟨p, hparse, hp⟩ := Option.map_eq_some_iff.mp h
              cases hp
              intro member hmem
              rcases List.mem_cons.mp hmem with rfl | hmem
              · exact hvalue
              · exact ihMembers _ _ _ hparse member hmem
            · cases h
              intro member hmem
              rw [List.mem_singleton.mp hmem]
              exact hvalue
            · cases h
          · cases h
        · cases h

/-- **The codec keeps its promises.** -/
theorem codec_laws : codec.Laws where
  fromStr_wellFormed {text value} h := by
    obtain ⟨⟨parsed, rest⟩, hparse, hp⟩ := Option.bind_eq_some_iff.mp h
    dsimp only at hp
    split at hp
    · cases hp
      exact (parse_wellFormed _).1 _ _ _ hparse
    · cases hp
  toString_null := rfl
  toString_bool b := rfl
  toString_newline value := newline_not_mem_print 0 value
  number_refl n := by simp

/-- **What the codec prints it reads back.** -/
theorem codec_faithful : codec.Faithful where
  fromStr_toString h := fromStr_print (by simp) (by simp) h
  fromStr_toStringPretty {value} h := by
    apply fromStr_print _ _ h
    · intro depth c hmem
      rcases List.mem_cons.mp hmem with rfl | hmem
      · rfl
      · rw [List.eq_of_mem_replicate hmem]
        rfl
    · intro c hmem
      rw [List.mem_singleton.mp hmem]
      rfl

/-! ## A codec with a recursion limit -/

/-- The codec that does not read what is nested deeper than the limit. -/
def limitedCodec (limit : Nat) : SerdeJson Int :=
  { codec with fromStr := fun text => (codec.fromStr text).filter fun value => value.depth ≤ limit }

section Limited

variable {limit : Nat} {text : Str} {value : Json Int}

theorem limitedCodec_fromStr_eq_some_iff :
    (limitedCodec limit).fromStr text = some value ↔ codec.fromStr text = some value ∧ value.depth ≤ limit := by
  rw [limitedCodec, Option.filter_eq_some_iff, decide_eq_true_iff]

/-- A text that stands for a value that is nested too deep. -/
theorem limitedCodec_fromStr_deep (h : codec.fromStr text = some value) (hdeep : limit < value.depth) :
    (limitedCodec limit).fromStr text = none := by
  show (codec.fromStr text).filter _ = none
  rw [h, Option.filter_some, if_neg (by simpa using hdeep)]

theorem limitedCodec_laws (limit : Nat) : (limitedCodec limit).Laws where
  fromStr_wellFormed h := codec_laws.fromStr_wellFormed (limitedCodec_fromStr_eq_some_iff.mp h).1
  toString_null := codec_laws.toString_null
  toString_bool := codec_laws.toString_bool
  toString_newline := codec_laws.toString_newline
  number_refl := codec_laws.number_refl

/-- Its numbers are read exactly. -/
theorem limitedCodec_reread (limit : Nat) (n : Int) : (limitedCodec limit).reread 1 n = some n := by
  have hnumber := limitedCodec_fromStr_eq_some_iff.mpr
    ⟨codec_faithful.fromStr_toString (.number n), Nat.zero_le limit⟩
  rw [SerdeJson.reread, SerdeJson.reread, Option.bind_some, show (limitedCodec limit).fromStr
    ((limitedCodec limit).toString (.number n)) = some (.number n) from hnumber]

theorem limitedCodec_recursionLimit (limit : Nat) : (limitedCodec limit).RecursionLimit limit where
  fromStr_toString h hdepth := (limitedCodec_fromStr_eq_some_iff.mpr ⟨codec_faithful.fromStr_toString h, hdepth⟩).trans
    (Json.mapNumbers_eq_self fun n _ => limitedCodec_reread limit n).symm
  fromStr_toStringPretty h hdepth :=
    (limitedCodec_fromStr_eq_some_iff.mpr ⟨codec_faithful.fromStr_toStringPretty h, hdepth⟩).trans
      (Json.mapNumbers_eq_self fun n _ => limitedCodec_reread limit n).symm
  fromStr_depth h := (limitedCodec_fromStr_eq_some_iff.mp h).2
  fromStr_toString_deep h := limitedCodec_fromStr_deep (codec_faithful.fromStr_toString h)
  fromStr_toStringPretty_deep h := limitedCodec_fromStr_deep (codec_faithful.fromStr_toStringPretty h)

end Limited

end Inspect.JsonCodec
