import Inspect.Lib.Text

/-!
# `Lib.Ascii` — ASCII characters in the bytes of a text

An ASCII character is one byte, and no other character has such a byte. So a text is cut at its ASCII bytes where it is
cut at its ASCII characters, and the maximal runs of ASCII characters of some kind are the maximal runs of their bytes.
-/

namespace Inspect.Ascii

open Text (bytes)

/-- `run` is a part of `items` of one kind, and it cannot be made longer at either end. -/
structure MaximalRun {α : Type} (kind : α → Bool) (items front run rest : List α) : Prop where
  eq : items = front ++ run ++ rest
  ne_nil : run ≠ []
  all : ∀ item ∈ run, kind item = true
  left : ∀ item ∈ front.getLast?, kind item = false
  right : ∀ item ∈ rest.head?, kind item = false

/-- A kind of ASCII characters, on characters and on bytes. -/
structure Kind (ofChar : Char → Bool) (ofByte : UInt8 → Bool) : Prop where
  ascii : ∀ c : Char, c.toNat < 128 → ofByte (UInt8.ofNat c.toNat) = ofChar c
  char : ∀ c : Char, 128 ≤ c.toNat → ofChar c = false
  byte : ∀ byte : UInt8, 128 ≤ byte.toNat → ofByte byte = false

/-! ## The bytes of a character -/

theorem encode_of_ascii {c : Char} (h : c.toNat < 128) : String.utf8EncodeChar c = [UInt8.ofNat c.toNat] := by
  unfold String.utf8EncodeChar
  dsimp only
  rw [if_pos (show c.val.toNat ≤ 127 from Nat.le_of_lt_succ h)]
  rfl

theorem le_of_mem_encode {c : Char} (h : 128 ≤ c.toNat) {byte : UInt8} (hmem : byte ∈ String.utf8EncodeChar c) :
    128 ≤ byte.toNat := by
  have hlow : ¬c.val.toNat ≤ 127 := Nat.not_le.mpr h
  unfold String.utf8EncodeChar at hmem
  dsimp only at hmem
  rw [if_neg hlow] at hmem
  split_ifs at hmem with htwo hthree
  all_goals
    simp only [List.mem_cons, List.not_mem_nil, or_false] at hmem
    rcases hmem with rfl | rfl | rfl | rfl
    all_goals
      rw [UInt8.toNat_ofNat']
      omega

theorem encode_ne_nil (c : Char) : String.utf8EncodeChar c ≠ [] := by
  rcases Text.utf8EncodeChar_cases c with ⟨byte, hencode, -⟩ | ⟨byte, rest, hencode, -⟩
  · rw [hencode]
    exact List.cons_ne_nil _ _
  · rw [hencode]
    exact List.cons_ne_nil _ _

/-- A character with an ASCII byte is this byte. -/
theorem encode_of_mem {c : Char} {byte : UInt8} (hmem : byte ∈ String.utf8EncodeChar c) (h : byte.toNat < 128) :
    String.utf8EncodeChar c = [byte] := by
  have hascii : c.toNat < 128 := by
    by_contra hnot
    exact absurd (le_of_mem_encode (Nat.not_lt.mp hnot) hmem) (Nat.not_le.mpr h)
  rw [encode_of_ascii hascii] at hmem ⊢
  rw [List.mem_singleton.mp hmem]

/-! ## Cutting a text at its ASCII bytes -/

theorem bytes_cons (c : Char) (text : Str) : bytes (c :: text) = String.utf8EncodeChar c ++ bytes text :=
  List.flatMap_cons

theorem bytes_append (text text' : Str) : bytes (text ++ text') = bytes text ++ bytes text' :=
  List.flatMap_append

theorem bytes_of_ascii {text : Str} (h : ∀ c ∈ text, c.toNat < 128) :
    bytes text = text.map fun c => UInt8.ofNat c.toNat := by
  induction text with
  | nil => rfl
  | cons c text ih =>
      obtain ⟨hc, htext⟩ := List.forall_mem_cons.mp h
      rw [bytes_cons, encode_of_ascii hc, ih htext]
      rfl

/-- A byte of an ASCII character is in a text where the character is. -/
theorem mem_bytes_iff {c : Char} (h : c.toNat < 128) {text : Str} : UInt8.ofNat c.toNat ∈ bytes text ↔ c ∈ text := by
  constructor
  · intro hmem
    obtain ⟨c', hc', hbyte⟩ := List.mem_flatMap.mp hmem
    have hsmall : (UInt8.ofNat c.toNat).toNat < 128 := by
      rw [UInt8.toNat_ofNat']
      omega
    have hencode : bytes [c'] = bytes [c] := by
      rw [bytes_cons, bytes_cons, encode_of_mem hbyte hsmall, encode_of_ascii h]
    rw [← List.singleton_inj.mp (Text.bytes_injective hencode)]
    exact hc'
  · intro hc
    refine List.mem_flatMap.mpr ⟨c, hc, ?_⟩
    rw [encode_of_ascii h]
    exact List.mem_singleton_self _

theorem eq_nil_of_bytes {text : Str} (h : bytes text = []) : text = [] := @Text.bytes_injective text [] h

/-- An ASCII byte is a character of its own. -/
theorem cut_at {byte : UInt8} (hbyte : byte.toNat < 128) {text : Str} {front rest : List UInt8}
    (h : bytes text = front ++ byte :: rest) :
    ∃ textFront c textRest, text = textFront ++ c :: textRest ∧ bytes textFront = front
      ∧ String.utf8EncodeChar c = [byte] ∧ bytes textRest = rest := by
  induction text generalizing front with
  | nil => exact absurd h.symm (by simp [bytes])
  | cons c text ih =>
      rw [bytes_cons] at h
      -- the byte is behind the first character, or one of its bytes
      have hbehind : ∀ between, front = String.utf8EncodeChar c ++ between → bytes text = between ++ byte :: rest →
          ∃ textFront c' textRest, c :: text = textFront ++ c' :: textRest ∧ bytes textFront = front
            ∧ String.utf8EncodeChar c' = [byte] ∧ bytes textRest = rest := by
        intro between hfront htext
        obtain ⟨textFront, c', textRest, rfl, hbetween, hc, hrest⟩ := ih htext
        exact ⟨c :: textFront, c', textRest, rfl, by rw [bytes_cons, hbetween, hfront], hc, hrest⟩
      rcases List.append_eq_append_iff.mp h with ⟨between, hfront, htext⟩ | ⟨between, hencode, hrest⟩
      · exact hbehind between hfront htext
      · cases between with
        | nil => exact hbehind [] (by simpa using hencode.symm) hrest.symm
        | cons byte' between =>
            obtain ⟨rfl, htext⟩ := List.cons.inj hrest
            have hsingle := encode_of_mem (by rw [hencode]; simp) hbyte
            rw [hsingle] at hencode
            have hlen := congrArg List.length hencode
            rw [List.length_append, List.length_cons, List.length_cons, List.length_nil] at hlen
            obtain rfl : front = [] := List.length_eq_zero_iff.mp (by omega)
            obtain rfl : between = [] := List.length_eq_zero_iff.mp (by omega)
            exact ⟨[], c, text, rfl, rfl, hsingle, htext.symm⟩

/-- ASCII bytes are characters of their own. -/
theorem cut {run : List UInt8} (hne : run ≠ []) (hrun : ∀ byte ∈ run, byte.toNat < 128) {text : Str}
    {front rest : List UInt8} (h : bytes text = front ++ run ++ rest) :
    ∃ textFront textRun textRest, text = textFront ++ textRun ++ textRest ∧ bytes textFront = front
      ∧ bytes textRun = run ∧ bytes textRest = rest := by
  induction run generalizing text front with
  | nil => exact absurd rfl hne
  | cons byte run ih =>
      obtain ⟨hbyte, hrun⟩ := List.forall_mem_cons.mp hrun
      rw [List.append_assoc, List.cons_append] at h
      obtain ⟨textFront, c, tail, rfl, hfront, hc, htail⟩ := cut_at hbyte h
      by_cases hnil : run = []
      · subst hnil
        refine ⟨textFront, [c], tail, by simp, hfront, ?_, htail⟩
        rw [bytes_cons, hc]
        rfl
      · obtain ⟨nothing, textRun, textRest, rfl, hnothing, htextRun, hrest⟩ :=
          @ih hnil hrun tail [] htail
        obtain rfl := eq_nil_of_bytes hnothing
        refine ⟨textFront, c :: textRun, textRest, by simp, hfront, ?_, hrest⟩
        rw [bytes_cons, hc, htextRun]
        rfl

/-- Of two places to cut a text, the one that is earlier in characters is earlier in bytes. -/
theorem length_le_iff {front rest front' rest' : Str} (h : front ++ rest = front' ++ rest') :
    (bytes front).length ≤ (bytes front').length ↔ front.length ≤ front'.length := by
  rcases List.append_eq_append_iff.mp h with ⟨between, rfl, -⟩ | ⟨between, rfl, -⟩
  · rw [bytes_append, List.length_append, List.length_append]
    omega
  · have hnil : (bytes between).length = 0 ↔ between.length = 0 := by
      rw [List.length_eq_zero_iff, List.length_eq_zero_iff]
      exact ⟨eq_nil_of_bytes, fun hbetween => by rw [hbetween]; rfl⟩
    rw [bytes_append, List.length_append, List.length_append]
    omega

/-! ## Maximal runs -/

section Runs

variable {ofChar : Char → Bool} {ofByte : UInt8 → Bool}

/-- The bytes of a character are of its kind. -/
theorem Kind.of_mem (h : Kind ofChar ofByte) {c : Char} {byte : UInt8} (hmem : byte ∈ String.utf8EncodeChar c) :
    ofByte byte = ofChar c := by
  by_cases hascii : c.toNat < 128
  · rw [encode_of_ascii hascii, List.mem_singleton] at hmem
    rw [hmem, h.ascii c hascii]
  · have hc := Nat.not_lt.mp hascii
    rw [h.char c hc, h.byte byte (le_of_mem_encode hc hmem)]

theorem Kind.getLast (h : Kind ofChar ofByte) (text : Str) :
    (∀ byte ∈ (bytes text).getLast?, ofByte byte = false) ↔ ∀ c ∈ text.getLast?, ofChar c = false := by
  rcases List.eq_nil_or_concat text with rfl | ⟨front, c, rfl⟩
  · exact ⟨fun _ c hc => by simp at hc, fun _ byte hbyte => by simp [bytes] at hbyte⟩
  · have hlast := List.getLast?_eq_some_getLast (encode_ne_nil c)
    rw [List.concat_eq_append, bytes_append, bytes_cons, show bytes [] = [] from rfl, List.append_nil,
      List.getLast?_append_of_ne_nil _ (encode_ne_nil c), hlast, List.getLast?_concat]
    have hkind := h.of_mem (List.getLast_mem (encode_ne_nil c))
    simp [hkind]

theorem Kind.head (h : Kind ofChar ofByte) (text : Str) :
    (∀ byte ∈ (bytes text).head?, ofByte byte = false) ↔ ∀ c ∈ text.head?, ofChar c = false := by
  cases text with
  | nil => exact ⟨fun _ c hc => by simp at hc, fun _ byte hbyte => by simp [bytes] at hbyte⟩
  | cons c text =>
      obtain ⟨byte, rest, hencode⟩ := List.exists_cons_of_ne_nil (encode_ne_nil c)
      have hbyte : byte ∈ String.utf8EncodeChar c := by rw [hencode]; exact List.mem_cons_self
      have hkind := h.of_mem hbyte
      rw [bytes_cons, hencode, List.cons_append, List.head?_cons, List.head?_cons]
      simp [hkind]

theorem Kind.all (h : Kind ofChar ofByte) (text : Str) :
    (∀ byte ∈ bytes text, ofByte byte = true) ↔ ∀ c ∈ text, ofChar c = true := by
  constructor
  · intro hbytes c hc
    obtain ⟨byte, rest, hencode⟩ := List.exists_cons_of_ne_nil (encode_ne_nil c)
    have hbyte : byte ∈ String.utf8EncodeChar c := by rw [hencode]; exact List.mem_cons_self
    rw [← h.of_mem hbyte]
    exact hbytes byte (List.mem_flatMap.mpr ⟨c, hc, hbyte⟩)
  · intro hchars byte hbyte
    obtain ⟨c, hc, hmem⟩ := List.mem_flatMap.mp hbyte
    rw [h.of_mem hmem]
    exact hchars c hc

/-- **A maximal run of characters is one of bytes.** -/
theorem MaximalRun.bytes (h : Kind ofChar ofByte) {text front run rest : Str}
    (hrun : MaximalRun ofChar text front run rest) :
    MaximalRun ofByte (bytes text) (bytes front) (bytes run) (bytes rest) where
  eq := by rw [hrun.eq, bytes_append, bytes_append]
  ne_nil := fun hnil => hrun.ne_nil (eq_nil_of_bytes hnil)
  all := (h.all run).mpr hrun.all
  left := (h.getLast front).mpr hrun.left
  right := (h.head rest).mpr hrun.right

/-- **A maximal run of bytes is one of characters.** -/
theorem MaximalRun.of_bytes (h : Kind ofChar ofByte) {text : Str} {front run rest : List UInt8}
    (hrun : MaximalRun ofByte (Text.bytes text) front run rest) :
    ∃ textFront textRun textRest, MaximalRun ofChar text textFront textRun textRest
      ∧ Text.bytes textFront = front ∧ Text.bytes textRun = run ∧ Text.bytes textRest = rest := by
  have hascii : ∀ byte ∈ run, byte.toNat < 128 := by
    intro byte hbyte
    by_contra hnot
    have hkind := hrun.all byte hbyte
    rw [h.byte byte (Nat.not_lt.mp hnot)] at hkind
    cases hkind
  obtain ⟨textFront, textRun, textRest, heq, rfl, rfl, rfl⟩ := cut hrun.ne_nil hascii hrun.eq
  refine ⟨textFront, textRun, textRest, ⟨heq, ?_, ?_, ?_, ?_⟩, rfl, rfl, rfl⟩
  · rintro rfl
    exact hrun.ne_nil rfl
  · exact (h.all textRun).mp hrun.all
  · exact (h.getLast textFront).mp hrun.left
  · exact (h.head textRest).mp hrun.right

end Runs

end Inspect.Ascii
