import Inspect.Lib.Ascii
import Inspect.Mitm.Client

/-!
# `Mitm.Correctness.StatusText` — the status in the text of an error

The scan looks at bytes. A text has a status where three digits stand together that no digit is before or behind, if their
number is one of a status; the scan finds the first of these places, and it never looks outside of the text.
-/

namespace Inspect.Mitm

open Ascii (MaximalRun)

/-- The number that digits are. -/
def runValue (run : Str) : Nat := Nat.ofDigitChars 10 run 0

/-- A maximal run of digits that is a status. -/
structure StatusRun (text front run rest : Str) : Prop where
  maximal : MaximalRun Char.isDigit text front run rest
  length_eq : run.length = 3
  range : 100 ≤ runValue run ∧ runValue run ≤ 599

/-- The first status of a text. -/
structure FirstStatusRun (text front run rest : Str) : Prop where
  status : StatusRun text front run rest
  first : ∀ front' run' rest', StatusRun text front' run' rest' → front.length ≤ front'.length

/-- A status in the bytes of a text, by where it is. -/
def StatusAt (bytes : List UInt8) (i : Nat) (code : UInt16) : Prop :=
  ∃ front a b c rest, MaximalRun isAsciiDigit bytes front [a, b, c] rest ∧ front.length = i
    ∧ code = digitsCode a b c ∧ 100 ≤ code ∧ code ≤ 599

/-! ## One step of the scan -/

section Step

variable {front rest : List UInt8} {a b c : UInt8}

theorem leftOk_eq (front rest : List UInt8) :
    leftOk (front ++ rest) front.length = some (!front.getLast?.any isAsciiDigit) := by
  unfold leftOk
  rcases List.eq_nil_or_concat front with rfl | ⟨init, byte, rfl⟩
  · rfl
  · rw [List.concat_eq_append, if_neg (by simp), List.getLast?_concat, List.length_append, List.length_singleton,
      Nat.add_sub_cancel, List.append_assoc, List.getElem?_append_right (Nat.le_refl _), Nat.sub_self]
    rfl

theorem rightOk_eq (front rest : List UInt8) (a b c : UInt8) :
    rightOk (front ++ a :: b :: c :: rest) front.length = some (!rest.head?.any isAsciiDigit) := by
  unfold rightOk
  rw [List.getElem?_append_right (by omega), Nat.add_sub_cancel_left]
  cases rest with
  | nil => simp
  | cons byte rest =>
      rw [if_neg (by simp)]
      rfl

/-- A neighbour that there may be is no digit. -/
theorem not_any_iff {neighbour : Option UInt8} :
    (!neighbour.any isAsciiDigit) = true ↔ ∀ byte ∈ neighbour, isAsciiDigit byte = false := by
  cases neighbour with
  | none => exact ⟨fun _ byte hbyte => absurd hbyte (Option.not_mem_none byte), fun _ => rfl⟩
  | some byte => simp

/-- Whether three bytes are a status is decided by them and their neighbours. -/
theorem statusAt_iff {code : UInt16} :
    StatusAt (front ++ a :: b :: c :: rest) front.length code
      ↔ (isAsciiDigit a && isAsciiDigit b && isAsciiDigit c) = true
        ∧ ((!front.getLast?.any isAsciiDigit) && (!rest.head?.any isAsciiDigit)) = true
        ∧ code = digitsCode a b c ∧ 100 ≤ code ∧ code ≤ 599 := by
  have hdigits : (isAsciiDigit a && isAsciiDigit b && isAsciiDigit c) = true
      ↔ ∀ byte ∈ [a, b, c], isAsciiDigit byte = true := by
    simp [and_assoc]
  rw [hdigits, Bool.and_eq_true, not_any_iff, not_any_iff]
  constructor
  · -- a run of three bytes at this place can only be these three
    rintro ⟨front', a', b', c', rest', hrun, hlen, hcode, hrange⟩
    have heq := hrun.eq
    rw [List.append_assoc] at heq
    obtain ⟨rfl, htail⟩ := List.append_inj heq hlen.symm
    obtain ⟨rfl, rfl, rfl, rfl⟩ : a = a' ∧ b = b' ∧ c = c' ∧ rest = rest' := by simpa using htail
    exact ⟨hrun.all, ⟨hrun.left, hrun.right⟩, hcode, hrange⟩
  · rintro ⟨hall, ⟨hleft, hright⟩, hcode, hrange⟩
    exact ⟨front, a, b, c, rest, ⟨by simp, List.cons_ne_nil _ _, hall, hleft, hright⟩, rfl, hcode, hrange⟩

/-- One step of the scan, where three bytes are left: it ends at a status, and else goes on. -/
theorem extractLoop_step (indices : List Nat) :
    extractLoop (front ++ a :: b :: c :: rest) (front.length :: indices)
      = if (isAsciiDigit a && isAsciiDigit b && isAsciiDigit c) = true
          ∧ ((!front.getLast?.any isAsciiDigit) && (!rest.head?.any isAsciiDigit)) = true
          ∧ 100 ≤ digitsCode a b c ∧ digitsCode a b c ≤ 599 then some (some (digitsCode a b c))
        else extractLoop (front ++ a :: b :: c :: rest) indices := by
  have ha : (front ++ a :: b :: c :: rest)[front.length]? = some a := by simp
  have hb : (front ++ a :: b :: c :: rest)[front.length + 1]? = some b := by simp
  have hc : (front ++ a :: b :: c :: rest)[front.length + 2]? = some c := by simp
  rw [extractLoop, ha, hb, hc, leftOk_eq front (a :: b :: c :: rest), rightOk_eq front rest a b c]
  simp only [Option.bind_eq_bind, Option.bind_some]
  by_cases hdigits : (isAsciiDigit a && isAsciiDigit b && isAsciiDigit c) = true
  · by_cases hends : ((!front.getLast?.any isAsciiDigit) && (!rest.head?.any isAsciiDigit)) = true
    · simp only [hdigits, hends, true_and, Bool.not_true, Bool.false_eq_true, if_false]
    · simp only [hdigits, hends, true_and, false_and, Bool.not_true, Bool.false_eq_true, if_false, Bool.not_false,
        if_true]
  · simp only [hdigits, false_and, Bool.not_false, Bool.false_eq_true, if_true, if_false]

end Step

/-- Where three bytes are left, the text is cut around them. -/
theorem exists_cut {bytes : List UInt8} {i : Nat} (h : i + 2 < bytes.length) :
    ∃ front a b c rest, bytes = front ++ a :: b :: c :: rest ∧ i = front.length := by
  refine ⟨bytes.take i, bytes[i], bytes[i + 1], bytes[i + 2], bytes.drop (i + 3), ?_, ?_⟩
  · rw [List.getElem_cons_drop, List.getElem_cons_drop, List.getElem_cons_drop, List.take_append_drop]
  · rw [List.length_take]
    omega

/-- The scan ends at a status, and goes on from every other place. -/
theorem extractLoop_cons {bytes : List UInt8} {i : Nat} (h : i + 2 < bytes.length) (indices : List Nat) :
    (∃ code, StatusAt bytes i code ∧ extractLoop bytes (i :: indices) = some (some code))
      ∨ (∀ code, ¬StatusAt bytes i code) ∧ extractLoop bytes (i :: indices) = extractLoop bytes indices := by
  obtain ⟨front, a, b, c, rest, rfl, rfl⟩ := exists_cut h
  have hstep := @extractLoop_step front rest a b c indices
  split_ifs at hstep with hstatus
  · obtain ⟨hdigits, hends, hrange⟩ := hstatus
    exact Or.inl ⟨_, statusAt_iff.mpr ⟨hdigits, hends, rfl, hrange⟩, hstep⟩
  · refine Or.inr ⟨fun code hat => ?_, hstep⟩
    obtain ⟨hdigits, hends, rfl, hrange⟩ := statusAt_iff.mp hat
    exact hstatus ⟨hdigits, hends, hrange⟩

/-! ## The whole scan -/

/-- The scan finds the first status of the places it looks at, and it stays inside of the text. -/
theorem extractLoop_run {bytes : List UInt8} {indices : List Nat} (hbound : ∀ i ∈ indices, i + 2 < bytes.length)
    (hsorted : indices.Pairwise (· < ·)) :
    (∃ i ∈ indices, ∃ code, StatusAt bytes i code ∧ extractLoop bytes indices = some (some code)
        ∧ ∀ j ∈ indices, ∀ code', StatusAt bytes j code' → i ≤ j)
      ∨ ((∀ i ∈ indices, ∀ code, ¬StatusAt bytes i code) ∧ extractLoop bytes indices = some none) := by
  induction indices with
  | nil => exact Or.inr ⟨fun i hi => absurd hi List.not_mem_nil, rfl⟩
  | cons i indices ih =>
      obtain ⟨hi, hbelow⟩ := List.forall_mem_cons.mp hbound
      obtain ⟨hfirst, htail⟩ := List.pairwise_cons.mp hsorted
      rcases extractLoop_cons hi indices with ⟨code, hat, hloop⟩ | ⟨hnone, hstep⟩
      · -- every other place is behind this one
        refine Or.inl ⟨i, List.mem_cons_self, code, hat, hloop, fun j hj _ _ => ?_⟩
        rcases List.mem_cons.mp hj with rfl | hj
        · exact Nat.le_refl _
        · exact Nat.le_of_lt (hfirst j hj)
      · rw [hstep]
        rcases ih hbelow htail with ⟨j, hj, code, hat, hloop, hmin⟩ | ⟨hall, hloop⟩
        · refine Or.inl ⟨j, List.mem_cons_of_mem _ hj, code, hat, hloop, fun k hk code' hat' => ?_⟩
          rcases List.mem_cons.mp hk with rfl | hk
          · exact absurd hat' (hnone code')
          · exact hmin k hk code' hat'
        · exact Or.inr ⟨List.forall_mem_cons.mpr ⟨hnone, hall⟩, hloop⟩

/-- A status is at a place that the scan looks at. -/
theorem StatusAt.lt {bytes : List UInt8} {i : Nat} {code : UInt16} (h : StatusAt bytes i code) :
    i + 2 < bytes.length := by
  obtain ⟨front, a, b, c, rest, hrun, rfl, -⟩ := h
  rw [hrun.eq, List.length_append, List.length_append]
  simp only [List.length_cons, List.length_nil]
  omega

/-! ## From bytes to characters -/

theorem isAsciiDigit_iff (byte : UInt8) : isAsciiDigit byte = true ↔ 48 ≤ byte.toNat ∧ byte.toNat ≤ 57 := by
  unfold isAsciiDigit
  rw [Bool.and_eq_true, decide_eq_true_eq, decide_eq_true_eq]
  rfl

theorem isDigit_iff (c : Char) : c.isDigit = true ↔ 48 ≤ c.toNat ∧ c.toNat ≤ 57 := by
  unfold Char.isDigit
  rw [Bool.and_eq_true, decide_eq_true_eq, decide_eq_true_eq]
  rfl

theorem digitKind : Ascii.Kind Char.isDigit isAsciiDigit where
  ascii := by
    intro c hc
    rw [Bool.eq_iff_iff, isAsciiDigit_iff, isDigit_iff, UInt8.toNat_ofNat', Nat.mod_eq_of_lt (by omega)]
  char := by
    intro c hc
    rw [Bool.eq_false_iff, ne_eq, isDigit_iff]
    omega
  byte := by
    intro byte hbyte
    rw [Bool.eq_false_iff, ne_eq, isAsciiDigit_iff]
    omega

/-- Digits are one byte each. -/
theorem bytes_digits {run : Str} (h : ∀ c ∈ run, c.isDigit = true) :
    Text.bytes run = run.map fun c => UInt8.ofNat c.toNat := by
  refine Ascii.bytes_of_ascii fun c hc => ?_
  have hdigit := (isDigit_iff c).mp (h c hc)
  omega

/-- The scan computes the number that three digits are. -/
theorem digitsCode_eq {x y z : Char} (h : ∀ c ∈ [x, y, z], c.isDigit = true) :
    (digitsCode (UInt8.ofNat x.toNat) (UInt8.ofNat y.toNat) (UInt8.ofNat z.toNat)).toNat = runValue [x, y, z] := by
  have hx := (isDigit_iff x).mp (h x (by simp))
  have hy := (isDigit_iff y).mp (h y (by simp))
  have hz := (isDigit_iff z).mp (h z (by simp))
  -- no subtraction is below zero, and no sum is too large
  have hdigit : ∀ c : Char, 48 ≤ c.toNat → c.toNat ≤ 57 → (UInt8.ofNat c.toNat - 48).toUInt16.toNat = c.toNat - 48 := by
    intro c hlow hhigh
    rw [UInt8.toNat_toUInt16, UInt8.toNat_sub, UInt8.toNat_ofNat']
    change (2 ^ 8 - 48 + c.toNat % 2 ^ 8) % 2 ^ 8 = c.toNat - 48
    omega
  unfold digitsCode
  rw [UInt16.toNat_add, UInt16.toNat_add, UInt16.toNat_mul, UInt16.toNat_mul, hdigit x hx.1 hx.2, hdigit y hy.1 hy.2,
    hdigit z hz.1 hz.2]
  change (((x.toNat - 48) * 100 % 2 ^ 16 + (y.toNat - 48) * 10 % 2 ^ 16) % 2 ^ 16 + (z.toNat - 48)) % 2 ^ 16
    = 10 * (10 * (10 * 0 + (x.toNat - 48)) + (y.toNat - 48)) + (z.toNat - 48)
  omega

theorem StatusRun.statusAt {text front run rest : Str} (h : StatusRun text front run rest) :
    ∃ code, StatusAt (Text.bytes text) (Text.bytes front).length code ∧ code.toNat = runValue run := by
  obtain ⟨x, y, z, rfl⟩ := List.length_eq_three.mp h.length_eq
  have hrun := h.maximal.bytes digitKind
  rw [bytes_digits h.maximal.all] at hrun
  have hcode := digitsCode_eq h.maximal.all
  refine ⟨_, ⟨_, _, _, _, _, hrun, rfl, rfl, ?_⟩, hcode⟩
  rw [UInt16.le_iff_toNat_le, UInt16.le_iff_toNat_le, hcode]
  exact h.range

theorem StatusAt.statusRun {text : Str} {i : Nat} {code : UInt16} (h : StatusAt (Text.bytes text) i code) :
    ∃ front run rest, StatusRun text front run rest ∧ (Text.bytes front).length = i ∧ code.toNat = runValue run := by
  obtain ⟨bytesFront, a, b, c, bytesRest, hbytes, rfl, rfl, hrange⟩ := h
  obtain ⟨front, run, rest, hrun, rfl, hthree, -⟩ := hbytes.of_bytes digitKind
  rw [bytes_digits hrun.all] at hthree
  have hlen : run.length = 3 := by
    rw [← List.length_map, hthree]
    rfl
  obtain ⟨x, y, z, rfl⟩ := List.length_eq_three.mp hlen
  obtain ⟨rfl, rfl, rfl⟩ : UInt8.ofNat x.toNat = a ∧ UInt8.ofNat y.toNat = b ∧ UInt8.ofNat z.toNat = c := by
    simpa using hthree
  have hcode := digitsCode_eq hrun.all
  rw [UInt16.le_iff_toNat_le, UInt16.le_iff_toNat_le, hcode] at hrange
  exact ⟨front, [x, y, z], rest, ⟨hrun, hlen, hrange⟩, rfl, hcode⟩

/-! ## The first status -/

/-- The scan finds the first status, if there is one. -/
theorem extractHttpStatusFromErrorText_cases (text : Str) :
    (∃ code front run rest, extractHttpStatusFromErrorText text = some (some code) ∧ FirstStatusRun text front run rest
        ∧ code.toNat = runValue run)
      ∨ (extractHttpStatusFromErrorText text = some none ∧ ∀ front run rest, ¬StatusRun text front run rest) := by
  unfold extractHttpStatusFromErrorText
  dsimp only
  split_ifs with hshort
  · refine Or.inr ⟨rfl, fun front run rest hrun => ?_⟩
    obtain ⟨code, hat, -⟩ := hrun.statusAt
    have hlt := hat.lt
    omega
  · -- the places of the scan are those where three bytes are left, and every status is at one of them
    have hbound : ∀ i ∈ List.range ((Text.bytes text).length - 3 + 1), i + 2 < (Text.bytes text).length := by
      intro i hi
      have hlt := List.mem_range.mp hi
      omega
    have hplace : ∀ {i code}, StatusAt (Text.bytes text) i code → i ∈ List.range ((Text.bytes text).length - 3 + 1) := by
      intro i code hat
      have hlt := hat.lt
      exact List.mem_range.mpr (by omega)
    rcases extractLoop_run hbound List.pairwise_lt_range with ⟨i, _, code, hat, hloop, hmin⟩ | ⟨hnone, hloop⟩
    · obtain ⟨front, run, rest, hrun, rfl, hcode⟩ := hat.statusRun
      refine Or.inl ⟨code, front, run, rest, hloop, ⟨hrun, fun front' run' rest' hrun' => ?_⟩, hcode⟩
      obtain ⟨code', hat', -⟩ := hrun'.statusAt
      -- of two cuts of a text, the one with fewer bytes in front has fewer characters in front
      have hle := hmin _ (hplace hat') code' hat'
      have hcut : front ++ (run ++ rest) = front' ++ (run' ++ rest') := by
        rw [← List.append_assoc, ← List.append_assoc, ← hrun.maximal.eq, ← hrun'.maximal.eq]
      exact (Ascii.length_le_iff hcut).mp hle
    · refine Or.inr ⟨hloop, fun front run rest hrun => ?_⟩
      obtain ⟨code, hat, -⟩ := hrun.statusAt
      exact hnone _ (hplace hat) code hat

/-- A text has one first status. -/
theorem FirstStatusRun.unique {text front run rest front' run' rest' : Str} (h : FirstStatusRun text front run rest)
    (h' : FirstStatusRun text front' run' rest') : run = run' := by
  have hlen : front.length = front'.length :=
    Nat.le_antisymm (h.first _ _ _ h'.status) (h'.first _ _ _ h.status)
  have heq := h.status.maximal.eq.symm.trans h'.status.maximal.eq
  rw [List.append_assoc, List.append_assoc] at heq
  obtain ⟨-, heq⟩ := List.append_inj heq hlen
  exact (List.append_inj heq (h.status.length_eq.trans h'.status.length_eq.symm)).1

/-- **The status of an error text is its first maximal run of three digits that is a status**, and there is none without
    one; no text makes the scan leave it. -/
theorem extractHttpStatusFromErrorText_first (text : Str) :
    ∃ result, extractHttpStatusFromErrorText text = some result
      ∧ (∀ code, result = some code ↔ ∃ front run rest, FirstStatusRun text front run rest ∧ code.toNat = runValue run)
      ∧ (result = none ↔ ∀ front run rest, ¬StatusRun text front run rest) := by
  rcases extractHttpStatusFromErrorText_cases text with ⟨code, front, run, rest, heq, hfirst, hcode⟩ | ⟨heq, hnone⟩
  · refine ⟨some code, heq, fun code' => ⟨?_, ?_⟩, ?_, ?_⟩
    · rintro ⟨⟩
      exact ⟨front, run, rest, hfirst, hcode⟩
    · rintro ⟨front', run', rest', hfirst', hcode'⟩
      rw [hfirst.unique hfirst', ← hcode'] at hcode
      rw [UInt16.toNat_inj.mp hcode]
    · intro hnone
      cases hnone
    · intro hnone
      exact absurd hfirst.status (hnone front run rest)
  · refine ⟨none, heq, fun code => ⟨?_, ?_⟩, fun _ => hnone, fun _ => rfl⟩
    · intro hsome
      cases hsome
    · rintro ⟨front, run, rest, hfirst, -⟩
      exact absurd hfirst.status (hnone front run rest)

example : extractHttpStatusFromErrorText "10.0.0.1:8080: 1503 099 600 é404".toList = some (some 404) := by
  decide +kernel

/-- A failed call reports the status in its text, or else that of the response that it is turned into. -/
theorem upstreamCall_error {proxyMode : ProxyMode} {requestUa : Option Http.HeaderValue}
    {remoteAddr : Flow.Response → Option Str} {serve : Flow.Request → Except (Str × Flow.Response) Flow.Response}
    (errText : Str) (res : Flow.Response) (hserve : ∀ req, serve req = .error (errText, res)) (req : Flow.Request) :
    ∃ result status, upstreamCall proxyMode requestUa remoteAddr serve req = some result
      ∧ result.upstreamStatus = some status
      ∧ ((∃ front run rest, FirstStatusRun errText front run rest ∧ status.toNat = runValue run)
          ∨ ((∀ front run rest, ¬StatusRun errText front run rest) ∧ status = res.parts.status.code)) := by
  unfold upstreamCall
  dsimp only
  rw [hserve]
  dsimp only
  rcases extractHttpStatusFromErrorText_cases errText with ⟨code, front, run, rest, heq, hfirst, hcode⟩ | ⟨heq, hnone⟩
  · rw [heq]
    exact ⟨_, code, rfl, rfl, Or.inl ⟨front, run, rest, hfirst, hcode⟩⟩
  · rw [heq]
    exact ⟨_, _, rfl, rfl, Or.inr ⟨hnone, rfl⟩⟩

end Inspect.Mitm
