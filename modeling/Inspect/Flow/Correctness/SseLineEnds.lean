import Inspect.Flow.SseCapture

/-!
# `Flow.Correctness.SseLineEnds` — the terminators that are recognised

An event ends with an empty line, and a line ends with CRLF, LF or CR. `firstBlankLine` is this definition;
`find_sse_event_end` tries four byte patterns at every index instead. The two agree where the line ends around the
empty line are of one kind, or CRLF and then LF; for every other pair the code misses the empty line, or, for CR and
then CRLF, stops in the middle of it.
-/

namespace Inspect.Sse

/-! ## Line ends -/

inductive LineEnd
  | crlf
  | lf
  | cr
deriving DecidableEq, Repr

def LineEnd.length : LineEnd → Nat
  | .crlf => 2
  | .lf | .cr => 1

/-- The line end that a text starts with. CRLF is one line end. -/
def lineEndOf : List UInt8 → Option LineEnd
  | 13 :: 10 :: _ => some .crlf
  | 13 :: _ => some .cr
  | 10 :: _ => some .lf
  | _ => none

/-- An empty line: the line end before it, its own, and where it ends. -/
structure BlankLine where
  before : LineEnd
  own : LineEnd
  endAt : Nat
deriving DecidableEq, Repr

/-- The same line in a text with `n` more bytes in front. -/
def BlankLine.shift (n : Nat) (line : BlankLine) : BlankLine := { line with endAt := n + line.endAt }

/-- **The first empty line that follows a line end.** -/
def firstBlankLine : List UInt8 → Option BlankLine
  | [] => none
  | byte :: rest =>
      match lineEndOf (byte :: rest) with
      | none => (firstBlankLine rest).map (BlankLine.shift 1)
      | some before =>
          let following := rest.drop (before.length - 1)
          match lineEndOf following with
          | some own => some ⟨before, own, before.length + own.length⟩
          | none => (firstBlankLine following).map (BlankLine.shift before.length)
termination_by bytes => bytes.length
decreasing_by
  all_goals simp only [List.length_cons, List.length_drop]
  all_goals omega

/-- The pairs of line ends that the code looks for. -/
def BlankLine.recognised (line : BlankLine) : Bool :=
  line.before = line.own || line.before = .crlf && line.own = .lf

theorem firstBlankLine_of_none {byte : UInt8} {rest : List UInt8} (h : lineEndOf (byte :: rest) = none) :
    firstBlankLine (byte :: rest) = (firstBlankLine rest).map (BlankLine.shift 1) := by
  rw [firstBlankLine]
  split
  · rfl
  · rename_i heq
    rw [h] at heq
    cases heq

theorem firstBlankLine_of_some {byte : UInt8} {rest : List UInt8} {before : LineEnd}
    (h : lineEndOf (byte :: rest) = some before) :
    firstBlankLine (byte :: rest)
      = match lineEndOf (rest.drop (before.length - 1)) with
        | some own => some ⟨before, own, before.length + own.length⟩
        | none => (firstBlankLine (rest.drop (before.length - 1))).map (BlankLine.shift before.length) := by
  rw [firstBlankLine]
  split
  · rename_i heq
    rw [h] at heq
    cases heq
  · rename_i heq
    rw [h] at heq
    cases heq
    rfl

/-! ## Line ends and terminators -/

theorem lineEndOf_crlf {bytes : List UInt8} (h : lineEndOf bytes = some .crlf) : ∃ rest, bytes = 13 :: 10 :: rest := by
  unfold lineEndOf at h
  split at h
  · exact ⟨_, rfl⟩
  · cases h
  · cases h
  · cases h

theorem lineEndOf_lf {bytes : List UInt8} (h : lineEndOf bytes = some .lf) : ∃ rest, bytes = 10 :: rest := by
  unfold lineEndOf at h
  split at h
  · cases h
  · cases h
  · exact ⟨_, rfl⟩
  · cases h

/-- A line that ends with CR: no LF follows. -/
theorem lineEndOf_cr {bytes : List UInt8} (h : lineEndOf bytes = some .cr) :
    ∃ rest, bytes = 13 :: rest ∧ rest.head? ≠ some 10 := by
  unfold lineEndOf at h
  split at h
  · cases h
  · rename_i rest hne
    refine ⟨rest, rfl, ?_⟩
    intro hhead
    obtain ⟨tail, rfl⟩ := List.head?_eq_some_iff.mp hhead
    exact hne tail rfl
  · cases h
  · cases h

/-- A text that starts with no line end starts with another byte. -/
theorem lineEndOf_none {bytes : List UInt8} (h : lineEndOf bytes = none) :
    bytes.head? ≠ some 13 ∧ bytes.head? ≠ some 10 := by
  unfold lineEndOf at h
  split at h
  · cases h
  · cases h
  · cases h
  · rename_i hcr hlf
    constructor
    · intro hhead
      obtain ⟨tail, rfl⟩ := List.head?_eq_some_iff.mp hhead
      exact hcr tail rfl
    · intro hhead
      obtain ⟨tail, rfl⟩ := List.head?_eq_some_iff.mp hhead
      exact hlf tail rfl

/-- Every terminator starts with a line end. -/
theorem terminatorLen_of_lineEndOf_none {bytes : List UInt8} (h : lineEndOf bytes = none) :
    terminatorLen bytes = none := by
  obtain ⟨hcr, hlf⟩ := lineEndOf_none h
  rcases bytes with _ | ⟨a, bytes⟩
  · rfl
  · have hcr : a ≠ 13 := fun heq => hcr (congrArg some heq)
    have hlf : a ≠ 10 := fun heq => hlf (congrArg some heq)
    simp [terminatorLen, List.isPrefixOf, hcr.symm, hlf.symm]

theorem terminatorLen_lf {rest : List UInt8} (h : rest.head? ≠ some 10) : terminatorLen (10 :: rest) = none := by
  rcases rest with _ | ⟨a, rest⟩
  · rfl
  · have hlf : a ≠ 10 := fun heq => h (congrArg some heq)
    simp [terminatorLen, List.isPrefixOf, hlf.symm]

theorem terminatorLen_cr {rest : List UInt8} (h : lineEndOf rest = none) : terminatorLen (13 :: rest) = none := by
  obtain ⟨hcr, hlf⟩ := lineEndOf_none h
  rcases rest with _ | ⟨a, rest⟩
  · rfl
  · have hcr : a ≠ 13 := fun heq => hcr (congrArg some heq)
    have hlf : a ≠ 10 := fun heq => hlf (congrArg some heq)
    simp [terminatorLen, List.isPrefixOf, hcr.symm, hlf.symm]

/-- CRLF starts a terminator together with CRLF or LF only. -/
theorem terminatorLen_crlf {rest : List UInt8} (hcrlf : lineEndOf rest ≠ some .crlf) (hlf : lineEndOf rest ≠ some .lf) :
    terminatorLen (13 :: 10 :: rest) = none := by
  rcases rest with _ | ⟨a, rest⟩
  · rfl
  · have hfirst : a ≠ 10 := by
      rintro rfl
      exact hlf rfl
    rcases rest with _ | ⟨b, rest⟩
    · simp [terminatorLen, List.isPrefixOf, hfirst.symm]
    · have hsecond : ¬(a = 13 ∧ b = 10) := by
        rintro ⟨rfl, rfl⟩
        exact hcrlf rfl
      simp only [terminatorLen, List.isPrefixOf]
      grind

/-- A byte that starts no terminator is skipped. -/
theorem findSseEventEnd_skip {byte : UInt8} {rest : List UInt8} (h : terminatorLen (byte :: rest) = none) :
    findSseEventEnd (byte :: rest) = (findSseEventEnd rest).map (1 + ·) := by
  rw [findSseEventEnd_cons, h]

/-- A terminator is found where it starts. -/
theorem findSseEventEnd_hit {byte : UInt8} {rest : List UInt8} {len : Nat}
    (h : terminatorLen (byte :: rest) = some len) : findSseEventEnd (byte :: rest) = some len := by
  rw [findSseEventEnd_cons, h]

/-- What lies behind a skipped byte ends two bytes later at least. -/
theorem findSseEventEnd_skip_ne {byte : UInt8} {rest : List UInt8} {n : Nat} (h : terminatorLen (byte :: rest) = none)
    (hn : findSseEventEnd rest ≠ some n) : findSseEventEnd (byte :: rest) ≠ some (n + 1) := by
  intro hend
  rw [findSseEventEnd_skip h] at hend
  obtain ⟨m, hm, heq⟩ := Option.map_eq_some_iff.mp hend
  have hmn : m = n := by omega
  rw [hmn] at hm
  exact hn hm

theorem findSseEventEnd_ne_one (bytes : List UInt8) : findSseEventEnd bytes ≠ some 1 := by
  intro hend
  have hbounds := findSseEventEnd_bounds hend
  omega

/-- No terminator that starts with CRLF has two bytes. -/
theorem findSseEventEnd_crlf_ne_two (rest : List UInt8) : findSseEventEnd (13 :: 10 :: rest) ≠ some 2 := by
  by_cases hcrlf : lineEndOf rest = some .crlf
  · obtain ⟨rest, rfl⟩ := lineEndOf_crlf hcrlf
    have hfour : terminatorLen (13 :: 10 :: 13 :: 10 :: rest) = some 4 := rfl
    rw [findSseEventEnd_hit hfour]
    decide
  · by_cases hlf : lineEndOf rest = some .lf
    · obtain ⟨rest, rfl⟩ := lineEndOf_lf hlf
      have hthree : terminatorLen (13 :: 10 :: 10 :: rest) = some 3 := rfl
      rw [findSseEventEnd_hit hthree]
      decide
    · exact findSseEventEnd_skip_ne (terminatorLen_crlf hcrlf hlf) (findSseEventEnd_ne_one _)

/-! ## One line end -/

/-- A line end that no other follows is skipped by the code. -/
theorem findSseEventEnd_single {byte : UInt8} {rest : List UInt8} {before : LineEnd}
    (hbefore : lineEndOf (byte :: rest) = some before)
    (hnone : lineEndOf (rest.drop (before.length - 1)) = none) :
    findSseEventEnd (byte :: rest)
      = (findSseEventEnd (rest.drop (before.length - 1))).map (before.length + ·) := by
  cases before with
  | crlf =>
      obtain ⟨rest, heq⟩ := lineEndOf_crlf hbefore
      cases heq
      have hnone : lineEndOf rest = none := hnone
      have hcrlf : terminatorLen (13 :: 10 :: rest) = none := by
        apply terminatorLen_crlf
        · rw [hnone]; decide
        · rw [hnone]; decide
      rw [findSseEventEnd_skip hcrlf, findSseEventEnd_skip (terminatorLen_lf (lineEndOf_none hnone).2), Option.map_map]
      show _ = (findSseEventEnd rest).map (2 + ·)
      congr 1
      funext n
      show 1 + (1 + n) = 2 + n
      omega
  | lf =>
      obtain ⟨rest, heq⟩ := lineEndOf_lf hbefore
      cases heq
      exact findSseEventEnd_skip (terminatorLen_lf (lineEndOf_none hnone).2)
  | cr =>
      obtain ⟨rest, heq, -⟩ := lineEndOf_cr hbefore
      cases heq
      exact findSseEventEnd_skip (terminatorLen_cr hnone)

/-! ## Two line ends -/

/-- **Two line ends in a row**: the code finds the end of the second if and only if it knows the pair. -/
theorem findSseEventEnd_pair {byte : UInt8} {rest : List UInt8} {before own : LineEnd}
    (hbefore : lineEndOf (byte :: rest) = some before)
    (hown : lineEndOf (rest.drop (before.length - 1)) = some own) :
    findSseEventEnd (byte :: rest) = some (before.length + own.length)
      ↔ (BlankLine.mk before own (before.length + own.length)).recognised = true := by
  cases before with
  | crlf =>
      obtain ⟨rest, heq⟩ := lineEndOf_crlf hbefore
      cases heq
      have hown : lineEndOf rest = some own := hown
      cases own with
      | crlf =>
          obtain ⟨rest, rfl⟩ := lineEndOf_crlf hown
          exact iff_of_true (findSseEventEnd_hit rfl) rfl
      | lf =>
          obtain ⟨rest, rfl⟩ := lineEndOf_lf hown
          exact iff_of_true (findSseEventEnd_hit rfl) rfl
      | cr =>
          refine iff_of_false ?_ Bool.false_ne_true
          have hcrlf : terminatorLen (13 :: 10 :: rest) = none := by
            apply terminatorLen_crlf
            · rw [hown]; decide
            · rw [hown]; decide
          obtain ⟨tail, rfl, -⟩ := lineEndOf_cr hown
          have hlf : terminatorLen (10 :: 13 :: tail) = none := terminatorLen_lf (by simp)
          exact findSseEventEnd_skip_ne hcrlf (findSseEventEnd_skip_ne hlf (findSseEventEnd_ne_one _))
  | lf =>
      obtain ⟨rest, heq⟩ := lineEndOf_lf hbefore
      cases heq
      have hown : lineEndOf rest = some own := hown
      cases own with
      | lf =>
          obtain ⟨rest, rfl⟩ := lineEndOf_lf hown
          exact iff_of_true (findSseEventEnd_hit rfl) rfl
      | cr =>
          refine iff_of_false ?_ Bool.false_ne_true
          obtain ⟨rest, rfl, -⟩ := lineEndOf_cr hown
          have hlf : terminatorLen (10 :: 13 :: rest) = none := terminatorLen_lf (by simp)
          exact findSseEventEnd_skip_ne hlf (findSseEventEnd_ne_one _)
      | crlf =>
          refine iff_of_false ?_ Bool.false_ne_true
          obtain ⟨rest, rfl⟩ := lineEndOf_crlf hown
          have hlf : terminatorLen (10 :: 13 :: 10 :: rest) = none := terminatorLen_lf (by simp)
          exact findSseEventEnd_skip_ne hlf (findSseEventEnd_crlf_ne_two rest)
  | cr =>
      obtain ⟨rest, heq, hhead⟩ := lineEndOf_cr hbefore
      cases heq
      have hown : lineEndOf rest = some own := hown
      cases own with
      | lf =>
          obtain ⟨rest, rfl⟩ := lineEndOf_lf hown
          exact absurd rfl hhead
      | cr =>
          obtain ⟨rest, rfl, -⟩ := lineEndOf_cr hown
          have hcr : terminatorLen (13 :: 13 :: rest) = some 2 := by simp [terminatorLen, List.isPrefixOf]
          exact iff_of_true (findSseEventEnd_hit hcr) rfl
      | crlf =>
          -- the code stops between the CR and the LF of the second line end
          obtain ⟨rest, rfl⟩ := lineEndOf_crlf hown
          refine iff_of_false ?_ Bool.false_ne_true
          have hcr : terminatorLen (13 :: 13 :: 10 :: rest) = some 2 := by simp [terminatorLen, List.isPrefixOf]
          rw [findSseEventEnd_hit hcr]
          decide

/-! ## Main results -/

/-- **When the code finds the end of the first empty line**: if and only if there is none, or the line ends around it
    are of one kind, or CRLF and then LF. -/
theorem findSseEventEnd_eq_firstBlankLine_iff (bytes : List UInt8) :
    findSseEventEnd bytes = (firstBlankLine bytes).map BlankLine.endAt
      ↔ ∀ line ∈ firstBlankLine bytes, line.recognised = true := by
  -- on the length: both searches go on behind the first line end, which may be two bytes
  induction hlen : bytes.length using Nat.strongRecOn generalizing bytes with
  | _ n ih =>
      rcases bytes with _ | ⟨byte, rest⟩
      · rw [firstBlankLine]
        exact iff_of_true rfl (fun line hline => nomatch hline)
      · -- a shift by the same number of bytes on both sides
        have hshift : ∀ (k : Nat) (tail : List UInt8), tail.length < n →
            findSseEventEnd (byte :: rest) = (findSseEventEnd tail).map (k + ·) →
            firstBlankLine (byte :: rest) = (firstBlankLine tail).map (BlankLine.shift k) →
            (findSseEventEnd (byte :: rest) = (firstBlankLine (byte :: rest)).map BlankLine.endAt
              ↔ ∀ line ∈ firstBlankLine (byte :: rest), line.recognised = true) := by
          intro k tail htail hcode hspec
          have hends : ((firstBlankLine tail).map (BlankLine.shift k)).map BlankLine.endAt
              = ((firstBlankLine tail).map BlankLine.endAt).map (k + ·) := by
            rw [Option.map_map, Option.map_map]
            rfl
          rw [hcode, hspec, hends, (Option.map_injective (add_right_injective k)).eq_iff, ih _ htail tail rfl]
          constructor
          · intro h line hline
            obtain ⟨line, hmem, rfl⟩ := Option.map_eq_some_iff.mp hline
            exact h line hmem
          · intro h line hline
            exact h (line.shift k) (Option.map_eq_some_iff.mpr ⟨line, hline, rfl⟩)
        rw [List.length_cons] at hlen
        cases hbefore : lineEndOf (byte :: rest) with
        | none =>
            exact hshift 1 rest (by omega) (findSseEventEnd_skip (terminatorLen_of_lineEndOf_none hbefore))
              (firstBlankLine_of_none hbefore)
        | some before =>
            have hspec := firstBlankLine_of_some hbefore
            cases hown : lineEndOf (rest.drop (before.length - 1)) with
            | none =>
                rw [hown] at hspec
                exact hshift before.length _ (by rw [List.length_drop]; omega)
                  (findSseEventEnd_single hbefore hown) hspec
            | some own =>
                rw [hown] at hspec
                rw [hspec]
                refine (findSseEventEnd_pair hbefore hown).trans ⟨?_, fun h => h _ rfl⟩
                rintro hrecognised line ⟨⟩
                exact hrecognised

/-- Mixed line ends: the empty line behind LF that ends with CRLF is not found. -/
theorem mixed_line_ends_missed :
    ¬∀ bytes : List UInt8, findSseEventEnd bytes = (firstBlankLine bytes).map BlankLine.endAt := by
  intro h
  have hmissed := h [97, 10, 13, 10]
  have hspec : firstBlankLine [97, 10, 13, 10] = some ⟨.lf, .crlf, 4⟩ := by
    have hlf : lineEndOf [10, 13, 10] = some .lf := rfl
    rw [firstBlankLine_of_none rfl, firstBlankLine_of_some hlf]
    rfl
  rw [hspec] at hmissed
  exact absurd hmissed (by decide)

end Inspect.Sse
