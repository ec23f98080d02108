import Inspect.Tui.Search

/-!
# `Tui.Correctness.Preview` — the part of a line that is shown of a match

A match is a range of bytes, the window around it is counted in characters. The offsets of the characters lead from one
to the other, and the window is moved back to the end of the match where it would end before it.
-/

namespace Inspect.Tui

/-! ## Offsets of characters -/

theorem charIndices_length (start : Nat) (line : Str) : (charIndices start line).length = line.length + 1 := by
  induction line generalizing start with
  | nil => rfl
  | cons c line ih => rw [charIndices, List.length_cons, ih, List.length_cons]

/-- The offset of a character is the length of what is before it. -/
theorem charIndices_getElem? {start : Nat} {line : Str} {index : Nat} (h : index ≤ line.length) :
    (charIndices start line)[index]? = some (start + Text.len (line.take index)) := by
  induction line generalizing start index with
  | nil =>
      obtain rfl : index = 0 := Nat.le_zero.mp h
      rfl
  | cons c line ih =>
      cases index with
      | zero => rfl
      | succ index =>
          rw [charIndices, List.getElem?_cons_succ, ih (Nat.le_of_succ_le_succ h), List.take_succ_cons, Text.len_cons,
            Nat.add_assoc]

/-- The characters before an offset. -/
theorem partitionPoint_lt (start : Nat) (front rest : Str) :
    partitionPoint (fun idx => idx < start + Text.len front) (charIndices start (front ++ rest)) = front.length := by
  induction front generalizing start with
  | nil =>
      cases rest with
      | nil => simp [charIndices, partitionPoint]
      | cons c rest => simp [charIndices, partitionPoint]
  | cons c front ih =>
      have hpos := c.utf8Size_pos
      have hlen : start + Text.len (c :: front) = start + c.utf8Size + Text.len front := by
        rw [Text.len_cons, Nat.add_assoc]
      have hstep := ih (start + c.utf8Size)
      unfold partitionPoint at hstep ⊢
      rw [List.cons_append, charIndices, hlen, List.takeWhile_cons_of_pos (by simp; omega), List.length_cons, hstep,
        List.length_cons]

/-- The characters up to an offset, and the one that starts there. -/
theorem partitionPoint_le (start : Nat) (front rest : Str) :
    partitionPoint (fun idx => idx ≤ start + Text.len front) (charIndices start (front ++ rest)) = front.length + 1 := by
  induction front generalizing start with
  | nil =>
      cases rest with
      | nil => simp [charIndices, partitionPoint]
      | cons c rest =>
          have hpos := c.utf8Size_pos
          have hrest : (charIndices (start + c.utf8Size) rest).takeWhile (fun idx => idx ≤ start) = [] := by
            cases rest with
            | nil => exact List.takeWhile_cons_of_neg (by simp; omega)
            | cons d rest => exact List.takeWhile_cons_of_neg (by simp; omega)
          unfold partitionPoint
          rw [List.nil_append, charIndices, Text.len_nil, Nat.add_zero, List.takeWhile_cons_of_pos (by simp), hrest]
          rfl
  | cons c front ih =>
      have hlen : start + Text.len (c :: front) = start + c.utf8Size + Text.len front := by
        rw [Text.len_cons, Nat.add_assoc]
      have hstep := ih (start + c.utf8Size)
      unfold partitionPoint at hstep ⊢
      rw [List.cons_append, charIndices, hlen, List.takeWhile_cons_of_pos (by simp; omega), List.length_cons, hstep,
        List.length_cons]

theorem take_eq_append_window (line : Str) {start stop : Nat} (hle : start ≤ stop) :
    line.take stop = line.take start ++ (line.take stop).drop start := by
  have hsplit := List.take_append_drop start (line.take stop)
  rw [List.take_take, Nat.min_eq_left hle] at hsplit
  exact hsplit.symm

/-- A window of characters can be cut out of a line. -/
theorem get_window (line : Str) {start stop : Nat} (hle : start ≤ stop) :
    Text.get (Text.len (line.take start)) (Text.len (line.take stop)) line = some ((line.take stop).drop start) := by
  have hstop := take_eq_append_window line hle
  have happend := Text.get_append (line.take start) ((line.take stop).drop start) (line.drop stop)
  rw [← hstop, List.take_append_drop, ← Text.len_append, ← hstop] at happend
  exact happend

/-- A window that covers a part of a line has the part in it. -/
theorem window_covers {before found after : Str} {start stop : Nat} (hstart : start ≤ before.length)
    (hstop : before.length + found.length ≤ stop) :
    ∃ inner inner', ((before ++ found ++ after).take stop).drop start = inner ++ found ++ inner'
      ∧ before = (before ++ found ++ after).take start ++ inner := by
  refine ⟨before.drop start, after.take (stop - (before ++ found).length), ?_, ?_⟩
  · have hlen : (before ++ found).length ≤ stop := by
      rw [List.length_append]
      exact hstop
    rw [List.take_append, List.take_of_length_le hlen, List.append_assoc, List.drop_append_of_le_length hstart,
      List.append_assoc]
  · rw [List.append_assoc, List.take_append_of_le_length hstart, List.take_append_drop]

/-! ## The window -/

/-- The window that is placed around the characters of a match. -/
def window (length matchStartChar matchEndChar maxChars : Nat) : Nat × Nat :=
  let startChar := matchStartChar - maxChars / 3
  let endChar := min (startChar + maxChars) length
  if matchEndChar ≥ endChar then (min matchEndChar length - maxChars, min matchEndChar length) else (startChar, endChar)

/-- **Where the window is**: in the line, not too long, and over the match if the match fits. -/
theorem window_spec {length matchStartChar matchEndChar : Nat} (hmatch : matchStartChar ≤ matchEndChar)
    (hlength : matchEndChar ≤ length) (maxChars : Nat) :
    (window length matchStartChar matchEndChar maxChars).1 ≤ (window length matchStartChar matchEndChar maxChars).2
      ∧ (window length matchStartChar matchEndChar maxChars).2 ≤ length
      ∧ (window length matchStartChar matchEndChar maxChars).2
          ≤ (window length matchStartChar matchEndChar maxChars).1 + maxChars
      ∧ (matchEndChar ≤ matchStartChar + maxChars →
          (window length matchStartChar matchEndChar maxChars).1 ≤ matchStartChar
            ∧ matchEndChar ≤ (window length matchStartChar matchEndChar maxChars).2) := by
  unfold window
  dsimp only
  split
  · dsimp only
    refine ⟨by omega, by omega, by omega, fun hfits => ⟨by omega, by omega⟩⟩
  · rename_i hbefore
    dsimp only
    refine ⟨by omega, by omega, by omega, fun hfits => ⟨by omega, by omega⟩⟩

/-- The character that a match starts with. -/
theorem matchStartChar_eq (before rest : Str) :
    partitionPoint (fun idx => idx ≤ min (Text.len before) (Text.len (before ++ rest)))
      (charIndices 0 (before ++ rest)) - 1 = before.length := by
  have hle := partitionPoint_le 0 before rest
  rw [Nat.zero_add] at hle
  have hmin : min (Text.len before) (Text.len (before ++ rest)) = Text.len before := by
    rw [Text.len_append]
    omega
  rw [hmin, hle, Nat.add_sub_cancel]

/-- The characters up to the end of a match. -/
theorem matchEndChar_eq (before rest : Str) :
    partitionPoint (fun idx => idx < min (Text.len before) (Text.len (before ++ rest)))
      (charIndices 0 (before ++ rest)) = before.length := by
  have hlt := partitionPoint_lt 0 before rest
  rw [Nat.zero_add] at hlt
  have hmin : min (Text.len before) (Text.len (before ++ rest)) = Text.len before := by
    rw [Text.len_append]
    omega
  rw [hmin, hlt]

/-- The preview is the line, or the window of it. -/
theorem trimPreviewAroundMatch_eq {before found after : Str}
    (htrim : Text.trim (before ++ found ++ after) = before ++ found ++ after) (maxChars : Nat) :
    trimPreviewAroundMatch (before ++ found ++ after) (Text.len before) (Text.len before + Text.len found) maxChars
      = if (before ++ found ++ after).length ≤ maxChars then some (before ++ found ++ after)
        else
          let (startChar, endChar) := window (before ++ found ++ after).length before.length
            (before.length + found.length) maxChars
          some (((before ++ found ++ after).take endChar).drop startChar) := by
  unfold trimPreviewAroundMatch
  rw [htrim]
  dsimp only
  congr 1
  have hstart := matchStartChar_eq before (found ++ after)
  have hend := matchEndChar_eq (before ++ found) after
  rw [← List.append_assoc] at hstart
  rw [Text.len_append before found, List.length_append] at hend
  -- the last offset is that of the end of the line
  have hlength : (charIndices 0 (before ++ found ++ after)).length - 1 = (before ++ found ++ after).length := by
    rw [charIndices_length, Nat.add_sub_cancel]
  have hmatch : before.length + found.length ≤ (before ++ found ++ after).length := by
    rw [List.length_append, List.length_append]
    omega
  rw [hstart, hend, hlength, Nat.min_eq_left hmatch]
  obtain ⟨hle, hlast, -, -⟩ := window_spec (Nat.le_add_right before.length found.length) hmatch maxChars
  have hwindow : (if before.length + found.length
          ≥ min (before.length - maxChars / 3 + maxChars) (before ++ found ++ after).length then
        (min (before.length + found.length) (before ++ found ++ after).length - maxChars,
          min (before.length + found.length) (before ++ found ++ after).length)
      else (before.length - maxChars / 3,
        min (before.length - maxChars / 3 + maxChars) (before ++ found ++ after).length))
      = window (before ++ found ++ after).length before.length (before.length + found.length) maxChars := rfl
  rw [hwindow]
  generalize window (before ++ found ++ after).length before.length (before.length + found.length) maxChars = bounds
    at hle hlast
  obtain ⟨startChar, endChar⟩ := bounds
  dsimp only at hle hlast ⊢
  rw [charIndices_getElem? (hle.trans hlast), charIndices_getElem? hlast, Option.bind_some, Option.bind_some,
    Nat.zero_add, Nat.zero_add, get_window _ hle]

/-- **The preview of a match** is a part of the line, not too long, and the match is in it if it fits. -/
theorem trimPreviewAroundMatch_spec {before found after : Str}
    (htrim : Text.trim (before ++ found ++ after) = before ++ found ++ after) (maxChars : Nat) :
    ∃ preview, trimPreviewAroundMatch (before ++ found ++ after) (Text.len before)
        (Text.len before + Text.len found) maxChars = some preview
      ∧ preview.length ≤ maxChars
      ∧ ∃ front rest, before ++ found ++ after = front ++ preview ++ rest
        ∧ (found.length ≤ maxChars → ∃ inner inner', preview = inner ++ found ++ inner' ∧ before = front ++ inner) := by
  rw [trimPreviewAroundMatch_eq htrim]
  split
  · rename_i hshort
    exact ⟨_, rfl, hshort, [], [], by simp, fun _ => ⟨before, after, rfl, rfl⟩⟩
  · have hmatch : before.length + found.length ≤ (before ++ found ++ after).length := by
      rw [List.length_append, List.length_append]
      omega
    obtain ⟨hle, hend, hmax, hfits⟩ := window_spec (Nat.le_add_right before.length found.length) hmatch maxChars
    generalize window (before ++ found ++ after).length before.length (before.length + found.length) maxChars = bounds
      at hle hend hmax hfits
    obtain ⟨startChar, endChar⟩ := bounds
    dsimp only at hle hend hmax hfits ⊢
    refine ⟨_, rfl, ?_, (before ++ found ++ after).take startChar, (before ++ found ++ after).drop endChar, ?_, ?_⟩
    · rw [List.length_drop, List.length_take]
      omega
    · rw [← take_eq_append_window _ hle, List.take_append_drop]
    · intro hfound
      obtain ⟨hcovers, hcovers'⟩ := hfits (by omega)
      exact window_covers hcovers hcovers'

/-- A match near the end of a line with wide characters. -/
theorem trimPreviewAroundMatch_near_end :
    ∃ preview, trimPreviewAroundMatch ("größer als ".toList ++ "ß".toList ++ "!".toList) (Text.len "größer als ".toList)
        (Text.len "größer als ".toList + Text.len "ß".toList) 4 = some preview
      ∧ preview.length ≤ 4
      ∧ ∃ front rest, "größer als ".toList ++ "ß".toList ++ "!".toList = front ++ preview ++ rest
        ∧ ("ß".toList.length ≤ 4 →
          ∃ inner inner', preview = inner ++ "ß".toList ++ inner' ∧ "größer als ".toList = front ++ inner) :=
  trimPreviewAroundMatch_spec (by decide +kernel) 4

end Inspect.Tui
