import Inspect.Tui.Body
import Inspect.Tui.EditorPane

/-!
# `Tui.Correctness.Hexdump` — a hex dump is read back

The editor reads the bytes of a body out of the text that is shown of it. It works line by line: what is left of the
first bar is cut into words, the first is the offset and the others are the bytes, so the column of characters is not
looked at and the gaps between the columns do not matter.
-/

namespace Inspect.Tui

/-! ## Lines -/

/-- The bytes that are read from a line. -/
def lineBytes (line : Str) : Bytes :=
  ((hexdumpTokens line).filter (isHexToken 2)).map fun token => UInt8.ofNat (Text.hexValue token)

theorem extractHexdumpBytes_eq (text : Str) :
    extractHexdumpBytes text
      = if (Text.lines text).flatMap lineBytes = [] then none else some ((Text.lines text).flatMap lineBytes) := by
  unfold extractHexdumpBytes
  rw [List.map_flatMap]
  rfl

/-- The words of a line are those of what is left of its first bar. -/
theorem hexdumpTokens_of_words {left : Str} (hbar : '|' ∉ left) {offset : Str} {tokens : List Str}
    (hwords : Text.splitWhitespace left = offset :: tokens) (hoffset : isHexToken 8 offset = true) (rest : Str) :
    hexdumpTokens (left ++ '|' :: rest) = tokens := by
  rw [hexdumpTokens, List.splitOn_append_cons_self_of_not_mem hbar, List.headD_cons, Text.splitWhitespace_trimEnd,
    hwords]
  exact if_pos hoffset

theorem isHexToken_lowerHex {width n : Nat} (hwidth : 0 < width) (h : n < 16 ^ width) :
    isHexToken width (Text.lowerHex width n) = true := by
  rw [isHexToken, Text.len_lowerHex hwidth h, Text.all_isAsciiHexdigit_lowerHex, beq_self_eq_true, Bool.and_self]

theorem ofNat_hexValue_lowerHex (byte : UInt8) : UInt8.ofNat (Text.hexValue (Text.lowerHex 2 byte.toNat)) = byte := by
  rw [Text.hexValue_lowerHex, UInt8.ofNat_toNat]

/-! ## The columns of a line -/

/-- The words of the columns are the bytes that are there. -/
theorem splitWhitespace_hexColumns (chunk : Bytes) (indices : List Nat) (rest : Str) :
    Text.splitWhitespace (indices.flatMap (hexColumn chunk) ++ rest)
      = indices.filterMap (fun i => chunk[i]?.map fun byte => Text.lowerHex 2 byte.toNat)
        ++ Text.splitWhitespace rest := by
  have hspace : Text.isWhitespace ' ' = true := by decide
  induction indices with
  | nil => rfl
  | cons i indices ih =>
      -- the gap after the eighth column is white space as well
      have hgap : ∀ text, Text.splitWhitespace ((if i = 7 then [' '] else []) ++ text) = Text.splitWhitespace text := by
        intro text
        split
        · exact Text.splitWhitespace_cons hspace text
        · rfl
      rw [List.flatMap_cons, hexColumn, List.append_assoc, List.append_assoc]
      cases hbyte : chunk[i]? with
      | none =>
          have hblank : ∀ text, Text.splitWhitespace ("   ".toList ++ text) = Text.splitWhitespace text := by
            intro text
            exact (Text.splitWhitespace_cons hspace _).trans
              ((Text.splitWhitespace_cons hspace _).trans (Text.splitWhitespace_cons hspace text))
          rw [List.filterMap_cons_none (by rw [hbyte]; rfl)]
          dsimp only
          rw [hblank, hgap, ih]
      | some byte =>
          rw [List.filterMap_cons_some (b := Text.lowerHex 2 byte.toNat) (by rw [hbyte]; rfl)]
          dsimp only
          rw [List.append_assoc, List.singleton_append, Text.splitWhitespace_word (Text.lowerHex_ne_nil _ _)
            (fun c hmem => Text.isWhitespace_of_mem_lowerHex hmem) hspace, hgap, ih]
          rfl

theorem filterMap_range_getElem? {α β : Type} (f : α → β) {items : List α} {count : Nat} (h : items.length ≤ count) :
    (List.range count).filterMap (fun i => items[i]?.map f) = items.map f := by
  induction count generalizing items with
  | zero =>
      obtain rfl := List.length_eq_zero_iff.mp (Nat.le_zero.mp h)
      rfl
  | succ count ih =>
      rw [List.range_succ_eq_map]
      cases items with
      | nil => simp
      | cons item items =>
          rw [List.filterMap_cons_some (f := fun i => (item :: items)[i]?.map f) (b := f item) rfl,
            List.filterMap_map, List.map_cons, ← ih (Nat.le_of_succ_le_succ h)]
          rfl

/-- The columns consist of digits and blanks. -/
theorem not_mem_hexColumn {c : Char} (hdigit : Text.isAsciiHexdigit c = false) (hblank : c ≠ ' ') (chunk : Bytes)
    (i : Nat) : c ∉ hexColumn chunk i := by
  rw [hexColumn, List.mem_append, not_or]
  constructor
  · split
    · rw [List.mem_append, not_or, List.mem_singleton]
      exact ⟨Text.not_mem_lowerHex hdigit, hblank⟩
    · have hblanks : "   ".toList = List.replicate 3 ' ' := rfl
      rw [hblanks, List.mem_replicate]
      exact fun hmem => hblank hmem.2
  · split
    · rw [List.mem_singleton]
      exact hblank
    · exact List.not_mem_nil

/-- **A line of a dump is read back.** -/
theorem lineBytes_hexdumpLine {offset : Nat} (hoffset : offset < 2 ^ 32) {chunk : Bytes}
    (hchunk : chunk.length ≤ hexdumpWidth) : lineBytes (hexdumpLine offset chunk) = chunk := by
  have hspace : Text.isWhitespace ' ' = true := by decide
  -- the first bar is the one in front of the characters
  have hline : hexdumpLine offset chunk
      = (Text.lowerHex 8 offset ++ ' ' :: ' ' :: ((List.range hexdumpWidth).flatMap (hexColumn chunk) ++ [' ']))
        ++ '|' :: (chunk.map asciiOrDot ++ List.replicate (hexdumpWidth - chunk.length) ' ' ++ ['|']) := by
    simp [hexdumpLine]
  have hbar : '|' ∉ Text.lowerHex 8 offset
      ++ ' ' :: ' ' :: ((List.range hexdumpWidth).flatMap (hexColumn chunk) ++ [' ']) := by
    simp only [List.mem_append, List.mem_cons, List.mem_flatMap, not_or, List.not_mem_nil, not_false_eq_true, and_true]
    refine ⟨Text.not_mem_lowerHex (by decide), by decide, by decide, ?_, by decide⟩
    rintro ⟨i, -, hmem⟩
    exact not_mem_hexColumn (by decide) (by decide) chunk i hmem
  have hwords : Text.splitWhitespace (Text.lowerHex 8 offset
      ++ ' ' :: ' ' :: ((List.range hexdumpWidth).flatMap (hexColumn chunk) ++ [' ']))
      = Text.lowerHex 8 offset :: chunk.map fun byte => Text.lowerHex 2 byte.toNat := by
    rw [Text.splitWhitespace_word (Text.lowerHex_ne_nil _ _) (fun c hmem => Text.isWhitespace_of_mem_lowerHex hmem)
      hspace, Text.splitWhitespace_cons hspace, splitWhitespace_hexColumns, filterMap_range_getElem? _ hchunk,
      Text.splitWhitespace_cons hspace]
    exact congrArg _ (List.append_nil _)
  have htokens := hexdumpTokens_of_words hbar hwords (isHexToken_lowerHex (by decide) hoffset)
    (chunk.map asciiOrDot ++ List.replicate (hexdumpWidth - chunk.length) ' ' ++ ['|'])
  have hall : (chunk.map fun byte => Text.lowerHex 2 byte.toNat).filter (isHexToken 2)
      = chunk.map fun byte => Text.lowerHex 2 byte.toNat := by
    refine List.filter_eq_self.mpr fun token hmem => ?_
    obtain ⟨byte, -, rfl⟩ := List.mem_map.mp hmem
    exact isHexToken_lowerHex (by decide) byte.toNat_lt
  rw [lineBytes, hline, htokens, hall, List.map_map]
  exact (List.map_congr_left fun byte _ => ofNat_hexValue_lowerHex byte).trans (List.map_id chunk)

/-! ## The lines of a dump -/

theorem asciiOrDot_ne_newline (byte : UInt8) : asciiOrDot byte ≠ '\n' := by
  have hprintable : ∀ code < 0x7F, 0x20 ≤ code → Char.ofNat code ≠ '\n' := by decide
  unfold asciiOrDot
  split
  · rename_i hrange
    rw [Bool.and_eq_true, decide_eq_true_eq, decide_eq_true_eq, UInt8.le_iff_toNat_le, UInt8.le_iff_toNat_le] at hrange
    exact hprintable byte.toNat (Nat.lt_succ_of_le hrange.2) hrange.1
  · decide

theorem newline_not_mem_hexdumpLine (offset : Nat) (chunk : Bytes) : '\n' ∉ hexdumpLine offset chunk := by
  simp only [hexdumpLine, List.mem_append, List.mem_flatMap, List.mem_map, List.mem_replicate, not_or]
  refine ⟨⟨⟨⟨⟨⟨Text.not_mem_lowerHex (by decide), by decide⟩, ?_⟩, by decide⟩, ?_⟩, ?_⟩, by decide⟩
  · rintro ⟨i, -, hmem⟩
    exact not_mem_hexColumn (by decide) (by decide) chunk i hmem
  · rintro ⟨byte, -, heq⟩
    exact asciiOrDot_ne_newline byte heq
  · rintro ⟨-, heq⟩
    cases heq

theorem getLast?_hexdumpLine (offset : Nat) (chunk : Bytes) : (hexdumpLine offset chunk).getLast? = some '|' := by
  rw [hexdumpLine]
  exact List.getLast?_concat

/-- **The dump of what is left of a body** is read back. -/
theorem flatMap_lineBytes_hexdumpLoop {total : Nat} (htotal : total ≤ 2 ^ 32) {line : Nat} {bytes : Bytes}
    (hleft : line * hexdumpWidth + bytes.length = total) :
    (Text.lines (hexdumpLoop total ((hexdumpChunks bytes).zipIdx line))).flatMap lineBytes = bytes := by
  induction bytes using hexdumpChunks.induct generalizing line with
  | case1 =>
      rw [hexdumpChunks]
      rfl
  | case2 bytes hne ih =>
      have hpos := List.length_pos_iff.mpr hne
      have hchunk : (bytes.take hexdumpWidth).length = min hexdumpWidth bytes.length := List.length_take
      have hrest : (bytes.drop hexdumpWidth).length = bytes.length - hexdumpWidth := List.length_drop
      have hread : lineBytes (hexdumpLine (line * hexdumpWidth) (bytes.take hexdumpWidth)) = bytes.take hexdumpWidth :=
        lineBytes_hexdumpLine (by omega) (List.length_take_le _ _)
      have hnewline := newline_not_mem_hexdumpLine (line * hexdumpWidth) (bytes.take hexdumpWidth)
      have hlast := getLast?_hexdumpLine (line * hexdumpWidth) (bytes.take hexdumpWidth)
      rw [hexdumpChunks, dif_neg hne, List.zipIdx_cons, hexdumpLoop, List.flatMap_cons, ← hexdumpLoop]
      dsimp only
      -- a line feed follows exactly if bytes are left
      split
      · rename_i hmore
        have hnext : (line + 1) * hexdumpWidth + (bytes.drop hexdumpWidth).length = total := by
          rw [Nat.succ_mul]
          omega
        have hreturn : Text.stripCarriageReturn (hexdumpLine (line * hexdumpWidth) (bytes.take hexdumpWidth))
            = hexdumpLine (line * hexdumpWidth) (bytes.take hexdumpWidth) := by
          rw [Text.stripCarriageReturn, hlast]
          rfl
        rw [List.append_assoc, List.singleton_append, Text.lines_cons hnewline, hreturn, List.flatMap_cons, hread,
          ih hnext, List.take_append_drop]
      · -- the last line has no line feed
        have hend : bytes.drop hexdumpWidth = [] := List.eq_nil_of_length_eq_zero (by omega)
        have hall : bytes.take hexdumpWidth = bytes := by
          have happend := List.take_append_drop hexdumpWidth bytes
          rw [hend, List.append_nil] at happend
          exact happend
        have hnil : hexdumpLoop total ((hexdumpChunks (bytes.drop hexdumpWidth)).zipIdx (line + 1)) = [] := by
          rw [hend, hexdumpChunks]
          rfl
        have hline : hexdumpLine (line * hexdumpWidth) (bytes.take hexdumpWidth) ≠ [] := by
          intro heq
          rw [heq] at hlast
          cases hlast
        rw [hnil, List.append_nil, List.append_nil, Text.lines_of_not_mem hnewline hline, List.flatMap_singleton, hread, hall]

theorem extractHexdumpBytes_of_lines {text : Str} {bytes : Bytes} (hne : bytes ≠ [])
    (h : (Text.lines text).flatMap lineBytes = bytes) : extractHexdumpBytes text = some bytes := by
  rw [extractHexdumpBytes_eq, h, if_neg hne]

/-- **The lines of a dump** are the bytes. -/
theorem flatMap_lineBytes_hexdump {bytes : Bytes} (hlen : bytes.length ≤ 2 ^ 32) :
    (Text.lines (hexdumpWithAscii bytes)).flatMap lineBytes = bytes :=
  flatMap_lineBytes_hexdumpLoop hlen (by rw [Nat.zero_mul, Nat.zero_add])

/-! ## The banner -/

/-- A banner is one line, and no bytes are read from it. -/
theorem magicBanner_spec {bytes : Bytes} {kind : Str} (h : binaryMagicKind bytes = some kind) :
    '\n' ∉ magicBanner kind ∧ (magicBanner kind).getLast? ≠ some '\r' ∧ lineBytes (magicBanner kind) = [] := by
  have hkinds : ∀ magic ∈ magicNumbers, '\n' ∉ magicBanner magic.1.toList
      ∧ (magicBanner magic.1.toList).getLast? ≠ some '\r' ∧ hexdumpTokens (magicBanner magic.1.toList) = [] := by decide
  obtain ⟨magic, hfind, rfl⟩ := Option.map_eq_some_iff.mp h
  obtain ⟨hnewline, hreturn, htokens⟩ := hkinds magic (List.mem_of_find?_eq_some hfind)
  refine ⟨hnewline, hreturn, ?_⟩
  rw [lineBytes, htokens]
  rfl

/-- What is read from a dump is read from it under a banner. -/
theorem flatMap_lineBytes_magicBanner {bytes : Bytes} {kind : Str} (h : binaryMagicKind bytes = some kind)
    (dump : Str) :
    (Text.lines (magicBanner kind ++ "\n\n".toList ++ dump)).flatMap lineBytes
      = (Text.lines dump).flatMap lineBytes := by
  obtain ⟨hnewline, hreturn, hbanner⟩ := magicBanner_spec h
  have htext : magicBanner kind ++ "\n\n".toList ++ dump = magicBanner kind ++ '\n' :: ([] ++ '\n' :: dump) := by simp
  rw [htext, Text.lines_cons hnewline, Text.lines_cons List.not_mem_nil, Text.stripCarriageReturn, if_neg hreturn,
    List.flatMap_cons, hbanner, List.nil_append, List.flatMap_cons]
  rfl

/-- **A hex dump is read back**, also under the banner of a magic number, which is how such a body is shown. -/
theorem extractHexdumpBytes_hexdumpWithAscii {bytes : Bytes} (hne : bytes ≠ []) (hlen : bytes.length ≤ 2 ^ 32) :
    extractHexdumpBytes (hexdumpWithAscii bytes) = some bytes
      ∧ (∀ body kind, binaryMagicKind body = some kind →
          extractHexdumpBytes (magicBanner kind ++ "\n\n".toList ++ hexdumpWithAscii bytes) = some bytes)
      ∧ ((binaryMagicKind bytes).isSome →
          ∀ engines, extractHexdumpBytes (formatBodyForDisplay engines bytes) = some bytes) := by
  have hlines := flatMap_lineBytes_hexdump hlen
  have hunder : ∀ body kind, binaryMagicKind body = some kind →
      extractHexdumpBytes (magicBanner kind ++ "\n\n".toList ++ hexdumpWithAscii bytes) = some bytes := by
    intro body kind hkind
    exact extractHexdumpBytes_of_lines hne ((flatMap_lineBytes_magicBanner hkind _).trans hlines)
  refine ⟨extractHexdumpBytes_of_lines hne hlines, hunder, fun hmagic engines => ?_⟩
  obtain ⟨kind, hkind⟩ := Option.isSome_iff_exists.mp hmagic
  rw [formatBodyForDisplay, hkind]
  exact hunder bytes kind hkind

/-- The first bytes of a gzip file, and a bar. -/
theorem extractHexdumpBytes_gzip :
    extractHexdumpBytes (hexdumpWithAscii [0x1F, 0x8B, 0x08, 0x7C]) = some [0x1F, 0x8B, 0x08, 0x7C]
      ∧ (∀ body kind, binaryMagicKind body = some kind →
          extractHexdumpBytes (magicBanner kind ++ "\n\n".toList ++ hexdumpWithAscii [0x1F, 0x8B, 0x08, 0x7C])
            = some [0x1F, 0x8B, 0x08, 0x7C])
      ∧ ((binaryMagicKind [0x1F, 0x8B, 0x08, 0x7C]).isSome →
          ∀ engines, extractHexdumpBytes (formatBodyForDisplay engines [0x1F, 0x8B, 0x08, 0x7C])
            = some [0x1F, 0x8B, 0x08, 0x7C]) :=
  extractHexdumpBytes_hexdumpWithAscii (by decide) (by decide)

end Inspect.Tui
