import Inspect.Tui.Highlight

/-!
# `Tui.Correctness.Highlight` — highlighting changes no text

The ranges of the matches in a line *cut* it (`Cut`): they are in order, apart from each other and at character
boundaries. A plain query finds such ranges, a regular expression is assumed to. The cursor then goes over the line once,
and what it passes is what it shows.
-/

namespace Inspect.Tui

/-! ## Ranges that cut a line -/

/-- Ranges at character boundaries of a line, in order and apart from each other. -/
structure OrderedIn (line : Str) (ranges : List ByteRange) : Prop where
  boundaries : ∀ range ∈ ranges, ∃ found, Text.get range.start range.stop line = some found
  ordered : ranges.Pairwise fun range next => range.stop ≤ next.start

/-- The text that starts at an offset is cut by ranges: each after a gap, which may be empty. -/
inductive Cut : (offset : Nat) → (rest : Str) → List ByteRange → Prop where
  | nil (offset : Nat) (rest : Str) : Cut offset rest []
  | cons {offset : Nat} {gap found rest : Str} {ranges : List ByteRange}
      (h : Cut (offset + Text.len gap + Text.len found) rest ranges) :
      Cut offset (gap ++ found ++ rest)
        (⟨offset + Text.len gap, offset + Text.len gap + Text.len found⟩ :: ranges)

theorem Cut.le_start {offset : Nat} {rest : Str} {ranges : List ByteRange} (h : Cut offset rest ranges) :
    ∀ range ∈ ranges, offset ≤ range.start := by
  induction h with
  | nil => exact fun range hmem => absurd hmem List.not_mem_nil
  | cons _ ih =>
      refine List.forall_mem_cons.mpr ⟨Nat.le_add_right _ _, fun range hmem => ?_⟩
      have hstart := ih range hmem
      omega

/-- Ranges that cut a text are in order and at boundaries. -/
theorem Cut.orderedIn {offset : Nat} {rest : Str} {ranges : List ByteRange} (h : Cut offset rest ranges)
    (front : Str) (hfront : Text.len front = offset) : OrderedIn (front ++ rest) ranges := by
  induction h generalizing front with
  | nil => exact ⟨fun range hmem => absurd hmem List.not_mem_nil, List.Pairwise.nil⟩
  | cons hcut ih =>
      rename_i offset gap found rest ranges
      subst hfront
      have htail := ih (front ++ gap ++ found) (by rw [Text.len_append, Text.len_append])
      have htext : front ++ gap ++ found ++ rest = front ++ (gap ++ found ++ rest) := by simp
      rw [htext] at htail
      refine ⟨List.forall_mem_cons.mpr ⟨⟨found, ?_⟩, htail.boundaries⟩, List.pairwise_cons.mpr ⟨?_, htail.ordered⟩⟩
      · rw [← htext, ← Text.len_append]
        exact Text.get_append (front ++ gap) found rest
      · exact hcut.le_start

/-- Ranges in order and at boundaries cut the text after what is before them all. -/
theorem cut_of_orderedIn {front rest : Str} {ranges : List ByteRange} (h : OrderedIn (front ++ rest) ranges)
    (hstart : ∀ range ∈ ranges, Text.len front ≤ range.start) : Cut (Text.len front) rest ranges := by
  induction ranges generalizing front rest with
  | nil => exact Cut.nil _ _
  | cons range ranges ih =>
      obtain ⟨found, hfound⟩ := h.boundaries range List.mem_cons_self
      obtain ⟨before, after, htext, hbefore, hstop⟩ := Text.eq_of_get hfound
      rw [List.append_assoc before] at htext
      -- the range starts behind `front`, so between them is a gap
      have hle : Text.len front ≤ Text.len before := by
        rw [hbefore]
        exact hstart range List.mem_cons_self
      obtain ⟨gap, rfl, rfl⟩ := Text.isPrefix_of_len_le htext hle
      rw [Text.len_append] at hbefore
      have hrange : range = ⟨Text.len front + Text.len gap, Text.len front + Text.len gap + Text.len found⟩ := by
        rw [hbefore, hstop]
      obtain ⟨hafter, hordered⟩ := List.pairwise_cons.mp h.ordered
      have htail : OrderedIn (front ++ gap ++ found ++ after) ranges := by
        refine ⟨fun next hmem => ?_, hordered⟩
        rw [List.append_assoc (front ++ gap), ← htext]
        exact h.boundaries next (List.mem_cons_of_mem _ hmem)
      have hcut := ih htail fun next hmem => by
        have hnext := hafter next hmem
        rw [hrange] at hnext
        rw [Text.len_append, Text.len_append]
        exact hnext
      rw [Text.len_append, Text.len_append] at hcut
      rw [hrange, ← List.append_assoc]
      exact Cut.cons hcut

/-! ## The matches of a query -/

/-- The loop of a plain query ends, and the ranges that it finds cut the line. -/
theorem FullTextMatcher.findFrom_cut {query : Str} (hquery : query ≠ []) {fuel : Nat} (front : Str) {rest : Str}
    (hfuel : rest.length < fuel) :
    ∃ ranges, findFrom query (front ++ rest) fuel (Text.len front) = some ranges
      ∧ Cut (Text.len front) rest ranges := by
  induction fuel generalizing front rest with
  | zero => exact absurd hfuel (Nat.not_lt_zero _)
  | succ fuel ih =>
      rw [findFrom, Text.sliceFrom_append, Option.bind_some]
      cases hfind : Text.find query rest with
      | none => exact ⟨[], rfl, Cut.nil _ _⟩
      | some index =>
          have hrest := Text.eq_of_find hfind
          dsimp only
          generalize rest.take index = gap at hrest ⊢
          generalize rest.drop (index + query.length) = after at hrest
          subst hrest
          -- the query is not empty, so every turn leaves less of the line
          have hpos := List.length_pos_iff.mpr hquery
          have hshorter : after.length < fuel := by
            rw [List.length_append, List.length_append] at hfuel
            omega
          obtain ⟨ranges, hranges, hcut⟩ := ih (front ++ gap ++ query) hshorter
          have htext : front ++ gap ++ query ++ after = front ++ (gap ++ query ++ after) := by simp
          rw [htext, Text.len_append, Text.len_append] at hranges
          rw [Text.len_append, Text.len_append] at hcut
          rw [hranges]
          exact ⟨_, rfl, Cut.cons hcut⟩

variable {regexNew : Str → Option (Str → List ByteRange)}

/-- **The ranges of `find_all_in_line`** cut the line. -/
theorem FullTextMatcher.findAllInLine_cut
    (hregex : ∀ pattern findIter, regexNew pattern = some findIter → ∀ line, OrderedIn line (findIter line))
    (matcher : FullTextMatcher) (line : Str) :
    ∃ ranges, matcher.findAllInLine regexNew line = some ranges ∧ Cut 0 line ranges := by
  cases matcher with
  | plain query =>
      rw [findAllInLine]
      cases query with
      | nil => exact ⟨[], rfl, Cut.nil _ _⟩
      | cons c query =>
          obtain ⟨ranges, hranges, hcut⟩ :=
            findFrom_cut (List.cons_ne_nil c query) [] (Nat.lt_succ_self line.length)
          rw [Text.len_nil] at hranges hcut
          exact ⟨ranges, hranges, hcut⟩
  | regex pattern =>
      rw [findAllInLine]
      cases hnew : regexNew pattern with
      | none => exact ⟨[], rfl, Cut.nil _ _⟩
      | some findIter =>
          obtain ⟨hboundaries, hordered⟩ := hregex pattern findIter hnew line
          -- leaving out the empty ranges keeps the order
          have hfiltered : OrderedIn ([] ++ line) ((findIter line).filter fun range => range.start < range.stop) :=
            ⟨fun range hmem => hboundaries range (List.mem_of_mem_filter hmem), hordered.filter _⟩
          exact ⟨_, rfl, cut_of_orderedIn hfiltered fun range _ => Nat.zero_le _⟩

/-! ## What the spans show -/

/-- The text of spans. -/
def spansText (spans : List Span) : Str := spans.flatMap Span.content

/-- The ranges that are highlighted by spans, the first of which starts at an offset. -/
def highlightedRanges : (offset : Nat) → List Span → List ByteRange
  | _, [] => []
  | offset, span :: spans =>
      let stop := offset + Text.len span.content
      match span.style with
      | .dim => highlightedRanges stop spans
      | .highlight => ⟨offset, stop⟩ :: highlightedRanges stop spans

/-- A range, with another place as the origin. -/
def ByteRange.shift (offset : Nat) (range : ByteRange) : ByteRange := ⟨offset + range.start, offset + range.stop⟩

theorem spansText_append (spans spans' : List Span) : spansText (spans ++ spans') = spansText spans ++ spansText spans' :=
  List.flatMap_append

theorem highlightedRanges_append (offset : Nat) (spans spans' : List Span) :
    highlightedRanges offset (spans ++ spans')
      = highlightedRanges offset spans ++ highlightedRanges (offset + Text.len (spansText spans)) spans' := by
  induction spans generalizing offset with
  | nil => rfl
  | cons span spans ih =>
      have hlen : offset + Text.len (spansText (span :: spans))
          = offset + Text.len span.content + Text.len (spansText spans) := by
        rw [spansText, List.flatMap_cons, Text.len_append, Nat.add_assoc]
        rfl
      rw [List.cons_append, highlightedRanges, highlightedRanges, ih, hlen]
      cases span.style with
      | dim => rfl
      | highlight => rfl

/-- Spans at another place highlight the same ranges there. -/
theorem highlightedRanges_shift (offset start : Nat) (spans : List Span) :
    highlightedRanges (offset + start) spans = (highlightedRanges start spans).map (ByteRange.shift offset) := by
  induction spans generalizing start with
  | nil => rfl
  | cons span spans ih =>
      rw [highlightedRanges, highlightedRanges, Nat.add_assoc, ih]
      cases span.style with
      | dim => rfl
      | highlight => rfl

/-- **A line that is cut by ranges** is shown as it is, with the ranges highlighted. -/
theorem highlightRanges_cut {offset : Nat} {rest : Str} {ranges : List ByteRange} (h : Cut offset rest ranges)
    (front : Str) (hfront : Text.len front = offset) :
    ∃ spans, highlightRanges (front ++ rest) offset ranges = some spans ∧ spansText spans = rest
      ∧ highlightedRanges offset spans = ranges := by
  induction h generalizing front with
  | nil offset rest =>
      subst hfront
      rw [highlightRanges, Text.len_append, Text.sliceFrom_append]
      split
      · exact ⟨[⟨rest, .dim⟩], rfl, by simp [spansText], rfl⟩
      · obtain rfl : rest = [] := Text.eq_nil_of_len_eq_zero (by omega)
        exact ⟨[], rfl, rfl, rfl⟩
  | cons hcut ih =>
      rename_i offset gap found rest ranges
      subst hfront
      obtain ⟨spans, hspans, htext, hranges⟩ :=
        ih (front ++ gap ++ found) (by rw [Text.len_append, Text.len_append])
      have hline : front ++ (gap ++ found ++ rest) = front ++ gap ++ found ++ rest := by simp
      -- a gap that is empty has no span
      have hgap : ∃ before, (if Text.len front < Text.len front + Text.len gap then
            (Text.get (Text.len front) (Text.len front + Text.len gap) (front ++ gap ++ found ++ rest)).map
              fun gap => ([⟨gap, .dim⟩] : List Span)
          else some []) = some before
          ∧ spansText before = gap ∧ highlightedRanges (Text.len front) before = [] := by
        split
        · have hget := Text.get_append front gap (found ++ rest)
          rw [← List.append_assoc] at hget
          rw [hget]
          exact ⟨[⟨gap, .dim⟩], rfl, by simp [spansText], rfl⟩
        · obtain rfl : gap = [] := Text.eq_nil_of_len_eq_zero (by omega)
          exact ⟨[], rfl, rfl, rfl⟩
      obtain ⟨before, hbefore, hbeforeText, hbeforeRanges⟩ := hgap
      have hfound : Text.get (Text.len front + Text.len gap) (Text.len front + Text.len gap + Text.len found)
          (front ++ gap ++ found ++ rest) = some found := by
        rw [← Text.len_append]
        exact Text.get_append (front ++ gap) found rest
      rw [hline, highlightRanges, hbefore, hfound, hspans]
      refine ⟨before ++ ⟨found, .highlight⟩ :: spans, rfl, ?_, ?_⟩
      · rw [spansText_append, hbeforeText, List.append_assoc, ← htext]
        rfl
      · rw [highlightedRanges_append, hbeforeRanges, hbeforeText, List.nil_append, highlightedRanges, hranges]

/-! ## Lines -/

theorem withoutNewline_append (line : Str) :
    withoutNewline line ++ (if line.getLast? = some '\n' then ['\n'] else []) = line := by
  unfold withoutNewline
  split
  · rename_i hlast
    exact List.dropLast_append_getLast? _ hlast
  · exact List.append_nil line

/-- **A line** is shown as it is, with the ranges of its matches highlighted. -/
theorem highlightLine_spec
    (hregex : ∀ pattern findIter, regexNew pattern = some findIter → ∀ line, OrderedIn line (findIter line))
    (matcher : FullTextMatcher) (line : Str) :
    ∃ spans, highlightLine regexNew matcher line = some spans ∧ spansText spans = line
      ∧ matcher.findAllInLine regexNew (withoutNewline line) = some (highlightedRanges 0 spans) := by
  obtain ⟨ranges, hranges, hcut⟩ := matcher.findAllInLine_cut hregex (withoutNewline line)
  obtain ⟨spans, hspans, htext, hhighlighted⟩ := highlightRanges_cut hcut [] Text.len_nil
  rw [List.nil_append] at hspans
  -- the line feed has a span of its own, which is not highlighted
  have hnewline : ∃ newline : List Span,
      (if line.getLast? = some '\n' then [⟨['\n'], .dim⟩] else ([] : List Span)) = newline
      ∧ spansText newline = (if line.getLast? = some '\n' then ['\n'] else [])
      ∧ ∀ offset, highlightedRanges offset newline = [] := by
    split
    · exact ⟨_, rfl, rfl, fun offset => rfl⟩
    · exact ⟨_, rfl, rfl, fun offset => rfl⟩
  obtain ⟨newline, hnewline, hnewlineText, hnewlineRanges⟩ := hnewline
  unfold highlightLine
  dsimp only
  rw [hranges, Option.bind_some, hnewline]
  split
  · rename_i hempty
    obtain rfl := List.isEmpty_iff.mp hempty
    refine ⟨_, rfl, ?_, ?_⟩
    · have hcons := spansText_append [⟨withoutNewline line, .dim⟩] newline
      rw [List.singleton_append] at hcons
      rw [hcons, hnewlineText, spansText, List.flatMap_singleton, withoutNewline_append]
    · rw [highlightedRanges, hnewlineRanges]
  · rw [hspans]
    refine ⟨_, rfl, ?_, ?_⟩
    · rw [spansText_append, htext, hnewlineText, withoutNewline_append]
    · rw [highlightedRanges_append, hnewlineRanges, List.append_nil, hhighlighted]

/-- The ranges of `find_all_in_line` in lines that follow each other, each at its place in the whole. -/
def matchedRanges (regexNew : Str → Option (Str → List ByteRange)) (matcher : FullTextMatcher) :
    (offset : Nat) → List Str → Option (List ByteRange)
  | _, [] => some []
  | offset, line :: lines =>
      (matcher.findAllInLine regexNew (withoutNewline line)).bind fun ranges =>
        (matchedRanges regexNew matcher (offset + Text.len line) lines).map fun later =>
          ranges.map (ByteRange.shift offset) ++ later

/-- What a query matches in a text, line by line. -/
def queryRanges (regexNew : Str → Option (Str → List ByteRange)) (text query : Str) : Option (List ByteRange) :=
  match FullTextMatcher.parse query with
  | none => some []
  | some matcher => matchedRanges regexNew matcher 0 (Text.splitInclusive text)

theorem highlightLines_spec
    (hregex : ∀ pattern findIter, regexNew pattern = some findIter → ∀ line, OrderedIn line (findIter line))
    (matcher : FullTextMatcher) (offset : Nat) (lines : List Str) :
    ∃ spans, lines.mapM (highlightLine regexNew matcher) = some spans ∧ spansText spans.flatten = lines.flatten
      ∧ matchedRanges regexNew matcher offset lines = some (highlightedRanges offset spans.flatten) := by
  induction lines generalizing offset with
  | nil => exact ⟨[], rfl, rfl, rfl⟩
  | cons line lines ih =>
      obtain ⟨first, hfirst, htext, hranges⟩ := highlightLine_spec hregex matcher line
      obtain ⟨spans, hspans, hrest, hlater⟩ := ih (offset + Text.len line)
      refine ⟨first :: spans, ?_, ?_, ?_⟩
      · rw [List.mapM_cons, hfirst, hspans]
        rfl
      · rw [List.flatten_cons, spansText_append, htext, hrest, List.flatten_cons]
      · have hshift := highlightedRanges_shift offset 0 first
        rw [Nat.add_zero] at hshift
        rw [matchedRanges, hranges, Option.bind_some, hlater, List.flatten_cons, highlightedRanges_append, htext, hshift]
        rfl

/-- **Highlighting changes no text**: the spans together are the text, and those that are highlighted are the ranges that
    `find_all_in_line` finds in its lines. -/
theorem highlightDetailText_spec (regexNew : Str → Option (Str → List ByteRange))
    (hregex : ∀ pattern findIter, regexNew pattern = some findIter → ∀ line, OrderedIn line (findIter line))
    (text query : Str) :
    ∃ spans, highlightDetailText regexNew text query = some spans ∧ spansText spans = text
      ∧ queryRanges regexNew text query = some (highlightedRanges 0 spans) := by
  unfold highlightDetailText queryRanges
  cases FullTextMatcher.parse query with
  | none => exact ⟨_, rfl, by simp [spansText], rfl⟩
  | some matcher =>
      obtain ⟨spans, hspans, htext, hranges⟩ := highlightLines_spec hregex matcher 0 (Text.splitInclusive text)
      dsimp only
      rw [hspans]
      exact ⟨spans.flatten, rfl, htext.trans (Text.flatten_splitInclusive text), hranges⟩

/-- `Regex::new` for patterns that are one small letter, which match the letter. -/
def letterRegex (pattern : Str) : Option (Str → List ByteRange) :=
  match pattern with
  | [c] => if c.isLower then some fun line => (FullTextMatcher.findFrom [c] line (line.length + 1) 0).getD [] else none
  | _ => none

theorem letterRegex_orderedIn (pattern : Str) (findIter : Str → List ByteRange)
    (h : letterRegex pattern = some findIter) (line : Str) : OrderedIn line (findIter line) := by
  unfold letterRegex at h
  split at h
  · rename_i c
    split at h
    · cases h
      obtain ⟨ranges, hranges, hcut⟩ :=
        FullTextMatcher.findFrom_cut (List.cons_ne_nil c []) [] (Nat.lt_succ_self line.length)
      rw [List.nil_append, Text.len_nil] at hranges
      dsimp only
      rw [hranges]
      exact hcut.orderedIn [] Text.len_nil
    · cases h
  · cases h

/-- Two matches that touch, after a wide character, in a text of two lines. -/
theorem highlightDetailText_two_lines :
    ∃ spans, highlightDetailText letterRegex "äbb\nc".toList "re:b".toList = some spans
      ∧ spansText spans = "äbb\nc".toList
      ∧ queryRanges letterRegex "äbb\nc".toList "re:b".toList = some (highlightedRanges 0 spans) :=
  highlightDetailText_spec letterRegex letterRegex_orderedIn "äbb\nc".toList "re:b".toList

end Inspect.Tui
