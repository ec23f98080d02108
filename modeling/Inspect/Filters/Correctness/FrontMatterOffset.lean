import Inspect.Filters.Correctness.FrontMatter

/-!
# `Filters.Correctness.FrontMatterOffset` — where the front matter starts

`parse_filter_source` finds the opening delimiter among the lines of the source, and then cuts the source at an offset
that it adds up from the lengths of the blank lines before it, with one byte for each line end. A blank line that ends
with CRLF is one byte longer. Then the cut is too early, a piece of the blank lines is taken for the line of the
delimiter, and the delimiter for the one that closes the block.
-/

namespace Inspect.Filters

/-- Lines as a text. -/
abbrev unlines (written : List Str) : Str := written.flatMap fun line => line ++ ['\n']

theorem getLast?_unlines {written : List Str} (h : written ≠ []) : (unlines written).getLast? = some '\n' := by
  rcases List.eq_nil_or_concat' written with rfl | ⟨init, last, rfl⟩
  · exact absurd rfl h
  · rw [unlines, List.flatMap_append, List.flatMap_singleton, ← List.append_assoc, List.getLast?_concat]

/-! ## What a source says -/

/-- A line without its comment marker, if it has one. -/
def uncommented (line : Str) : Str := (normalizedCommentLine line).getD line

/-- The line closes the front matter. -/
def isDelimiter (line : Str) : Bool := Text.trim (uncommented line) = frontMatterDelimiter

/-- The metadata in the lines between the delimiters. -/
def readMetadata (toml : Str → Option Toml.Table) (between : List Str) : Except FilterSourceError FilterMetadata :=
  match (between.map uncommented).find? fun line => !validateFrontMatterLine line with
  | some line => .error (.unterminatedString line)
  | none =>
      match (toml (unlines (between.map uncommented))).bind FilterMetadata.deserialize with
      | none => .error .invalidToml
      | some metadata => .ok metadata

/-- **What `parse_filter_source` is for**, when `following` are the lines after the opening delimiter: the lines up to
    the next delimiter are the metadata, and those after it the script. -/
def ReadsFrontMatter (toml : Str → Option Toml.Table) (source : Str) (following : List Str) : Prop :=
  match following.dropWhile fun line => !isDelimiter line with
  | [] => ∃ error, parseFilterSource toml source = .error error ∧ error ≠ .panicked
  | _ :: script =>
      parseFilterSource toml source
        = (readMetadata toml (following.takeWhile fun line => !isDelimiter line)).map fun metadata =>
            (metadata, unlines script)

/-! ## The blank lines before the delimiter -/

/-- The line is blank. -/
abbrev isBlank (line : Str) : Bool := Text.trim line = []

/-- The blank lines at the start of a source, with the carriage returns of their ends. -/
def blankPieces (source : Str) : List Str := (source.splitOn '\n').takeWhile isBlank

/-- No blank line at the start of the source ends with CRLF. -/
def LineFeedsOnly (source : Str) : Prop := ∀ piece ∈ blankPieces source, piece.getLast? ≠ some '\r'

/-- The offset of the front matter: one byte for each line end. -/
def frontMatterOffset (source : Str) : Nat :=
  (((Text.lines source).takeWhile isBlank).map fun line => Text.len line + 1).sum

/-- **The blank lines of a source** are its first lines; what follows starts with the first line that is not blank. -/
theorem blankPieces_spec {source first : Str} {following : List Str}
    (h : (Text.lines source).dropWhile isBlank = first :: following) :
    (∀ piece ∈ blankPieces source, isBlank piece = true)
      ∧ (Text.lines source).takeWhile isBlank = (blankPieces source).map Text.stripCarriageReturn
      ∧ ∃ tail, source = unlines (blankPieces source) ++ tail ∧ Text.lines tail = first :: following := by
  refine ⟨fun piece hmem => List.mem_takeWhile_imp hmem, ?_⟩
  induction hlen : source.length using Nat.strongRecOn generalizing source with
  | _ n ih =>
      by_cases hnewline : '\n' ∈ source
      · obtain ⟨line, rest, rfl, hline⟩ := List.eq_append_cons_of_mem hnewline
        have hpieces : blankPieces (line ++ '\n' :: rest)
            = if isBlank line then line :: blankPieces rest else [] := by
          unfold blankPieces
          rw [List.splitOn_append_cons_self_of_not_mem hline, List.takeWhile_cons]
        have hblank : isBlank (Text.stripCarriageReturn line) = isBlank line :=
          decide_eq_decide.mpr Text.trim_stripCarriageReturn
        rw [Text.lines_cons hline, List.dropWhile_cons, hblank] at h
        rw [Text.lines_cons hline, List.takeWhile_cons, hblank, hpieces]
        by_cases hfirst : isBlank line = true
        · rw [if_pos hfirst] at h ⊢
          rw [if_pos hfirst]
          have hshort : rest.length < n := by
            rw [← hlen, List.length_append, List.length_cons]
            omega
          obtain ⟨htake, tail, hsource, htail⟩ := ih _ hshort h rfl
          refine ⟨by rw [htake, List.map_cons], tail, ?_, htail⟩
          show _ = ((line ++ ['\n']) ++ unlines (blankPieces rest)) ++ tail
          rw [List.append_assoc, ← hsource, List.append_assoc]
          rfl
        · rw [if_neg hfirst] at h ⊢
          rw [if_neg hfirst]
          exact ⟨rfl, line ++ '\n' :: rest, rfl, (Text.lines_cons hline rest).trans h⟩
      · have hpieces : source.splitOn '\n' = [source] := List.splitOn_eq_singleton hnewline
        rcases source with _ | ⟨c, text⟩
        · cases h
        · have hlines : Text.lines (c :: text) = [c :: text] := by
            unfold Text.lines
            rw [hpieces]
            rfl
          -- the one line is not blank
          rw [hlines, List.dropWhile_cons] at h
          by_cases hblank : isBlank (c :: text) = true
          · rw [if_pos hblank] at h
            cases h
          · rw [if_neg hblank] at h
            have hnone : blankPieces (c :: text) = [] := by
              rw [blankPieces, hpieces, List.takeWhile_cons, if_neg hblank]
            rw [hnone, hlines, List.takeWhile_cons, if_neg hblank]
            exact ⟨rfl, c :: text, rfl, hlines.trans h⟩

/-! ## The loop over the lines -/

section Loop

variable (tomlText : Str)

/-- The loop stops at the first line that is a delimiter or has an open string. -/
theorem frontMatterLoop_eq (following : List Str) :
    frontMatterLoop tomlText following
      = match ((following.takeWhile fun line => !isDelimiter line).map uncommented).find?
          fun line => !validateFrontMatterLine line with
        | some line => .error (.unterminatedString line)
        | none =>
            match following.dropWhile fun line => !isDelimiter line with
            | [] => .error .unterminatedBlock
            | _ :: script =>
                .ok (tomlText ++ unlines ((following.takeWhile fun line => !isDelimiter line).map uncommented),
                  unlines script) := by
  induction following generalizing tomlText with
  | nil => rfl
  | cons line following ih =>
      unfold frontMatterLoop
      rw [List.takeWhile_cons, List.dropWhile_cons]
      by_cases hdelimiter : isDelimiter line = true
      · have htrim : Text.trim ((normalizedCommentLine line).getD line) = frontMatterDelimiter :=
          of_decide_eq_true hdelimiter
        rw [if_pos htrim, hdelimiter]
        show _ = Except.ok (tomlText ++ [], _)
        rw [List.append_nil]
      · have htrim : Text.trim ((normalizedCommentLine line).getD line) ≠ frontMatterDelimiter :=
          fun heq => hdelimiter (decide_eq_true heq)
        rw [if_neg htrim, eq_false_of_ne_true hdelimiter]
        show (if (!validateFrontMatterLine (uncommented line)) = true then _ else _) = _
        rw [Bool.not_false, if_pos rfl, if_pos rfl, List.map_cons, List.find?_cons]
        cases hvalid : validateFrontMatterLine (uncommented line) with
        | false => rfl
        | true =>
            have hnext := ih (tomlText ++ uncommented line ++ ['\n'])
            rw [Bool.not_true, if_neg Bool.false_ne_true]
            refine hnext.trans ?_
            have hunlines : tomlText ++ uncommented line ++ ['\n']
                  ++ unlines ((following.takeWhile fun line => !isDelimiter line).map uncommented)
                = tomlText ++ unlines (uncommented line
                  :: (following.takeWhile fun line => !isDelimiter line).map uncommented) := by
              show _ = tomlText ++ ((uncommented line ++ ['\n']) ++ unlines _)
              simp only [List.append_assoc]
            rw [hunlines]

/-- The loop takes blank lines for metadata. -/
theorem frontMatterLoop_blank {blanks : List Str} (h : ∀ line ∈ blanks, isBlank line = true) (rest : List Str) :
    frontMatterLoop tomlText (blanks ++ rest) = frontMatterLoop (tomlText ++ unlines blanks) rest := by
  induction blanks generalizing tomlText with
  | nil =>
      show _ = frontMatterLoop (tomlText ++ []) rest
      rw [List.append_nil]
      rfl
  | cons line blanks ih =>
      obtain ⟨hline, hblanks⟩ := List.forall_mem_cons.mp h
      have hspaces := Text.trim_eq_nil_iff.mp (of_decide_eq_true hline)
      have hstart : Text.trimStart line = [] := List.dropWhile_eq_nil_iff.mpr hspaces
      have hnormalized : normalizedCommentLine line = none := by
        unfold normalizedCommentLine
        rw [hstart]
        rfl
      have hvalid : validateFrontMatterLine line = true := by
        have hquotes : ∀ c ∈ line, c ≠ '"' := by
          rintro c hmem rfl
          exact absurd (hspaces _ hmem) (by decide)
        have hclosed := inStringAfter_plain hquotes []
        rw [List.append_nil] at hclosed
        unfold validateFrontMatterLine
        rw [hclosed]
        rfl
      rw [List.cons_append, frontMatterLoop, hnormalized, Option.getD_none, of_decide_eq_true hline,
        if_neg (by decide), hvalid, Bool.not_true, if_neg Bool.false_ne_true, ih _ hblanks]
      show _ = frontMatterLoop (tomlText ++ ((line ++ ['\n']) ++ unlines blanks)) rest
      simp only [List.append_assoc]

/-- At the opening delimiter, too, the loop ends. -/
theorem frontMatterLoop_delimiter {first : Str} (h : normalizedCommentLine first = some frontMatterDelimiter)
    (following : List Str) : frontMatterLoop tomlText (first :: following) = .ok (tomlText, unlines following) := by
  unfold frontMatterLoop
  rw [h, Option.getD_some, if_pos (by decide)]

end Loop

/-! ## Sources with a front matter -/

section Source

variable (toml : Str → Option Toml.Table) {source first : Str} {following : List Str}

/-- The metadata and the script that the loop has collected. -/
def finishMetadata (tomlText script : Str) : Except FilterSourceError (FilterMetadata × Str) :=
  match (toml tomlText).bind FilterMetadata.deserialize with
  | none => .error .invalidToml
  | some metadata => .ok (metadata, script)

/-- `parse_filter_source` from the opening delimiter on. -/
theorem parseFilterSource_eq (h : (Text.lines source).dropWhile isBlank = first :: following)
    (hfirst : normalizedCommentLine first = some frontMatterDelimiter) :
    parseFilterSource toml source
      = match Text.sliceFrom (frontMatterOffset source) source with
        | none => .error .panicked
        | some text =>
            match frontMatterLoop [] (Text.lines text).tail with
            | .error error => .error error
            | .ok (tomlText, script) => finishMetadata toml tomlText script := by
  unfold parseFilterSource
  dsimp only
  rw [h]
  dsimp only
  rw [if_neg (not_not_intro hfirst)]
  rfl

/-- The bytes that the offset misses are those of the carriage returns. -/
theorem frontMatterOffset_le (h : (Text.lines source).dropWhile isBlank = first :: following) :
    frontMatterOffset source ≤ Text.len (unlines (blankPieces source))
      ∧ (frontMatterOffset source = Text.len (unlines (blankPieces source)) ↔ LineFeedsOnly source) := by
  obtain ⟨-, htake, -⟩ := blankPieces_spec h
  unfold frontMatterOffset LineFeedsOnly
  rw [htake, Text.len_flatMap_newline, List.map_map]
  induction blankPieces source with
  | nil => exact ⟨le_rfl, iff_of_true rfl (fun piece hmem => absurd hmem List.not_mem_nil)⟩
  | cons piece pieces ih =>
      rw [List.map_cons, List.map_cons, List.sum_cons, List.sum_cons, List.forall_mem_cons]
      have hpiece : Text.len (Text.stripCarriageReturn piece) ≤ Text.len piece
          ∧ (Text.len (Text.stripCarriageReturn piece) = Text.len piece ↔ piece.getLast? ≠ some '\r') := by
        unfold Text.stripCarriageReturn
        by_cases hreturn : piece.getLast? = some '\r'
        · rw [if_pos hreturn]
          obtain ⟨front, rfl⟩ := List.getLast?_eq_some_iff.mp hreturn
          have hlen : Text.len (front ++ ['\r']) = Text.len front + 1 := Text.len_append front ['\r']
          rw [List.dropLast_concat, hlen]
          exact ⟨by omega, iff_of_false (by omega) (not_not_intro hreturn)⟩
        · rw [if_neg hreturn]
          exact ⟨le_rfl, iff_of_true rfl hreturn⟩
      show _ + 1 + _ ≤ _ ∧ (_ + 1 + _ = _ ↔ _)
      rw [← hpiece.2, ← ih.2]
      have hle := ih.1
      have hle' := hpiece.1
      constructor
      · omega
      · omega

/-- The first line that is not blank. -/
theorem not_isBlank_first (h : (Text.lines source).dropWhile isBlank = first :: following) :
    isBlank first = false := by
  have hhead := List.head_dropWhile_not isBlank (List.ne_nil_of_mem (by rw [h]; exact List.mem_cons_self))
  simpa only [h, List.head_cons] using hhead

/-- With line feeds only, what is cut off is exactly the blank lines. -/
theorem sliceFrom_of_lineFeedsOnly (h : (Text.lines source).dropWhile isBlank = first :: following)
    (honly : LineFeedsOnly source) :
    ∃ text, Text.sliceFrom (frontMatterOffset source) source = some text ∧ Text.lines text = first :: following := by
  obtain ⟨-, -, tail, hsource, htail⟩ := blankPieces_spec h
  refine ⟨tail, ?_, htail⟩
  have hcut := Text.sliceFrom_append (unlines (blankPieces source)) tail
  rw [← hsource, ← (frontMatterOffset_le h).2.mpr honly] at hcut
  exact hcut

/-- **With a carriage return among them**, a piece of the blank lines is left, and its first line is taken for the
    opening delimiter. -/
theorem lines_of_not_lineFeedsOnly (h : (Text.lines source).dropWhile isBlank = first :: following)
    (honly : ¬LineFeedsOnly source) {text : Str}
    (hslice : Text.sliceFrom (frontMatterOffset source) source = some text) :
    (Text.lines text).tail = (Text.lines text).tail.takeWhile isBlank ++ first :: following := by
  obtain ⟨hblank, -, tail, hsource, htail⟩ := blankPieces_spec h
  obtain ⟨front, hfront, hlen⟩ := Text.eq_of_sliceFrom hslice
  have hlt : Text.len front < Text.len (unlines (blankPieces source)) := by
    rw [hlen]
    exact lt_of_le_of_ne (frontMatterOffset_le h).1 (fun heq => honly ((frontMatterOffset_le h).2.mp heq))
  obtain ⟨suffix, hbefore, rfl⟩ := Text.isPrefix_of_len_le (hfront.symm.trans hsource) hlt.le
  -- the suffix is not empty, and ends as the blank lines end: with a line feed
  have hne : suffix ≠ [] := by
    rintro rfl
    rw [List.append_nil] at hbefore
    rw [hbefore] at hlt
    exact absurd hlt (lt_irrefl _)
  have hpieces : blankPieces source ≠ [] := by
    intro hnil
    rw [hnil] at hbefore
    exact hne (List.append_eq_nil_iff.mp hbefore.symm).2
  obtain ⟨body, hbody⟩ : ∃ body, suffix = body ++ ['\n'] := by
    have hlast := getLast?_unlines hpieces
    rw [hbefore, List.getLast?_append_of_ne_nil _ hne] at hlast
    exact List.getLast?_eq_some_iff.mp hlast
  have hspaces : ∀ c ∈ suffix, Text.isWhitespace c = true := by
    intro c hc
    have hmem : c ∈ unlines (blankPieces source) := by
      rw [hbefore]
      exact List.mem_append_right _ hc
    obtain ⟨piece, hpiece, hc⟩ := List.mem_flatMap.mp hmem
    rcases List.mem_append.mp hc with hc | hc
    · exact Text.trim_eq_nil_iff.mp (of_decide_eq_true (hblank piece hpiece)) c hc
    · rw [List.mem_singleton.mp hc]
      decide
  have hlines : Text.lines (suffix ++ tail) = Text.lines suffix ++ first :: following := by
    rw [hbody, List.append_assoc, List.singleton_append, Text.lines_append, htail]
  have hblanks : ∀ line ∈ Text.lines suffix, isBlank line = true := by
    intro line hmem
    refine decide_eq_true (Text.trim_eq_nil_iff.mpr fun c hc => hspaces c ?_)
    exact (Text.infix_of_mem_lines hmem).subset hc
  obtain ⟨line, lines, hcons⟩ := List.exists_cons_of_ne_nil (hbody ▸ Text.lines_ne_nil body)
  rw [hlines, hcons, List.cons_append, List.tail_cons, List.takeWhile_append_of_pos, List.takeWhile_cons,
    not_isBlank_first h, if_neg Bool.false_ne_true, List.append_nil]
  intro line' hmem
  exact hblanks line' (by rw [hcons]; exact List.mem_cons_of_mem _ hmem)

/-- The source is rejected where the offset is too small: what is left of the blank lines is no TOML, and there is no
    second delimiter, or what is between the delimiters is no metadata either. -/
structure RejectedAnyway (source : Str) (following : List Str) : Prop where
  misread : ∃ text, Text.sliceFrom (frontMatterOffset source) source = some text
    ∧ (toml (unlines ((Text.lines text).tail.takeWhile isBlank))).bind FilterMetadata.deserialize = none
  rejected : (following.dropWhile fun line => !isDelimiter line) ≠ [] →
    readMetadata toml (following.takeWhile fun line => !isDelimiter line) = .error .invalidToml

/-- With line feeds only, the source is read as it should be. -/
theorem readsFrontMatter_of_lineFeedsOnly (h : (Text.lines source).dropWhile isBlank = first :: following)
    (hfirst : normalizedCommentLine first = some frontMatterDelimiter) (honly : LineFeedsOnly source) :
    ReadsFrontMatter toml source following := by
  obtain ⟨text, hslice, hlines⟩ := sliceFrom_of_lineFeedsOnly h honly
  have hparse := parseFilterSource_eq toml h hfirst
  rw [hslice] at hparse
  dsimp only at hparse
  rw [hlines, List.tail_cons, frontMatterLoop_eq] at hparse
  unfold ReadsFrontMatter readMetadata
  rw [hparse]
  cases hinvalid : ((following.takeWhile fun line => !isDelimiter line).map uncommented).find?
      fun line => !validateFrontMatterLine line with
  | some line =>
      split
      · exact ⟨.unterminatedString line, rfl, FilterSourceError.noConfusion⟩
      · rfl
  | none =>
      split
      · exact ⟨.unterminatedBlock, rfl, FilterSourceError.noConfusion⟩
      · dsimp only
        unfold finishMetadata
        rw [List.nil_append]
        cases (toml _).bind FilterMetadata.deserialize with
        | none => rfl
        | some metadata => rfl

/-- **With a carriage return**, the opening delimiter closes an empty block, and everything behind it is the script. -/
theorem parseFilterSource_of_not_lineFeedsOnly (h : (Text.lines source).dropWhile isBlank = first :: following)
    (hfirst : normalizedCommentLine first = some frontMatterDelimiter) (honly : ¬LineFeedsOnly source) :
    parseFilterSource toml source
      = match Text.sliceFrom (frontMatterOffset source) source with
        | none => .error .panicked
        | some text =>
            finishMetadata toml (unlines ((Text.lines text).tail.takeWhile isBlank)) (unlines following) := by
  rw [parseFilterSource_eq toml h hfirst]
  cases hslice : Text.sliceFrom (frontMatterOffset source) source with
  | none => rfl
  | some text =>
      dsimp only
      have hblanks : ∀ line ∈ (Text.lines text).tail.takeWhile isBlank, isBlank line = true :=
        fun line hmem => List.mem_takeWhile_imp hmem
      rw [lines_of_not_lineFeedsOnly h honly hslice, frontMatterLoop_blank _ hblanks, frontMatterLoop_delimiter _ hfirst,
        ← lines_of_not_lineFeedsOnly h honly hslice]
      rfl

/-- The lines behind the opening delimiter are more than those behind the next one. -/
theorem unlines_dropWhile_ne {following script : List Str} {line : Str}
    (h : (following.dropWhile fun line => !isDelimiter line) = line :: script) :
    unlines following ≠ unlines script := by
  intro heq
  have hsplit := List.takeWhile_append_dropWhile (p := fun line => !isDelimiter line) (l := following)
  rw [h] at hsplit
  have hlen := congrArg List.length heq
  rw [← hsplit] at hlen
  simp only [unlines, List.flatMap_append, List.flatMap_cons, List.length_append, List.length_cons,
    List.length_nil] at hlen
  omega

theorem readMetadata_ne_panicked (between : List Str) : readMetadata toml between ≠ .error .panicked := by
  unfold readMetadata
  split
  · intro heq
    cases heq
  · split
    · intro heq
      cases heq
    · intro heq
      cases heq

/-- A panic is not how a source should be read. -/
theorem not_readsFrontMatter_of_panicked (hparse : parseFilterSource toml source = .error .panicked) :
    ¬ ReadsFrontMatter toml source following := by
  unfold ReadsFrontMatter
  rw [hparse]
  split
  · rintro ⟨error, heq, hne⟩
    cases heq
    exact hne rfl
  · intro heq
    cases hread : readMetadata toml (following.takeWhile fun line => !isDelimiter line) with
    | ok metadata =>
        rw [hread] at heq
        cases heq
    | error error =>
        rw [hread] at heq
        cases heq
        exact readMetadata_ne_panicked toml _ hread

/-- Nor should all that follows the opening delimiter be the script. -/
theorem not_readsFrontMatter_of_script {metadata : FilterMetadata}
    (hparse : parseFilterSource toml source = .ok (metadata, unlines following)) :
    ¬ ReadsFrontMatter toml source following := by
  unfold ReadsFrontMatter
  rw [hparse]
  cases hrest : following.dropWhile fun line => !isDelimiter line with
  | nil =>
      rintro ⟨error, heq, -⟩
      cases heq
  | cons line script =>
      dsimp only
      cases readMetadata toml (following.takeWhile fun line => !isDelimiter line) with
      | error error => exact fun heq => nomatch heq
      | ok metadata' =>
          -- the script would be shorter
          intro heq
          have hscript : unlines following = unlines script := congrArg Prod.snd (Except.ok.inj heq)
          exact unlines_dropWhile_ne hrest hscript

/-- Otherwise the source is read as it should be only if it should be rejected, and is. -/
theorem readsFrontMatter_iff_rejectedAnyway (h : (Text.lines source).dropWhile isBlank = first :: following)
    (hfirst : normalizedCommentLine first = some frontMatterDelimiter) (honly : ¬LineFeedsOnly source) :
    ReadsFrontMatter toml source following ↔ RejectedAnyway toml source following := by
  have hparse := parseFilterSource_of_not_lineFeedsOnly toml h hfirst honly
  -- the offset is short: it may fall into a character, or cut the script off at the wrong line
  cases hslice : Text.sliceFrom (frontMatterOffset source) source with
  | none =>
      rw [hslice] at hparse
      refine iff_of_false (not_readsFrontMatter_of_panicked toml hparse) ?_
      rintro ⟨⟨text, htext, -⟩, -⟩
      rw [hslice] at htext
      cases htext
  | some text =>
      rw [hslice] at hparse
      dsimp only at hparse
      unfold finishMetadata at hparse
      cases hmisread : (toml (unlines ((Text.lines text).tail.takeWhile isBlank))).bind FilterMetadata.deserialize with
      | none =>
          rw [hmisread] at hparse
          have hcut : ∃ text, Text.sliceFrom (frontMatterOffset source) source = some text
              ∧ (toml (unlines ((Text.lines text).tail.takeWhile isBlank))).bind FilterMetadata.deserialize = none :=
            ⟨text, hslice, hmisread⟩
          unfold ReadsFrontMatter
          rw [hparse]
          cases hrest : following.dropWhile fun line => !isDelimiter line with
          | nil =>
              exact iff_of_true ⟨.invalidToml, rfl, FilterSourceError.noConfusion⟩
                ⟨hcut, fun hne => absurd hrest hne⟩
          | cons line script =>
              have hrejected : RejectedAnyway toml source following
                  ↔ readMetadata toml (following.takeWhile fun line => !isDelimiter line) = .error .invalidToml :=
                ⟨fun hany => hany.rejected (by rw [hrest]; exact List.cons_ne_nil _ _), fun hread => ⟨hcut, fun _ => hread⟩⟩
              rw [hrejected]
              dsimp only
              cases readMetadata toml (following.takeWhile fun line => !isDelimiter line) with
              | ok metadata => exact iff_of_false (fun heq => nomatch heq) (fun heq => nomatch heq)
              | error error =>
                  constructor
                  · intro heq
                    cases heq
                    rfl
                  · intro heq
                    cases heq
                    rfl
      | some metadata =>
          rw [hmisread] at hparse
          refine iff_of_false (not_readsFrontMatter_of_script toml hparse) ?_
          rintro ⟨⟨text', htext, hnone⟩, -⟩
          rw [hslice] at htext
          cases htext
          rw [hmisread] at hnone
          cases hnone

/-- **When the front matter is read as it should be**: if and only if no blank line before the opening delimiter ends
    with CRLF, or the source is rejected and should be. -/
theorem readsFrontMatter_iff (h : (Text.lines source).dropWhile isBlank = first :: following)
    (hfirst : normalizedCommentLine first = some frontMatterDelimiter) :
    ReadsFrontMatter toml source following ↔ LineFeedsOnly source ∨ RejectedAnyway toml source following := by
  by_cases honly : LineFeedsOnly source
  · exact iff_of_true (readsFrontMatter_of_lineFeedsOnly toml h hfirst honly) (Or.inl honly)
  · rw [readsFrontMatter_iff_rejectedAnyway toml h hfirst honly, or_iff_right honly]

end Source

section LineEnds

/-- A blank line with a line feed before the front matter. -/
theorem readsFrontMatter_lineFeed :
    (Text.lines "\n// +++\n// enabled = false\n// +++\n".toList).dropWhile isBlank
        = ["// +++".toList, "// enabled = false".toList, "// +++".toList]
      ∧ normalizedCommentLine "// +++".toList = some frontMatterDelimiter
      ∧ ReadsFrontMatter Toml.parse "\n// +++\n// enabled = false\n// +++\n".toList
        ["// enabled = false".toList, "// +++".toList] := by
  have h : (Text.lines "\n// +++\n// enabled = false\n// +++\n".toList).dropWhile isBlank
      = ["// +++".toList, "// enabled = false".toList, "// +++".toList] := by decide +kernel
  have hfirst : normalizedCommentLine "// +++".toList = some frontMatterDelimiter := by decide
  exact ⟨h, hfirst, (readsFrontMatter_iff Toml.parse h hfirst).mpr (Or.inl (by unfold LineFeedsOnly; decide +kernel))⟩

/-- With CRLF in its place, the disabled filter is loaded: its metadata is empty, and what it says is the script. -/
theorem blank_crlf_not_readsFrontMatter :
    ¬∀ (toml : Str → Option Toml.Table) (source first : Str) (following : List Str),
      (Text.lines source).dropWhile isBlank = first :: following →
      normalizedCommentLine first = some frontMatterDelimiter → ReadsFrontMatter toml source following := by
  intro h
  have hreads := h Toml.parse "\r\n// +++\n// enabled = false\n// +++\n".toList "// +++".toList
    ["// enabled = false".toList, "// +++".toList] (by decide +kernel) (by decide)
  have hdropped : (["// enabled = false".toList, "// +++".toList].dropWhile fun line => !isDelimiter line)
      = ["// +++".toList] := by decide +kernel
  unfold ReadsFrontMatter at hreads
  rw [hdropped] at hreads
  have hscript := congrArg (fun result => result.toOption.map Prod.snd) hreads
  exact absurd hscript (by decide +kernel)

end LineEnds

end Inspect.Filters
