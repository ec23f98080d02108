import Inspect.Lib.Fields

/-!
# `Tui.PacketRow` — rows of the packet list and the conditions that select them

The first part of `src/tui/mod.rs`: a row with its text, and the matcher that a search query is parsed into.
-/

namespace Inspect.Tui

structure RowMark where
  label : Str
  color : Option Str
deriving DecidableEq

/-- A row of the packet list. A row that stands for no packet has an empty `id`. -/
structure PacketRow where
  id : Str
  seq : Nat
  flowKey : Str
  flowDir : Option Str
  time : Str
  method : Str
  status : Option UInt16
  elapsedMs : Option Int
  protocol : Str
  host : Str
  uri : Str
  queryStr : Str
  marks : List RowMark
  line : Str
deriving DecidableEq

namespace PacketRow

/-- `url_text`. -/
def urlText (row : PacketRow) : Str :=
  let scheme := if row.protocol = [] then [] else row.protocol ++ "://".toList
  if row.queryStr = [] then scheme ++ row.host ++ row.uri
  else scheme ++ row.host ++ row.uri ++ '?' :: row.queryStr

/-- `refresh_line`: the text of the row is written again. -/
def refreshLine (row : PacketRow) : PacketRow :=
  let status := row.status.elim "----".toList fun status => Nat.toDigits 10 status.toNat
  { row with
    line :=
      '#' :: Text.padStart 6 '0' (Nat.toDigits 10 row.seq) ++ ' ' :: row.time ++ ' ' :: Text.padEnd 7 ' ' row.method
        ++ ' ' :: Text.padEnd 4 ' ' status ++ [' ']
        ++ row.elapsedMs.elim (List.replicate 8 ' ')
            (fun ms => Text.padStart 5 ' ' (Text.displayInt ms) ++ "ms ".toList)
        ++ row.marks.flatMap (fun mark => '[' :: mark.label ++ "] ".toList)
        ++ row.protocol ++ "://".toList ++ row.host ++ row.uri
        ++ (if row.queryStr = [] then [] else '?' :: row.queryStr) }

end PacketRow

/-! ## Search conditions -/

inductive SearchCondition where
  | not (condition : SearchCondition)
  | any (conditions : List SearchCondition)
  | urlContains (query : Str)
  | urlRegex (isMatch : Str → Bool)
  | method (name : Str)
  | methodAny (names : List Str)
  | status (code : UInt16)
  | statusClass (hundreds : UInt16)
  | noStatus

/-- `split_csv_values`. -/
def splitCsvValues (value : Str) : List Str :=
  ((value.splitOn ',').map Text.trim).filter fun value => value ≠ []

namespace SearchCondition

/-- `parse_status_value`. -/
def parseStatusValue (value originalPart : Str) : SearchCondition :=
  let value := Text.trim value
  if value = "-".toList ∨ value = "----".toList ∨ Text.eqIgnoreAsciiCase value "none".toList then .noStatus
  else
    let hundreds :=
      if "xx".toList.isSuffixOf value then Text.parseUnsigned (2 ^ 16) (value.take (value.length - 2)) else none
    match hundreds with
    | some hundreds => .statusClass (.ofNat hundreds)
    | none =>
        match Text.parseUnsigned (2 ^ 16) value with
        | some code => .status (.ofNat code)
        | none => .urlContains (Text.toAsciiLowercase originalPart)

/-- `str::to_ascii_uppercase`. -/
def toAsciiUppercase (text : Str) : Str := text.map Char.toUpper

/-- `strip_prefix` with the first of several prefixes that fits. -/
def stripPrefixes (starts : List String) (part : Str) : Option Str :=
  starts.findSome? fun start => Text.stripPrefix start.toList part

variable (regexNew : Str → Except Str (Str → Bool))

/-- A condition without exclamation marks before it. -/
def parsePlain (part : Str) : Except Str SearchCondition :=
  match stripPrefixes ["method:", "meth:", "m:"] part with
  | some value =>
      match (splitCsvValues value).map toAsciiUppercase with
      | [name] => .ok (.method name)
      | methods => .ok (.methodAny methods)
  | none =>
      match stripPrefixes ["status:", "stat:", "s:"] part with
      | some value =>
          match splitCsvValues value with
          | [value] => .ok (parseStatusValue value part)
          | values => .ok (.any (values.map fun value => parseStatusValue value part))
      | none =>
          match Text.stripPrefix "re:".toList part with
          | some pattern => (regexNew pattern).map .urlRegex
          | none => .ok (.urlContains (Text.toAsciiLowercase part))

/-- `SearchCondition::parse`; every round takes an exclamation mark off, and `fuel` bounds the rounds. -/
def parseWithin (fuel : Nat) (part : Str) : Except Str SearchCondition :=
  let part := Text.trim part
  match fuel, Text.stripPrefix ['!'] part with
  | fuel + 1, some rest => (parseWithin fuel (Text.trim rest)).map .not
  | _, _ => parsePlain regexNew part

/-- `SearchCondition::parse`: there are no more exclamation marks than characters. -/
def parse (part : Str) : Except Str SearchCondition := parseWithin regexNew part.length part

mutual

/-- `SearchCondition::matches`. -/
def «matches» (row : PacketRow) : SearchCondition → Bool
  | .not condition => !condition.matches row
  | .any conditions => anyMatches row conditions
  | .urlContains query => Text.contains query (Text.toAsciiLowercase row.urlText)
  | .urlRegex isMatch => isMatch row.urlText
  | .method name => Text.eqIgnoreAsciiCase row.method name
  | .methodAny names => names.any fun name => Text.eqIgnoreAsciiCase row.method name
  | .status code => row.status == some code
  | .statusClass hundreds => row.status.any fun code => code / 100 == hundreds
  | .noStatus => row.status.isNone

/-- One of the conditions matches. -/
def anyMatches (row : PacketRow) : List SearchCondition → Bool
  | [] => false
  | condition :: conditions => condition.matches row || anyMatches row conditions

end

end SearchCondition

structure SearchMatcher where
  conditions : List SearchCondition
  label : Str

namespace SearchMatcher

/-- `SearchMatcher::parse`: a query without conditions is none. -/
def parse (regexNew : Str → Except Str (Str → Bool)) (query : Str) : Except Str (Option SearchMatcher) := do
  let query := Text.trim query
  let parts := ((Text.splitStr "&&".toList 0 query).map Text.trim).filter fun part => part ≠ []
  let conditions ← parts.mapM (SearchCondition.parse regexNew)
  if conditions.isEmpty then return none
  return some ⟨conditions, query⟩

/-- `SearchMatcher::matches`. -/
def «matches» (matcher : SearchMatcher) (row : PacketRow) : Bool :=
  matcher.conditions.all (SearchCondition.matches row)

end SearchMatcher

/-! ## What a matcher reads -/

section Reads

variable {row row' : PacketRow}

/-- The parts of a row that a matcher reads. -/
structure SameKey (row row' : PacketRow) : Prop where
  method : row.method = row'.method
  status : row.status = row'.status
  protocol : row.protocol = row'.protocol
  host : row.host = row'.host
  uri : row.uri = row'.uri
  queryStr : row.queryStr = row'.queryStr

theorem SameKey.urlText (h : SameKey row row') : row.urlText = row'.urlText := by
  unfold PacketRow.urlText
  rw [h.protocol, h.host, h.uri, h.queryStr]

mutual

theorem SearchCondition.matches_congr (h : SameKey row row') :
    ∀ condition : SearchCondition, condition.matches row = condition.matches row'
  | .not condition => by
      rw [SearchCondition.matches, SearchCondition.matches, SearchCondition.matches_congr h condition]
  | .any conditions => by
      rw [SearchCondition.matches, SearchCondition.matches, SearchCondition.anyMatches_congr h conditions]
  | .urlContains _ | .urlRegex _ => by
      rw [SearchCondition.matches, SearchCondition.matches, h.urlText]
  | .method _ | .methodAny _ => by
      rw [SearchCondition.matches, SearchCondition.matches, h.method]
  | .status _ | .statusClass _ | .noStatus => by
      rw [SearchCondition.matches, SearchCondition.matches, h.status]

theorem SearchCondition.anyMatches_congr (h : SameKey row row') :
    ∀ conditions : List SearchCondition,
      SearchCondition.anyMatches row conditions = SearchCondition.anyMatches row' conditions
  | [] => rfl
  | condition :: conditions => by
      rw [SearchCondition.anyMatches, SearchCondition.anyMatches, SearchCondition.matches_congr h condition,
        SearchCondition.anyMatches_congr h conditions]

end

/-- A matcher reads the method, the status and the address of a row, not its marks and its text. -/
theorem SearchMatcher.matches_congr (h : SameKey row row') (matcher : SearchMatcher) :
    matcher.matches row = matcher.matches row' := by
  unfold SearchMatcher.matches
  rw [funext (SearchCondition.matches_congr h)]

end Reads

end Inspect.Tui
