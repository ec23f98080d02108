import Inspect.Flow.BodyEncoding
import Inspect.Lib.Hex
import Inspect.Lib.Json.Serde
import Inspect.Lib.Split

/-!
# `Tui.Body` — content encodings as the user interface undoes them

The decoding half of `src/tui/body.rs`, the body of a message as it is put into a HAR file, and the text that is shown of
a body. The first two work on the headers as JSON.
-/

namespace Inspect.Tui

open Inspect.Flow

structure DecodedBody where
  bytes : Bytes
  contentEncoding : Option Str
  decoded : Bool
deriving DecidableEq

section Decode

variable (codecs : Codecs)

/-- One round of the loop of `decode_by_content_encoding`: a name that is not known changes nothing. -/
def undoEncoding (current : Bytes) (encoding : Str) : Option Bytes :=
  match ContentCoding.named encoding with
  | some coding => codecs coding current
  | none => some current

/-- `decode_by_content_encoding`: the last encoding is undone first. -/
def decodeByContentEncoding (contentEncoding : Str) (body : Bytes) : Option Bytes :=
  ((encodingParts contentEncoding).filter fun encoding => encoding ≠ []).reverse.foldlM (undoEncoding codecs) body

variable {N : Type} (serde : SerdeJson N)

/-- `normalize_headers`. -/
def normalizeHeaders : Json N → Json N
  | .string text => (serde.fromStr text).getD .null
  | headers => headers

/-- The text of a header: several values are joined. -/
def headerText : Json N → Str
  | .string text => text
  | .array values =>
      ", ".toList.intercalate (values.filterMap fun value =>
        match value with
        | .string text => some text
        | _ => none)
  | other => serde.toString other

/-- `header_value`. -/
def headerValue (headers : Json N) (name : Str) : Option Str :=
  match normalizeHeaders serde headers with
  | .object members =>
      ((members.lookup (Text.toAsciiLowercase name)).or
        ((members.find? fun member => Text.eqIgnoreAsciiCase member.1 name).map Prod.snd)).map (headerText serde)
  | _ => none

/-- `decode_body_by_headers`. -/
def decodeBodyByHeaders (headers : Json N) (body : Bytes) : DecodedBody :=
  match headerValue serde headers "content-encoding".toList with
  | none => ⟨body, none, false⟩
  | some contentEncoding =>
      match decodeByContentEncoding codecs contentEncoding body with
      | some bytes => ⟨bytes, some contentEncoding, true⟩
      | none => ⟨body, some contentEncoding, false⟩

/-! ## Bodies in a HAR file -/

/-- The media type of a `Content-Type` value. -/
def mimeTypeOf (contentType : Str) : Str := Text.trim ((contentType.splitOn ';').headD [])

/-- `is_textual_content_type`. -/
def isTextualContentType (headers : Json N) : Bool :=
  match (headerValue serde headers "content-type".toList).map Text.toAsciiLowercase with
  | none => false
  | some contentType =>
      "text/".toList.isPrefixOf contentType
        || Text.contains "json".toList contentType
        || Text.contains "xml".toList contentType
        || Text.contains "javascript".toList contentType
        || Text.contains "graphql".toList contentType
        || Text.contains "x-www-form-urlencoded".toList contentType

/-- The members `text` and `encoding`: what is not a text is in base 64. -/
def harText (textual : Bool) (bytes : Bytes) : List (Str × Json N) :=
  match if textual then Bytes.fromUtf8 bytes else none with
  | some text => [("text".toList, .string text)]
  | none => [("text".toList, .string (Bytes.base64 bytes)), ("encoding".toList, .string "base64".toList)]

/-- `format_body_for_har`. -/
def formatBodyForHar (jsonNumber : Int → N) (headers : Json N) (body : Bytes) : Json N :=
  let decoded := decodeBodyByHeaders codecs serde headers body
  let mimeType := ((headerValue serde headers "content-type".toList).map mimeTypeOf).getD []
  let compression := max ((decoded.bytes.length : Int) - body.length) 0
  .object ([("size".toList, .number (jsonNumber decoded.bytes.length)), ("mimeType".toList, .string mimeType),
    ("compression".toList, .number (jsonNumber compression))]
    ++ harText (isTextualContentType serde headers) decoded.bytes)

end Decode

/-! ## Bodies that are shown -/

/-- The magic numbers of `binary_magic_kind`, in its order. -/
def magicNumbers : List (String × (Bytes → Bool)) :=
  let startsWith (start : String) (bytes : Bytes) : Bool := (Text.bytes start.toList).isPrefixOf bytes
  let pieceAt (offset : Nat) (piece : String) (bytes : Bytes) : Bool :=
    (bytes.drop offset).take (Text.bytes piece.toList).length == Text.bytes piece.toList
  [("png", List.isPrefixOf [0x89, 0x50, 0x4E, 0x47, 0x0D, 0x0A, 0x1A, 0x0A]),
    ("jpeg", List.isPrefixOf [0xFF, 0xD8, 0xFF]),
    ("gif", fun bytes => startsWith "GIF87a" bytes || startsWith "GIF89a" bytes),
    ("pdf", startsWith "%PDF-"),
    ("zip", fun bytes => startsWith "PK\x03\x04" bytes || startsWith "PK\x05\x06" bytes || startsWith "PK\x07\x08" bytes),
    ("gzip", List.isPrefixOf [0x1F, 0x8B]),
    ("zstd", List.isPrefixOf [0x28, 0xB5, 0x2F, 0xFD]),
    ("wasm", startsWith "\x00asm"),
    ("elf", startsWith "\x7fELF"),
    ("bmp", startsWith "BM"),
    ("webp", fun bytes => startsWith "RIFF" bytes && pieceAt 8 "WEBP" bytes),
    ("wav", fun bytes => startsWith "RIFF" bytes && pieceAt 8 "WAVE" bytes),
    ("ogg", startsWith "OggS"),
    ("avif", fun bytes => 12 ≤ bytes.length && pieceAt 4 "ftypavif" bytes),
    ("mp4", fun bytes => 12 ≤ bytes.length && pieceAt 4 "ftyp" bytes)]

/-- `binary_magic_kind`. -/
def binaryMagicKind (bytes : Bytes) : Option Str :=
  (magicNumbers.find? fun magic => magic.2 bytes).map fun magic => magic.1.toList

/-- `looks_like_text`. -/
def looksLikeText (text : Str) : Bool :=
  let total := text.length
  let control := text.countP fun ch => Text.isControl ch && !(ch = '\n' || ch = '\r' || ch = '\t')
  total == 0 || control * 100 / total ≤ 5

/-- The decoders of base 64 that `decode_base64_variants` tries. -/
structure Base64Engines where
  standard : Str → Option Bytes
  standardNoPad : Str → Option Bytes
  urlSafe : Str → Option Bytes
  urlSafeNoPad : Str → Option Bytes

/-- `looks_like_base64_text`. -/
def looksLikeBase64Text (text : Str) : Bool :=
  let isBase64Char (ch : Char) : Bool := ch.isUpper || ch.isLower || ch.isDigit || "+/-_".toList.contains ch
  let base64Chars := text.countP isBase64Char
  let paddingChars := text.count '='
  64 ≤ Text.len text && Text.len text % 4 ≠ 1 && text.all (fun ch => isBase64Char ch || ch = '=')
    && paddingChars ≤ 2 && 95 ≤ base64Chars * 100 / Text.len text

/-- `base64_with_padding`. -/
def base64WithPadding (text : Str) : Str :=
  match Text.len text % 4 with
  | 2 => text ++ "==".toList
  | 3 => text ++ "=".toList
  | _ => text

/-- `looks_like_useful_decoded_text`. -/
def looksLikeUsefulDecodedText (text : Str) : Bool :=
  let trimmed := Text.trimStart text
  "\x7b".toList.isPrefixOf trimmed || "[".toList.isPrefixOf trimmed || "<".toList.isPrefixOf trimmed
    || trimmed.contains '\n' || Text.contains "\r\n".toList trimmed || trimmed.contains ':' || trimmed.contains ','

section Display

variable (engines : Base64Engines)

/-- `decode_base64_variants`. -/
def decodeBase64Variants (text : Str) : Option Bytes :=
  let padded := base64WithPadding text
  (engines.standard text).orElse fun _ => (engines.standardNoPad text).orElse fun _ =>
    (engines.urlSafe text).orElse fun _ => (engines.urlSafeNoPad text).orElse fun _ =>
      if padded ≠ text then (engines.standard padded).orElse fun _ => engines.urlSafe padded else none

/-- `decode_base64_text_for_display`. -/
def decodeBase64TextForDisplay (text : Str) : Option Str :=
  let compact := (Text.splitWhitespace text).flatten
  if looksLikeBase64Text compact then
    ((decodeBase64Variants engines compact).bind Bytes.fromUtf8).filter fun decodedText =>
      looksLikeText decodedText && looksLikeUsefulDecodedText decodedText
  else none

/-! ### Hex dumps -/

/-- `WIDTH`: the bytes in a line. -/
def hexdumpWidth : Nat := 16

/-- `bytes.chunks(WIDTH)`. -/
def hexdumpChunks (bytes : Bytes) : List Bytes :=
  if _h : bytes = [] then [] else bytes.take hexdumpWidth :: hexdumpChunks (bytes.drop hexdumpWidth)
termination_by bytes.length
decreasing_by
  have hpos := List.length_pos_iff.mpr _h
  rw [List.length_drop, hexdumpWidth]
  omega

/-- The column of the byte at `i`, with the gap in the middle of a line. -/
def hexColumn (chunk : Bytes) (i : Nat) : Str :=
  let column :=
    match chunk[i]? with
    | some byte => Text.lowerHex 2 byte.toNat ++ [' ']
    | none => "   ".toList
  column ++ if i = 7 then [' '] else []

/-- A byte in the column of characters. -/
def asciiOrDot (byte : UInt8) : Char := if 0x20 ≤ byte && byte ≤ 0x7E then Char.ofNat byte.toNat else '.'

/-- A line of a hex dump, without its end. -/
def hexdumpLine (offset : Nat) (chunk : Bytes) : Str :=
  Text.lowerHex 8 offset ++ "  ".toList ++ (List.range hexdumpWidth).flatMap (hexColumn chunk)
    ++ " |".toList ++ chunk.map asciiOrDot ++ List.replicate (hexdumpWidth - chunk.length) ' ' ++ ['|']

/-- The loop over the chunks of `total` bytes. -/
def hexdumpLoop (total : Nat) (chunks : List (Bytes × Nat)) : Str :=
  chunks.flatMap fun (chunk, line) =>
    let offset := line * hexdumpWidth
    hexdumpLine offset chunk ++ if offset + chunk.length < total then ['\n'] else []

/-- `hexdump_with_ascii`. -/
def hexdumpWithAscii (bytes : Bytes) : Str := hexdumpLoop bytes.length (hexdumpChunks bytes).zipIdx

/-- The line over the dump of a body with a magic number. -/
def magicBanner (kind : Str) : Str := "<binary body detected by magic number: ".toList ++ kind ++ ">".toList

/-- `format_body_for_display`. -/
def formatBodyForDisplay (bytes : Bytes) : Str :=
  match binaryMagicKind bytes with
  | some kind => magicBanner kind ++ "\n\n".toList ++ hexdumpWithAscii bytes
  | none =>
      match (Bytes.fromUtf8 bytes).filter looksLikeText with
      | some text =>
          match decodeBase64TextForDisplay engines text with
          | some decodedText => "<base64 text decoded for display>\n\n".toList ++ decodedText
          | none => text
      | none => hexdumpWithAscii bytes

end Display

end Inspect.Tui
