import Inspect.Lib.Http

/-!
# `Flow.BodyEncoding` — content encodings as the proxy undoes them

The embedding of `src/mitm/flow/body_encoding.rs`. The decompressors are the parameter `codecs`: a partial function on
bytes for each coding.
-/

namespace Inspect.Flow

open Http

inductive ContentCoding
  | gzip
  | deflate
  | br
  | zstd
deriving DecidableEq, Repr

/-- The decompressors. -/
abbrev Codecs := ContentCoding → Bytes → Option Bytes

/-- The codings that go by one name everywhere. -/
def ContentCoding.named (encoding : Str) : Option ContentCoding :=
  if encoding = "gzip".toList then some .gzip
  else if encoding = "deflate".toList then some .deflate
  else if encoding = "br".toList then some .br
  else if encoding = "zstd".toList then some .zstd
  else none

/-- The coding of a name, as the proxy knows it. -/
def ContentCoding.ofName (encoding : Str) : Option ContentCoding :=
  if encoding = "x-gzip".toList then some .gzip else ContentCoding.named encoding

/-- The parts of a `Content-Encoding` value. -/
def encodingParts (value : Str) : List Str :=
  (value.splitOn ',').map fun encoding => Text.toAsciiLowercase (Text.trim encoding)

section Decode

variable (codecs : Codecs)

/-- `decode_by_content_encoding_header`: only the first encoding is looked at. -/
def decodeByContentEncodingHeader (headerValue : HeaderValue) (body : Bytes) : Option Bytes :=
  headerValue.toStr.bind fun value =>
    let encoding := (encodingParts value).headD []
    if encoding = [] ∨ encoding = "identity".toList then some body
    else (ContentCoding.ofName encoding).bind fun coding => codecs coding body

/-- `decode_content_encoded_body`. -/
def decodeContentEncodedBody (headers : HeaderMap) (body : Bytes) : Option Bytes :=
  (HeaderMap.get headers contentEncoding).bind fun headerValue =>
    decodeByContentEncodingHeader codecs headerValue body

/-- Whether a body starts with the two bytes of a gzip file. -/
def hasGzipMagic (body : Bytes) : Bool := [0x1f, 0x8b].isPrefixOf body

/-- `decode_body_by_magic_number`. -/
def decodeBodyByMagicNumber (body : Bytes) : Option Bytes :=
  if hasGzipMagic body then codecs .gzip body else none

/-- `decoded_body_or_raw`. -/
def decodedBodyOrRaw (headers : HeaderMap) (body : Bytes) : Bytes :=
  (decodeContentEncodedBody codecs headers body).getD ((decodeBodyByMagicNumber codecs body).getD body)

end Decode

end Inspect.Flow
