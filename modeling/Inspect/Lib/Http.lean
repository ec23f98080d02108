import Inspect.Lib.Bytes
import Inspect.Lib.Fields

/-!
# `Lib.Http` — HTTP messages

The data of the `http` crate: header names and values that carry their validity, header maps, status codes, versions
and message heads. A body is the sequence of frames that it yields, where a transfer can also break off.

A header map keeps the values of one name in their order; the order of different names is arbitrary there, and is
the order of insertion here.
-/

namespace Inspect.Http

/-! ## Header names and values -/

/-- The characters of a token. -/
def isTokenChar (c : Char) : Bool := c.isAlphanum || "!#$%&'*+-.^_`|~".toList.contains c

def isHeaderName (text : Str) : Bool :=
  !text.isEmpty && decide (text.length < 2 ^ 16) && text.all fun c => isTokenChar c && !c.isUpper

structure HeaderName where
  text : Str
  valid : isHeaderName text = true
deriving DecidableEq

/-- `HeaderName::from_bytes`: upper case is turned into lower case. -/
def HeaderName.fromBytes (name : Str) : Option HeaderName :=
  if h : isHeaderName (Text.toAsciiLowercase name) = true then some ⟨_, h⟩ else none

/-- A header name is in lower case. -/
theorem HeaderName.toAsciiLowercase_text (name : HeaderName) : Text.toAsciiLowercase name.text = name.text := by
  have hchars := name.valid
  simp only [isHeaderName, Bool.and_eq_true, List.all_eq_true] at hchars
  refine (List.map_congr_left fun c hc => ?_).trans (List.map_id _)
  have hupper : c.isUpper = false := by simpa using (hchars.2 c hc).2
  exact dif_neg (of_decide_eq_false hupper)

def isHeaderValueByte (byte : UInt8) : Bool := (32 ≤ byte && byte != 127) || byte == 9

structure HeaderValue where
  bytes : Bytes
  valid : bytes.all isHeaderValueByte = true
deriving DecidableEq

/-- `HeaderValue::from_str`. -/
def HeaderValue.fromStr (text : Str) : Option HeaderValue :=
  if h : (Text.bytes text).all isHeaderValueByte = true then some ⟨_, h⟩ else none

/-- `HeaderValue::to_str`: only visible ASCII, spaces and tabs are text. -/
def HeaderValue.toStr (value : HeaderValue) : Option Str :=
  if value.bytes.all fun byte => (32 ≤ byte && byte < 127) || byte == 9 then
    some (value.bytes.map fun byte => Char.ofNat byte.toNat)
  else none

/-- A value as it is shown: its text, or its bytes in base 64. -/
def HeaderValue.display (value : HeaderValue) : Str := value.toStr.getD (Bytes.base64 value.bytes)

theorem HeaderValue.display_of_some {value : HeaderValue} {text : Str} (h : value.toStr = some text) :
    value.display = text := by
  rw [HeaderValue.display, h, Option.getD_some]

theorem HeaderValue.display_of_none {value : HeaderValue} (h : value.toStr = none) :
    value.display = Bytes.base64 value.bytes := by
  rw [HeaderValue.display, h, Option.getD_none]

/-! ## Header maps -/

abbrev HeaderMap := List (HeaderName × HeaderValue)

namespace HeaderMap

variable (headers : HeaderMap) (name : HeaderName)

/-- `HeaderMap::get_all`. -/
def getAll : List HeaderValue := (headers.filter fun header => header.1 = name).map Prod.snd

/-- `HeaderMap::get`: the first value. -/
def get : Option HeaderValue := (getAll headers name).head?

/-- `HeaderMap::remove`. -/
def remove : HeaderMap := headers.filter fun header => header.1 ≠ name

/-- `HeaderMap::insert`: the value takes the place of all others. -/
def insert (value : HeaderValue) : HeaderMap := remove headers name ++ [(name, value)]

/-- `HeaderMap::append`. -/
def append (value : HeaderValue) : HeaderMap := headers ++ [(name, value)]

/-- The text of the first value, if it is text. -/
def getStr : Option Str := (get headers name).bind HeaderValue.toStr

theorem getAll_append (more : HeaderMap) :
    getAll (headers ++ more) name = getAll headers name ++ getAll more name := by
  unfold getAll
  rw [List.filter_append, List.map_append]

/-- Removing a name takes its values, and no others. -/
theorem getAll_remove (other : HeaderName) :
    getAll (remove headers name) other = if name = other then [] else getAll headers other := by
  unfold getAll remove
  rw [List.filter_filter]
  by_cases hname : name = other
  · rw [if_pos hname, List.map_eq_nil_iff, List.filter_eq_nil_iff]
    intro header _ hboth
    rw [Bool.and_eq_true, decide_eq_true_eq, decide_eq_true_eq] at hboth
    exact hboth.2 (hboth.1.trans hname.symm)
  · rw [if_neg hname]
    congr 1
    apply List.filter_congr
    intro header _
    by_cases hheader : header.1 = other
    · simp [hheader, Ne.symm hname]
    · simp [hheader]

/-- Inserting replaces the values of a name, and no others. -/
theorem getAll_insert (other : HeaderName) (value : HeaderValue) :
    getAll (insert headers name value) other = if name = other then [value] else getAll headers other := by
  unfold insert
  rw [getAll_append, getAll_remove]
  by_cases hname : name = other
  · rw [if_pos hname, if_pos hname]
    simp [getAll, hname]
  · rw [if_neg hname, if_neg hname]
    simp [getAll, hname]

end HeaderMap

def contentType : HeaderName := ⟨"content-type".toList, by decide⟩
def contentLength : HeaderName := ⟨"content-length".toList, by decide⟩
def contentEncoding : HeaderName := ⟨"content-encoding".toList, by decide⟩
def etag : HeaderName := ⟨"etag".toList, by decide⟩
def contentMd5 : HeaderName := ⟨"content-md5".toList, by decide⟩
def connection : HeaderName := ⟨"connection".toList, by decide⟩

/-! ## Heads -/

/-- `Method::from_str`: any token. -/
def parseMethod (method : Str) : Option Str :=
  if method ≠ [] ∧ method.all isTokenChar = true then some method else none

inductive Version
  | http09
  | http10
  | http11
  | http2
  | http3
deriving DecidableEq, Repr

structure StatusCode where
  code : UInt16
  valid : 100 ≤ code ∧ code < 1000
deriving DecidableEq

/-- `StatusCode::from_u16`. -/
def StatusCode.fromU16 (code : UInt16) : Option StatusCode :=
  if h : 100 ≤ code ∧ code < 1000 then some ⟨code, h⟩ else none

namespace StatusCode

def ok : StatusCode := ⟨200, by decide⟩
def noContent : StatusCode := ⟨204, by decide⟩
def notModified : StatusCode := ⟨304, by decide⟩
def badRequest : StatusCode := ⟨400, by decide⟩
def forbidden : StatusCode := ⟨403, by decide⟩
def internalServerError : StatusCode := ⟨500, by decide⟩
def badGateway : StatusCode := ⟨502, by decide⟩

/-- `is_informational`. -/
def isInformational (status : StatusCode) : Bool := status.code < 200

end StatusCode

structure Uri where
  scheme : Option Str
  authority : Option Str
  path : Str
  query : Option Str
deriving DecidableEq

/-- `Uri::from_parts` with a path: scheme and authority are there together or not at all. -/
def Uri.fromParts (scheme authority : Option Str) (pathAndQuery : Str × Option Str) : Option Uri :=
  if scheme.isSome = authority.isSome then some ⟨scheme, authority, pathAndQuery.1, pathAndQuery.2⟩ else none

structure RequestParts where
  method : Str
  uri : Uri
  version : Version
  headers : HeaderMap
deriving DecidableEq

structure ResponseParts where
  status : StatusCode
  version : Version
  headers : HeaderMap
deriving DecidableEq

/-! ## Bodies -/

inductive Frame
  | data (bytes : Bytes)
  | trailers (headers : HeaderMap)
deriving DecidableEq

/-- What a poll of a body gives, before its end. -/
inductive BodyPoll
  | pending
  | frame (frame : Frame)
  | error
deriving DecidableEq

/-- A body, as the results of the polls to come. After the last of them it has ended. -/
abbrev Body := List BodyPoll

/-- `Frame::data_ref`. -/
def Frame.dataRef : Frame → Bytes
  | .data bytes => bytes
  | .trailers _ => []

namespace Body

/-- `Body::from(bytes)`. -/
def ofBytes (bytes : Bytes) : Body := if bytes = [] then [] else [.frame (.data bytes)]

/-- The data of the frames, up to the end or the first error. -/
def data : Body → Bytes
  | [] | .error :: _ => []
  | .pending :: polls => data polls
  | .frame frame :: polls => frame.dataRef ++ data polls

/-- Whether the transfer breaks off. -/
def fails (body : Body) : Bool := body.contains .error

end Body

/-- What one call of `poll_frame` returns. -/
inductive Polled
  | pending
  | frame (frame : Frame)
  | error
  | done
deriving DecidableEq

/-- Whether a body is not to be polled again. -/
def Polled.isFinal : Polled → Bool
  | .error | .done => true
  | .pending | .frame _ => false

/-- The number of bytes of data in the frame, if it is one. -/
def Polled.dataLen : Polled → Nat
  | .frame sent => sent.dataRef.length
  | .pending | .error | .done => 0

def BodyPoll.polled : BodyPoll → Polled
  | .pending => .pending
  | .frame sent => .frame sent
  | .error => .error

namespace Body

/-- `poll_frame`. -/
def poll : Body → Polled × Body
  | [] => (.done, [])
  | next :: polls => (next.polled, polls)

/-- The results of all polls, the end included. -/
def results (body : Body) : List Polled := body.map BodyPoll.polled ++ [.done]

theorem results_cons (next : BodyPoll) (polls : Body) :
    results (next :: polls) = next.polled :: results polls := rfl

end Body

end Inspect.Http
