import Inspect.Mitm.Proxy

/-!
# `Mitm.Client` — the upstream client

The embedding of `src/mitm/client.rs`: a request is handed to the client of the framework, whose error is a text and a
response. The status that is recorded for an error is looked for in its text.

The client of the framework is the parameter `serve`; a model is `none` where the code panics.
-/

namespace Inspect.Mitm

open Http Filters Inspect.Flow

structure UpstreamResult where
  response : Response
  upstreamErr : Option Str
  upstreamStatus : Option UInt16
  upstreamRemoteAddr : Option Str
deriving DecidableEq

/-- `u8::is_ascii_digit`. -/
def isAsciiDigit (byte : UInt8) : Bool := 48 ≤ byte && byte ≤ 57

/-- The number that three digits are. -/
def digitsCode (a b c : UInt8) : UInt16 := (a - 48).toUInt16 * 100 + (b - 48).toUInt16 * 10 + (c - 48).toUInt16

/-- No digit is before the byte at `i`. -/
def leftOk (bytes : List UInt8) (i : Nat) : Option Bool :=
  if i = 0 then some true else bytes[i - 1]?.map fun byte => !isAsciiDigit byte

/-- No digit is behind the three bytes at `i`. -/
def rightOk (bytes : List UInt8) (i : Nat) : Option Bool :=
  if bytes.length ≤ i + 3 then some true else bytes[i + 3]?.map fun byte => !isAsciiDigit byte

/-- The loop of `extract_http_status_from_error_text`. -/
def extractLoop (bytes : List UInt8) : List Nat → Option (Option UInt16)
  | [] => some none
  | i :: indices => do
      let a ← bytes[i]?
      let b ← bytes[i + 1]?
      let c ← bytes[i + 2]?
      let isDigit3 := isAsciiDigit a && isAsciiDigit b && isAsciiDigit c
      if !isDigit3 then extractLoop bytes indices
      else do
        let left ← leftOk bytes i
        let right ← rightOk bytes i
        if !(left && right) then extractLoop bytes indices
        else
          let code := digitsCode a b c
          if 100 ≤ code ∧ code ≤ 599 then some (some code) else extractLoop bytes indices

/-- `extract_http_status_from_error_text`. -/
def extractHttpStatusFromErrorText (s : Str) : Option (Option UInt16) :=
  let bytes := Text.bytes s
  if bytes.length < 3 then some none else extractLoop bytes (List.range (bytes.length - 3 + 1))

def userAgent : HeaderName := ⟨"user-agent".toList, by decide⟩

/-- The `UpstreamCall` of `new_upstream_client`: the address of the upstream server is only looked for when the proxy
    observes. -/
def upstreamCall (proxyMode : ProxyMode) (requestUa : Option HeaderValue)
    (upstreamRemoteAddrFromResponse : Response → Option Str) (serve : Request → Except (Str × Response) Response)
    (req : Request) : Option UpstreamResult :=
  let headers := match requestUa with
    | some ua => req.parts.headers.insert userAgent ua
    | none => req.parts.headers
  match serve { req with parts := { req.parts with headers } } with
  | .ok res => some {
      response := res
      upstreamErr := none
      upstreamStatus := some res.parts.status.code
      upstreamRemoteAddr := match proxyMode with
        | .observe => upstreamRemoteAddrFromResponse res
        | .emulate => none }
  | .error (errText, res) => do
      let upstreamStatus ← extractHttpStatusFromErrorText errText
      some {
        response := res
        upstreamErr := some ("upstream error: ".toList ++ errText)
        upstreamStatus := upstreamStatus.or (some res.parts.status.code)
        upstreamRemoteAddr := none }

end Inspect.Mitm
