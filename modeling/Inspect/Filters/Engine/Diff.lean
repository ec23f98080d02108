import Inspect.Lib.Text

/-!
# `Filters.Engine.Diff` — diff events

The data of `src/filters/engine/diff.rs`: what changed between two messages, where, and in which part of the
message. The texts that `summary` and `Display` make of them for the preview panel are not modelled.
-/

namespace Inspect.Filters

inductive BodyDiffSource
  | text
  | json
  | xml
  | html
  | javaScript
  | css
  | ast (language : Str)
  | binary
deriving DecidableEq, Repr

inductive DiffSource
  | httpMeta
  | header
  | cookie
  | url
  | body (source : BodyDiffSource)
deriving DecidableEq, Repr

inductive DiffPathSegment
  | method
  | scheme
  | host
  | path
  | query
  | queryParam (name : Str)
  | header (name : Str)
  | cookie (name : Str)
  | setCookie (name : Str)
  | status
  | body
  | jsonKey (key : Str)
  | jsonIndex (index : Nat)
  | xmlElement (name : Str)
  | xmlAttribute (name : Str)
  | xmlText
  | htmlElement (tag : Str) (ordinal : Nat)
  | htmlAttribute (name : Str)
  | htmlText
  | astNode (kind : Str) (ordinal : Nat)
  | astField (name : Str)
  | textRange (start stop : Nat)
deriving DecidableEq, Repr

structure DiffPath where
  segments : List DiffPathSegment
deriving DecidableEq, Repr

namespace DiffPath

def method : DiffPath := ⟨[.method]⟩
def scheme : DiffPath := ⟨[.scheme]⟩
def host : DiffPath := ⟨[.host]⟩
def path : DiffPath := ⟨[.path]⟩
def query : DiffPath := ⟨[.query]⟩
def status : DiffPath := ⟨[.status]⟩
def header (name : Str) : DiffPath := ⟨[.header name]⟩
def body : DiffPath := ⟨[.body]⟩

/-- `DiffPath::body_json`. -/
def bodyJson (segments : List DiffPathSegment) : DiffPath := ⟨.body :: segments⟩

end DiffPath

inductive DiffNode
  | null
  | bool (value : Bool)
  | number (text : Str)
  | string (text : Str)
  | text (text : Str)
  | bytesLen (len : Nat)
  | header (name value : Str)
  | cookie (name value : Str)
  | json (raw : Str)
  | xml (name : Option Str) (text : Str)
  | html (tag : Option Str) (text : Str)
  | ast (kind text : Str)
  | binary (bytesLen : Nat) (contentType : Option Str)
deriving DecidableEq, Repr

inductive DiffEvent
  | insert (path : DiffPath) (node : DiffNode) (source : DiffSource)
  | delete (path : DiffPath) (old : DiffNode) (source : DiffSource)
  | replace (path : DiffPath) (old new : DiffNode) (source : DiffSource)
  | move (origin target : DiffPath) (node : DiffNode) (source : DiffSource)
deriving DecidableEq, Repr

namespace DiffEvent

/-- `DiffEvent::path`: a move is filed under its target. -/
def path : DiffEvent → DiffPath
  | .insert path _ _ => path
  | .delete path _ _ => path
  | .replace path _ _ _ => path
  | .move _ target _ _ => target

/-- `DiffEvent::source`. -/
def source : DiffEvent → DiffSource
  | .insert _ _ source => source
  | .delete _ _ source => source
  | .replace _ _ _ source => source
  | .move _ _ _ source => source

end DiffEvent
end Inspect.Filters
