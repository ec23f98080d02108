import Inspect.Filters.Engine.JsonPatch

/-!
# `Filters.Engine.BodyTreeSitter` — from an edited text to a rewrite intent

The embedding of `src/filters/engine/semantic/body_tree_sitter.rs`: the one place where two texts differ is
found, a syntax tree of the original names what the place belongs to, and the two become a rewrite operation with
an anchor.

The tree-sitter parsers are the parameter `treeSitter`. A tree is a `SyntaxNode`, and a node in it is a
`NodeCursor`, the node with its ancestors. What `TreeSitterAnchor` has beyond a `BodyRewriteIntent` (the path of
the node, its kind and text) is dropped by the only caller and left out.
-/

namespace Inspect.Filters

inductive BodyLanguage
  | json
  | html
  | xml
  | javaScript
  | css
  | plainText
deriving DecidableEq, Repr

namespace BodyLanguage

/-- `BodyLanguage::from_content_type`. -/
def fromContentType (contentType : Option Str) : BodyLanguage :=
  match contentType with
  | none => .plainText
  | some contentType =>
      let contentType := Text.toAsciiLowercase (Text.trim (contentType.takeWhile (· ≠ ';')))
      if contentType ∈ ["application/json".toList, "text/json".toList] then .json
      else if contentType ∈ ["text/html".toList, "application/xhtml+xml".toList] then .html
      else if contentType ∈ ["application/xml".toList, "text/xml".toList] then .xml
      else if contentType ∈ ["application/javascript".toList, "text/javascript".toList,
          "application/x-javascript".toList, "application/ecmascript".toList,
          "text/ecmascript".toList] then .javaScript
      else if contentType = "text/css".toList then .css
      else if "+json".toList.isSuffixOf contentType then .json
      else if "+xml".toList.isSuffixOf contentType then .xml
      else .plainText

/-- `is_ast_like`. -/
def isAstLike : BodyLanguage → Bool
  | .html | .javaScript | .css => true
  | .json | .xml | .plainText => false

/-- `as_label`. -/
def asLabel : BodyLanguage → Str
  | .json => "JSON".toList
  | .html => "HTML".toList
  | .xml => "XML".toList
  | .javaScript => "JavaScript".toList
  | .css => "CSS".toList
  | .plainText => "PlainText".toList

end BodyLanguage

inductive RewriteConfidence
  | low
  | medium
  | high
deriving DecidableEq, Repr

/-- `AstPath`, which nothing makes or reads, is left out. -/
inductive BodyAnchor
  | containsText (text : Str)
  | containsAll (values : List Str)
  | astNode (kind textFragment : Str)
  | textRange (before after : Str)
  | jsProperty (property : Str)
  | cssDeclaration (property : Str)
  | htmlAttribute (element : Option Str) (attr : Str)
deriving DecidableEq, Repr

inductive BodyRewriteOperation
  | replaceWholeBody (editedBody contentType : Str)
  | replaceText (old new : Str)
  | replaceTextOnce (old new : Str)
  | replaceTextAll (old new : Str)
  | replaceRegex (pattern replacement : Str)
  | replaceTextWhenContains (anchor old new : Str)
  | replaceJsProperty (property old new : Str)
  | replaceCssDeclaration (property old new : Str)
  | replaceHtmlAttribute (selector attr old new : Str)
  | insertText (anchor text : Str)
  | deleteText (text : Str)
  | jsonPatch (operations : List GeneratedJsonPatchOperation) (resultingBody contentType : Str)
deriving DecidableEq, Repr

structure BodyRewriteIntent where
  language : BodyLanguage
  anchor : BodyAnchor
  operation : BodyRewriteOperation
  confidence : RewriteConfidence
deriving DecidableEq, Repr

/-! ## The one replacement -/

/-- Byte offsets, and the texts there. -/
structure TextReplacement where
  start : Nat
  stop : Nat
  old : Str
  new : Str
deriving DecidableEq, Repr

/-- `common_prefix_len`, in bytes. -/
def commonPrefixLen (left right : Str) : Nat :=
  Text.len (((left.zip right).takeWhile fun (left, right) => left == right).map Prod.fst)

/-- `common_suffix_len`, in bytes. -/
def commonSuffixLen (left right : Str) : Nat := commonPrefixLen left.reverse right.reverse

/-- `single_text_replacement`. A slice off a character boundary, which would panic, stands as the empty text. -/
def singleTextReplacement (original edited : Str) : Option TextReplacement :=
  let start := commonPrefixLen original edited
  let suffixLen := commonSuffixLen ((Text.sliceFrom start original).getD [])
    ((Text.sliceFrom start edited).getD [])
  if suffixLen > Text.len original ∨ suffixLen > Text.len edited then none
  else
    let originalEnd := Text.len original - suffixLen
    let editedEnd := Text.len edited - suffixLen
    if start > originalEnd ∨ start > editedEnd then none
    else
      let old := (Text.get start originalEnd original).getD []
      let new := (Text.get start editedEnd edited).getD []
      if old = [] ∧ new = [] then none
      else if Text.len old > 4096 ∨ Text.len new > 4096 then none
      else some ⟨start, originalEnd, old, new⟩

/-- `single_text_replacement` with every slice checked: `none` where one panics. -/
def checkedSingleTextReplacement (original edited : Str) : Option (Option TextReplacement) := do
  let start := commonPrefixLen original edited
  let originalRest ← Text.sliceFrom start original
  let editedRest ← Text.sliceFrom start edited
  let suffixLen := commonSuffixLen originalRest editedRest
  if suffixLen > Text.len original ∨ suffixLen > Text.len edited then return none
  let originalEnd := Text.len original - suffixLen
  let editedEnd := Text.len edited - suffixLen
  if start > originalEnd ∨ start > editedEnd then return none
  let old ← Text.get start originalEnd original
  let new ← Text.get start editedEnd edited
  if old = [] ∧ new = [] then return none
  if Text.len old > 4096 ∨ Text.len new > 4096 then return none
  return some ⟨start, originalEnd, old, new⟩

/-- `stable_text_anchor`. -/
def stableTextAnchor (text : Str) : Option Str :=
  match ((Text.lines text).map Text.trim).find? fun line => 8 ≤ line.length with
  | some line => some (line.take 96)
  | none =>
      let anchor := (Text.trim text).take 96
      if 8 ≤ anchor.length then some anchor else none

/-- `extract_text_rewrite_intent`. -/
def extractTextRewriteIntent (language : BodyLanguage) (original edited : Str) : Option BodyRewriteIntent :=
  match singleTextReplacement original edited with
  | none =>
      (stableTextAnchor original).map fun anchor =>
        ⟨language, .containsText anchor, .replaceWholeBody edited "text/plain; charset=utf-8".toList, .low⟩
  | some replacement =>
      some ⟨language, .containsText replacement.old,
        .replaceTextOnce replacement.old replacement.new, .medium⟩

/-! ## Syntax trees -/

/-- A node: its kind, its byte range, and its children with the fields they fill. -/
inductive SyntaxNode
  | mk (kind : Str) (startByte endByte : Nat) (children : List (Option Str × SyntaxNode))

namespace SyntaxNode

def kind : SyntaxNode → Str
  | .mk kind _ _ _ => kind

def startByte : SyntaxNode → Nat
  | .mk _ startByte _ _ => startByte

def endByte : SyntaxNode → Nat
  | .mk _ _ endByte _ => endByte

def children : SyntaxNode → List (Option Str × SyntaxNode)
  | .mk _ _ _ children => children

/-- `child_by_field_name`. -/
def childByFieldName (node : SyntaxNode) (field : Str) : Option SyntaxNode :=
  (node.children.find? fun child => child.1 == some field).map Prod.snd

/-- `utf8_text`: the bytes of the node, if they are UTF-8. No byte at all is the empty text, wherever it is. -/
def utf8Text (node : SyntaxNode) (source : Str) : Option Str :=
  if node.startByte = node.endByte then some [] else Text.get node.startByte node.endByte source

end SyntaxNode

/-- A node of a tree, with its ancestors, the nearest first. -/
structure NodeCursor where
  node : SyntaxNode
  ancestors : List SyntaxNode

mutual

/-- `smallest_node_covering_range`, of a node whose ancestors are given. -/
def smallestNodeCoveringRange (start stop : Nat) (ancestors : List SyntaxNode) (node : SyntaxNode) :
    Option NodeCursor :=
  match node with
  | .mk kind startByte endByte children =>
      if start < startByte ∨ stop > endByte then none
      else
        some ((firstCoveringChild start stop (.mk kind startByte endByte children :: ancestors) children).getD
          ⟨.mk kind startByte endByte children, ancestors⟩)
termination_by structural node

/-- Its loop over the children. -/
def firstCoveringChild (start stop : Nat) (ancestors : List SyntaxNode)
    (children : List (Option Str × SyntaxNode)) : Option NodeCursor :=
  match children with
  | [] => none
  | (_, child) :: children =>
      if start ≥ child.startByte ∧ stop ≤ child.endByte then
        match smallestNodeCoveringRange start stop ancestors child with
        | some found => some found
        | none => firstCoveringChild start stop ancestors children
      else firstCoveringChild start stop ancestors children
termination_by structural children

end

/-- The loops that walk from a node to the root: `step` looks at a node and its ancestors, and either returns
    (`some`, also to return `None`) or lets the walk go on to the parent. -/
def climb {A : Type} (step : SyntaxNode → List SyntaxNode → Option (Option A)) (node : SyntaxNode)
    (ancestors : List SyntaxNode) : Option A :=
  match step node ancestors with
  | some result => result
  | none =>
      match ancestors with
      | [] => none
      | parent :: ancestors => climb step parent ancestors

/-- `child_by_field_or_kind`. -/
def childByFieldOrKind (node : SyntaxNode) (source : Str) (field : Str) (kinds : List Str) :
    Option SyntaxNode :=
  match node.childByFieldName field with
  | some child => some child
  | none =>
      (node.children.map Prod.snd).find? fun child =>
        kinds.contains child.kind && (child.utf8Text source).any fun text => Text.trim text ≠ []

/-- `node_text_fragment`. -/
def nodeTextFragment (node : SyntaxNode) (source : Str) : Option Str :=
  (node.utf8Text source).bind fun text =>
    if Text.trim text = [] then none else some ((Text.trim text).take 96)

/-- `trim_matches` of a character. -/
def trimMatches (c : Char) (text : Str) : Str := (text.dropWhile (· == c)).rdropWhile (· == c)

/-- `clean_js_property_name`. -/
def cleanJsPropertyName (value : Str) : Option Str :=
  let value := Text.trim (trimMatches '\'' (trimMatches '"' (Text.trim value)))
  if value = [] then none else some value

/-- `assignment_property_name`. -/
def assignmentPropertyName (node : SyntaxNode) (source : Str) : Option Str :=
  if node.kind = "member_expression".toList then
    (node.childByFieldName "property".toList).bind fun property => property.utf8Text source
  else if node.kind = "identifier".toList then node.utf8Text source
  else none

/-- `javascript_property_anchor`. -/
def javascriptPropertyAnchor (changed : NodeCursor) (source : Str) : Option Str :=
  climb (fun node _ =>
    if node.kind = "pair".toList ∨ node.kind = "property_assignment".toList then
      (childByFieldOrKind node source "key".toList
        ["property_identifier".toList, "identifier".toList, "string".toList]).map fun key =>
          (key.utf8Text source).bind cleanJsPropertyName
    else if node.kind = "assignment_expression".toList then
      (node.childByFieldName "left".toList).map fun left => assignmentPropertyName left source
    else none) changed.node changed.ancestors

/-- `css_declaration_property_anchor`. -/
def cssDeclarationPropertyAnchor (changed : NodeCursor) (source : Str) : Option Str :=
  climb (fun node _ =>
    if node.kind = "declaration".toList then
      (childByFieldOrKind node source "property".toList
        ["property_name".toList, "plain_value".toList, "identifier".toList]).map fun property =>
          (property.utf8Text source).map Text.trim
    else none) changed.node changed.ancestors

/-- `html_element_name`. -/
def htmlElementName (node : SyntaxNode) (ancestors : List SyntaxNode) (source : Str) : Option Str :=
  climb (fun node _ =>
    if node.kind ∈ ["start_tag".toList, "self_closing_tag".toList, "element".toList] then
      ((node.children.map Prod.snd).find? fun child => child.kind = "tag_name".toList).map fun child =>
        (child.utf8Text source).map Text.trim
    else none) node ancestors

/-- `html_attribute_anchor`. -/
def htmlAttributeAnchor (changed : NodeCursor) (source : Str) : Option (Option Str × Str) :=
  climb (fun node ancestors =>
    if node.kind = "attribute".toList then
      some ((childByFieldOrKind node source "name".toList ["attribute_name".toList]).bind fun name =>
        (name.utf8Text source).map fun text => (htmlElementName node ancestors source, Text.trim text))
    else none) changed.node changed.ancestors

/-- `expand_replacement_to_ancestor_kinds`. -/
def expandReplacementToAncestorKinds (changed : NodeCursor) (original : Str) (replacement : TextReplacement)
    (ancestorKinds : List Str) : Option TextReplacement :=
  climb (fun node _ =>
    if ancestorKinds.contains node.kind then
      some (if node.startByte > replacement.start ∨ node.endByte < replacement.stop then none
        else
          (Text.get node.startByte node.endByte original).bind fun old =>
            let new := Text.replaceOnce replacement.old replacement.new old
            if old = new then none else some ⟨node.startByte, node.endByte, old, new⟩)
    else none) changed.node changed.ancestors

/-! ## Intents -/

section Intents

variable (treeSitter : BodyLanguage → Str → Option SyntaxNode)

/-- `parse_tree`: the root of the tree. -/
def parseTree (language : BodyLanguage) (source : Str) : Option SyntaxNode :=
  if language.isAstLike then treeSitter language source else none

/-- What the three `extract_*_tree_sitter_anchor` share. `named` is what the changed node is part of, if it is
    part of something with a name. -/
def extractNamedAnchor (language : BodyLanguage) (original : Str) (replacement : TextReplacement)
    (named : NodeCursor → Option (BodyAnchor × BodyRewriteOperation)) : Option BodyRewriteIntent :=
  (parseTree treeSitter language original).bind fun root =>
    (smallestNodeCoveringRange replacement.start replacement.stop [] root).map fun changed =>
      match named changed with
      | some (anchor, operation) => ⟨language, anchor, operation, .high⟩
      | none =>
          ⟨language, .astNode changed.node.kind ((nodeTextFragment changed.node original).getD replacement.old),
            .replaceTextOnce replacement.old replacement.new, .medium⟩

/-- `extract_javascript_tree_sitter_anchor`. -/
def extractJavascriptTreeSitterAnchor (original : Str) (replacement : TextReplacement) :
    Option BodyRewriteIntent :=
  extractNamedAnchor treeSitter .javaScript original replacement fun changed =>
    (javascriptPropertyAnchor changed original).map fun property =>
      let replacement := (expandReplacementToAncestorKinds changed original replacement
        ["string".toList]).getD replacement
      (.jsProperty property, .replaceJsProperty property replacement.old replacement.new)

/-- `extract_css_tree_sitter_anchor`. -/
def extractCssTreeSitterAnchor (original : Str) (replacement : TextReplacement) : Option BodyRewriteIntent :=
  extractNamedAnchor treeSitter .css original replacement fun changed =>
    (cssDeclarationPropertyAnchor changed original).map fun property =>
      (.cssDeclaration property, .replaceCssDeclaration property replacement.old replacement.new)

/-- `extract_html_tree_sitter_anchor`. -/
def extractHtmlTreeSitterAnchor (original : Str) (replacement : TextReplacement) : Option BodyRewriteIntent :=
  extractNamedAnchor treeSitter .html original replacement fun changed =>
    (htmlAttributeAnchor changed original).map fun (element, attr) =>
      (.htmlAttribute element attr,
        .replaceHtmlAttribute (element.getD "*".toList) attr replacement.old replacement.new)

/-- `extract_tree_sitter_anchor`. -/
def extractTreeSitterAnchor (language : BodyLanguage) (original edited : Str) : Option BodyRewriteIntent :=
  (singleTextReplacement original edited).bind fun replacement =>
    match language with
    | .javaScript => extractJavascriptTreeSitterAnchor treeSitter original replacement
    | .css => extractCssTreeSitterAnchor treeSitter original replacement
    | .html => extractHtmlTreeSitterAnchor treeSitter original replacement
    | .json | .xml | .plainText => none

/-- `extract_body_rewrite_intent`. -/
def extractBodyRewriteIntent (original edited : Str) (contentType : Option Str) : Option BodyRewriteIntent :=
  if original = edited then none
  else
    let language := BodyLanguage.fromContentType contentType
    match (if language.isAstLike then extractTreeSitterAnchor treeSitter language original edited else none) with
    | some intent => some intent
    | none => extractTextRewriteIntent language original edited

end Intents

end Inspect.Filters
