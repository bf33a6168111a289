import Chartdown.Tree.Node

/-! # Trees as JSON

A node is an object with its kind, its own fields, and what it carries if there is anything.
Fields with a default may be left out of what is read; what is written has them all.
-/

namespace Chartdown

open Text (Utf16)

namespace Json

/-- The value of a member, null where there is none. -/
def get (name : String) (members : List (Utf16 × Json)) : Json :=
  (lookup (Utf16.ofString name) members).getD .null

/-- The text of a string. -/
def asString? : Json → Option String
  | .string s => some (Utf16.toString s)
  | _ => none

/-- A whole number. -/
def asInt? : Json → Option Int
  | .number (.integer n) => some n
  | _ => none

/-- A truth value. -/
def asBool? : Json → Option Bool
  | .bool b => some b
  | _ => none

/-- The items of an array. -/
def asArray : Json → List Json
  | .array items => items
  | _ => []

/-- The members of an object. -/
def asObject : Json → List (Utf16 × Json)
  | .object members => members
  | _ => []

/-- A text or null. -/
def ofString? : Option String → Json
  | some s => ofString s
  | none => .null

/-- A whole number or null. -/
def ofInt? : Option Int → Json
  | some n => ofInt n
  | none => .null

end Json

/-- The members that tell what a node carries. -/
def Info.toMembers (i : Info) : List (String × Json) :=
  (if i.metadata.isEmpty then [] else [("metadata", .object i.metadata)]) ++
    match i.location with
    | none => []
    | some l => [("source_location", .ofMembers
        [("format", .ofString l.format), ("line", .ofInt? l.line), ("column", .ofInt? l.column),
         ("metadata", .object l.metadata)])]

/-- A leaf's own fields. -/
def Leaf.toMembers : Leaf → List (String × Json)
  | .codeBlock content language fenceChar fenceLength =>
    [("content", .ofString content), ("language", .ofString? language),
     ("fence_char", .ofString fenceChar), ("fence_length", .ofInt fenceLength)]
  | .chartBlock lines => [("lines", .array (lines.map .ofString))]
  | .thematicBreak => []
  | .htmlBlock content => [("content", .ofString content)]
  | .text content => [("content", .ofString content)]
  | .code content => [("content", .ofString content)]
  | .image url alt title =>
    [("url", .ofString url), ("alt_text", .ofString alt), ("title", .ofString? title)]
  | .lineBreak soft => [("soft", .bool soft)]
  | .htmlInline content => [("content", .ofString content)]

/-- A branch's own fields, its children given as JSON. -/
def Branch.toMembers (b : Branch) (children : List Json) : List (String × Json) :=
  match b with
  | .document => [("children", .array children)]
  | .heading level => [("level", .ofInt level.val), ("content", .array children)]
  | .paragraph => [("content", .array children)]
  | .blockQuote => [("children", .array children)]
  | .list ordered start tight =>
    [("ordered", .bool ordered), ("items", .array children), ("start", .ofInt start),
     ("tight", .bool tight)]
  | .listItem task => [("children", .array children), ("task_status", .ofString? task)]
  | .table headed alignments =>
    [("header", if headed then children.headD .null else .null),
     ("rows", .array (if headed then children.tail else children)),
     ("alignments", .array (alignments.map .ofString?))]
  | .tableRow isHeader => [("cells", .array children), ("is_header", .bool isHeader)]
  | .tableCell alignment => [("content", .array children), ("alignment", .ofString? alignment)]
  | .emphasis => [("content", .array children)]
  | .strong => [("content", .array children)]
  | .link url title =>
    [("url", .ofString url), ("content", .array children), ("title", .ofString? title)]
  | .strikethrough => [("content", .array children)]

mutual
/-- A node as JSON. -/
def Node.toJson : Node → Json
  | .leaf l i => .ofMembers (("kind", .ofString l.kind.name) :: l.toMembers ++ i.toMembers)
  | .branch b cs i =>
    .ofMembers (("kind", .ofString b.kind.name) :: b.toMembers (Node.toJsonAll cs) ++ i.toMembers)

/-- Some nodes as JSON. -/
def Node.toJsonAll : List Node → List Json
  | [] => []
  | n :: rest => n.toJson :: Node.toJsonAll rest
end

/-- The place that an object tells. -/
def Location.ofJson (members : List (Utf16 × Json)) : Location where
  format := (Json.get "format" members).asString?.getD ""
  line := (Json.get "line" members).asInt?
  column := (Json.get "column" members).asInt?
  metadata := (Json.get "metadata" members).asObject

/-- What a node carries, from its members. -/
def Info.ofJson (members : List (Utf16 × Json)) : Info where
  metadata := (Json.get "metadata" members).asObject
  location := match Json.get "source_location" members with
    | .object l => some (.ofJson l)
    | _ => none

/-- A leaf of a kind, from its members. -/
def Leaf.ofJson? (kind : NodeKind) (members : List (Utf16 × Json)) : Option Leaf :=
  let string (name : String) := (Json.get name members).asString?
  let content := (string "content").getD ""
  match kind with
  | .codeBlock => some (.codeBlock content (string "language") ((string "fence_char").getD "`")
      ((Json.get "fence_length" members).asInt?.getD 3))
  | .chartBlock =>
    some (.chartBlock ((Json.get "lines" members).asArray.map fun l => l.asString?.getD ""))
  | .thematicBreak => some .thematicBreak
  | .htmlBlock => some (.htmlBlock content)
  | .text => some (.text content)
  | .code => some (.code content)
  | .image => some (.image ((string "url").getD "") ((string "alt_text").getD "") (string "title"))
  | .lineBreak => some (.lineBreak ((Json.get "soft" members).asBool?.getD false))
  | .htmlInline => some (.htmlInline content)
  | _ => none

/-- A branch of a kind, from its members. -/
def Branch.ofJson (kind : NodeKind) (members : List (Utf16 × Json)) : Except NodeError Branch :=
  let string (name : String) := (Json.get name members).asString?
  let flag (name : String) (default : Bool) := (Json.get name members).asBool?.getD default
  match kind with
  | .heading =>
    (HeadingLevel.ofInt ((Json.get "level" members).asInt?.getD 0)).map Branch.heading
  | .paragraph => .ok .paragraph
  | .blockQuote => .ok .blockQuote
  | .list =>
    .ok (.list (flag "ordered" false) ((Json.get "start" members).asInt?.getD 1) (flag "tight" true))
  | .listItem => .ok (.listItem (string "task_status"))
  | .table => .ok (.table (!(Json.get "header" members).asObject.isEmpty)
      ((Json.get "alignments" members).asArray.map Json.asString?))
  | .tableRow => .ok (.tableRow (flag "is_header" false))
  | .tableCell => .ok (.tableCell (string "alignment"))
  | .emphasis => .ok .emphasis
  | .strong => .ok .strong
  | .link => .ok (.link ((string "url").getD "") (string "title"))
  | .strikethrough => .ok .strikethrough
  | _ => .ok .document

/-- The names of the fields that hold a node's children, in order. -/
def childFields : List Utf16 :=
  ["header", "rows", "children", "content", "items", "cells"].map Utf16.ofString

/-- Put together the nodes found under the names of the children. -/
def gatherChildren (found : List (Utf16 × Except NodeError (List Node))) :
    List Utf16 → Except NodeError (List Node)
  | [] => .ok []
  | name :: rest => do
    let here ← match found.find? fun f => f.1 == name with
      | some (_, nodes) => nodes
      | none => .ok []
    return here ++ (← gatherChildren found rest)

mutual
/-- The node that an object tells. What is no object tells a thematic break. -/
def Node.ofJson : Json → Except NodeError Node
  | .object members => do
    let kind := ((Json.get "kind" members).asString?.bind NodeKind.ofName?).getD .document
    let i := Info.ofJson members
    match Leaf.ofJson? kind members with
    | some l => return .leaf l i
    | none =>
      let children ← gatherChildren (Node.ofJsonMembers members) childFields
      return .branch (← Branch.ofJson kind members) children i
  | _ => .ok default

/-- The nodes of an array. -/
def Node.ofJsonAll : List Json → Except NodeError (List Node)
  | [] => .ok []
  | v :: rest =>
    match Node.ofJson v with
    | .error e => .error e
    | .ok n => (Node.ofJsonAll rest).map (n :: ·)

/-- The nodes in each member that is an array or an object. -/
def Node.ofJsonMembers : List (Utf16 × Json) → List (Utf16 × Except NodeError (List Node))
  | [] => []
  | (name, .array items) :: rest => (name, Node.ofJsonAll items) :: Node.ofJsonMembers rest
  | (name, .object members) :: rest =>
    (name, (Node.ofJson (.object members)).map ([·])) :: Node.ofJsonMembers rest
  | _ :: rest => Node.ofJsonMembers rest
end

end Chartdown
