import PaneEngine.Markup.Event
import PaneEngine.Tree.Basic

/-!
# Trees of documents

The events of a Markdown document become a tree: a construct that is entered
opens a frame, and leaving it hands the frame as an element to the frame around
it; what has no element of its own becomes a division, so that its text is kept.
Texts next to each other are joined.  An image has no children; the text
and code inside its description become its alternative text.

## Main definitions

* `Tree.Frame`, `Tree.Builder` — elements that are still open;
* `Tree.Builder.step` — the effect of one event;
* `Tree.ofEvents` — the tree of an event sequence.
-/

namespace PaneEngine.Tree

open Markup (Tag)

/-- An element that is still open, its children latest first. -/
structure Frame where
  tag : String
  properties : Dict Json
  children : List Tree

/-- A frame without children. -/
def Frame.start (tag : String) (properties : List (String × Json)) : Frame :=
  ⟨tag, Dict.ofList properties, []⟩

/-- The element of a frame. -/
def Frame.finish (f : Frame) : Tree := element (some f.tag) f.properties f.children.reverse

/-- The elements that are open, innermost first, over the children of the root, latest first. -/
structure Builder where
  root : List Tree
  frames : List Frame
  /-- The alternative text so far while an image is described. -/
  alt : Option String

namespace Builder

/-- Nothing has been read. -/
def start : Builder := ⟨[], [], none⟩

/-- Adds a child, latest first, joining it to a text before it if it is a text. -/
def joinChild (child : Tree) (before : List Tree) : List Tree :=
  match child, before with
  | text s, text t :: rest => text (t ++ s) :: rest
  | child, before => child :: before

/-- Adds a child to the innermost element. -/
def add (child : Tree) (b : Builder) : Builder :=
  match b.frames with
  | [] => { b with root := joinChild child b.root }
  | f :: rest => { b with frames := { f with children := joinChild child f.children } :: rest }

/-- Opens an element. -/
def push (f : Frame) (b : Builder) : Builder := { b with frames := f :: b.frames }

/-- Closes the innermost element, if one is open. -/
def pop (b : Builder) : Builder :=
  match b.frames with
  | [] => b
  | f :: rest => { b with frames := rest }.add f.finish

/-- The frames that a construct opens, outermost first. -/
def framesOf : Tag → List Frame
  | .paragraph => [.start "p" []]
  | .heading level => [.start ("h" ++ toString level) []]
  | .quote => [.start "blockquote" []]
  | .codeBlock info =>
    let language := match info with
      | some i => if i.isEmpty then [] else [("className", Json.strings ["language-" ++ i])]
      | none => []
    [.start "pre" [], .start "code" language]
  | .list ordered => [.start (if ordered then "ol" else "ul") []]
  | .item => [.start "li" []]
  | .emphasis => [.start "em" []]
  | .strong => [.start "strong" []]
  | .strikethrough => [.start "del" []]
  | .link destination title =>
    [.start "a" (("href", .string destination) ::
      if title.isEmpty then [] else [("title", .string title)])]
  | .image destination _ => [.start "img" [("src", .string destination)]]
  | .other => [.start "div" []]

/-- Opens the elements of a construct. -/
def enter (tag : Tag) (b : Builder) : Builder :=
  let b := (framesOf tag).foldl (fun b f => b.push f) b
  match tag with
  | .image .. => { b with alt := some "" }
  | _ => b

/-- Ends the description of an image. -/
def closeAlt (b : Builder) : Builder :=
  match b.alt, b.frames with
  | some alt, f :: rest =>
    let f := if alt.isEmpty then f
      else { f with properties := f.properties.insert "alt" (.string alt) }
    { b with frames := f :: rest, alt := none }
  | _, _ => { b with alt := none }

/-- Closes the elements of a construct. -/
def leave (tag : Tag) (b : Builder) : Builder :=
  match tag with
  | .image .. => b.closeAlt.pop
  | .codeBlock _ => b.pop.pop
  | _ => b.pop

/-- The effect of an event outside the description of an image. -/
def stepContent (b : Builder) : Markup.Event → Builder
  | .enter tag => b.enter tag
  | .leave tag => b.leave tag
  | .text s => b.add (text s)
  | .code s => b.add (element (some "code") .empty [text s])
  | .softBreak => b.add (text "\n")
  | .hardBreak => b.add (element (some "br") .empty [])
  | .rule => b.add (element (some "hr") .empty [])
  | .html => b
  | .other => b

/-- The effect of an event.  A description ends with the first image that is left. -/
def step (b : Builder) (e : Markup.Event) : Builder :=
  match b.alt with
  | none => b.stepContent e
  | some alt =>
    match e with
    | .text s => { b with alt := some (alt ++ s) }
    | .code s => { b with alt := some (alt ++ s) }
    | .leave (.image d t) => b.stepContent (.leave (.image d t))
    | _ => b

end Builder

/-- The tree of an event sequence. -/
def ofEvents (es : List Markup.Event) : Tree :=
  root (es.foldl Builder.step .start).root.reverse

end PaneEngine.Tree
