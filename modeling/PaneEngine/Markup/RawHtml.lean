import PaneEngine.Markup.Source

/-!
# Raw HTML and autolinks

HTML is recognised only to be skipped: no tree shows it.  Inside a paragraph
these are tags, comments, declarations, processing instructions and character
data sections; as a block of its own HTML begins in one of seven ways.

## Main definitions

* `Markup.tagLength?`, `Markup.rawHtmlLength?` — HTML inside a paragraph;
* `Markup.HtmlBlock`, `Markup.htmlBlock?` — how a block of HTML begins and ends;
* `Markup.autolink?` — addresses in angle brackets.
-/

namespace PaneEngine.Markup

/-! ## Tags -/

/-- A character of a tag name after the first. -/
def isTagNameChar (c : Char) : Bool := isAsciiAlphanum c || c = '-'

/-- A character that begins an attribute name. -/
def isAttributeStart (c : Char) : Bool := isAsciiAlpha c || c = '_' || c = ':'

/-- A character of an attribute name after the first. -/
def isAttributeChar (c : Char) : Bool :=
  isAsciiAlphanum c || c = '_' || c = '.' || c = ':' || c = '-'

/-- A character of an attribute value without quotes. -/
def isBareValueChar (c : Char) : Bool :=
  !(c = '\'' || c = '"' || c = ' ' || c = '=' || c = '>' || c = '<' || c = '\x60'
    || c = '\n' || c = '\r')

/-- How much of a line, behind the end of the line before it, belongs to containers; none where
HTML has to stay on one line. -/
abbrev LineSkip := Option (List Char → Nat)

/-- How many characters to pass behind the end of a line that begins with `c`. -/
def LineSkip.behind? (skip : LineSkip) (c : Char) (rest : List Char) : Option Nat :=
  let n := if c = '\r' && rest.head? = some '\n' then 1 else 0
  skip.map fun length => n + length (rest.drop n)

/-- The length of the blanks between attributes, behind `pending` characters that are passed. -/
def gapLength? (skip : LineSkip) : Nat → List Char → Option Nat
  | _, [] => none
  | pending + 1, _ :: rest => (gapLength? skip pending rest).map (· + 1)
  | 0, c :: rest =>
    if isSpaceOrTab c then (gapLength? skip 0 rest).map (· + 1)
    else if c = '\n' || c = '\r' then
      (skip.behind? c rest).bind fun n => (gapLength? skip n rest).map (· + 1)
    else some 0

/-- The length of a value up to its closing quote, behind `pending` characters that are passed. -/
def quotedLength? (skip : LineSkip) (quote : Char) : Nat → List Char → Option Nat
  | _, [] => none
  | pending + 1, _ :: rest => (quotedLength? skip quote pending rest).map (· + 1)
  | 0, c :: rest =>
    if c = quote then some 1
    else if c = '\n' || c = '\r' then
      (skip.behind? c rest).bind fun n => (quotedLength? skip quote n rest).map (· + 1)
    else (quotedLength? skip quote 0 rest).map (· + 1)

/-- The length of an attribute value. -/
def valueLength? (skip : LineSkip) : List Char → Option Nat
  | [] => none
  | c :: rest =>
    if c = '"' || c = '\'' then (quotedLength? skip c 0 rest).map (· + 1)
    else
      let n := countWhile isBareValueChar (c :: rest)
      if n = 0 then none else some n

/-- The length of an attribute with the value behind `=`, if it has one. -/
def attributeLength? (skip : LineSkip) : List Char → Option Nat
  | [] => none
  | c :: rest =>
    if isAttributeStart c then
      let n := countWhile isAttributeChar rest + 1
      let cs := (c :: rest).drop n
      (gapLength? skip 0 cs).bind fun gap =>
        match cs.drop gap with
        | '=' :: cs => do
          let gap₂ ← gapLength? skip 0 cs
          let v ← valueLength? skip (cs.drop gap₂)
          return n + gap + 1 + gap₂ + v
        | _ => some n
    else none

/-- The length from behind the name of an opening tag to its end. -/
def attributesLength? (skip : LineSkip) (cs : List Char) : Option Nat :=
  match gapLength? skip 0 cs with
  | none => none
  | some gap =>
    match cs.drop gap with
    | '>' :: _ => some (gap + 1)
    | '/' :: '>' :: _ => some (gap + 2)
    | _ =>
      if gap = 0 then none
      else match attributeLength? skip (cs.drop gap) with
        | none => none
        | some n =>
          if (cs.drop (gap + n)).length < cs.length then
            (attributesLength? skip (cs.drop (gap + n))).map (gap + n + ·)
          else none
termination_by cs.length

/-- The length of an opening or closing tag whose `<` has been read. -/
def tagLength? (skip : LineSkip) : List Char → Option Nat
  | '/' :: c :: rest =>
    if isAsciiAlpha c then
      let n := countWhile isTagNameChar rest
      let gap := countWhile isSpaceOrTab (rest.drop n)
      if (rest.drop (n + gap)).head? = some '>' then some (2 + n + gap + 1) else none
    else none
  | c :: rest =>
    if isAsciiAlpha c then
      let n := countWhile isTagNameChar rest
      (attributesLength? skip (rest.drop n)).map (1 + n + ·)
    else none
  | [] => none

/-! ## Other HTML inside a paragraph -/

/-- The length up to and with the first `stop`. -/
def lengthThrough? (stop : List Char) : List Char → Option Nat
  | [] => none
  | c :: rest =>
    if startsWith stop (c :: rest) then some stop.length
    else (lengthThrough? stop rest).map (· + 1)

/-- The length of the rest of a comment.  No `>` may stand behind the hyphens that it begins with,
and the first `--` behind those has to be followed by `>`. -/
def commentLength? (cs : List Char) : Option Nat :=
  let dashes := runLength '-' cs
  let cs := cs.drop dashes
  if cs.head? = some '>' then none
  else (lengthThrough? ['-', '-'] cs).bind fun n =>
    if (cs.drop n).head? = some '>' then some (dashes + n + 1) else none

/-- The length of HTML inside a paragraph whose `<` has been read. -/
def rawHtmlLength? (skip : LineSkip) : List Char → Option Nat
  | '!' :: '-' :: '-' :: rest => (commentLength? rest).map (· + 3)
  | '!' :: '[' :: 'C' :: 'D' :: 'A' :: 'T' :: 'A' :: '[' :: rest =>
    let n := positionOf (· = ']') rest
    let brackets := runLength ']' (rest.drop n)
    if brackets ≠ 0 && (rest.drop (n + brackets)).head? = some '>' then
      some (8 + n + brackets + 1)
    else none
  | '!' :: c :: rest =>
    if c.isUpper then
      let n := countWhile Char.isUpper rest
      let gap := countWhile isAsciiBlank (rest.drop n)
      if gap = 0 then none
      else (lengthThrough? ['>'] (rest.drop (n + gap))).map (2 + n + gap + ·)
    else none
  | '?' :: rest => (lengthThrough? ['?', '>'] rest).map (· + 1)
  | cs => tagLength? skip cs

/-! ## Blocks of HTML -/

/-- How a block of HTML ends: with the line that holds a text, or before the next blank line. -/
inductive HtmlBlock where
  | through (mark : List Char)
  | toBlankLine
deriving DecidableEq

/-- The elements whose content is taken as it stands, with the tags that close them. -/
def verbatimElements : List (String × String) :=
  [("pre", "</pre>"), ("style", "</style>"), ("script", "</script>"), ("textarea", "</textarea>")]

/-- The elements that begin a block of HTML wherever their tag begins a line. -/
def blockElements : List String :=
  ["address", "article", "aside", "base", "basefont", "blockquote", "body", "caption", "center",
   "col", "colgroup", "dd", "details", "dialog", "dir", "div", "dl", "dt", "fieldset",
   "figcaption", "figure", "footer", "form", "frame", "frameset", "h1", "h2", "h3", "h4", "h5",
   "h6", "head", "header", "hr", "html", "iframe", "legend", "li", "link", "main", "menu",
   "menuitem", "nav", "noframes", "ol", "optgroup", "option", "p", "param", "section", "source",
   "summary", "table", "tbody", "td", "tfoot", "th", "thead", "title", "tr", "track", "ul"]

/-- The text in lower case, letters of ASCII only. -/
def asciiLower (cs : List Char) : List Char := cs.map Char.toLower

/-- The mark that ends a block which begins with a verbatim element, comment and the like. -/
def closingText? (cs : List Char) : Option (List Char) :=
  let verbatim := verbatimElements.find? fun (name, _) =>
    asciiLower (cs.take name.length) = name.toList
      && ((cs.drop name.length).head?.all fun c => isAsciiBlank c || c = '>')
  match verbatim with
  | some (_, close) => some close.toList
  | none =>
    if startsWith "!--".toList cs then some "-->".toList
    else if startsWith ['?'] cs then some "?>".toList
    else if startsWith "![CDATA[".toList cs then some "]]>".toList
    else match cs with
      | '!' :: c :: _ => if c.isUpper then some ['>'] else none
      | _ => none

/-- Whether the text behind `<` is a tag of a block element. -/
def isBlockTag (cs : List Char) : Bool :=
  let cs := match cs with
    | '/' :: rest => rest
    | rest => rest
  let name := cs.takeWhile isAsciiAlphanum
  let rest := cs.drop name.length
  blockElements.contains (String.ofList (asciiLower name))
    && (match rest with
      | [] => true
      | c :: more =>
        c = ' ' || c = '\t' || c = '\n' || c = '\r' || c = '>'
          || (c = '/' && more.head? = some '>'))

/-- The block of HTML that may break into a paragraph, by the text behind `<`. -/
def interruptingHtml? (cs : List Char) : Option HtmlBlock :=
  match closingText? cs with
  | some mark => some (.through mark)
  | none => if isBlockTag cs then some .toBlankLine else none

/-- The block of HTML that begins with a line, by the text behind `<`. -/
def htmlBlock? (cs : List Char) : Option HtmlBlock :=
  match interruptingHtml? cs with
  | some b => some b
  | none =>
    match tagLength? none cs with
    | some n => if (blankLine? (cs.drop n)).isSome then some .toBlankLine else none
    | none => none

/-! ## Autolinks -/

/-- The length of an absolute address whose `<` has been read, without the closing `>`. -/
def addressLength? : List Char → Option Nat
  | [] => none
  | c :: rest =>
    let n := countWhile (fun d => isAsciiAlphanum d || d = '.' || d = '-' || d = '+') rest
    match rest.drop n with
    | ':' :: more =>
      let m := countWhile (fun d => 0x20 < d.toNat && d ≠ '<' && d ≠ '>') more
      if isAsciiAlpha c && 1 ≤ n && n ≤ 31 && (more.drop m).head? = some '>' then
        some (1 + n + 1 + m)
      else none
    | _ => none

/-- A character before the `@` of a mail address. -/
def isMailboxChar (c : Char) : Bool :=
  isAsciiAlphanum c || ".!#$%&'*+/=?^_\x60\x7b|\x7d~-".toList.contains c

/-- Whether the text is a label of a domain name. -/
def isDomainLabel (cs : List Char) : Bool :=
  1 ≤ cs.length && cs.length ≤ 63 && cs.all (fun c => isAsciiAlphanum c || c = '-')
    && cs.head? ≠ some '-' && cs.getLast? ≠ some '-'

/-- The length of a mail address whose `<` has been read, without the closing `>`. -/
def mailLength? (cs : List Char) : Option Nat :=
  let n := countWhile isMailboxChar cs
  match cs.drop n with
  | '@' :: rest =>
    let domain := rest.takeWhile fun c => isAsciiAlphanum c || c = '-' || c = '.'
    if (domain.splitOn '.').all isDomainLabel && (rest.drop domain.length).head? = some '>' then
      some (n + 1 + domain.length)
    else none
  | _ => none

/-- The address whose `<` has been read, without the closing `>`; its length is the part taken. -/
def autolink? (cs : List Char) : Option (List Char) :=
  ((addressLength? cs).or (mailLength? cs)).map cs.take

end PaneEngine.Markup
