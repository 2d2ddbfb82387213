/-
# ImportAudit.Console.Markup — tags in what is printed.

A tag stands in square brackets and begins with a small letter, a hash, a slash or an at sign.  Tags
style what stands between them; on a console without colours they leave nothing behind.  A slash
closes the style that is named, or the last one.  Backslashes before a tag count in pairs, and one
that is left makes the tag a text.
-/
import ImportAudit.Fault
import ImportAudit.Text.Casing
import ImportAudit.Text.Trim

namespace ImportAudit.Console

/-! ## Tags -/

/-- The character begins a tag. -/
def beginsTag (c : Char) : Bool :=
  ('a' ≤ c && c ≤ 'z') || c == '#' || c == '/' || c == '@'

/-- Reads up to the bracket that closes a tag: what stands before it and behind it. -/
def closeTag? : List Char → Option (List Char × List Char)
  | [] => none
  | ']' :: cs => some ([], cs)
  | '[' :: _ => none
  | c :: cs => (closeTag? cs).map fun r => (c :: r.1, r.2)

/-- The tag that a text begins with, without its brackets, and what follows it. -/
def tag? : List Char → Option (List Char × List Char)
  | '[' :: c :: cs => if beginsTag c then (closeTag? cs).map fun r => (c :: r.1, r.2) else none
  | _ => none

/-! ## Styles -/

/-- The attributes of a style in their order, and the names that each goes by. -/
def styleAttributes : List (String × List String) :=
  [("bold", ["bold", "b"]), ("dim", ["dim", "d"]), ("italic", ["italic", "i"]),
    ("underline", ["underline", "u"]), ("blink", ["blink"]), ("blink2", ["blink2"]),
    ("reverse", ["reverse", "r"]), ("conceal", ["conceal", "c"]), ("strike", ["strike", "s"]),
    ("underline2", ["underline2", "uu"]), ("frame", ["frame"]), ("encircle", ["encircle"]),
    ("overline", ["overline", "o"])]

/-- The attribute that goes by a name. -/
def attribute? (name : String) : Option String :=
  (styleAttributes.find? fun a => a.2.contains name).map Prod.fst

/-- What a style asks for: attributes on or off, a colour, a background and a link. -/
structure Style where
  attributes : List (String × Bool) := []
  colour : String := ""
  ground : String := ""
  link : String := ""

/-- The style that words ask for, if they ask for one. -/
def Style.ofWords? : Style → List String → Option Style
  | s, [] => some s
  | s, "on" :: c :: ws => Style.ofWords? { s with ground := c } ws
  | s, "not" :: a :: ws =>
    match attribute? a with
    | some a => Style.ofWords? { s with attributes := s.attributes ++ [(a, false)] } ws
    | none => none
  | s, "link" :: l :: ws => Style.ofWords? { s with link := l } ws
  | s, w :: ws =>
    match attribute? w with
    | some a => Style.ofWords? { s with attributes := s.attributes ++ [(a, true)] } ws
    | none =>
      if w = "on" ∨ w = "not" ∨ w = "link" then none
      else Style.ofWords? { s with colour := w } ws

/-- The words of a style, in the order of the attributes. -/
def Style.words (s : Style) : List String :=
  (styleAttributes.filterMap fun a =>
    (s.attributes.reverse.lookup a.1).map fun on => if on then a.1 else "not " ++ a.1) ++
    (if s.colour = "" then [] else [s.colour]) ++
    (if s.ground = "" then [] else ["on", s.ground]) ++
    (if s.link = "" then [] else ["link", s.link])

/-- The name under which a style is opened and closed: styles that ask for the same have the same
name. -/
def styleName (name : List Char) : String :=
  let plain := Text.lower (String.ofList (Text.trim name))
  match Style.ofWords? {} ((Text.words plain.toList).map String.ofList) with
  | none => plain
  | some s =>
    match s.words with
    | [] => "none"
    | words => " ".intercalate words

/-! ## Texts -/

/-- A character that controls the console and is never printed. -/
def isControl (c : Char) : Bool :=
  let n := c.toNat
  n == 7 || n == 8 || n == 11 || n == 12 || n == 13

/-- A text as it is printed: without controls, and with single brackets for escaped ones. -/
def unescape : List Char → List Char
  | [] => []
  | '\\' :: '[' :: cs => '[' :: unescape cs
  | c :: cs => if isControl c then unescape cs else c :: unescape cs

/-- Splits the inside of a tag into its name and what stands behind the first `=`. -/
def splitTag (inside : List Char) : List Char × Option (List Char) :=
  let name := inside.takeWhile (· ≠ '=')
  match inside.dropWhile (· ≠ '=') with
  | [] => (name, none)
  | _ :: parameters => (name, some parameters)

/-- Removes the first style of a name from the open ones. -/
def closeStyle? (name : String) : List String → Option (List String)
  | [] => none
  | s :: ss => if s = name then some ss else (closeStyle? name ss).map (s :: ·)

/-- The open styles after a tag that stands at `position`. -/
def applyTag (position : Nat) (inside : List Char) (open_ : List String) :
    Except Fault (List String) :=
  let (name, parameters) := splitTag inside
  match name with
  | '/' :: rest =>
    if Text.trim rest = [] then
      match open_ with
      | [] => .error (.noOpenTag position)
      | _ :: open_ => .ok open_
    else
      match closeStyle? (styleName rest) open_ with
      | some open_ => .ok open_
      | none =>
        let shown := match parameters with
          | none => name
          | some ps => name ++ '=' :: ps
        .error (.markup (String.ofList ('[' :: shown ++ [']'])) position)
  | _ => .ok (styleName name :: open_)

/-- Renders what is left of a text: `fuel` bounds it, `position` characters lie before it, `chunk`
is the text since the last tag, newest first, and `open_` are the open styles, newest first. -/
def renderFrom : Nat → Nat → List Char → List String → List Char → Except Fault (List Char)
  | _, _, chunk, _, [] => .ok (unescape chunk.reverse)
  | 0, _, chunk, _, _ => .ok (unescape chunk.reverse)
  | fuel + 1, position, chunk, open_, c :: cs =>
    let slashes := ((c :: cs).takeWhile (· = '\\')).length
    match tag? ((c :: cs).drop slashes) with
    | none =>
      let taken := max slashes 1
      renderFrom fuel (position + taken) (((c :: cs).take taken).reverse ++ chunk) open_
        ((c :: cs).drop taken)
    | some (inside, rest) =>
      let before := unescape chunk.reverse ++ List.replicate (slashes / 2) '\\'
      let behind := position + slashes + inside.length + 2
      if slashes % 2 = 1 then
        match renderFrom fuel behind [] open_ rest with
        | .error e => .error e
        | .ok out => .ok (before ++ unescape ('[' :: inside ++ [']']) ++ out)
      else
        match applyTag (position + slashes) inside open_ with
        | .error e => .error e
        | .ok open_ =>
          match renderFrom fuel behind [] open_ rest with
          | .error e => .error e
          | .ok out => .ok (before ++ out)

/-- A text without its tags. -/
def render (text : String) : Except Fault (List Char) :=
  let cs := text.toList
  renderFrom (cs.length + 1) 0 [] [] cs

end ImportAudit.Console
