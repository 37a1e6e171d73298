/-!
# Styled text

A line of text whose pieces are shown in different styles.  It can be written plain, or with the
codes by which a terminal switches styles.
-/

namespace NameResolution

/-- How a piece of text is shown. -/
inductive Style where
  | normal
  /-- The message and the word before a hint. -/
  | strong
  /-- What belongs to a mistake. -/
  | mistake
  /-- What belongs to the context of a mistake. -/
  | context
  /-- Line numbers and other things around the sources. -/
  | frame
deriving DecidableEq

/-- A piece of text in one style. -/
structure Run where
  style : Style
  text : String
deriving DecidableEq

namespace Run

/-- What a terminal needs to switch to a style. -/
def code : Style → String
  | .normal => ""
  | .strong => "\x1b[1m"
  | .mistake => "\x1b[1m\x1b[91m"
  | .context | .frame => "\x1b[1m\x1b[94m"

/-- The text with the codes that switch its style on and off. -/
def colored (run : Run) : String :=
  match run.style with
  | .normal => run.text
  | style => code style ++ run.text ++ "\x1b[0m"

end Run

/-- A line of styled text. -/
abbrev StyledLine : Type := List Run

namespace StyledLine

/-- The text of the line without styles. -/
def plain (line : StyledLine) : String := String.join (List.map Run.text line)

/-- The text of the line with the codes of its styles. -/
def colored (line : StyledLine) : String := String.join (List.map Run.colored line)

end StyledLine

end NameResolution
