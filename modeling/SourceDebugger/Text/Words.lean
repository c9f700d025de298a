/-!
# Words of a line

A line is split into words at blanks. Quotes and backslashes keep blanks inside of a word, and what
follows a `#` at the start of a word is a remark.
-/

namespace SourceDebugger.Text.Words

/-- How the next character of a word is read. -/
inductive Mode where
  /-- Between words. -/
  | between
  /-- In a remark. -/
  | remark
  /-- In a word, outside of quotes. -/
  | plain
  /-- Behind a backslash outside of quotes. -/
  | escaped
  /-- Between single quotes. -/
  | single
  /-- Between double quotes. -/
  | double
  /-- Behind a backslash between double quotes. -/
  | doubleEscaped
deriving DecidableEq

/-- Whether a character separates words. -/
def isSeparator (c : Char) : Bool := c == ' ' || c == '\t' || c == '\n'

/-- Whether a backslash between double quotes hides the meaning of a character. -/
def isHidden (c : Char) : Bool := c == '$' || c == '\x60' || c == '"' || c == '\\'

/-- The words of a line from some point on; `word` holds the characters of the current word in
reverse. There is no result if quotes stay open or nothing follows a backslash. -/
def splitFrom (mode : Mode) (word : List Char) : List Char → Option (List (List Char))
  | [] =>
    match mode with
    | .between | .remark => some []
    | .plain => some [word.reverse]
    | .escaped | .single | .double | .doubleEscaped => none
  | c :: rest =>
    match mode with
    | .between =>
      if isSeparator c then splitFrom .between [] rest
      else if c = '#' then splitFrom .remark [] rest
      else if c = '"' then splitFrom .double [] rest
      else if c = '\'' then splitFrom .single [] rest
      else if c = '\\' then splitFrom .escaped [] rest
      else splitFrom .plain [c] rest
    | .remark => splitFrom (if c = '\n' then .between else .remark) [] rest
    | .plain =>
      if isSeparator c then (splitFrom .between [] rest).map (word.reverse :: ·)
      else if c = '"' then splitFrom .double word rest
      else if c = '\'' then splitFrom .single word rest
      else if c = '\\' then splitFrom .escaped word rest
      else splitFrom .plain (c :: word) rest
    | .escaped => splitFrom .plain (if c = '\n' then word else c :: word) rest
    | .single =>
      if c = '\'' then splitFrom .plain word rest else splitFrom .single (c :: word) rest
    | .double =>
      if c = '"' then splitFrom .plain word rest
      else if c = '\\' then splitFrom .doubleEscaped word rest
      else splitFrom .double (c :: word) rest
    | .doubleEscaped =>
      if isHidden c then splitFrom .double (c :: word) rest
      else if c = '\n' then splitFrom .double word rest
      else splitFrom .double (c :: '\\' :: word) rest

/-- The words of a line. -/
def split (line : List Char) : Option (List (List Char)) := splitFrom .between [] line

end SourceDebugger.Text.Words
