import ActionAtlas.Files.Name
import ActionAtlas.Files.Pattern
import ActionAtlas.Text.Blank

/-!
The rules in ignore files: which paths below the folder of the file are ignored, and which are
kept in spite of an earlier rule.

A line is a pattern. In front of it an exclamation mark keeps what fits. A slash in front of or
within the pattern binds it to the folder of the ignore file; without one it fits at any depth. A
slash behind it makes it fit folders only.
-/

namespace ActionAtlas

inductive Verdict where
  | ignored
  | kept
deriving DecidableEq, Repr

structure IgnoreRule where
  verdict : Verdict
  foldersOnly : Bool
  pattern : PathPattern

namespace IgnoreRule

/-- The line without blanks at its end, unless the last of them is quoted by a backslash. -/
def trimLine (line : List Char) : List Char :=
  if (Text.dropFinal? ['\\', ' '] line).isSome then line else Text.trimEnd line

/-- The pattern text for a rule that says `body`. A rule that is not bound to a place fits at any
depth, and one for all that is in a folder does not fit the folder itself. -/
def patternText (bound : Bool) (body : List Char) : List Char :=
  let placed :=
    if bound || body.contains '/' || body = ['*', '*'] then body else ['*', '*', '/'] ++ body
  if (Text.dropFinal? ['/', '*', '*'] placed).isSome then placed ++ ['/', '*'] else placed

def ofBody? (verdict : Verdict) (bound : Bool) (body : List Char) : Option IgnoreRule :=
  let (foldersOnly, body) := match Text.dropFinal? ['/'] body with
    | some body => (true, (Text.dropFinal? ['\\'] body).getD body)
    | none => (false, body)
  (PathPattern.ofText? (patternText bound body)).map fun pattern => ⟨verdict, foldersOnly, pattern⟩

def ofLine? (line : List Char) : Option IgnoreRule :=
  if line.head? = some '#' then none
  else
    match trimLine line with
    | [] => none
    | '\\' :: '!' :: rest => ofBody? .ignored false ('!' :: rest)
    | '\\' :: '#' :: rest => ofBody? .ignored false ('#' :: rest)
    | '!' :: '/' :: rest => ofBody? .kept true rest
    | '!' :: rest => ofBody? .kept false rest
    | '/' :: rest => ofBody? .ignored true rest
    | body => ofBody? .ignored false body

/-- The pieces between line feeds up to the first that is not in UTF-8, for which there is nothing. -/
def readable : List (List UInt8) → List (List Char)
  | [] => []
  | piece :: others =>
    match Text.ofBytes? piece with
    | some text => text.toList :: readable others
    | none => [[]]

def lineFeed : UInt8 := 10

def ofContent (content : List UInt8) : List IgnoreRule :=
  let text := Text.joinWith ['\n'] (readable (Text.runs (· == lineFeed) content))
  (Text.lines (text.dropWhile (· == '\ufeff'))).filterMap ofLine?

def applies (path : List UInt8) (isFolder : Bool) (rule : IgnoreRule) : Bool :=
  (isFolder || !rule.foldersOnly) && rule.pattern.fits path

def verdict? (rules : List IgnoreRule) (path : List UInt8) (isFolder : Bool) : Option Verdict :=
  (rules.reverse.find? (applies path isFolder)).map IgnoreRule.verdict

end IgnoreRule

end ActionAtlas
