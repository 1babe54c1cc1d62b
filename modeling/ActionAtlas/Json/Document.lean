import ActionAtlas.Json.Lexeme

/-!
A JSON text as far as it can be read.

A `Document` is a tree of values in which the first flaw of the text has its place: an array or
object says how it ended, and a value that could not be read is a leaf that says why. A reader that
stops before that place, because something else is wrong earlier, never meets the flaw.

`Document.ofLexemes` builds the tree with a stack of the arrays and objects that are still open.
-/

namespace ActionAtlas.Json

mutual

inductive Document where
  | null
  | bool (value : Bool)
  | number (value : Option Number)
  | string (text : Option String)
  | array (items : List Document) (ending : Ending)
  | object (entries : List (Option String × Document)) (ending : Ending)
  | ended
  /-- A string that does not close well: what is wrong for its reader, and for one who passes. -/
  | brokenString (reading passing : Flaw)
  /-- The first letter of `null` without the rest. -/
  | brokenNull (flaw : Flaw)
  | broken (reading passing : Flaw)

inductive Ending where
  | closed
  | separator (flaw : Flaw)
  | nameless (found : Document)

end

deriving instance Repr for Document, Ending

structure Reading where
  document : Document
  trailing : Bool
deriving Repr

namespace Document

/-- The place of a value under way: behind these items of an array, or these entries and a name
of an object. Items and entries are in reverse order. -/
inductive Frame where
  | item (before : List Document)
  | entry (before : List (Option String × Document)) (name : Option String)

inductive Expected where
  | value
  | firstItem
  | nextItem (before : List Document)
  | afterItem (items : List Document)
  | firstName
  | nextName (before : List (Option String × Document))
  | colon (before : List (Option String × Document)) (name : Option String)
  | afterEntry (entries : List (Option String × Document))

def unwind (document : Document) : List Frame → Document
  | [] => document
  | .item before :: outer => unwind (array (document :: before).reverse (.separator .malformed)) outer
  | .entry before name :: outer =>
    unwind (object ((name, document) :: before).reverse (.separator .malformed)) outer

def cutOff : Expected → List Frame → Document
  | .value, frames => unwind ended frames
  | .firstItem, frames => unwind (array [] (.separator .truncated)) frames
  | .nextItem before, frames => unwind ended (.item before :: frames)
  | .afterItem items, frames => unwind (array items.reverse (.separator .truncated)) frames
  | .firstName, frames => unwind (object [] (.nameless ended)) frames
  | .nextName before, frames => unwind (object before.reverse (.nameless ended)) frames
  | .colon before name, frames =>
    unwind ended (.entry before name :: frames)
  | .afterEntry entries, frames => unwind (object entries.reverse (.separator .truncated)) frames

def ofLexeme : Lexeme → Document
  | .null => null
  | .bool value => bool value
  | .number value => number value
  | .string text => string text
  | .openArray => array [] .closed
  | .openObject => object [] .closed
  | .broken reading passing => broken reading passing
  | .brokenString reading passing => brokenString reading passing
  | .brokenNull flaw => brokenNull flaw
  | _ => broken .malformed .malformed

def endNameless (before : List (Option String × Document)) (lexeme : Lexeme)
    (frames : List Frame) : Document :=
  unwind (object before.reverse (.nameless (ofLexeme lexeme))) frames

inductive Next where
  | further (expected : Expected) (frames : List Frame)
  | complete (document : Document)
  | flawed (document : Document)

def resume (document : Document) : List Frame → Next
  | [] => .complete document
  | .item before :: outer => .further (.afterItem (document :: before)) outer
  | .entry before name :: outer => .further (.afterEntry ((name, document) :: before)) outer

def enter (lexeme : Lexeme) (frames : List Frame) : Next :=
  match lexeme with
  | .openArray => .further .firstItem frames
  | .openObject => .further .firstName frames
  | .null => resume .null frames
  | .bool value => resume (.bool value) frames
  | .number value => resume (.number value) frames
  | .string text => resume (.string text) frames
  | other => .flawed (unwind (ofLexeme other) frames)

def step (expected : Expected) (frames : List Frame) (lexeme : Lexeme) : Next :=
  match expected with
  | .value => enter lexeme frames
  | .firstItem =>
    match lexeme with
    | .closeArray => resume (array [] .closed) frames
    | other => enter other (.item [] :: frames)
  | .nextItem before =>
    match lexeme with
    | .closeArray => .flawed (unwind (array before.reverse (.separator .malformed)) frames)
    | other => enter other (.item before :: frames)
  | .afterItem items =>
    match lexeme with
    | .comma => .further (.nextItem items) frames
    | .closeArray => resume (array items.reverse .closed) frames
    | _ => .flawed (unwind (array items.reverse (.separator .malformed)) frames)
  | .firstName =>
    match lexeme with
    | .closeObject => resume (object [] .closed) frames
    | .string name => .further (.colon [] name) frames
    | other => .flawed (endNameless [] other frames)
  | .nextName before =>
    match lexeme with
    | .string name => .further (.colon before name) frames
    | other => .flawed (endNameless before other frames)
  | .colon before name =>
    match lexeme with
    | .colon => .further .value (.entry before name :: frames)
    | _ => .flawed (unwind (broken .malformed .malformed) (.entry before name :: frames))
  | .afterEntry entries =>
    match lexeme with
    | .comma => .further (.nextName entries) frames
    | .closeObject => resume (object entries.reverse .closed) frames
    | _ => .flawed (unwind (object entries.reverse (.separator .malformed)) frames)

def build (expected : Expected) (frames : List Frame) : List Lexeme → Reading
  | [] => ⟨cutOff expected frames, false⟩
  | lexeme :: rest =>
    match step expected frames lexeme with
    | .further expected frames => build expected frames rest
    | .complete document => ⟨document, !rest.isEmpty⟩
    | .flawed document => ⟨document, false⟩

end Document

namespace Reading

def ofLexemes (lexemes : List Lexeme) : Reading :=
  Document.build .value [] lexemes

def ofText (text : String) : Reading :=
  ofLexemes (Lexeme.ofText text.toList)

end Reading

end ActionAtlas.Json
