import ActionAtlas.Path

/-!
Wildcard patterns for paths below a folder.

A question mark stands for a byte other than a slash and an asterisk for a run of such bytes.
Two asterisks between slashes, or at an end, stand for any number of folders. Brackets enclose the
bytes that are possible, or with `!` or `^` in front those that are not, and braces enclose
patterns to choose from, apart by commas. A backslash takes the next character as it is.

A path is matched by its bytes, and the characters of a pattern stand for theirs in UTF-8.
-/

namespace ActionAtlas

namespace PathPattern

open ActionAtlas.Path (slash)

inductive Token where
  | byte (value : UInt8)
  | any
  | run
  | oneOf (negated : Bool) (ranges : List (UInt8 × UInt8))
  /-- Any folders at the beginning, with the slash behind them. -/
  | leading
  /-- Any folders between two slashes, with both slashes. -/
  | inner
  /-- A slash and anything behind it. -/
  | trailing
  | choice (alternatives : List (List Token))

def utf8 (text : List Char) : List UInt8 :=
  text.flatMap String.utf8EncodeChar

/-! ### Matching -/

def behindSlashes : List UInt8 → List (List UInt8)
  | [] => []
  | b :: rest => if b = slash then rest :: behindSlashes rest else behindSlashes rest

def behindRuns : List UInt8 → List (List UInt8)
  | [] => [[]]
  | b :: rest => (b :: rest) :: if b = slash then [] else behindRuns rest

def endings : List UInt8 → List (List UInt8)
  | [] => [[]]
  | b :: rest => (b :: rest) :: endings rest

def behindByte (accept : UInt8 → Bool) : List UInt8 → List (List UInt8)
  | [] => []
  | b :: rest => if accept b then [rest] else []

def isIn (ranges : List (UInt8 × UInt8)) (b : UInt8) : Bool :=
  ranges.any fun range => range.1 ≤ b && b ≤ range.2

mutual

def Token.rests (text : List UInt8) : Token → List (List UInt8)
  | .byte value => behindByte (· == value) text
  | .any => behindByte (· != slash) text
  | .run => behindRuns text
  | .oneOf negated ranges => behindByte (fun b => isIn ranges b != negated) text
  | .leading => text :: behindSlashes text
  | .inner => (behindByte (· == slash) text).flatMap fun rest => rest :: behindSlashes rest
  | .trailing => (behindByte (· == slash) text).flatMap endings
  | .choice alternatives => if alternatives.isEmpty then [text] else restsOfChoice text alternatives

def restsOf (texts : List (List UInt8)) : List Token → List (List UInt8)
  | [] => texts
  | token :: others => restsOf (texts.flatMap fun text => token.rests text).eraseDups others

def restsOfChoice (text : List UInt8) : List (List Token) → List (List UInt8)
  | [] => []
  | alternative :: others => restsOf [text] alternative ++ restsOfChoice text others

end

/-! ### Reading -/

inductive Sign where
  | literal (c : Char)
  | slash
  | question
  | asterisk
  | oneOf (negated : Bool) (ranges : List (Char × Char))
  | opening
  | comma
  | closing

def Sign.ofChar (c : Char) : Sign :=
  if c = '/' then slash
  else if c = '?' then question
  else if c = '*' then asterisk
  else if c = '\x7b' then opening
  else if c = ',' then comma
  else if c = '\x7d' then closing
  else literal c

/-- What stands behind an opening bracket: whether it is negated, its characters, and the text
behind the closing bracket, if there is one. The first character does not close it. -/
structure Brackets where
  negated : Bool
  characters : List Char
  rest? : Option (List Char)

def Brackets.ofBody (negated : Bool) : List Char → Brackets
  | [] => ⟨negated, [], none⟩
  | first :: later =>
    match Text.cutFirst? ']' later with
    | some (inside, rest) => ⟨negated, first :: inside, some rest⟩
    | none => ⟨negated, first :: later, none⟩

def Brackets.ofText : List Char → Brackets
  | '!' :: body => ofBody true body
  | '^' :: body => ofBody true body
  | body => ofBody false body

theorem Brackets.ofBody_rest_length {negated : Bool} {body rest : List Char}
    (closed : (ofBody negated body).rest? = some rest) : rest.length < body.length := by
  cases body with
  | nil => simp [ofBody] at closed
  | cons first later =>
    cases cut : Text.cutFirst? ']' later with
    | none => simp [ofBody, cut] at closed
    | some parts =>
      obtain ⟨inside, behind⟩ := parts
      simp only [ofBody, cut, Option.some.injEq] at closed
      have whole := congrArg List.length (Text.cutFirst?_append cut)
      subst closed
      simp at whole ⊢
      omega

theorem Brackets.ofText_rest_length {text rest : List Char}
    (closed : (ofText text).rest? = some rest) : rest.length < text.length := by
  unfold ofText at closed
  split at closed
  · next body => exact Nat.lt_succ_of_lt (ofBody_rest_length closed)
  · next body => exact Nat.lt_succ_of_lt (ofBody_rest_length closed)
  · exact ofBody_rest_length closed

def classRanges? : List (Char × Char) → List Char → Option (List (Char × Char))
  | (low, _) :: done, '-' :: high :: rest =>
    if low ≤ high then classRanges? ((low, high) :: done) rest else none
  | done, c :: rest => classRanges? ((c, c) :: done) rest
  | done, [] => some done

/-- The signs of a pattern. There are none if it ends in a backslash or a range runs backwards.
An opening bracket that nothing closes stands for itself. -/
def signs? : List Char → Option (List Sign)
  | [] => some []
  | ['\\'] => none
  | '\\' :: c :: rest => (signs? rest).map (.literal c :: ·)
  | '[' :: rest =>
    let inside := Brackets.ofText rest
    match classRanges? [] inside.characters, _closed : inside.rest? with
    | none, _ => none
    | some _, none => (signs? rest).map (.literal '[' :: ·)
    | some ranges, some behind => (signs? behind).map (.oneOf inside.negated ranges :: ·)
  | c :: rest => (signs? rest).map (Sign.ofChar c :: ·)
termination_by text => text.length
decreasing_by
  all_goals simp only [List.length_cons]
  · omega
  · omega
  · have := Brackets.ofText_rest_length _closed
    omega
  · omega

/-- The byte ranges of a range of characters. Unless both are the same, the range runs from the
last byte of the one to the first byte of the other, and their other bytes stand alone. -/
def byteRanges (low high : Char) : List (UInt8 × UInt8) :=
  let alone (bytes : List UInt8) := bytes.map fun b => (b, b)
  let lower := String.utf8EncodeChar low
  let upper := String.utf8EncodeChar high
  if low = high then alone lower
  else
    match lower.getLast?, upper.head? with
    | some first, some last => alone lower.dropLast ++ (first, last) :: alone upper.tail
    | _, _ => []

structure Group where
  outer : List Token
  alternatives : List (List Token)

def Token.isVoid : Token → Bool
  | .choice [] => true
  | _ => false

/-- The choice that a group makes with its last alternative. Alternatives that stand for nothing
but the empty text do not count. -/
def Group.close (group : Group) (last : List Token) : List Token :=
  let alternatives := (last.reverse :: group.alternatives).reverse.filter fun alternative =>
    !alternative.all Token.isVoid
  .choice alternatives :: group.outer

/-- Two asterisks behind a slash take that slash with them, unless it belongs to others. -/
def overSlash (token : Token) : List Token → List Token
  | .leading :: before => .leading :: before
  | .trailing :: before => .trailing :: before
  | _ :: before => token :: before
  | [] => [token]

def isEnd (groups : List Group) : List Sign → Bool
  | [] => true
  | .comma :: _ => !groups.isEmpty
  | .closing :: _ => !groups.isEmpty
  | _ => false

def tokens? (groups : List Group) (before : List Token) (afterSlash : Bool) :
    List Sign → Option (List Token)
  | [] => if groups.isEmpty then some before.reverse else none
  | .asterisk :: .asterisk :: .slash :: rest =>
    if before.isEmpty then tokens? groups [.leading] true rest
    else if afterSlash then tokens? groups (overSlash .inner before) true rest
    else tokens? groups (.byte slash :: .run :: before) true rest
  | .asterisk :: .asterisk :: rest =>
    if before.isEmpty && rest.isEmpty then tokens? groups [.leading] false rest
    else if !before.isEmpty && afterSlash && isEnd groups rest then
      tokens? groups (overSlash .trailing before) false rest
    else tokens? groups (.run :: before) false rest
  | .asterisk :: rest => tokens? groups (.run :: before) false rest
  | .question :: rest => tokens? groups (.any :: before) false rest
  | .slash :: rest => tokens? groups (.byte slash :: before) true rest
  | .literal c :: rest =>
    tokens? groups ((utf8 [c]).reverse.map Token.byte ++ before) (c == '/') rest
  | .oneOf negated ranges :: rest =>
    let token := Token.oneOf negated (ranges.flatMap fun range => byteRanges range.1 range.2)
    tokens? groups (token :: before) false rest
  | .opening :: rest => tokens? (⟨before, []⟩ :: groups) [] false rest
  | .comma :: rest =>
    match groups with
    | [] => tokens? [] ((utf8 [',']).map Token.byte ++ before) false rest
    | group :: others =>
      tokens? ({ group with alternatives := before.reverse :: group.alternatives } :: others) []
        false rest
  | .closing :: rest =>
    match groups with
    | [] => none
    | group :: others => tokens? others (group.close before) false rest

end PathPattern

structure PathPattern where
  tokens : List PathPattern.Token

namespace PathPattern

def ofText? (text : List Char) : Option PathPattern :=
  ((signs? text).bind (tokens? [] [] false)).map PathPattern.mk

/-- Whether the whole path fits. Two asterisks by themselves fit every path. -/
def fits (pattern : PathPattern) (path : List UInt8) : Bool :=
  match pattern.tokens with
  | [.leading] => true
  | tokens => (restsOf [path] tokens).any List.isEmpty

end PathPattern

end ActionAtlas
