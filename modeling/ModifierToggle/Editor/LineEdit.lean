import ModifierToggle.Declaration.Region

set_option autoImplicit false

/-! # Edits of a header line

Every edit of a declaration changes one line. A `LineEdit` looks at a code line and answers with the
new text of the line, or leaves the line to others; the first line of the span that is taken is the
one changed. Nothing in this file touches a buffer: it is about which line changes, and into what.

Line edits work on the text of a line at offsets found in its code, which is sound because removing
comments keeps offsets. -/

namespace ModifierToggle

/-- The new text of a line, or `none` to leave the line alone. -/
abbrev LineEdit := CodeLine → Option Text

namespace LineEdit

/-- The first line that is taken, with its new text. Empty lines are never taken. -/
def first? (r : LineEdit) (lines : List CodeLine) : Option (CodeLine × Text) :=
  lines.findSome? fun l => if l.text.isEmpty then none else (r l).map fun new => (l, new)

/-! ## Cutting and inserting -/

/-- Put a keyword and a space at an offset. -/
def insertAt (text keyword : Text) (i : Nat) : Text :=
  text.take i ++ keyword ++ [Byte.space] ++ text.drop i

/-- Whether the byte at an offset is a space or a tab. -/
def blankAt (text : Text) (i : Nat) : Bool := (text[i]?).any Byte.isBlank

/-- Remove the bytes from `start` to `stop` with one blank beside them, the one after if there is
    one. -/
def cut (text : Text) (start stop : Nat) : Text :=
  if blankAt text stop then text.take start ++ text.drop (stop + 1)
  else if 0 < start && blankAt text (start - 1) then text.take (start - 1) ++ text.drop stop
  else text.take start ++ text.drop stop

/-- Where a new leading keyword goes: at the first byte a modifier can start with. -/
def firstModifierByte (text : Text) : Nat := (text.findIdx? Byte.startsModifier).getD 0

/-! ## Visibility -/

/-- Put `keyword` in the place of the visibility keyword on the line, or drop that when `keyword` is
    empty. -/
def replaceVisibility (lang : Language) (keyword : Text) : LineEdit := fun l =>
  (lang.findVisibility? (l.searchable lang)).map fun at_ =>
    let rest := l.text.drop (l.text.skipBlanks at_.stop)
    if keyword.isEmpty then l.text.take at_.start ++ rest
    else l.text.take at_.start ++ keyword ++ [Byte.space] ++ rest

/-- Put a visibility keyword in front of the modifiers on the header line. -/
def insertVisibility (lang : Language) (keyword : Text) : LineEdit := fun l =>
  (l.start? lang).map fun _ => insertAt l.text keyword (firstModifierByte l.text)

/-! ## Modifiers -/

/-- Put a token directly before the keyword that opens the declaration. -/
def addToken (lang : Language) (tok : Token) : LineEdit := fun l =>
  (l.start? lang).map fun at_ => insertAt l.text tok.keyword at_.start

/-- Remove the first occurrence of a token and one blank beside it. -/
def removeToken (lang : Language) (tok : Token) : LineEdit := fun l =>
  (tok.find? (l.searchable lang)).map fun at_ => cut l.text at_.start at_.stop

/-! ## The order of modifiers -/

/-- Whether a word is an annotation. -/
def annotates (word : Text) : Bool := word.head? == some Byte.atSign

/-- Whether every word is an annotation or made of plain word bytes. -/
def isModifierRun (run : Text) : Bool :=
  run.words.all fun w => annotates w || w.all Byte.isPlainWord

/-- The length of the run of plain words, each with blanks after it, that a text ends with. The text
    is read backwards: `pos` bytes have been read, the last of them inside a word when `inWord`
    holds, and `accepted` of them are known to belong to the run. A word belongs to it if a blank or
    nothing stands before the word. -/
def plainRunLength (accepted pos : Nat) (inWord : Bool) : Text → Nat
  | [] => if inWord then pos else accepted
  | b :: rest =>
    if Byte.isPlainWord b then plainRunLength accepted (pos + 1) true rest
    else if Byte.isBlank b then
      plainRunLength (if inWord then pos else accepted) (pos + 1) false rest
    else accepted

/-- Where the run of plain words that ends at offset `pos` starts. -/
def plainRunStart (text : Text) (pos : Nat) : Nat :=
  pos - plainRunLength 0 0 false (text.take pos).reverse

/-- The words of a modifier run with the first visibility moved to the front, behind leading
    annotations; `none` when there is no visibility or it is not behind them. -/
def visibilityFirst? (lang : Language) (words : List Text) : Option (List Text) :=
  let lead := (words.takeWhile annotates).length
  match words.findIdx? lang.isVisibility with
  | none => none
  | some i =>
    if i ≤ lead then none
    else some (words.take lead ++ (words[i]?).toList ++ (words.drop lead).take (i - lead)
      ++ words.drop (i + 1))

/-- Where the modifiers before a declaration keyword at offset `pos` start: after the indentation if
    there are only plain words and annotations from there on, else at the plain words directly
    before the keyword. -/
def modifierRunStart (text : Text) (pos : Nat) : Nat :=
  if text.indent ≤ pos && isModifierRun (text.slice text.indent pos) then text.indent
  else plainRunStart text pos

/-- Move the visibility keyword in front of the other modifiers on the header line. -/
def orderModifiers (lang : Language) : LineEdit := fun l =>
  (l.start? lang).map fun at_ =>
    let first := modifierRunStart l.text at_.start
    let run := l.text.slice first at_.start
    match visibilityFirst? lang run.words with
    | none => l.text
    | some ordered =>
      l.text.take first ++ Text.join [Byte.space] ordered
        ++ run.drop (run.trimEndWhile Byte.isBlank).length ++ l.text.drop at_.start

/-! ## The placement of tokens -/

/-- Move a token to the start of its line, unless only annotations stand before it. -/
def moveToLineStart (lang : Language) (tok : Token) : LineEdit := fun l =>
  (tok.find? (l.searchable lang)).map fun at_ =>
    if l.text.indent ≤ at_.start
        && (l.text.slice l.text.indent at_.start).words.all annotates then l.text
    else insertAt (cut l.text at_.start at_.stop) tok.keyword l.text.indent

/-- Move a token directly before the keyword on its line that opens the declaration. -/
def moveBeforeKeyword (lang : Language) (tok : Token) : LineEdit := fun l =>
  (tok.find? (l.searchable lang)).map fun at_ =>
    match l.start? lang with
    | none => l.text
    | some keyword =>
      if l.text.skipBlanks at_.stop = keyword.start then l.text
      else
        let rest := cut l.text at_.start at_.stop
        insertAt rest tok.keyword (keyword.start - (l.text.length - rest.length))

/-- The edit that puts a token into its place; `none` for a token that may stand anywhere. -/
def place? (lang : Language) (tok : Token) : Option LineEdit :=
  match tok.placement with
  | .free => none
  | .lineStart => some (moveToLineStart lang tok)
  | .beforeKeyword => some (moveBeforeKeyword lang tok)

end LineEdit

/-! ## The part of a line that changes -/

/-- The length of the longest common front of two texts. -/
def Text.commonFront : Text → Text → Nat
  | a :: s, b :: t => if a == b then Text.commonFront s t + 1 else 0
  | _, _ => 0

/-- A replacement inside a line: the bytes from `start` to `stop` give way to `new`. -/
structure Splice where
  start : Nat
  stop : Nat
  new : Text
  deriving Repr, DecidableEq

/-- The shortest replacement that turns `old` into `new`: what the two have in common at the front,
    and then at the end, stays. -/
def Splice.between (old new : Text) : Splice :=
  let start := Text.commonFront old new
  let tail := Text.commonFront (old.drop start).reverse (new.drop start).reverse
  ⟨start, old.length - tail, new.slice start (new.length - tail)⟩

end ModifierToggle
