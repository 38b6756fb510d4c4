import ModifierToggle.Hcl.Token
import ModifierToggle.Hcl.Value
import ModifierToggle.Text.Cluster

set_option autoImplicit false

/-! # Expressions of settings

The expressions on the right of an equals sign, and how they are read from tokens. A line end ends
an expression, except between brackets, parentheses and the braces of an interpolation, where it is
passed over: `lines` says whether line ends count. -/

namespace ModifierToggle.Hcl

/-- The operators between two operands. -/
inductive Operator where
  | or
  | and
  | equal
  | notEqual
  | less
  | greater
  | lessEqual
  | greaterEqual
  | add
  | sub
  | mul
  | div
  | mod
  deriving Repr, DecidableEq

/-- An expression. -/
inductive Expr where
  | literal (v : Value)
  | name (n : Text)
  /-- An expression between parentheses. -/
  | parenthesized (e : Expr)
  /-- The item that a splat is at. -/
  | current
  | call (args : List Expr)
  /-- A key that might be a name or the value of an expression. -/
  | ambiguous
  | select (e : Expr) (n : Text)
  | index (e key : Expr)
  /-- `each` for every item of `e`. -/
  | splat (e each : Expr)
  | tuple (items : List Expr)
  /-- An object; keys and values correspond place by place. -/
  | object (keys values : List Expr)
  /-- A tuple with a value for every item of `e` for which the condition holds. -/
  | forTuple (key : Option Text) (item : Text) (e value condition : Expr)
  /-- An object with an attribute for every item of `e` for which the condition holds; with `group`
      the values of a repeated key are collected. -/
  | forObject (key : Option Text) (item : Text) (e name value condition : Expr) (group : Bool)
  | conditional (condition yes no : Expr)
  | binary (op : Operator) (left right : Expr)
  | negate (e : Expr)
  | not (e : Expr)
  /-- The texts of the parts, one behind the other. -/
  | template (parts : List Expr)
  /-- The texts of the items of a tuple, one behind the other. -/
  | join (e : Expr)

/-! ## Templates -/

/-- A part of a template before its directives are paired up. -/
inductive Part where
  | literal (t : Text)
  | interpolation (e : Expr)
  | ifStart (condition : Expr)
  | elseMark
  | ifEnd
  | forStart (key : Option Text) (item : Text) (e : Expr)
  | forEnd

namespace Part

/-- Take white space off the end of the last of some parts, held in reverse, if it is literal. -/
def trimLast : List Part → List Part
  | .literal t :: rest => .literal t.trimEnd :: rest
  | parts => parts

/-- Whether a literal part ends its line. -/
def endsLine : Part → Bool
  | .literal t => t.getLast? == some Byte.newline
  | _ => false

/-- The indentation of a part that starts a line, as a number of grapheme clusters; a blank line has
    none to count. -/
def indentation? : Part → Option Nat
  | .literal t =>
    let white := t.pieces.takeWhile Piece.isWhite
    if white.length == t.pieces.length && t.getLast? == some Byte.newline then none
    else some (Cluster.splitter.count (Text.ofPieces white))
  | _ => some 0

/-- Whether a piece attaches to the one before it, by version 15 of the cluster data. -/
def isMark : Piece → Bool
  | .char c =>
    (Cluster.classOf c.toNat).isMark || Cluster.inRanges c.toNat Cluster.laterMarkRanges
  | .stray _ => false

/-- The number of pieces that a white piece and those attached to it take. -/
def clusterLength (p : Piece) (rest : List Piece) : Nat :=
  match p, rest with
  | .char '\r', .char '\n' :: _ => 2
  | .char c, rest =>
    if Cluster.classOf c.toNat == .other then 1 + (rest.takeWhile isMark).length else 1
  | .stray _, _ => 1

/-- Take `n` grapheme clusters of white space off the front, after the first `skip` pieces. -/
def dropClusters : Nat → Nat → List Piece → List Piece
  | _, _, [] => []
  | n, skip + 1, _ :: rest => dropClusters n skip rest
  | 0, 0, ps => ps
  | n + 1, 0, p :: rest => dropClusters n (clusterLength p rest - 1) rest

/-- The indentations of the parts that start a line. -/
def indentations (lineStart : Bool) : List Part → List Nat
  | [] => []
  | p :: rest =>
    (if lineStart then p.indentation?.toList else []) ++ indentations p.endsLine rest

/-- Take `n` grapheme clusters off every line that is not blank. -/
def outdent (n : Nat) (lineStart : Bool) : List Part → List Part
  | [] => []
  | p :: rest =>
    let p' := match p with
      | .literal t =>
        if lineStart && p.indentation?.isSome then
          .literal (Text.ofPieces (dropClusters n 0 t.pieces))
        else .literal t
      | p => p
    p' :: outdent n p.endsLine rest

/-- Take the common indentation off the lines of a template. -/
def flush (parts : List Part) : List Part :=
  match (indentations true parts).min? with
  | none => parts
  | some n => outdent n true parts

/-- Put literal parts that follow each other together. -/
def meld : List Part → List Part
  | [] => []
  | p :: rest =>
    match p, meld rest with
    | .literal t, .literal u :: rest => .literal (t ++ u) :: rest
    | p, rest => p :: rest

mutual

/-- Pair up the directives of a template: the expressions up to a closing directive or the end, and
    the parts from there on. -/
def expressions : Nat → List Part → Option (List Expr × List Part)
  | 0, _ => none
  | _ + 1, [] => some ([], [])
  | fuel + 1, p :: rest =>
    let next (e : Expr) (rest : List Part) : Option (List Expr × List Part) :=
      (expressions fuel rest).map fun (es, parts) => (e :: es, parts)
    match p with
    | .literal t => next (.literal (.ofText t)) rest
    | .interpolation e => next e rest
    | .ifStart c =>
      match ifBranches fuel rest with
      | none => none
      | some (yes, no, rest) => next (.conditional c yes no) rest
    | .forStart key item e =>
      match expressions fuel rest with
      | some (body, .forEnd :: rest) =>
        next (.join (.forTuple key item e (.template body) (.literal (.bool true)))) rest
      | _ => none
    | _ => some ([], p :: rest)

/-- The two branches of a conditional directive, and the parts behind it. -/
def ifBranches : Nat → List Part → Option (Expr × Expr × List Part)
  | 0, _ => none
  | fuel + 1, parts =>
    match expressions fuel parts with
    | some (yes, .ifEnd :: rest) => some (.template yes, .literal (.text []), rest)
    | some (yes, .elseMark :: rest) =>
      match expressions fuel rest with
      | some (no, .ifEnd :: rest) => some (.template yes, .template no, rest)
      | _ => none
    | _ => none

end

/-- The expression that a template stands for. An interpolation alone stands for its own value,
    which need not be a text. -/
def toExpr? (parts : List Part) : Option Expr :=
  match meld parts with
  | [] => some (.template [.literal (.text [])])
  | [.interpolation e] => some e
  | parts =>
    match expressions (2 * parts.length + 2) parts with
    | some (es, []) => some (.template es)
    | _ => none

end Part

namespace Expr

/-! ## Reading -/

/-- The tokens from the next one that counts. -/
def ahead (lines : Bool) (ts : List Token) : List Token :=
  if lines then ts else ts.dropWhile (· == .newline)

/-- The tokens behind a sign, which has to come next. -/
def expect (lines : Bool) (s : String) (ts : List Token) : Option (List Token) :=
  match ahead lines ts with
  | .sign s' :: rest => if s' == s then some rest else none
  | _ => none

/-- The tokens behind a word, which has to come next. -/
def expectWord (lines : Bool) (word : String) (ts : List Token) : Option (List Token) :=
  match ahead lines ts with
  | .name n :: rest => if n == utf8 word then some rest else none
  | _ => none

/-- The operators, by how strongly they bind: the weakest first. -/
def operators : List (List (String × Operator)) :=
  [[("||", .or)],
   [("&&", .and)],
   [("==", .equal), ("!=", .notEqual)],
   [("<", .less), (">", .greater), ("<=", .lessEqual), (">=", .greaterEqual)],
   [("+", .add), ("-", .sub)],
   [("*", .mul), ("/", .div), ("%", .mod)]]

/-- The operator of a level that comes next. -/
def operator? (lines : Bool) (level : List (String × Operator)) (ts : List Token) :
    Option (Operator × List Token) :=
  match ahead lines ts with
  | .sign s :: rest => (level.lookup s).map fun op => (op, rest)
  | _ => none

/-- The variables of a `for` up to its collection: an optional key, the item, and what follows
    `in`. -/
def forNames? (ts : List Token) : Option (Option Text × Text × List Token) :=
  match ahead false ts with
  | .name first :: rest =>
    match ahead false rest with
    | .sign "," :: rest =>
      match ahead false rest with
      | .name second :: rest =>
        (expectWord false "in" rest).map fun rest => (some first, second, rest)
      | _ => none
    | rest => (expectWord false "in" rest).map fun rest => (none, first, rest)
  | _ => none

/-- Whether an expression is known without working it out: a value, or literal text. -/
def isConstant : Expr → Bool
  | .literal _ => true
  | .template [.literal _] => true
  | _ => false

/-- Whether an expression is a name with attributes and constant items asked of it. -/
def isPath : Expr → Bool
  | .name _ => true
  | .select e _ => isPath e
  | .index e key => isPath e && isConstant key
  | _ => false

/-- The key that an expression gives to an attribute, where its first token is `first`. A bare name
    stands for itself, and a name with attributes asked of it might be meant in two ways. -/
def asKey (first : Option Token) (e : Expr) : Expr :=
  match first with
  | some (.name n) =>
    match e with
    | .name _ => .literal (.ofText n)
    | .literal _ => .literal (.ofText n)
    | e => if isPath e then .ambiguous else e
  | _ => e

mutual

/-- Read an expression. -/
def read : Nat → Bool → List Token → Option (Expr × List Token)
  | 0, _, _ => none
  | fuel + 1, lines, ts => do
    let (condition, rest) ← readLevels fuel lines operators ts
    match ahead lines rest with
    | .sign "?" :: rest =>
      let (yes, rest) ← read fuel lines rest
      let rest ← expect lines ":" rest
      let (no, rest) ← read fuel lines rest
      return (.conditional condition yes no, rest)
    | _ => return (condition, rest)

/-- Read operands joined by the operators of some levels. -/
def readLevels : Nat → Bool → List (List (String × Operator)) → List Token →
    Option (Expr × List Token)
  | 0, _, _, _ => none
  | fuel + 1, lines, [], ts => readOperand fuel lines ts
  | fuel + 1, lines, level :: levels, ts => do
    let (left, rest) ← readLevels fuel lines levels ts
    readChain fuel lines level levels left rest

/-- Read the further operands of one level behind a first one. -/
def readChain : Nat → Bool → List (String × Operator) → List (List (String × Operator)) → Expr →
    List Token → Option (Expr × List Token)
  | 0, _, _, _, _, _ => none
  | fuel + 1, lines, level, levels, left, ts =>
    match operator? lines level ts with
    | none => some (left, ts)
    | some (op, rest) => do
      let (right, rest) ← readLevels fuel lines levels rest
      readChain fuel lines level levels (.binary op left right) rest

/-- Read a term with the attributes and items asked of it. -/
def readOperand : Nat → Bool → List Token → Option (Expr × List Token)
  | 0, _, _ => none
  | fuel + 1, lines, ts => do
    let (e, rest) ← readTerm fuel lines ts
    readSteps fuel lines e rest

/-- Read the attributes and items asked of an expression. -/
def readSteps : Nat → Bool → Expr → List Token → Option (Expr × List Token)
  | 0, _, _, _ => none
  | fuel + 1, lines, e, ts =>
    match ahead lines ts with
    | .sign "." :: rest =>
      match ahead lines rest with
      | .name n :: rest => readSteps fuel lines (.select e n) rest
      | .number n :: rest =>
        if n.contains Byte.dot then none
        else do
          let key ← Number.ofText? n
          readSteps fuel lines (.index e (.literal (.number key))) rest
      | .sign "*" :: rest => do
        let (each, rest) ← readAttributes fuel lines .current rest
        readSteps fuel lines (.splat e each) rest
      | _ => none
    | .sign "[" :: rest =>
      match ahead lines rest with
      | .sign "*" :: rest => do
        let rest ← expect lines "]" rest
        let (each, rest) ← readSteps fuel lines .current rest
        return (.splat e each, rest)
      | _ => do
        let (key, rest) ← read fuel false rest
        let rest ← expect false "]" rest
        readSteps fuel lines (.index e key) rest
    | _ => some (e, ts)

/-- Read the attributes, and the items by number, asked of every item of a splat. -/
def readAttributes : Nat → Bool → Expr → List Token → Option (Expr × List Token)
  | 0, _, _, _ => none
  | fuel + 1, lines, e, ts =>
    match ahead lines ts with
    | .sign "." :: rest =>
      match ahead lines rest with
      | .name n :: rest => readAttributes fuel lines (.select e n) rest
      | .number n :: rest =>
        if n.contains Byte.dot then none
        else do
          let key ← Number.ofText? n
          readAttributes fuel lines (.index e (.literal (.number key))) rest
      | _ => none
    | _ => some (e, ts)

/-- Read a term. -/
def readTerm : Nat → Bool → List Token → Option (Expr × List Token)
  | 0, _, _ => none
  | fuel + 1, lines, ts =>
    match ahead lines ts with
    | .sign "(" :: rest => do
      let (e, rest) ← read fuel false rest
      let rest ← expect false ")" rest
      return (.parenthesized e, rest)
    | .number n :: rest => do
      let value ← Number.ofText? n
      return (.literal (.number value), rest)
    | .name n :: rest =>
      match ahead lines rest with
      | .sign "(" :: rest => do
        let (args, rest) ← readArguments fuel rest
        return (.call args, rest)
      | .sign "::" :: _ => readQualified fuel lines rest
      | _ =>
        if n == utf8 "true" then some (.literal (.bool true), rest)
        else if n == utf8 "false" then some (.literal (.bool false), rest)
        else if n == utf8 "null" then some (.literal (.null .dynamic), rest)
        else some (.name n, rest)
    | .openQuote :: rest => do
      let (parts, rest) ← readParts fuel .closeQuote [] false rest
      let e ← Part.toExpr? parts
      return (e, rest)
    | .openHere flush :: rest => do
      let (parts, rest) ← readParts fuel .closeHere [] false rest
      let e ← Part.toExpr? (if flush then Part.flush parts else parts)
      return (e, rest)
    | .sign "-" :: rest => do
      let (e, rest) ← readOperand fuel lines rest
      return (.negate e, rest)
    | .sign "!" :: rest => do
      let (e, rest) ← readOperand fuel lines rest
      return (.not e, rest)
    | .sign "[" :: rest =>
      match expectWord false "for" rest with
      | some rest => readFor fuel "]" rest
      | none => do
        let (items, rest) ← readItems fuel rest
        return (.tuple items, rest)
    | .sign "\x7b" :: rest =>
      match expectWord false "for" rest with
      | some rest => readFor fuel "\x7d" rest
      | none => do
        let (keys, values, rest) ← readEntries fuel rest
        return (.object keys values, rest)
    | _ => none

/-- Read the rest of a call of a function in a namespace, behind the first name. -/
def readQualified : Nat → Bool → List Token → Option (Expr × List Token)
  | 0, _, _ => none
  | fuel + 1, lines, ts =>
    match ahead lines ts with
    | .sign "::" :: rest =>
      match ahead lines rest with
      | .name _ :: rest => readQualified fuel lines rest
      | _ => none
    | .sign "(" :: rest => do
      let (args, rest) ← readArguments fuel rest
      return (.call args, rest)
    | _ => none

/-- Read the arguments of a call up to its closing parenthesis. -/
def readArguments : Nat → List Token → Option (List Expr × List Token)
  | 0, _ => none
  | fuel + 1, ts =>
    match ahead false ts with
    | .sign ")" :: rest => some ([], rest)
    | ts => do
      let (e, rest) ← read fuel false ts
      match ahead false rest with
      | .sign ")" :: rest => return ([e], rest)
      | .sign "..." :: rest =>
        let rest ← expect false ")" rest
        return ([e], rest)
      | .sign "," :: rest =>
        let (es, rest) ← readArguments fuel rest
        return (e :: es, rest)
      | _ => none

/-- Read the items of a tuple up to its closing bracket. -/
def readItems : Nat → List Token → Option (List Expr × List Token)
  | 0, _ => none
  | fuel + 1, ts =>
    match ahead false ts with
    | .sign "]" :: rest => some ([], rest)
    | ts => do
      let (e, rest) ← read fuel false ts
      match ahead false rest with
      | .sign "]" :: rest => return ([e], rest)
      | .sign "," :: rest =>
        let (es, rest) ← readItems fuel rest
        return (e :: es, rest)
      | _ => none

/-- Read the entries of an object up to its closing brace. Line ends and commas part them. -/
def readEntries : Nat → List Token → Option (List Expr × List Expr × List Token)
  | 0, _ => none
  | fuel + 1, ts =>
    match ts with
    | .newline :: rest => readEntries fuel rest
    | .sign "\x7d" :: rest => some ([], [], rest)
    | ts => do
      let (key, rest) ← read fuel true ts
      let key := asKey ts.head? key
      let rest ← (expect true "=" rest).or (expect true ":" rest)
      let (value, rest) ← read fuel true rest
      match rest with
      | .sign "\x7d" :: rest => return ([key], [value], rest)
      | .sign "," :: rest =>
        let (keys, values, rest) ← readEntries fuel rest
        return (key :: keys, value :: values, rest)
      | .newline :: rest =>
        let (keys, values, rest) ← readEntries fuel rest
        return (key :: keys, value :: values, rest)
      | _ => none

/-- Read a `for` expression up to the sign that closes it. -/
def readFor : Nat → String → List Token → Option (Expr × List Token)
  | 0, _, _ => none
  | fuel + 1, close, ts => do
    let (key, item, rest) ← forNames? ts
    let (e, rest) ← read fuel false rest
    let rest ← expect false ":" rest
    let (first, rest) ← read fuel false rest
    match expect false "=>" rest with
    | none =>
      if close == "]" then
        let (condition, rest) ← readCondition fuel rest
        let rest ← expect false close rest
        return (.forTuple key item e first condition, rest)
      else none
    | some rest =>
      if close == "]" then none
      else
        let (value, rest) ← read fuel false rest
        let (group, rest) := match expect false "..." rest with
          | some rest => (true, rest)
          | none => (false, rest)
        let (condition, rest) ← readCondition fuel rest
        let rest ← expect false close rest
        return (.forObject key item e first value condition group, rest)

/-- Read the condition at the end of a `for` expression; without one, everything is taken. -/
def readCondition : Nat → List Token → Option (Expr × List Token)
  | 0, _ => none
  | fuel + 1, ts =>
    match expectWord false "if" ts with
    | some rest => read fuel false rest
    | none => some (.literal (.bool true), ts)

/-- Read the parts of a template up to the token that closes it. `parts` are those read so far, in
    reverse; with `trim`, white space at the start of the next literal part is left out. -/
def readParts : Nat → Token → List Part → Bool → List Token → Option (List Part × List Token)
  | 0, _, _, _, _ => none
  | _ + 1, _, _, _, [] => none
  | fuel + 1, close, parts, trim, t :: rest =>
    if t == close then some (parts.reverse, rest)
    else match t with
      | .literal l =>
        let l := if trim then l.trimStart else l
        readParts fuel close (.literal l :: parts) false rest
      | .openInterpolation trimBefore => do
        let parts := if trimBefore then Part.trimLast parts else parts
        let (e, rest) ← read fuel false rest
        match ahead false rest with
        | .closeSequence trim :: rest => readParts fuel close (.interpolation e :: parts) trim rest
        | _ => none
      | .openDirective trimBefore => do
        let parts := if trimBefore then Part.trimLast parts else parts
        let (part, rest) ← readDirective fuel rest
        match ahead false rest with
        | .closeSequence trim :: rest => readParts fuel close (part :: parts) trim rest
        | _ => none
      | _ => none

/-- Read a directive up to its closing brace. -/
def readDirective : Nat → List Token → Option (Part × List Token)
  | 0, _ => none
  | fuel + 1, ts =>
    match ahead false ts with
    | .name n :: rest =>
      if n == utf8 "if" then do
        let (e, rest) ← read fuel false rest
        return (.ifStart e, rest)
      else if n == utf8 "else" then some (.elseMark, rest)
      else if n == utf8 "endif" then some (.ifEnd, rest)
      else if n == utf8 "for" then do
        let (key, item, rest) ← forNames? rest
        let (e, rest) ← read fuel false rest
        return (.forStart key item e, rest)
      else if n == utf8 "endfor" then some (.forEnd, rest)
      else none
    | _ => none

end

/-- A bound on the depth of reading: no token is looked at by more than a few functions at a
    time. -/
def readFuel (ts : List Token) : Nat := 24 * ts.length + 48

end Expr

end ModifierToggle.Hcl
