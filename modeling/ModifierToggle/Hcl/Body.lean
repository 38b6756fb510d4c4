import ModifierToggle.Hcl.Evaluation

set_option autoImplicit false

/-! # Bodies of settings

A settings file is a body: attributes, each on a line of its own and given once, and blocks, each
with a type, labels and a body between braces. A block may stand on one line when its body is empty
or a single attribute.

A body is read against a *shape*, the names of the attributes it may give and the types of the
blocks it may hold with the number of their labels. Anything else is refused. -/

namespace ModifierToggle.Hcl

/-- The attributes and blocks between braces, or of a whole file. -/
inductive Body where
  | mk (attributes : List (Text × Expr)) (blocks : List (Text × List Text × Body))

namespace Body

/-- The attributes of a body. -/
def attributes : Body → List (Text × Expr)
  | .mk attributes _ => attributes

/-- The blocks of a body: type, labels and body of each. -/
def blocks : Body → List (Text × List Text × Body)
  | .mk _ blocks => blocks

/-! ## Reading -/

/-- The literal text of a label between quotes, up to the closing quote. -/
def readLabel : List Token → Option (Text × List Token)
  | .literal t :: rest => (readLabel rest).map fun (u, ts) => (t ++ u, ts)
  | .closeQuote :: rest => some ([], rest)
  | _ => none

/-- The labels of a block up to its opening brace. -/
def readLabels : Nat → List Token → Option (List Text × List Token)
  | 0, _ => none
  | fuel + 1, ts =>
    match ts with
    | .sign "\x7b" :: rest => some ([], rest)
    | .name n :: rest => (readLabels fuel rest).map fun (ls, ts) => (n :: ls, ts)
    | .openQuote :: rest => do
      let (label, rest) ← readLabel rest
      let (labels, rest) ← readLabels fuel rest
      return (label :: labels, rest)
    | _ => none

/-- Pass a line end; the end of the text is one. -/
def readLineEnd : List Token → Option (List Token)
  | [] => some []
  | .newline :: rest => some rest
  | _ => none

mutual

/-- Read a body: up to a closing brace when `closed`, else up to the end. -/
def read : Nat → Bool → List Token → Option (Body × List Token)
  | 0, _, _ => none
  | _ + 1, closed, [] => if closed then none else some (.mk [] [], [])
  | fuel + 1, closed, t :: rest =>
    match t with
    | .newline => read fuel closed rest
    | .sign "\x7d" => if closed then some (.mk [] [], rest) else none
    | .name n =>
      match rest with
      | .sign "=" :: rest => do
        let (e, rest) ← Expr.read (Expr.readFuel rest) true rest
        let rest ← readLineEnd rest
        let (body, rest) ← read fuel closed rest
        if body.attributes.any (·.1 == n) then none
        else return (.mk ((n, e) :: body.attributes) body.blocks, rest)
      | rest => do
        let (labels, rest) ← readLabels fuel rest
        let (inner, rest) ← readBlock fuel rest
        let rest ← readLineEnd rest
        let (body, rest) ← read fuel closed rest
        return (.mk body.attributes ((n, labels, inner) :: body.blocks), rest)
    | _ => none

/-- Read the body of a block behind its opening brace: on lines of its own, or a single attribute on
    the same line. -/
def readBlock : Nat → List Token → Option (Body × List Token)
  | 0, _ => none
  | fuel + 1, ts =>
    match ts with
    | .name n :: .sign "=" :: rest => do
      let (e, rest) ← Expr.read (Expr.readFuel rest) true rest
      match rest with
      | .sign "\x7d" :: rest => return (.mk [(n, e)] [], rest)
      | _ => none
    | .newline :: rest => read fuel true rest
    | .sign "\x7d" :: rest => some (.mk [] [], rest)
    | _ => none

end

/-- Read the body of a whole file. -/
def ofText? (t : Text) : Option Body := do
  let tokens ← Token.ofText? t
  let (body, _) ← read (4 * tokens.length + 4) false tokens
  return body

/-! ## Shapes -/

/-- Whether a body gives only the attributes and holds only the blocks that it may. -/
def fits (body : Body) (names : List Text) (types : List (Text × Nat)) : Bool :=
  body.attributes.all (fun (n, _) => names.contains n)
    && body.blocks.all fun (type, labels, _) => types.contains (type, labels.length)

/-! ## Attributes

An attribute that is not given leaves its default. -/

/-- The value of an attribute, if it is given; `none` when it has none. -/
def value? (body : Body) (name : Text) : Option (Option Value) :=
  match body.attributes.lookup name with
  | none => some none
  | some e => e.value?.map some

/-- Read an attribute with a function that refuses what it cannot read. -/
def given {α : Type} (body : Body) (name : Text) (default : α) (f : Value → Option α) :
    Option α :=
  match body.value? name with
  | none => none
  | some none => some default
  | some (some v) => f v

/-- A truth value. -/
def bool : Value → Option Bool := fun v =>
  match v.toBool? with
  | some (.bool b) => some b
  | _ => none

/-- A truth value or null. -/
def boolOrNull : Value → Option (Option Bool) := fun v =>
  match v.toBool? with
  | some (.bool b) => some (some b)
  | some (.null _) => some none
  | _ => none

/-- A text. -/
def text : Value → Option Text := fun v =>
  match v.toText? with
  | some (.text t) => some t
  | _ => none

/-- A list of texts; a null is an empty one. -/
def texts : Value → Option (List Text) := fun v =>
  match v.convert? (.list .text) with
  | some (.null _) => some []
  | some (.list _ items) => items.mapM text
  | _ => none

end Body

end ModifierToggle.Hcl
