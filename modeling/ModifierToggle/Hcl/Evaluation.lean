import ModifierToggle.Hcl.Expression

set_option autoImplicit false

/-! # What expressions of settings stand for

An expression is worked out without any variables or functions but the variables of its own `for`
parts. Faults are collected rather than raised, since a fault in the branch of a conditional that is
not taken does no harm. -/

namespace ModifierToggle.Hcl

/-- The value of an expression, and whether it was found without a fault. -/
structure Finding where
  value : Value
  sound : Bool
  deriving Repr

namespace Finding

/-- No value, for a fault. -/
def fault : Finding := ⟨.undetermined, false⟩

/-- No value but a type, for a fault. -/
def faultOf (t : Ty) : Finding := ⟨.unknown t, false⟩

/-- A value found without a fault, or a fault. -/
def ofOption : Option Value → Finding
  | some v => ⟨v, true⟩
  | none => fault

end Finding

/-- The variables in scope, and the item that a splat is at. -/
structure Scope where
  bindings : List (Text × Value) := []
  item : Value := .undetermined

namespace Scope

/-- The scope of a `for` at one of its items. -/
def enter (s : Scope) (key : Option Text) (item : Text) (entry : Value × Value) : Scope :=
  { s with
    bindings := (item, entry.2) :: (key.map fun k => (k, entry.1)).toList ++ s.bindings }

end Scope

/-! ## Operators -/

/-- Apply an operator to operands of a type, of which a null has no value. What is unknown of them
    leaves the result unknown. -/
def Operator.onType (operand result : Ty) (f : Value → Value → Option Value) (a b : Value) :
    Option Value :=
  match a.convert? operand, b.convert? operand with
  | some a, some b =>
    if a.isNull || b.isNull then none
    else if !a.isKnown || !b.isKnown then some (.unknown result)
    else f a b
  | _, _ => none

/-- Apply an operator to truth values. -/
def Operator.onBools (f : Bool → Bool → Bool) : Value → Value → Option Value :=
  onType .bool .bool fun
    | .bool a, .bool b => some (.bool (f a b))
    | _, _ => none

/-- Apply an operator to numbers. -/
def Operator.onNumbers (f : Number → Number → Option Number) : Value → Value → Option Value :=
  onType .number .number fun
    | .number a, .number b => (f a b).map .number
    | _, _ => none

/-- Compare numbers. -/
def Operator.comparison (f : Number → Number → Bool) : Value → Value → Option Value :=
  onType .number .bool fun
    | .number a, .number b => some (.bool (f a b))
    | _, _ => none

/-- Compare two values. -/
def Operator.onAny (f : Bool → Bool) (a b : Value) : Option Value :=
  match a.same? b with
  | some same => some (.bool (f same))
  | none => some (.unknown .bool)

/-- The value of an operator. -/
def Operator.apply : Operator → Value → Value → Option Value
  | .or => onBools (· || ·)
  | .and => onBools (· && ·)
  | .equal => onAny id
  | .notEqual => onAny not
  | .less => comparison Number.lt
  | .greater => comparison fun a b => b.lt a
  | .lessEqual => comparison fun a b => a.lt b || a == b
  | .greaterEqual => comparison fun a b => b.lt a || a == b
  | .add => onNumbers Number.add?
  | .sub => onNumbers Number.sub?
  | .mul => onNumbers Number.mul?
  | .div => onNumbers Number.div?
  | .mod => onNumbers Number.mod?

/-- The type of the value of an operator. -/
def Operator.result : Operator → Ty
  | .add | .sub | .mul | .div | .mod => .number
  | _ => .bool

/-- The text of a part of a template; a null or a collection has none. -/
def Value.partText? (v : Value) : Option Text :=
  match v.toText? with
  | some (.text t) => some t
  | _ => none

/-- The texts of some values, one behind the other. A part without a text is a fault, except that an
    unknown one only leaves the whole unknown. -/
def Finding.ofParts (vs : List Value) : Finding :=
  let known := vs.filter fun v => !(v matches .unknown _)
  let texts := known.map Value.partText?
  ⟨if known.length == vs.length then .ofText (texts.flatMap (·.getD [])) else .unknown .text,
    texts.all (·.isSome)⟩

/-! ## Conditions -/

/-- What a condition decides, if that is known, and whether it was found without a fault. -/
def Finding.decision (c : Finding) : Option Bool × Bool :=
  if c.value.isNull then (none, false)
  else match c.value.toBool? with
    | some (.bool b) => (some b, c.sound)
    | some _ => (none, c.sound)
    | none => (none, false)

/-- The value of a conditional, given its condition and both branches. -/
def Finding.choose (c yes no : Finding) : Finding :=
  match yes.value.branchType? no.value with
  | none => .fault
  | some type =>
    let taken (v other : Finding) : Finding :=
      let untyped := v.value == .undetermined || other.value == .undetermined
      -- a collection beside a branch of unknown type is of unknown type
      match if untyped then some v.value else v.value.convert? type with
      | some w => ⟨w, c.sound && v.sound⟩
      | none => .faultOf type
    if c.value.isNull then .faultOf type
    else if c.value matches .unknown _ then
      if yes.value.isNull && no.value.isNull then ⟨.null type, c.sound⟩
      else ⟨.unknown type, c.sound⟩
    else match c.decision with
      | (some true, _) => taken yes no
      | (some false, _) => taken no yes
      | _ => .faultOf type

/-! ## Expressions -/

/-- Add a value to those collected under a key. -/
def collect (name : Text) (v : Value) (attributes : List (Text × Value)) : List (Text × Value) :=
  match attributes.lookup name with
  | some (.tuple vs) => Value.setAttribute name (.tuple (vs ++ [v])) attributes
  | _ => Value.setAttribute name (.tuple [v]) attributes

/-- An attribute of a `for` object: its name and value. The name is missing when it is unknown; no
    attribute at all is made when the condition does not hold. -/
structure Made where
  named : Option (Text × Value)
  skipped : Bool
  sound : Bool

/-- The attribute that comes of a condition, a name and a value. -/
def Made.of (c k v : Finding) : Made :=
  match c.decision with
  | (none, sound) => ⟨none, false, sound⟩
  | (some false, sound) => ⟨none, true, sound⟩
  | (some true, sound) =>
    if k.value.isNull then ⟨none, false, false⟩
    else match k.value.toText? with
      | some (.text n) => ⟨some (n, v.value), false, sound && k.sound && v.sound⟩
      | some _ => ⟨none, false, sound && k.sound⟩
      | none => ⟨none, false, false⟩

/-- The object made of attributes. With `group` the values of a repeated name are collected, without
    it a name may be made only once. -/
def Made.object (group : Bool) (made : List Made) : Finding :=
  let attributes := made.filterMap (·.named)
  let names := attributes.map (·.1)
  let distinct := names.eraseDups.length == names.length
  let object := attributes.foldl (fun attributes (n, v) =>
    if group then collect n v attributes
    else if (attributes.lookup n).isSome then attributes
    else Value.setAttribute n v attributes) []
  let known := made.all fun m => m.skipped || m.named.isSome
  ⟨if known then .object object else .undetermined,
    made.all (·.sound) && (group || distinct)⟩

/-- What a source of items gives instead of items, if it has none to give. -/
def Finding.noItems? (source : Finding) : Option Finding :=
  match source.value with
  | .null _ => some .fault
  | .unknown (.bool) | .unknown (.number) | .unknown (.text) => some .fault
  | .unknown _ => some ⟨.undetermined, source.sound⟩
  | v => if v.entries?.isNone then some .fault else none

namespace Expr

mutual

/-- The value of an expression. -/
def eval (s : Scope) : Expr → Finding
  | .literal v => ⟨v, true⟩
  | .name n => .ofOption (s.bindings.lookup n)
  | .parenthesized e => eval s e
  | .current => ⟨s.item, true⟩
  | .call _ => .fault
  | .ambiguous => .fault
  | .select e n =>
    let source := eval s e
    let found := Finding.ofOption (source.value.select? n.composed)
    ⟨found.value, source.sound && found.sound⟩
  | .index e key =>
    let source := eval s e
    let key := eval s key
    let found := Finding.ofOption (source.value.item? key.value)
    ⟨found.value, source.sound && key.sound && found.sound⟩
  | .splat e each =>
    let source := eval s e
    let collect (make : List Value → Value) (items : List Value) : Finding :=
      let found := items.map fun v => eval { s with item := v } each
      ⟨make (found.map (·.value)), found.all (·.sound)⟩
    if !source.sound then .fault
    else match source.value with
      | .null (.tuple _) | .null (.list _) => .fault
      | .null _ => ⟨.tuple [], true⟩
      | .unknown .dynamic => ⟨.undetermined, true⟩
      | .unknown (.tuple ts) =>
        let found := ts.map fun t => eval { s with item := .unknown t } each
        ⟨.unknown (.tuple (found.map (·.value.type))), found.all (·.sound)⟩
      | .unknown (.list t) =>
        let found := eval { s with item := .unknown t } each
        ⟨.unknown (.list found.value.type), found.sound⟩
      | .unknown t => ⟨.undetermined, (eval { s with item := .unknown t } each).sound⟩
      | .tuple items => collect .tuple items
      | .list t items =>
        -- without items, only the type of what they would become is looked for
        let found := eval { s with item := .unknown t } each
        if items.isEmpty then ⟨.list found.value.type [], found.sound⟩
        else collect (fun vs => .list ((vs.head?.map (·.type)).getD found.value.type) vs) items
      | v => collect .tuple [v]
  | .tuple items =>
    let found := evalAll s items
    ⟨.tuple (found.map (·.value)), found.all (·.sound)⟩
  | .object keys values =>
    let keys := evalAll s keys
    let values := evalAll s values
    let made := (keys.zip values).map fun (k, v) => Made.of ⟨.bool true, true⟩ k v
    let attributes := (made.filterMap (·.named)).foldl (fun attributes (n, v) =>
      Value.setAttribute n v attributes) []
    let known := keys.all (·.sound) && made.all (·.named.isSome)
    ⟨if known then .object attributes else .undetermined,
      made.all (·.sound) && values.all (·.sound)⟩
  | .forTuple key item e value condition =>
    let source := eval s e
    match source.noItems? with
    | some found => found
    | none =>
      -- the condition has to make sense before there is an item
      let early := (eval (s.enter key item (.undetermined, .undetermined)) condition).decision
      if !early.2 then .fault
      else
        let found := (source.value.entries?.getD []).map fun entry =>
          let s := s.enter key item entry
          ((eval s condition).decision, eval s value)
        let taken := found.filter fun (c, _) => c.1 == some true
        let known := found.all fun (c, _) => c.1.isSome
        ⟨if known then .tuple (taken.map (·.2.value)) else .undetermined,
          source.sound && found.all (·.1.2) && taken.all (·.2.sound)⟩
  | .forObject key item e keyExpr value condition group =>
    let source := eval s e
    match source.noItems? with
    | some found => found
    | none =>
      let early := (eval (s.enter key item (.undetermined, .undetermined)) condition).decision
      if !early.2 then .fault
      else
        let made := (source.value.entries?.getD []).map fun entry =>
          let s := s.enter key item entry
          Made.of (eval s condition) (eval s keyExpr) (eval s value)
        let object := Made.object group made
        ⟨object.value, source.sound && object.sound⟩
  | .conditional condition yes no =>
    Finding.choose (eval s condition) (eval s yes) (eval s no)
  | .binary op left right =>
    let a := eval s left
    let b := eval s right
    match op.apply a.value b.value with
    | some v => if a.sound && b.sound then ⟨v, true⟩ else .faultOf op.result
    | none => .faultOf op.result
  | .negate e =>
    let a := eval s e
    match a.value.toNumber? with
    | some (.number n) => ⟨.number n.neg, a.sound⟩
    | some (.unknown _) => ⟨.unknown .number, a.sound⟩
    | _ => .faultOf .number
  | .not e =>
    let a := eval s e
    match a.value.toBool? with
    | some (.bool b) => ⟨.bool !b, a.sound⟩
    | some (.unknown _) => ⟨.unknown .bool, a.sound⟩
    | _ => .faultOf .bool
  | .template parts =>
    let found := evalAll s parts
    let text := Finding.ofParts (found.map (·.value))
    ⟨text.value, text.sound && found.all (·.sound)⟩
  | .join e =>
    let a := eval s e
    match a.value with
    | .tuple items =>
      let text := Finding.ofParts items
      ⟨text.value, a.sound && text.sound⟩
    | _ => ⟨.unknown .text, a.sound⟩

/-- The values of several expressions. -/
def evalAll (s : Scope) : List Expr → List Finding
  | [] => []
  | e :: rest => eval s e :: evalAll s rest

end

/-- The value of an expression that has one. -/
def value? (e : Expr) : Option Value :=
  let found := e.eval {}
  if found.sound then some found.value else none

end Expr

end ModifierToggle.Hcl
