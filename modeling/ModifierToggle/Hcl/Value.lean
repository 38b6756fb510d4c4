import ModifierToggle.Hcl.Number
import ModifierToggle.Hcl.Type
import ModifierToggle.Text.Composition

set_option autoImplicit false

/-! # Values of settings

What an expression of a settings file stands for. Where a text is asked for, a truth value or a
number will do, and where a truth value or a number is asked for, a text that spells one will do.
The value of an expression that makes no sense is unknown, and mostly of unknown type too: it fits
everywhere, so that one fault is not reported as many. -/

namespace ModifierToggle.Hcl

/-- A value. -/
inductive Value where
  | unknown (type : Ty)
  | null (type : Ty)
  | bool (b : Bool)
  | number (n : Number)
  | text (t : Text)
  | list (type : Ty) (items : List Value)
  /-- Entries with distinct names, in increasing order of the names. -/
  | map (type : Ty) (entries : List (Text × Value))
  | tuple (items : List Value)
  /-- Attributes with distinct names, in increasing order of the names. -/
  | object (attributes : List (Text × Value))
  deriving Repr, BEq

namespace Value

/-- A value of which nothing is known. -/
def undetermined : Value := .unknown .dynamic

/-- A text as a value. Texts are kept in composed form. -/
def ofText (t : Text) : Value := .text t.composed

mutual

/-- The type of a value. -/
def type : Value → Ty
  | .unknown t => t
  | .null t => t
  | .bool _ => .bool
  | .number _ => .number
  | .text _ => .text
  | .list t _ => .list t
  | .map t _ => .map t
  | .tuple items => .tuple (types items)
  | .object attributes => .object (attributeTypes attributes)

/-- The types of several values. -/
def types : List Value → List Ty
  | [] => []
  | v :: rest => type v :: types rest

/-- The types of attributes. -/
def attributeTypes : List (Text × Value) → List (Text × Ty)
  | [] => []
  | (name, v) :: rest => (name, type v) :: attributeTypes rest

end

mutual

/-- Whether all of a value is known. -/
def isKnown : Value → Bool
  | .unknown _ => false
  | .list _ items => areKnown items
  | .map _ entries => attributesAreKnown entries
  | .tuple items => areKnown items
  | .object attributes => attributesAreKnown attributes
  | _ => true

/-- Whether all of several values are known. -/
def areKnown : List Value → Bool
  | [] => true
  | v :: rest => isKnown v && areKnown rest

/-- Whether all of the values of attributes are known. -/
def attributesAreKnown : List (Text × Value) → Bool
  | [] => true
  | (_, v) :: rest => isKnown v && attributesAreKnown rest

end

/-- Whether a value is null, of whatever type. -/
def isNull : Value → Bool
  | .null _ => true
  | _ => false

/-- Set an attribute, in place of an earlier one with the same name. -/
def setAttribute (name : Text) (v : Value) : List (Text × Value) → List (Text × Value)
  | [] => [(name, v)]
  | (n, w) :: rest =>
    if n == name then (name, v) :: rest
    else if name < n then (name, v) :: (n, w) :: rest
    else (n, w) :: setAttribute name v rest

/-! ## Turning a value into one of another type -/

/-- A truth value, number or text as one of the others. -/
def simplyAs? (want : Ty) (v : Value) : Option Value :=
  match v, want with
  | .bool b, .text => some (.text (utf8 (if b then "true" else "false")))
  | .number n, .text => some (.text n.render)
  | .text t, .number => (Number.ofText? t).map .number
  | .text t, .bool =>
    if t == utf8 "true" || t == utf8 "1" then some (.bool true)
    else if t == utf8 "false" || t == utf8 "0" then some (.bool false)
    else none
  | _, _ => none

/-- The value as one of another type, if it can be turned into one. The types of items are tried
    `fuel` levels deep. -/
def convertWith : Nat → Ty → Value → Option Value
  | 0, _, _ => none
  | fuel + 1, want, v =>
    let source := v.type
    let all (t : Ty) (vs : List Value) : Option (List Value) := vs.mapM (convertWith fuel t)
    -- the items have the type asked for, up to what that leaves open
    let level (vs : List Value) : Option (Ty × List Value) :=
      match Ty.common? (types vs) with
      | none => none
      | some t => (all t vs).map fun vs => (t, vs)
    let itemType (ts : List Ty) (t : Ty) : Option Ty :=
      if t == .dynamic then Ty.common? ts else some t
    if source == want then some v
    else if !source.convertible want then none
    else match v, want with
      | v, .dynamic => some v
      | .unknown t, want => some (.unknown (Ty.filled want.size t want))
      | .null t, want => some (.null (Ty.filled want.size t want))
      | .tuple items, .tuple ts =>
        ((items.zip ts).mapM fun (v, t) => convertWith fuel t v).map .tuple
      | .tuple [], .list t => some (.list t [])
      | .tuple items, .list t =>
        (itemType (types items) t).bind fun t =>
          ((all t items).bind level).map fun (t, vs) => .list t vs
      | .list _ [], .list t => some (.list t [])
      | .list _ items, .list t => ((all t items).bind level).map fun (t, vs) => .list t vs
      | .object [], .map t => some (.map t [])
      | .object attributes, .map t =>
        (itemType (attributes.map (·.2.type)) t).bind fun t =>
          ((all t (attributes.map (·.2))).bind level).map fun (t, vs) =>
            .map t ((attributes.map (·.1)).zip vs)
      | .map _ [], .map t => some (.map t [])
      | .map _ entries, .map t =>
        ((all t (entries.map (·.2))).bind level).map fun (t, vs) =>
          .map t ((entries.map (·.1)).zip vs)
      | .map _ entries, .object ats =>
        (ats.mapM fun (name, t) =>
          ((entries.lookup name).bind (convertWith fuel t)).map fun v => (name, v)).map .object
      | .object attributes, .object ats =>
        (ats.mapM fun (name, t) =>
          ((attributes.lookup name).bind (convertWith fuel t)).map fun v => (name, v)).map .object
      | v, want => simplyAs? want v

/-- The value as one of another type, if it can be turned into one. -/
def convert? (want : Ty) (v : Value) : Option Value :=
  convertWith (v.type.size + want.size + 1) want v

/-- The value as a truth value. A null stays one. -/
def toBool? (v : Value) : Option Value := v.convert? .bool

/-- The value as a number. A null stays one. -/
def toNumber? (v : Value) : Option Value := v.convert? .number

/-- The value as a text. A null stays one. -/
def toText? (v : Value) : Option Value := v.convert? .text

/-- The type of a conditional with two values as its branches. A branch of which nothing is known
    leaves it open, and a null takes the type of the other branch. -/
def branchType? (yes no : Value) : Option Ty :=
  if yes == undetermined || no == undetermined then some .dynamic
  else if yes == .null .dynamic then some no.type
  else if no == .null .dynamic then some yes.type
  else Ty.common? [yes.type, no.type]

/-! ## Comparing -/

mutual

/-- Whether the type of a value has been found, apart from the types of nulls. -/
def isTyped : Value → Bool
  | .unknown t => !t.isOpen
  | .list _ items => areTyped items
  | .map _ entries => attributesAreTyped entries
  | .tuple items => areTyped items
  | .object attributes => attributesAreTyped attributes
  | _ => true

/-- Whether the types of several values have been found. -/
def areTyped : List Value → Bool
  | [] => true
  | v :: rest => isTyped v && areTyped rest

/-- Whether the types of the values of attributes have been found. -/
def attributesAreTyped : List (Text × Value) → Bool
  | [] => true
  | (_, v) :: rest => isTyped v && attributesAreTyped rest

end

/-- Whether a known value is the same as an unknown one of a type: never, if it is of another. -/
def sameAsUnknown? (t : Ty) (v : Value) : Option Bool :=
  if v.isNull || t.isOpen || v.type == t then none else some false

/-- The first of several answers that is not that two values are the same. -/
def firstDifference : List (Option Bool) → Option Bool
  | [] => some true
  | some true :: rest => firstDifference rest
  | r :: _ => r

/-- Whether two values are the same, looking `fuel` levels deep. -/
def sameWith : Nat → Value → Value → Option Bool
  | 0, _, _ => none
  | fuel + 1, v, w =>
    let allSame (as bs : List Value) : Option Bool :=
      firstDifference ((as.zip bs).map fun (a, b) => sameWith fuel a b)
    match v, w with
    | .unknown _, .unknown _ => none
    | .unknown t, w => sameAsUnknown? t w
    | v, .unknown t => sameAsUnknown? t v
    | .null _, w => some w.isNull
    | _, .null _ => some false
    | v, w =>
      if !v.isTyped || !w.isTyped then none
      else if v.type != w.type then some false
      else match v, w with
        | .tuple as, .tuple bs => allSame as bs
        | .object as, .object bs => allSame (as.map (·.2)) (bs.map (·.2))
        | .list _ as, .list _ bs => if as.length == bs.length then allSame as bs else some false
        | .map _ as, .map _ bs =>
          if as.map (·.1) == bs.map (·.1) then allSame (as.map (·.2)) (bs.map (·.2))
          else some false
        | v, w => some (v == w)

/-- Whether two values are the same, when that is known. Nulls of all types are the same, and other
    values of different types never are. -/
def same? (v w : Value) : Option Bool := sameWith (v.type.size + 1) v w

/-! ## Items -/

/-- The value of an attribute. -/
def select? (name : Text) : Value → Option Value
  | .object attributes => attributes.lookup name
  | .map _ entries => entries.lookup name
  | .unknown .dynamic => some undetermined
  | .unknown (.map t) => some (.unknown t)
  | .unknown (.object ats) => (ats.lookup name).map .unknown
  | _ => none

/-- The item at the place that a key names. -/
def at? (items : List Value) (key : Value) : Option Value :=
  match key.toNumber? with
  | some (.number n) => n.toPlace?.bind (items[·]?)
  | _ => none

/-- The item under the name that a key gives. -/
def under? (entries : List (Text × Value)) (key : Value) : Option Value :=
  match key.toText? with
  | some (.text name) => entries.lookup name
  | _ => none

/-- The item of a list or tuple, or the entry of a map or object, that a key names. -/
def item? (v key : Value) : Option Value :=
  if v.isNull || key.isNull then none
  else if v.type == .dynamic || key.type == .dynamic then some undetermined
  else
    let asked (want : Ty) (answer : Value) (known : Value → Option Value) : Option Value :=
      match key.convert? want with
      | none => none
      | some (.unknown _) => some answer
      | some key => known key
    match v with
    | .tuple items => asked .number undetermined (at? items)
    | .list t items => asked .number (.unknown t) (at? items)
    | .map t entries => asked .text (.unknown t) (under? entries)
    | .object attributes => asked .text undetermined (under? attributes)
    | .unknown (.tuple ts) => asked .number undetermined (at? (ts.map .unknown))
    | .unknown (.list t) => asked .number (.unknown t) fun _ => some (.unknown t)
    | .unknown (.map t) => asked .text (.unknown t) fun _ => some (.unknown t)
    | .unknown (.object _) => asked .text undetermined fun _ => some undetermined
    | _ => none

/-- The keys and items a value is made of, when it is made of any. -/
def entries? : Value → Option (List (Value × Value))
  | .tuple items => some ((items.zipIdx).map fun (v, i) => (.number (Number.ofPlace i), v))
  | .list _ items => some ((items.zipIdx).map fun (v, i) => (.number (Number.ofPlace i), v))
  | .object attributes => some (attributes.map fun (name, v) => (.text name, v))
  | .map _ entries => some (entries.map fun (name, v) => (.text name, v))
  | _ => none

end Value

end ModifierToggle.Hcl
