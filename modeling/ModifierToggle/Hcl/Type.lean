import ModifierToggle.Text.Basic

set_option autoImplicit false

/-! # Types of settings

Every value has a type. Brackets make a tuple and braces an object, whose types tell the type of
each item; a list or a map has items of one type. A value of the type `dynamic` has yet to find its
type.

Two questions are asked about types. Whether a value of one type may be taken for one of another:
some values of the first can then be turned into values of the second. And which type has room for
values of several types: that is the type that a conditional has when its branches have those. -/

namespace ModifierToggle.Hcl

/-- A type. -/
inductive Ty where
  | dynamic
  | bool
  | number
  | text
  | list (item : Ty)
  | map (item : Ty)
  | tuple (items : List Ty)
  /-- The names are distinct, and in increasing order. -/
  | object (attributes : List (Text × Ty))
  deriving Repr, BEq, Inhabited

namespace Ty

mutual

/-- The number of types that a type is made of, itself included. -/
def size : Ty → Nat
  | .list t => size t + 1
  | .map t => size t + 1
  | .tuple ts => sizeAll ts + 1
  | .object ats => sizeAttributes ats + 1
  | _ => 1

/-- The size of several types. -/
def sizeAll : List Ty → Nat
  | [] => 0
  | t :: rest => size t + sizeAll rest

/-- The size of the types of attributes. -/
def sizeAttributes : List (Text × Ty) → Nat
  | [] => 0
  | (_, t) :: rest => size t + sizeAttributes rest

end

mutual

/-- Whether a type or part of it has yet to be found. -/
def isOpen : Ty → Bool
  | .dynamic => true
  | .list t => isOpen t
  | .map t => isOpen t
  | .tuple ts => anyOpen ts
  | .object ats => anyAttributeOpen ats
  | _ => false

/-- Whether one of several types is open. -/
def anyOpen : List Ty → Bool
  | [] => false
  | t :: rest => isOpen t || anyOpen rest

/-- Whether one of the types of attributes is open. -/
def anyAttributeOpen : List (Text × Ty) → Bool
  | [] => false
  | (_, t) :: rest => isOpen t || anyAttributeOpen rest

end

/-! ## Which type to try first -/

/-- The order of two types of which the first or the second has more room at every place. -/
def together (orders : List Ordering) : Ordering :=
  let less := orders.contains .lt
  let greater := orders.contains .gt
  if less && !greater then .lt else if greater && !less then .gt else .eq

/-- Compare two types by the room they have: the one with more is the lesser, and is tried first. -/
def compare : Nat → Ty → Ty → Ordering
  | 0, _, _ => .eq
  | fuel + 1, a, b =>
    match a, b with
    | .dynamic, .dynamic => .eq
    | _, .dynamic => .lt
    | .dynamic, _ => .gt
    | .text, .bool | .text, .number => .lt
    | .bool, .text | .number, .text => .gt
    | .list a, .list b => compare fuel a b
    | .map a, .map b => compare fuel a b
    | .list _, .tuple _ | .map _, .object _ => .lt
    | .tuple _, .list _ | .object _, .map _ => .gt
    | .object as, .object bs =>
      if as.map (·.1) == bs.map (·.1) then
        together ((as.zip bs).map fun (a, b) => compare fuel a.2 b.2)
      else .eq
    | .tuple as, .tuple bs =>
      if as.length == bs.length then together ((as.zip bs).map fun (a, b) => compare fuel a b)
      else .eq
    | _, _ => .eq

/-- One round of ordering: take the first type in the queue, then queue up those that had to wait
    for it alone. `waiting` counts for how many types a type in `rest` has still to wait. -/
def orderFrom (before : Nat → Nat → Bool) : Nat → List Nat → List (Nat × Nat) → List Nat
  | 0, _, _ => []
  | _, [], _ => []
  | fuel + 1, i :: queue, waiting =>
    let waiting := waiting.map fun (j, n) => if before i j then (j, n - 1) else (j, n)
    let ready := waiting.filter fun (j, n) => n == 0 && before i j
    i :: orderFrom before fuel (queue ++ ready.map (·.1)) (waiting.filter fun (_, n) => n != 0)

/-- Types in the order in which they are tried: every type after those with more room. -/
def inOrder (ts : List Ty) : List Ty :=
  let before (i j : Nat) : Bool :=
    match ts[i]?, ts[j]? with
    | some a, some b => compare (size a + size b) a b == .lt
    | _, _ => false
  let places := List.range ts.length
  let waiting := places.map fun j => (j, places.countP fun i => before i j)
  let start := (waiting.filter fun (_, n) => n == 0).map (·.1)
  (orderFrom before ts.length start (waiting.filter fun (_, n) => n != 0)).filterMap (ts[·]?)

/-! ## A type with room for several -/

/-- The kinds of types that are counted before a common type is looked for. -/
structure Census where
  maps : Nat
  lists : Nat
  objects : Nat
  tuples : Nat
  dynamics : Nat

/-- Count types by kind. -/
def census (ts : List Ty) : Census :=
  { maps := ts.countP (· matches .map _)
    lists := ts.countP (· matches .list _)
    objects := ts.countP (· matches .object _)
    tuples := ts.countP (· matches .tuple _)
    dynamics := ts.countP (· matches .dynamic) }

/-- The types of the items of a tuple, or of the attributes of an object. -/
def parts : Ty → List Ty
  | .tuple ts => ts
  | .object ats => ats.map (·.2)
  | _ => []

/-- The type of the items of a list or map. -/
def item : Ty → Ty
  | .list t => t
  | .map t => t
  | _ => .dynamic

/-- The names of the attributes of an object. -/
def names : Ty → List Text
  | .object ats => ats.map (·.1)
  | _ => []

mutual

/-- The type with room for values of all the given types, if there is one. -/
def unify : Nat → List Ty → Option Ty
  | 0, _ => none
  | fuel + 1, ts =>
    let n := ts.length
    let c := census ts
    if n == 0 then none
    else if c.maps != 0 && c.maps + c.dynamics == n then
      if c.dynamics != 0 then some .dynamic else (unify fuel (ts.map item)).map .map
    else if c.maps != 0 && c.maps + c.objects + c.dynamics == n then
      match unifyAs fuel (· matches .object _) .map ts with
      | some (.map t) => some (.map t)
      | _ => unifyGeneral fuel ts
    else if c.lists != 0 && c.lists + c.dynamics == n then
      if c.dynamics != 0 then some .dynamic else (unify fuel (ts.map item)).map .list
    else if c.lists != 0 && c.lists + c.tuples + c.dynamics == n then
      match unifyAs fuel (· matches .tuple _) .list ts with
      | some (.list t) => some (.list t)
      | _ => unifyGeneral fuel ts
    else if c.objects != 0 && c.objects + c.dynamics == n then
      if c.dynamics != 0 then some .dynamic
      else
        let names := names (ts.headD .dynamic)
        if ts.all (·.names == names) then
          (unifyColumns fuel names.length (ts.map parts)).map fun us => .object (names.zip us)
        else unifyToOne fuel .map ts
    else if c.tuples != 0 && c.tuples + c.dynamics == n then
      if c.dynamics != 0 then some .dynamic
      else
        let length := (ts.headD .dynamic).parts.length
        if ts.all (·.parts.length == length) then
          (unifyColumns fuel length (ts.map parts)).map .tuple
        else unifyToOne fuel .list ts
    else if c.objects != 0 && c.tuples != 0 then none
    else unifyGeneral fuel ts

/-- The type of a list or map with room for all the items of several tuples or objects. -/
def unifyToOne : Nat → (Ty → Ty) → List Ty → Option Ty
  | 0, _, _ => none
  | fuel + 1, make, ts =>
    match unify fuel (ts.flatMap parts) with
    | none => none
    | some t =>
      if ts.all fun s => s == make t || converts fuel s (make t) then some (make t) else none

/-- The common type where tuples stand among lists, or objects among maps: those that `is` tells are
    first made a list or map. -/
def unifyAs : Nat → (Ty → Bool) → (Ty → Ty) → List Ty → Option Ty
  | 0, _, _, _ => none
  | fuel + 1, is, make, ts =>
    match unifyToOne fuel make (ts.filter is) with
    | none => none
    | some t => unify fuel (ts.map fun s => if is s then t else s)

/-- The common types of the first, second, ... of several rows of types. -/
def unifyColumns : Nat → Nat → List (List Ty) → Option (List Ty)
  | 0, _, _ => none
  | _ + 1, 0, _ => some []
  | fuel + 1, n + 1, rows =>
    match unify fuel (rows.map (·.headD .dynamic)) with
    | none => none
    | some t => (unifyColumns fuel n (rows.map (·.drop 1))).map (t :: ·)

/-- The first of the types that all the others may be taken for. -/
def unifyGeneral : Nat → List Ty → Option Ty
  | 0, _ => none
  | fuel + 1, ts =>
    (inOrder ts).find? fun want => ts.all fun t => t == want || converts fuel t want

/-- Whether a value of one type may be taken for one of another. -/
def converts : Nat → Ty → Ty → Bool
  | 0, _, _ => false
  | fuel + 1, source, want =>
    let fits (a b : Ty) : Bool := a == b || converts fuel a b
    match source, want with
    | _, .dynamic => true
    | .dynamic, _ => true
    | .bool, .text | .number, .text | .text, .bool | .text, .number => true
    | .object as, .object bs =>
      bs.all fun (name, b) =>
        match as.lookup name with
        | some a => fits a b
        | none => false
    | .tuple as, .tuple bs =>
      as.length == bs.length && (as.zip bs).all fun (a, b) => fits a b
    | .list a, .list b => fits a b
    | .map a, .map b => fits a b
    | .map a, .object bs => bs.all fun (_, b) => fits a b
    | .tuple as, .list b =>
      as.isEmpty ||
        match itemType fuel as b with
        | none => false
        | some u => as.all (fits · u) && (u != .dynamic || as.all (· == .dynamic))
    | .object as, .map b =>
      as.isEmpty ||
        match itemType fuel (as.map (·.2)) b with
        | none => false
        | some u => as.all fun (_, a) => fits a u
    | _, _ => false

/-- The type that items take in a list or map that asks for items of a type: any common type when it
    asks for `dynamic`. -/
def itemType : Nat → List Ty → Ty → Option Ty
  | 0, _, _ => none
  | fuel + 1, ts, want => if want == .dynamic then unify fuel ts else some want

end

/-- The depth of the questions about types. -/
def fuelFor (ts : List Ty) : Nat := 8 * sizeAll ts + 16

/-- The type with room for values of all the given types, if there is one. -/
def common? (ts : List Ty) : Option Ty := unify (fuelFor ts) ts

/-- Whether some values of a type can be turned into values of another. -/
def convertible (source want : Ty) : Bool := converts (fuelFor [source, want]) source want

/-! ## Filling in -/

/-- The type `want` with the parts it leaves open taken from `source`. -/
def filled : Nat → Ty → Ty → Ty
  | 0, _, want => want
  | fuel + 1, source, want =>
    match source, want with
    | .dynamic, want => want
    | source, .dynamic => source
    | .map a, .map b => .map (filled fuel a b)
    | .object as, .map b => .map (filled fuel ((common? (as.map (·.2))).getD .dynamic) b)
    | .list a, .list b => .list (filled fuel a b)
    | .tuple as, .list b => .list (filled fuel ((common? as).getD .dynamic) b)
    | .map a, .object bs => .object (bs.map fun (name, b) => (name, filled fuel a b))
    | .object as, .object bs =>
      .object (bs.map fun (name, b) => (name, ((as.lookup name).map (filled fuel · b)).getD b))
    | .tuple as, .tuple bs => .tuple ((as.zip bs).map fun (a, b) => filled fuel a b)
    | _, want => want

end Ty

end ModifierToggle.Hcl
