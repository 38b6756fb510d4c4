import ModifierToggle.Yaml.Plain

set_option autoImplicit false

/-! # Reading records from YAML

A `Reader` gets a value of a type from a node. It may find nothing: a null leaves whatever is to be
read at its default, and drops out of a list of texts or numbers. A record is read from a mapping
whose keys are all names of its fields, each given once. A merge key adds the entries of other
mappings for fields the mapping itself does not give.

A node of the wrong kind is a fault: reading goes on, but the document is refused in the end. Other
things end the reading at once: a scalar that is not written like its tag, a reference inside what
it stands for, a merge of something that is no mapping, and a document that is made of references
for the most part. A few documents break the reading down. -/

namespace ModifierToggle.Yaml

/-- Why a document cannot be read. -/
inductive Failure where
  /-- It is not what is asked for. -/
  | refused
  /-- Reading it breaks down: a merge meets a key that is a collection, or has nowhere to put a
      field. -/
  | breakdown
  deriving Repr, DecidableEq

/-- What has been read so far. -/
structure Tally where
  /-- The number of nodes visited. -/
  visits : Nat := 0
  /-- How many of them were visited on behalf of a reference. -/
  referred : Nat := 0
  faulty : Bool := false

/-- Whether too many of the nodes visited are there because of references. Up to 400 000 nodes, 99
    in a hundred may be; the share goes down evenly to ten in a hundred at 4 000 000 nodes. -/
def Tally.isExcessive (t : Tally) : Bool :=
  100 < t.referred && 1000 < t.visits &&
    (if t.visits ≤ 400000 then decide (99 * t.visits < 100 * t.referred)
    else if 4000000 ≤ t.visits then decide (t.visits < 10 * t.referred)
    else
      decide (t.visits * (99 * 3600000 - 89 * (t.visits - 400000)) < 360000000 * t.referred))

/-- A reading of a document in progress. -/
abbrev Reading := StateT Tally (Except Failure)

/-- Where a reading is: in which document, and inside which references. -/
structure Site where
  tree : Tree
  inside : List Nat := []

/-- A way to read a node that is no reference; `none` when there is no value. -/
abbrev Reader (α : Type) := Site → Node → Reading (Option α)

namespace Reading

/-- Note a fault. -/
def note : Reading Unit := modify fun t => { t with faulty := true }

/-- Find no value in a node of the wrong kind. -/
def fault {α : Type} : Reading (Option α) := do
  note
  return none

/-- Count a visit. -/
def visit (p : Site) : Reading Unit := do
  let t ← get
  let t := { t with
    visits := t.visits + 1
    referred := if p.inside.isEmpty then t.referred else t.referred + 1 }
  set t
  if t.isExcessive then throw .refused

/-- Visit a node, or the one that a reference stands for. -/
def follow {α : Type} (read : Site → Node → Reading α) (p : Site) (n : Node) :
    Reading α := do
  visit p
  match n with
  | .reference _ number target =>
    if p.inside.contains number then throw .refused
    match p.tree.anchored.lookup target with
    | none => throw .refused
    | some n =>
      let p := { p with inside := number :: p.inside }
      visit p
      read p n
  | n => read p n

/-- The value of a scalar, and its text. -/
def scalar (tag : Text) (plain : Bool) (t : Text) : Reading (Value × Text) :=
  match Node.scalarValue? tag plain t with
  | some v => return v
  | none => throw .refused

end Reading

open Reading

/-! ## Readers -/

namespace Reader

/-- Read a text: any scalar, as it is written. -/
def text : Reader Text := fun _ n =>
  match n with
  | .scalar tag plain t => do
    let (v, t) ← scalar tag plain t
    return if v = .null then none else some t
  | _ => fault

/-- Read an integer that fits a signed 64 bit word. The fraction of a number is cut off. -/
def int : Reader Int := fun _ n =>
  match n with
  | .scalar tag plain t => do
    match (← scalar tag plain t).1 with
    | .null => return none
    | .int n => if Decimal.inWord n then return some n else fault
    | .float (some n) => return some n
    | _ => fault
  | _ => fault

/-- The words of an older version of the format that stand for a truth value. -/
def truthWords : List (String × Bool) :=
  [("y", true), ("Y", true), ("yes", true), ("Yes", true), ("YES", true), ("on", true),
   ("On", true), ("ON", true), ("n", false), ("N", false), ("no", false), ("No", false),
   ("NO", false), ("off", false), ("Off", false), ("OFF", false)]

/-- Read a truth value; the words of an older version of the format count. -/
def bool : Reader Bool := fun _ n =>
  match n with
  | .scalar tag plain t => do
    match (← scalar tag plain t).1 with
    | .null => return none
    | .bool b => return some b
    | .text t =>
      match truthWords.find? (utf8 ·.1 == t) with
      | some (_, b) => return some b
      | none => fault
    | _ => fault
  | _ => fault

/-- Read what may be left open: a null is a value of its own. A collection with the tag of a null is
    a fault. -/
def orNull {α : Type} (r : Reader α) : Reader (Option α) := fun p n => do
  match n with
  | .scalar tag plain t =>
    if (← scalar tag plain t).1 = .null then return some none
  | .sequence tag _ | .mapping tag _ =>
    if Value.shortTag tag == utf8 "!!null" then return (← fault)
  | .reference .. => pure ()
  return (← r p n).map some

/-- Read a list, without the items that come to nothing. A null is an empty list. -/
def list {α : Type} (r : Reader α) : Reader (List α) := fun p n =>
  match n with
  | .sequence _ items => do
    let found ← items.mapM (follow r p)
    return some (found.filterMap id)
  | .scalar tag plain t => do
    if (← scalar tag plain t).1 = .null then return some [] else fault
  | _ => fault

end Reader

/-! ## Keys -/

namespace Node

/-- What is compared when a mapping is searched for equal keys: the kind of the key and its text. -/
def keyIdentity : Node → Nat × Text
  | .scalar _ _ t => (0, t)
  | .sequence .. => (1, [])
  | .mapping .. => (2, [])
  | .reference name .. => (3, name)

/-- Whether a key asks for a merge. -/
def isMergeKey : Node → Bool
  | .scalar tag plain t =>
    t == utf8 "<<" && ((tag.isEmpty && plain) || tag == utf8 "!" && plain
      || Value.shortTag tag == utf8 "!!merge")
  | _ => false

/-- Whether no two keys of a mapping are equal. -/
def distinctKeys : List (Node × Node) → Bool
  | [] => true
  | (k, _) :: rest =>
    !rest.any (fun (other, _) => other.keyIdentity == k.keyIdentity) && distinctKeys rest

/-- The value of the merge key of a mapping. -/
def mergeSource? (entries : List (Node × Node)) : Option Node :=
  (entries.find? (·.1.isMergeKey)).map (·.2)

/-- Whether a node, or the one that a reference stands for, is a mapping. -/
def isMapping (tree : Tree) : Node → Bool
  | .mapping .. => true
  | .reference _ _ target => (tree.anchored.lookup target).any (· matches .mapping _ _)
  | _ => false

end Node

/-- Merge what the value of a merge key stands for: one mapping, or a list of them, which may not be
    a reference itself. `one` merges one mapping. -/
def mergeAll {σ : Type} (one : σ → Site → Node → Reading σ) (p : Site) (source : Node)
    (start : σ) : Reading σ :=
  let checked (s : σ) (n : Node) : Reading σ :=
    if n.isMapping p.tree then follow (one s) p n else throw .refused
  match source with
  | .sequence _ items => items.foldlM checked start
  | n => checked start n

/-! ## Values of any type -/

/-- A value of any type; collections are not told apart. -/
inductive Anything where
  | scalar (v : Value)
  | collection
  deriving Repr, DecidableEq

namespace Anything

/-- The value as a key that others are compared with. A collection can be none. -/
def key : Anything → Reading Value
  | .scalar v => return v
  | .collection => throw .breakdown

/-- The keys of a mapping that merges others. `read` reads a key. -/
def keys (read : Reader Anything) (p : Site) : List (Node × Node) → Reading (List Value)
  | [] => return []
  | (k, _) :: rest => do
    let own ← match ← follow read p k with
      | some v => pure [← v.key]
      | none => pure []
    return own ++ (← keys read p rest)

/-- Read the entries of a mapping. With `given`, the mapping is merged into another one: keys in the
    list are passed over, and the list grows by the others. -/
def entries (read : Reader Anything) (p : Site) :
    Option (List Value) → List (Node × Node) → Reading (Option (List Value))
  | given, [] => return given
  | given, (k, v) :: rest => do
    if k.isMergeKey then entries read p given rest
    else match ← follow read p k with
      | none => entries read p given rest
      | some key =>
        match given with
        | some known =>
          let value ← key.key
          if known.contains value then entries read p given rest
          else
            let _ ← follow read p v
            entries read p (some (value :: known)) rest
        | none =>
          if key = .collection then throw .refused
          let _ ← follow read p v
          entries read p given rest

/-- Read a mapping, with what it merges; `none` when it is given a key twice. -/
def mapping (read : Reader Anything) :
    Nat → Option (List Value) → Site → List (Node × Node) →
      Reading (Option (Option (List Value)))
  | 0, _, _, _ => throw .refused
  | fuel + 1, given, p, es => do
    if !Node.distinctKeys es then return (← fault)
    let given ← entries read p given es
    match Node.mergeSource? es with
    | none => return some given
    | some source =>
      let known ← match given with
        | some known => pure known
        | none => keys read p es
      let known ← mergeAll (fun known p n =>
        match n with
        | .mapping _ es => do return ((← mapping read fuel (some known) p es).getD known).getD known
        | _ => throw .refused) p source known
      return some (given.map fun _ => known)

/-- Read a node of any type. -/
def read : Nat → Reader Anything
  | 0, _, _ => throw .refused
  | fuel + 1, p, n => do
    match n with
    | .scalar tag plain t => return some (.scalar (← Reading.scalar tag plain t).1)
    | .sequence _ items =>
      let _ ← items.mapM (follow (read fuel) p)
      return some .collection
    | .mapping _ es => return (← mapping (read fuel) fuel none p es).map fun _ => .collection
    | .reference .. => throw .refused

end Anything

/-! ## Records -/

/-- How a record of a type is read. -/
structure Shape (ρ : Type) where
  /-- The names of the fields. -/
  fields : List Text
  /-- The fields that belong to a part of the record. -/
  ofPart : List Text := []
  default : ρ
  /-- Read a field and set it. -/
  set : Site → ρ → Text → Node → Reading ρ

namespace Shape

variable {ρ : Type}

/-- A bound on how deep the collections of a document go, references followed: one is entered only
    once on the way. -/
def depth (p : Site) : Nat := (p.tree.size + 1) * (p.tree.size + 1)

/-- Read the fields that a mapping with a tag gives itself; `done` are the fields it has given. With
    `given`, it is merged into another one: the names in the list are passed over, and the list
    grows by the others. -/
def ownFields (s : Shape ρ) (p : Site) (tag : Text) (done : List Text) :
    Option (List Text) → List (Node × Node) → ρ → Reading (ρ × Option (List Text))
  | given, [], r => return (r, given)
  | given, (k, v) :: rest, r => do
    if k.isMergeKey then ownFields s p tag done given rest r
    else match ← follow Reader.text p k with
      | none => ownFields s p tag done given rest r
      | some name =>
        if (given.getD []).contains name then ownFields s p tag done given rest r
        else
          let given := given.map (name :: ·)
          if !s.fields.contains name || done.contains name then
            note
            ownFields s p tag done given rest r
          else if s.ofPart.contains name && Value.shortTag tag == utf8 "!!null" then
            visit p
            throw .breakdown
          else
            let r ← s.set p r name v
            ownFields s p tag (name :: done) given rest r

/-- Read the fields of a mapping, its own and those it merges. -/
def allFields (s : Shape ρ) : Nat → Site → Option (List Text) → Text → List (Node × Node) → ρ →
    Reading (ρ × Option (List Text))
  | 0, _, _, _, _, _ => throw .refused
  | fuel + 1, p, given, tag, entries, r => do
    if !Node.distinctKeys entries then
      note
      return (r, given)
    let (r, given) ← s.ownFields p tag [] given entries r
    match Node.mergeSource? entries with
    | none => return (r, given)
    | some source =>
      let known ← match given with
        | some known => pure known
        | none => do
          let keys ← Anything.keys (Anything.read (depth p)) p entries
          pure (keys.filterMap fun
            | .text t => some t
            | _ => none)
      let (r, known) ← mergeAll (fun (r, known) p n =>
        match n with
        | .mapping tag entries => do
          let (r, given) ← s.allFields fuel p (some known) tag entries r
          return (r, given.getD known)
        | _ => throw .refused) p source (r, known)
      return (r, given.map fun _ => known)

end Shape

namespace Reader

/-- Read a record: start with the default, and set one field after the other. A null leaves the
    record to its default. -/
def record {ρ : Type} (s : Shape ρ) : Reader ρ := fun p n =>
  match n with
  | .mapping tag entries => do
    let (r, _) ← s.allFields (Shape.depth p) p none tag entries s.default
    return some r
  | .scalar tag plain t => do
    if (← scalar tag plain t).1 = .null then return none else fault
  | _ => fault

/-- Set a field to what a reader finds, and leave it when that is nothing. -/
def field {α ρ : Type} (r : Reader α) (p : Site) (n : Node) (record : ρ) (put : α → ρ) :
    Reading ρ := do
  match ← follow r p n with
  | some v => return put v
  | none => return record

end Reader

namespace Shape

/-- Read a record from the first document of a text; an empty text holds none. -/
def ofText {ρ : Type} (s : Shape ρ) (t : Text) : Except Failure ρ :=
  match Tree.ofText? t with
  | some (some tree) => do
    let p : Site := { tree }
    let reading : Reading (Option ρ) := do
      visit p
      follow (Reader.record s) p tree.root
    let (found, tally) ← reading.run {}
    if tally.faulty then throw .refused else return found.getD s.default
  | _ => .error .refused

end Shape

end ModifierToggle.Yaml
