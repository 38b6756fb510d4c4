import ModifierToggle.Yaml.Token

set_option autoImplicit false

/-! # YAML nodes

A document is a tree of scalars, sequences and mappings. A reference to an anchor is kept as a node
of its own that tells the number of the node it stands for: a node may refer to itself, so that node
need not be complete yet. Only the first document of a stream is read, and nothing after it is
looked at.

Reading a node calls for tokens in turn; its functions run on a fuel that the number of tokens
bounds. -/

namespace ModifierToggle.Yaml

/-- A node of a document. The tag is empty when none is written. -/
inductive Node where
  | scalar (tag : Text) (plain : Bool) (value : Text)
  | sequence (tag : Text) (items : List Node)
  | mapping (tag : Text) (entries : List (Node × Node))
  /-- A reference: the name of the anchor, a number of its own, and the number of the node it stands
      for. -/
  | reference (name : Text) (number target : Nat)
  deriving Repr, Inhabited

/-- A document: its root, the nodes that have an anchor with their numbers, and the number of tokens
    it is made of. -/
structure Tree where
  root : Node
  anchored : List (Nat × Node)
  size : Nat

namespace Node

/-- The scalar that stands where nothing is written. -/
def empty : Node := .scalar [] true []

/-- What a document has declared: the expansions of its tag handles, the numbers of its anchors, and
    the anchored nodes that are complete. -/
structure Scope where
  handles : List (Text × Text) := []
  anchors : List (Text × Nat) := []
  anchored : List (Nat × Node) := []
  /-- The number for the next anchor or reference. -/
  fresh : Nat := 0

namespace Scope

/-- The handles every document knows. -/
def builtIn : List (Text × Text) :=
  [(utf8 "!", utf8 "!"), (utf8 "!!", utf8 "tag:yaml.org,2002:")]

/-- The full form of a tag. -/
def expand? (sc : Scope) (handle suffix : Text) : Option Text :=
  if handle.isEmpty then some suffix
  else ((sc.handles ++ builtIn).find? (·.1 == handle)).map (·.2 ++ suffix)

/-- Declare an anchor, if there is one. -/
def declare (sc : Scope) : Option Text → Scope
  | some name => { sc with anchors := (name, sc.fresh) :: sc.anchors, fresh := sc.fresh + 1 }
  | none => sc

/-- A reference to an anchor, once that is declared. -/
def refer? (sc : Scope) (name : Text) : Option (Node × Scope) :=
  (sc.anchors.find? (·.1 == name)).map fun (_, target) =>
    (.reference name sc.fresh target, { sc with fresh := sc.fresh + 1 })

/-- Complete the node with a number, if it has an anchor. -/
def complete (sc : Scope) (anchor : Option Text) (number : Nat) (n : Node) : Scope :=
  if anchor.isSome then { sc with anchored := (number, n) :: sc.anchored } else sc

end Scope

/-- A node, with the tokens after it and what is declared by then. -/
abbrev Parsed (α : Type) := Option (α × List Token × Scope)

/-- The anchor and the tag in front of a node, in either order. -/
def properties (sc : Scope) (ts : List Token) : Option (Option Text × Text × List Token) :=
  match ts with
  | .anchor a :: .tag h s :: rest => (sc.expand? h s).map fun t => (some a, t, rest)
  | .anchor a :: rest => some (some a, [], rest)
  | .tag h s :: .anchor a :: rest => (sc.expand? h s).map fun t => (some a, t, rest)
  | .tag h s :: rest => (sc.expand? h s).map fun t => (none, t, rest)
  | ts => some (none, [], ts)

mutual

/-- Read a node. Block collections are allowed when `block` holds, a sequence that is not indented
    when `flush` holds. -/
def read (block flush : Bool) : Nat → Scope → List Token → Parsed Node
  | 0, _, _ => none
  | fuel + 1, sc, ts =>
    match ts with
    | .reference name :: rest => (sc.refer? name).map fun (n, sc) => (n, rest, sc)
    | _ =>
      match properties sc ts with
      | none => none
      | some (anchor, tag, ts) =>
        let bare := anchor.isNone && tag.isEmpty
        let number := sc.fresh
        let finish (p : Parsed Node) : Parsed Node :=
          p.map fun (n, ts, sc) => (n, ts, sc.complete anchor number n)
        let sc := sc.declare anchor
        match ts with
        | .blockEntry :: _ =>
          if flush then finish ((readFlush fuel sc ts).map fun (ns, r) => (.sequence tag ns, r))
          else if bare then none else finish (some (.scalar tag true [], ts, sc))
        | .scalar plain text :: rest => finish (some (.scalar tag plain text, rest, sc))
        | .flowSequenceStart :: rest =>
          finish ((readFlowSequence true fuel sc rest).map fun (ns, r) => (.sequence tag ns, r))
        | .flowMappingStart :: rest =>
          finish ((readFlowMapping true fuel sc rest).map fun (es, r) => (.mapping tag es, r))
        | .blockSequenceStart :: rest =>
          if block then
            finish ((readBlockSequence fuel sc rest).map fun (ns, r) => (.sequence tag ns, r))
          else if bare then none else finish (some (.scalar tag true [], ts, sc))
        | .blockMappingStart :: rest =>
          if block then
            finish ((readBlockMapping fuel sc rest).map fun (es, r) => (.mapping tag es, r))
          else if bare then none else finish (some (.scalar tag true [], ts, sc))
        | [] => none
        | _ => if bare then none else finish (some (.scalar tag true [], ts, sc))

/-- Read the entries of an indented sequence. -/
def readBlockSequence : Nat → Scope → List Token → Parsed (List Node)
  | 0, _, _ => none
  | fuel + 1, sc, ts =>
    match ts with
    | .blockEnd :: rest => some ([], rest, sc)
    | .blockEntry :: rest =>
      let first : Parsed Node :=
        match rest with
        | .blockEntry :: _ | .blockEnd :: _ => some (empty, rest, sc)
        | _ => read true false fuel sc rest
      match first with
      | none => none
      | some (n, ts, sc) =>
        (readBlockSequence fuel sc ts).map fun (ns, r) => (n :: ns, r)
    | _ => none

/-- Read the entries of a sequence that stands at the column of the key it belongs to. -/
def readFlush : Nat → Scope → List Token → Parsed (List Node)
  | 0, _, _ => none
  | fuel + 1, sc, ts =>
    match ts with
    | .blockEntry :: rest =>
      let first : Parsed Node :=
        match rest with
        | .blockEntry :: _ | .key :: _ | .value :: _ | .blockEnd :: _ => some (empty, rest, sc)
        | _ => read true false fuel sc rest
      match first with
      | none => none
      | some (n, ts, sc) => (readFlush fuel sc ts).map fun (ns, r) => (n :: ns, r)
    | [] => none
    | _ => some ([], ts, sc)

/-- Read the entries of a block mapping. -/
def readBlockMapping : Nat → Scope → List Token → Parsed (List (Node × Node))
  | 0, _, _ => none
  | fuel + 1, sc, ts =>
    match ts with
    | .blockEnd :: rest => some ([], rest, sc)
    | .key :: rest =>
      match readBlockPart fuel sc rest with
      | none => none
      | some (k, ts, sc) =>
        let second : Parsed Node :=
          match ts with
          | .value :: rest => readBlockPart fuel sc rest
          | [] => none
          | _ => some (empty, ts, sc)
        match second with
        | none => none
        | some (v, ts, sc) => (readBlockMapping fuel sc ts).map fun (es, r) => ((k, v) :: es, r)
    | _ => none

/-- Read the key or the value of an entry of a block mapping. -/
def readBlockPart : Nat → Scope → List Token → Parsed Node
  | 0, _, _ => none
  | fuel + 1, sc, ts =>
    match ts with
    | .key :: _ | .value :: _ | .blockEnd :: _ => some (empty, ts, sc)
    | _ => read true true fuel sc ts

/-- Read the entries of a flow sequence; `first` holds before the first of them. -/
def readFlowSequence (first : Bool) : Nat → Scope → List Token → Parsed (List Node)
  | 0, _, _ => none
  | fuel + 1, sc, ts =>
    match ts with
    | .flowSequenceEnd :: rest => some ([], rest, sc)
    | _ =>
      let entry? : Option (List Token) :=
        if first then some ts
        else match ts with
          | .flowEntry :: rest => some rest
          | _ => none
      match entry? with
      | none => none
      | some ts =>
        let one : Parsed (Option Node) :=
          match ts with
          | .flowSequenceEnd :: _ => some (none, ts, sc)
          | .key :: rest =>
            (readPair fuel sc rest).map fun (e, r) => (some (.mapping [] [e]), r)
          | _ => (read false false fuel sc ts).map fun (n, r) => (some n, r)
        match one with
        | none => none
        | some (none, ts, sc) => some ([], ts.drop 1, sc)
        | some (some n, ts, sc) =>
          (readFlowSequence false fuel sc ts).map fun (ns, r) => (n :: ns, r)

/-- Read an entry of a flow sequence that is a mapping with one entry, after the key is
    announced. -/
def readPair : Nat → Scope → List Token → Parsed (Node × Node)
  | 0, _, _ => none
  | fuel + 1, sc, ts =>
    let left : Parsed Node :=
      match ts with
      | .value :: rest | .flowEntry :: rest | .flowSequenceEnd :: rest => some (empty, rest, sc)
      | _ => read false false fuel sc ts
    match left with
    | none => none
    | some (k, ts, sc) =>
      let right : Parsed Node :=
        match ts with
        | .value :: rest =>
          match rest with
          | .flowEntry :: _ | .flowSequenceEnd :: _ => some (empty, rest, sc)
          | _ => read false false fuel sc rest
        | [] => none
        | _ => some (empty, ts, sc)
      right.map fun (v, r) => ((k, v), r)

/-- Read the entries of a flow mapping; `first` holds before the first of them. -/
def readFlowMapping (first : Bool) : Nat → Scope → List Token → Parsed (List (Node × Node))
  | 0, _, _ => none
  | fuel + 1, sc, ts =>
    match ts with
    | .flowMappingEnd :: rest => some ([], rest, sc)
    | _ =>
      let entry? : Option (List Token) :=
        if first then some ts
        else match ts with
          | .flowEntry :: rest => some rest
          | _ => none
      match entry? with
      | none => none
      | some ts =>
        match ts with
        | .flowMappingEnd :: rest => some ([], rest, sc)
        | .key :: rest =>
          match readFlowKey fuel sc rest with
          | none => none
          | some (k, ts, sc) =>
            let second : Parsed Node :=
              match ts with
              | .value :: rest => readFlowValue fuel sc rest
              | [] => none
              | _ => some (empty, ts, sc)
            match second with
            | none => none
            | some (v, ts, sc) =>
              (readFlowMapping false fuel sc ts).map fun (es, r) => ((k, v) :: es, r)
        | _ =>
          match read false false fuel sc ts with
          | none => none
          | some (k, ts, sc) =>
            (readFlowMapping false fuel sc ts).map fun (es, r) => ((k, empty) :: es, r)

/-- Read the key of an entry of a flow mapping. -/
def readFlowKey : Nat → Scope → List Token → Parsed Node
  | 0, _, _ => none
  | fuel + 1, sc, ts =>
    match ts with
    | .value :: _ | .flowEntry :: _ | .flowMappingEnd :: _ => some (empty, ts, sc)
    | _ => read false false fuel sc ts

/-- Read the value of an entry of a flow mapping. -/
def readFlowValue : Nat → Scope → List Token → Parsed Node
  | 0, _, _ => none
  | fuel + 1, sc, ts =>
    match ts with
    | .flowEntry :: _ | .flowMappingEnd :: _ => some (empty, ts, sc)
    | _ => read false false fuel sc ts

end

/-- Read the directives in front of a document: at most one version, which must be 1.1, and each tag
    handle once. -/
def readDirectives :
    Bool → List (Text × Text) → List Token → Option (List (Text × Text) × List Token)
  | versioned, handles, .versionDirective major minor :: rest =>
    if versioned || major != 1 || minor != 1 then none else readDirectives true handles rest
  | versioned, handles, .tagDirective handle expansion :: rest =>
    if handles.any (·.1 == handle) then none
    else readDirectives versioned (handles ++ [(handle, expansion)]) rest
  | _, handles, ts => some (handles, ts)

/-- The first document; the outer `none` is a fault, the inner one an empty stream. -/
def ofTokens? (ts : List Token) : Option (Option Tree) :=
  let size := ts.length
  let document (sc : Scope) (ts : List Token) : Option (Option Tree) :=
    match read true false (3 * size + 10) sc ts with
    | none | some (_, [], _) => none
    | some (root, _, sc) => some (some { root, anchored := sc.anchored, size })
  match ts with
  | [] => none
  | .streamEnd :: _ => some none
  | .documentStart :: _ | .versionDirective .. :: _ | .tagDirective .. :: _ =>
    match readDirectives false [] ts with
    | some (handles, .documentStart :: rest) =>
      match rest with
      | .versionDirective .. :: _ | .tagDirective .. :: _ | .documentStart :: _ | .documentEnd :: _
      | .streamEnd :: _ => some (some { root := empty, anchored := [], size })
      | _ => document { handles } rest
    | _ => none
  | _ => document {} ts

end Node

/-- The first document of a text, as `Node.ofTokens?` gives it. -/
def Tree.ofText? (t : Text) : Option (Option Tree) := Node.ofTokens? (tokens (Stream.ofText t))

end ModifierToggle.Yaml
