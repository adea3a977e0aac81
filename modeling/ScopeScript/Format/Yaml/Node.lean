import ScopeScript.Format.Yaml.Token

/-!
# Nodes of a YAML document

The tokens of a document make up a **node**: a scalar, a list or a mapping, with
a tag if the document gives one. References to anchors are replaced by the nodes
they refer to, which have to come before.

`fuel` bounds how deep and how far the functions below go. Four times the number
of tokens is always enough, since at most four of them call each other without
using up a token.
-/

namespace ScopeScript.Yaml

/-- A node. -/
inductive Node where
  /-- A scalar, in plain style or not. -/
  | scalar (text : String) (plain : Bool) (tag : Option String)
  /-- A list. -/
  | list (items : List Node) (tag : Option String)
  /-- A mapping, with all its entries in order. -/
  | map (entries : List (Node × Node)) (tag : Option String)
deriving Repr, Inhabited

/-- What stands where nothing is written. -/
def Node.absent : Node := .scalar "" true none

/-- What is left of the tokens, and what the part before has introduced. -/
structure Reading where
  /-- The tokens that are left. -/
  rest : List Token
  /-- The nodes with a name. -/
  anchors : List (String × Node) := []
  /-- What the handles of tags stand for. -/
  handles : List (String × String) := []

namespace Reading

/-- Whether the next token is one of some. -/
def sees (r : Reading) (ts : List Token) : Bool :=
  match r.rest with
  | t :: _ => ts.contains t
  | [] => false

/-- Moves over the next token if it is the given one. -/
def take? (r : Reading) (t : Token) : Option Reading :=
  if r.sees [t] then some { r with rest := r.rest.drop 1 } else none

/-- What every document knows without saying so. -/
def usualHandles : List (String × String) := [("!", "!"), ("!!", "tag:yaml.org,2002:")]

/-- The tag that a handle and a text make up. -/
def fullTag (r : Reading) : Option String → String → Option String
  | none, text => some text
  | some handle, text => ((r.handles ++ usualHandles).lookup handle).map (· ++ text)

/-- The anchor and the tag in front of a node, in any order. -/
def properties (r : Reading) : Option (Option String × Option String × Reading) :=
  match r.rest with
  | .anchor a :: .tag handle text :: rest =>
    (r.fullTag handle text).map fun t => (some a, some t, { r with rest })
  | .tag handle text :: .anchor a :: rest =>
    (r.fullTag handle text).map fun t => (some a, some t, { r with rest })
  | .anchor a :: rest => some (some a, none, { r with rest })
  | .tag handle text :: rest =>
    (r.fullTag handle text).map fun t => (none, some t, { r with rest })
  | _ => some (none, none, r)

/-- Gives a node its name, which must be new. -/
def introduce (r : Reading) (anchor : Option String) (n : Node) : Option (Node × Reading) :=
  match anchor with
  | none => some (n, r)
  | some a =>
    if (r.anchors.lookup a).isSome then none
    else some (n, { r with anchors := (a, n) :: r.anchors })

/-- The tag of a node; an exclamation mark alone is none. -/
def ownTag (tag : Option String) : Option String := tag.filter (· != "!")

mutual

/-- A node. Where `block` holds it may be an indented collection, and where
`flush` holds its items may stand in the column of the mapping around it. -/
def node (block flush : Bool) : (fuel : Nat) → Reading → Option (Node × Reading)
  | 0, _ => none
  | fuel + 1, r =>
    match r.rest with
    | .alias name :: rest => (r.anchors.lookup name).map fun n => (n, { r with rest })
    | _ => do
      let (anchor, tag, r) ← r.properties
      let (n, r) ← content block flush anchor tag fuel r
      r.introduce anchor n

/-- A node behind its anchor and tag. If it has either, it may be absent. -/
def content (block flush : Bool) (anchor tag : Option String) :
    (fuel : Nat) → Reading → Option (Node × Reading)
  | 0, _ => none
  | fuel + 1, r =>
    match r.rest with
    | .scalar text plain :: rest =>
      some (.scalar text (plain || tag == some "!") (ownTag tag), { r with rest })
    | .bracketStart :: rest => bracketItems true (ownTag tag) [] fuel { r with rest }
    | .braceStart :: rest => braceEntries true (ownTag tag) [] fuel { r with rest }
    | .item :: _ =>
      if flush then flushItems (ownTag tag) [] fuel r
      else if anchor.isSome || tag.isSome then some (.scalar "" true (ownTag tag), r)
      else none
    | .listStart :: rest =>
      if block then blockItems (ownTag tag) [] fuel { r with rest }
      else if anchor.isSome || tag.isSome then some (.scalar "" true (ownTag tag), r)
      else none
    | .mapStart :: rest =>
      if block then blockEntries (ownTag tag) [] fuel { r with rest }
      else if anchor.isSome || tag.isSome then some (.scalar "" true (ownTag tag), r)
      else none
    | _ =>
      if anchor.isSome || tag.isSome then some (.scalar "" true (ownTag tag), r) else none

/-- A node, or its absence if one of some tokens follows. -/
def optional (block flush : Bool) (stops : List Token) :
    (fuel : Nat) → Reading → Option (Node × Reading)
  | 0, _ => none
  | fuel + 1, r => if r.sees stops then some (.absent, r) else node block flush fuel r

/-- The value for a key, which may be absent. -/
def entryValue (block flush : Bool) (stops : List Token) :
    (fuel : Nat) → Reading → Option (Node × Reading)
  | 0, _ => none
  | fuel + 1, r =>
    match r.take? .value with
    | some r => optional block flush stops fuel r
    | none => some (.absent, r)

/-- The items of an indented list from the next one on. -/
def blockItems (tag : Option String) (done : List Node) :
    (fuel : Nat) → Reading → Option (Node × Reading)
  | 0, _ => none
  | fuel + 1, r =>
    match r.take? .item with
    | some r => do
      let (n, r) ← optional true false [.item, .blockEnd] fuel r
      blockItems tag (n :: done) fuel r
    | none => (r.take? .blockEnd).map fun r => (.list done.reverse tag, r)

/-- The items of a list that stands in the column of the mapping around it. -/
def flushItems (tag : Option String) (done : List Node) :
    (fuel : Nat) → Reading → Option (Node × Reading)
  | 0, _ => none
  | fuel + 1, r =>
    match r.take? .item with
    | some r => do
      let (n, r) ← optional true false [.item, .key, .value, .blockEnd] fuel r
      flushItems tag (n :: done) fuel r
    | none => some (.list done.reverse tag, r)

/-- The entries of an indented mapping from the next one on. -/
def blockEntries (tag : Option String) (done : List (Node × Node)) :
    (fuel : Nat) → Reading → Option (Node × Reading)
  | 0, _ => none
  | fuel + 1, r =>
    match r.take? .key with
    | some r => do
      let (k, r) ← optional true true [.key, .value, .blockEnd] fuel r
      let (v, r) ← entryValue true true [.key, .value, .blockEnd] fuel r
      blockEntries tag ((k, v) :: done) fuel r
    | none => (r.take? .blockEnd).map fun r => (.map done.reverse tag, r)

/-- The items of a list between brackets. An item may be a mapping of one entry
without braces. -/
def bracketItems (first : Bool) (tag : Option String) (done : List Node) :
    (fuel : Nat) → Reading → Option (Node × Reading)
  | 0, _ => none
  | fuel + 1, r =>
    match r.take? .bracketEnd with
    | some r => some (.list done.reverse tag, r)
    | none => do
      let r ← if first then some r else r.take? .comma
      match r.take? .key with
      | some r => do
        let (k, r) ← optional false false [.value, .comma, .bracketEnd] fuel r
        let (v, r) ← entryValue false false [.comma, .bracketEnd] fuel r
        bracketItems false tag (.map [(k, v)] none :: done) fuel r
      | none =>
        match r.take? .bracketEnd with
        | some r => some (.list done.reverse tag, r)
        | none => do
          let (n, r) ← node false false fuel r
          bracketItems false tag (n :: done) fuel r

/-- The entries of a mapping between braces. A key may stand without a value. -/
def braceEntries (first : Bool) (tag : Option String) (done : List (Node × Node)) :
    (fuel : Nat) → Reading → Option (Node × Reading)
  | 0, _ => none
  | fuel + 1, r =>
    match r.take? .braceEnd with
    | some r => some (.map done.reverse tag, r)
    | none => do
      let r ← if first then some r else r.take? .comma
      match r.take? .key with
      | some r => do
        let (k, r) ← optional false false [.value, .comma, .braceEnd] fuel r
        let (v, r) ← entryValue false false [.comma, .braceEnd] fuel r
        braceEntries false tag ((k, v) :: done) fuel r
      | none =>
        match r.take? .braceEnd with
        | some r => some (.map done.reverse tag, r)
        | none => do
          let (k, r) ← node false false fuel r
          braceEntries false tag ((k, .absent) :: done) fuel r

end

/-! ### Documents -/

/-- The directives in front of a document: at most one version, which has to be
the first major one, and each handle at most once. -/
def directives (versioned : Bool) (handles : List (String × String)) :
    List Token → Option (List (String × String) × List Token)
  | .directive d :: rest =>
    match d with
    | .version major => if versioned || major != 1 then none else directives true handles rest
    | .handle name stands =>
      if (handles.lookup name).isSome then none
      else directives versioned ((name, stands) :: handles) rest
    | .other => directives versioned handles rest
  | ts => some (handles, ts)

/-- Whether a token stands between documents. -/
def isBetween : Token → Bool
  | .directive _ | .documentStart | .documentEnd => true
  | _ => false

/-- The node of a document from its content on. -/
def root (r : Reading) : Option (Node × Reading) := r.node true false (4 * r.rest.length + 4)

/-- The node of a document that is announced. -/
def announced (ts : List Token) : Option (Node × Reading) :=
  match directives false [] ts with
  | some (handles, .documentStart :: rest) =>
    let r : Reading := { rest, handles }
    match rest with
    | [] => some (.absent, r)
    | t :: _ => if isBetween t then some (.absent, r) else r.root
  | _ => none

end Reading

/-- The node of the one document that tokens make up. Without any token it is
absent. -/
def Node.ofTokens? (ts : List Token) : Option Node := do
  let (n, r) ←
    match ts with
    | [] => some (.absent, ({ rest := [] } : Reading))
    | .directive _ :: _ | .documentStart :: _ => Reading.announced ts
    | _ => Reading.root { rest := ts }
  if r.rest.all (· == .documentEnd) then some n else none

end ScopeScript.Yaml
