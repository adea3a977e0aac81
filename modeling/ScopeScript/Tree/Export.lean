import ScopeScript.Datum.Convert
import ScopeScript.Tree.Basic

/-!
# A tree as plain data

For the serialisation formats a node becomes a mapping with its kind, its name
and value if it has them, its location, and a list of its children if there are
any.

The mappings are made from a work list, so that the depth of a tree does not
matter. A mapping is **begun** when the node above it is taken from the list: from
then on it stands among its siblings, in their order, but it does not yet say
anything of children of its own. That is added when its own turn comes, which for
the last child is first. Mappings that are referred to before they are complete are
kept in a store, where they know each other by position.
-/

namespace ScopeScript

/-- A location as plain data. -/
def Location.toDatum (l : Location) : Datum :=
  Datum.ofFields
    [("file", .text l.file), ("offset", .int l.offset), ("line", .int l.line),
      ("column", .int l.column)]

/-- What a node says about itself, in order: kind, name, value and location. -/
def Node.fields (n : Node) : List (String × Datum) :=
  [("kind", .text n.kind.text)] ++
    (n.name.map fun s => ("name", Datum.text s)).toList ++
    (n.value.map fun v => ("value", v.toDatum)).toList ++
    [("location", n.location.toDatum)]

/-- The entries of a mapping with some fields and a list of children, if there are any. -/
def Datum.withChildren (fields : List (String × Datum)) (children : List Datum) : Datum :=
  Datum.ofFields (fields ++ if children.isEmpty then [] else [("children", .list children)])

/-! ### The store -/

/-- A mapping in the store. -/
structure Draft where
  /-- What the node says about itself. -/
  fields : List (String × Datum)
  /-- The positions of the mappings of its children. There are none yet where a
  mapping is begun. -/
  children : List Nat := []

namespace Draft

/-- The mappings that one in the store refers to. They were begun after it. -/
def held (drafts : Array Draft) (d : Nat) : List Nat :=
  ((drafts[d]?.map Draft.children).getD []).filter fun c => d < c && c < drafts.size

/-- A mapping that is referred to stands behind it in the store. -/
theorem lt_of_mem_held {drafts : Array Draft} {d c : Nat} (h : c ∈ held drafts d) :
    d < c ∧ c < drafts.size := by
  simpa [held] using (List.mem_filter.1 h).2

/-- What stands at a position of the store, with all that it refers to. -/
def read (drafts : Array Draft) (d : Nat) : Datum :=
  Datum.withChildren ((drafts[d]?.map Draft.fields).getD [])
    ((held drafts d).attach.map fun c => read drafts c.1)
termination_by drafts.size - d
decreasing_by
  have := lt_of_mem_held c.2
  omega

end Draft

namespace Tree

/-- The mapping of a node as it is begun. -/
def draft (t : Tree) (i : Nat) : Draft :=
  { fields := ((t.node? i).map Node.fields).getD [] }

/-- The store once the mappings of some children have been begun, and are referred to
by the mapping at `d`. -/
def begin (t : Tree) (drafts : Array Draft) (d : Nat) (children : List Nat) : Array Draft :=
  drafts.modify d
      (fun draft => { draft with children := List.range' drafts.size children.length }) ++
    (children.map t.draft).toArray

/-- The store once the work is done. On the list are nodes with the positions of their
mappings, which are begun and not complete. -/
def fill (t : Tree) : (work : List (Nat × Nat)) → Array Draft → Array Draft
  | [], drafts => drafts
  | (i, d) :: rest, drafts =>
    let children := t.below i
    let begun := children.zip (List.range' drafts.size children.length)
    fill t (begun.reverse ++ rest) (t.begin drafts d children)
termination_by work => t.weightOf (work.map Prod.fst)
decreasing_by
  have hbegun : ((t.below i).zip (List.range' drafts.size (t.below i).length)).map Prod.fst
      = t.below i := List.map_fst_zip (by simp)
  simp only [weightOf, List.map_append, List.map_reverse, hbegun, List.map_cons, total_append,
    total_cons, total_reverse, weight_eq t i]
  omega

/-- A node and all below it as plain data. -/
def exportNode (t : Tree) (i : Nat) : Datum :=
  Draft.read (t.fill [(i, 0)] #[t.draft i]) 0

/-- A whole tree as plain data: the name of the script and the root. -/
def exportTree (t : Tree) : Datum :=
  Datum.ofFields [("script", .text t.name), ("root", t.exportNode 0)]

end Tree

end ScopeScript
