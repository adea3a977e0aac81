import ScopeScript.Tree.Basic

/-!
# Listings of a tree

A **listing** shows a node and all below it, one line each, indented by depth. A
leaf takes one line; any other node opens a brace at the end of its line, and a
line of its own closes it after everything below.

The listing is made from a work list that holds both nodes still to be shown and
braces still to be closed, so that its depth does not matter.
-/

namespace ScopeScript

/-- A text repeated. -/
def repeatText (n : Nat) (s : String) : String :=
  String.join (List.replicate n s)

namespace Tree

/-- What is still to be written of a listing. -/
inductive Pending where
  /-- A node with all below it, at some depth. -/
  | node (index : Nat) (depth : Int)
  /-- The closing brace of a node, at some depth. -/
  | close (depth : Int)

/-- Bounds how many lines pending work still gives: two for each node. -/
def Pending.cost (t : Tree) : Pending → Nat
  | node i _ => 2 * t.weight i
  | close _ => 1

/-- The lines for the work that is pending, with one `unit` of indentation for
each level of depth. -/
def listing (t : Tree) (unit : String) : (work : List Pending) → List String
  | [] => []
  | .close depth :: rest => (repeatText depth.toNat unit ++ "\x7d") :: listing t unit rest
  | .node i depth :: rest =>
    match t.node? i with
    | none => listing t unit rest
    | some n =>
      let line := repeatText depth.toNat unit ++ n.heading
      if n.kind.isLeaf && n.children.isEmpty then line :: listing t unit rest
      else
        (line ++ " \x7b") ::
          listing t unit ((t.below i).map (.node · (depth + 1)) ++ .close depth :: rest)
termination_by work => total (work.map (Pending.cost t))
decreasing_by
  · simp [Pending.cost]
  · simp only [List.map_cons, total_cons, Pending.cost, weight_eq t i]
    omega
  · simp only [List.map_cons, total_cons, Pending.cost, weight_eq t i]
    omega
  · have h : total ((t.below i).map ((Pending.cost t) ∘ (Pending.node · (depth + 1))))
        = 2 * total ((t.below i).map t.weight) := by
      induction t.below i with
      | nil => rfl
      | cons c cs ih => simp_all [Pending.cost]; omega
    simp [h, Pending.cost, weight_eq t i]
    omega

/-- The indentation that is used unless another is asked for. -/
def defaultIndent : String := "    "

/-- The listing of a node and all below it. -/
def dumpWith (t : Tree) (unit : String) (i : Nat) (depth : Int) : String :=
  "\n".intercalate (t.listing unit [.node i depth])

/-- The listing of a node and all below it, with the usual indentation. -/
def dump (t : Tree) (i : Nat) (depth : Int) : String := t.dumpWith defaultIndent i depth

end Tree

end ScopeScript
