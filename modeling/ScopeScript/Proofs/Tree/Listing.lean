import ScopeScript.Proofs.Tree.Linked
import ScopeScript.Tree.Dump

/-!
# Listings by recursion

A listing is made from a work list on which nodes and closing braces wait side by side.
This file shows that it is what one would write down by recursion
(`ScopeScript.Tree.lines`): the line of a node, the lines of its children from left to
right and one level deeper, and the line that closes it.

What is still to be written is the sum of what each entry of the work list stands for
(`ScopeScript.Tree.listing_eq_flatMap`), and that is all there is to the work list. The rest
is about the recursion. **Lines that open and close scopes are nested**, each scope closed
at the level at which it was opened (`ScopeScript.Line.Nested`), and **the headings are
those of the nodes that a walk meets**, in the same order.

Names may hold anything, newlines and braces included. So lines are told by what they stand
for (`ScopeScript.Line`), and not by their texts.
-/

namespace ScopeScript

/-- A line of a listing. -/
inductive Line where
  /-- The heading of a node that takes one line. -/
  | leaf (index : Nat) (depth : Int)
  /-- The heading of a node, and the brace that opens it. -/
  | opening (index : Nat) (depth : Int)
  /-- The brace that closes a node. -/
  | closing (index : Nat) (depth : Int)
deriving DecidableEq, Repr

namespace Line

/-- The node whose heading stands on the line. -/
def heads? : Line → Option Nat
  | leaf i _ | opening i _ => some i
  | closing _ _ => none

/-- The text of a line, with one `unit` of indentation for each level of depth. -/
def text (t : Tree) (unit : String) : Line → String
  | leaf i depth => repeatText depth.toNat unit ++ ((t.node? i).map Node.heading).getD ""
  | opening i depth =>
    repeatText depth.toNat unit ++ ((t.node? i).map Node.heading).getD "" ++ " \x7b"
  | closing _ depth => repeatText depth.toNat unit ++ "\x7d"

/-- **Lines at some depth, with scopes properly nested**: what is opened is closed at the same
depth, and all that stands in between is one level deeper. -/
inductive Nested : (depth : Int) → List Line → Prop
  /-- There are no lines. -/
  | nil {depth : Int} : Nested depth []
  /-- A single line. -/
  | leaf {depth : Int} {rest : List Line} (i : Nat) (h : Nested depth rest) :
      Nested depth (.leaf i depth :: rest)
  /-- A scope. -/
  | scope {depth : Int} {inner rest : List Line} (i : Nat) (hinner : Nested (depth + 1) inner)
      (h : Nested depth rest) :
      Nested depth (.opening i depth :: inner ++ .closing i depth :: rest)

theorem Nested.append {depth : Int} {lines rest : List Line} (h : Nested depth lines)
    (hrest : Nested depth rest) : Nested depth (lines ++ rest) := by
  induction h with
  | nil => exact hrest
  | leaf i _ ih => exact (ih hrest).leaf i
  | @scope depth inner _ i hinner _ _ ih =>
    rw [List.append_assoc, List.cons_append]
    exact hinner.scope i (ih hrest)

theorem Nested.flatMap {α : Type} {depth : Int} {f : α → List Line} {as : List α}
    (h : ∀ a ∈ as, Nested depth (f a)) : Nested depth (as.flatMap f) := by
  induction as with
  | nil => exact .nil
  | cons a as ih =>
    rw [List.flatMap_cons]
    exact (h a List.mem_cons_self).append (ih fun b hb => h b (List.mem_cons_of_mem a hb))

end Line

namespace Tree

variable {t : Tree} {i : Nat} {n : Node}

/-- **The lines of a node and all below it**, by recursion. -/
def lines (t : Tree) (i : Nat) (depth : Int) : List Line :=
  match t.node? i with
  | none => []
  | some n =>
    if n.kind.isLeaf && n.children.isEmpty then [.leaf i depth]
    else
      .opening i depth :: ((t.below i).attach.flatMap fun c => lines t c.1 (depth + 1)) ++
        [.closing i depth]
termination_by t.size - i
decreasing_by
  have := lt_of_mem_below c.2
  omega

theorem lines_of_node? (hn : t.node? i = some n) (depth : Int) :
    t.lines i depth =
      if n.kind.isLeaf && n.children.isEmpty then [.leaf i depth]
      else
        .opening i depth :: (t.below i).flatMap (t.lines · (depth + 1)) ++ [.closing i depth] := by
  rw [lines, hn]
  simp

/-! ### The work list -/

/-- The texts that pending work stands for. -/
def Pending.texts (t : Tree) (unit : String) : Pending → List String
  | .node i depth => (t.lines i depth).map (Line.text t unit)
  | .close depth => [repeatText depth.toNat unit ++ "\x7d"]

/-- A scope is its heading, its children and its end. -/
theorem Pending.texts_of_scope (hn : t.node? i = some n)
    (hleaf : (n.kind.isLeaf && n.children.isEmpty) = false) (unit : String) (depth : Int) :
    Pending.texts t unit (.node i depth) =
      (repeatText depth.toNat unit ++ n.heading ++ " \x7b") ::
        ((t.below i).map (Pending.node · (depth + 1)) ++ [Pending.close depth]).flatMap
          (Pending.texts t unit) := by
  rw [Pending.texts, lines_of_node? hn, hleaf, if_neg Bool.false_ne_true, List.cons_append,
    List.map_cons, Line.text, hn, List.map_append, List.map_flatMap, List.flatMap_append,
    List.flatMap_map, List.flatMap_singleton]
  rfl

/-- **A listing is written entry by entry.** -/
theorem listing_eq_flatMap (t : Tree) (unit : String) (work : List Pending) :
    t.listing unit work = work.flatMap (Pending.texts t unit) := by
  induction work using listing.induct t unit with
  | case1 => rw [listing, List.flatMap_nil]
  | case2 depth rest ih => rw [listing, ih, List.flatMap_cons, Pending.texts, List.singleton_append]
  | case3 i depth rest hn ih =>
    rw [listing, hn, List.flatMap_cons, Pending.texts, lines, hn, List.map_nil, List.nil_append]
    exact ih
  | case4 i depth rest n hn hleaf ih =>
    rw [listing, hn, List.flatMap_cons, Pending.texts, lines_of_node? hn, if_pos hleaf,
      List.map_singleton, Line.text, hn, List.singleton_append, ← ih]
    exact if_pos hleaf
  | case5 i depth rest n hn hleaf ih =>
    have hsplit : (t.below i).map (Pending.node · (depth + 1)) ++ .close depth :: rest
        = ((t.below i).map (Pending.node · (depth + 1)) ++ [.close depth]) ++ rest := by
      rw [List.append_assoc, List.singleton_append]
    rw [listing, hn, List.flatMap_cons, Pending.texts_of_scope hn (eq_false_of_ne_true hleaf),
      List.cons_append, ← List.flatMap_append, ← hsplit, ← ih]
    exact if_neg hleaf

/-! ### The recursion -/

/-- **The lines of a node are nested**, and begin and end at its own level. -/
theorem nested_lines (t : Tree) (i : Nat) (depth : Int) :
    Line.Nested depth (t.lines i depth) := by
  induction i, depth using lines.induct t with
  | case1 i depth hn =>
    rw [lines, hn]
    exact .nil
  | case2 i depth n hn hleaf =>
    rw [lines_of_node? hn, if_pos hleaf]
    exact .leaf i .nil
  | case3 i depth n hn hleaf ih =>
    rw [lines_of_node? hn, if_neg hleaf]
    exact .scope i (.flatMap fun c hc => ih ⟨c, hc⟩) .nil

/-- **The headings are those of the nodes that a walk meets.** -/
theorem heads_lines (hi : i < t.size) (depth : Int) :
    (t.lines i depth).filterMap Line.heads? = t.walk i := by
  induction i, depth using lines.induct t with
  | case1 i depth hn =>
    obtain ⟨n, hsome⟩ := exists_node? hi
    rw [hn] at hsome
    cases hsome
  | case2 i depth n hn hleaf =>
    -- nothing is listed below a leaf, so that a walk ends here
    have hnil : t.below i = [] := by
      rw [below, children_of_node? hn, List.isEmpty_iff.mp (Bool.and_eq_true_iff.mp hleaf).2,
        List.filter_nil]
    rw [lines_of_node? hn, if_pos hleaf, walk_eq_cons, hnil]
    rfl
  | case3 i depth n hn hleaf ih =>
    have hbelow : ((t.below i).flatMap (t.lines · (depth + 1))).filterMap Line.heads?
        = (t.below i).flatMap t.walk := by
      rw [List.filterMap_flatMap]
      refine List.flatMap_congr fun c hc => ?_
      exact ih ⟨c, hc⟩ (lt_of_mem_below hc).2
    rw [lines_of_node? hn, if_neg hleaf, walk_eq_cons, List.filterMap_append, List.filterMap_cons,
      hbelow]
    exact List.append_nil _

/-! ### The listing -/

/-- **The texts of the lines of a node and all below it.** -/
def texts (t : Tree) (unit : String) (i : Nat) (depth : Int) : List String :=
  (t.lines i depth).map (Line.text t unit)

/-- **A listing by recursion.** It is its lines, put together with newlines. A block or a
word, a parameter or an argument takes one line if nothing belongs to it, which is its
indented heading. The lines of any other node are its heading with an opening brace, those of
its children from left to right and one level deeper, and a closing brace. So scopes are
nested; and every node at or below the one that is listed has one heading, in the order of a
walk. -/
theorem dump_by_recursion (h : t.Linked) (hn : t.node? i = some n) (unit : String)
    (depth : Int) :
    t.dumpWith unit i depth = "\n".intercalate (t.texts unit i depth) ∧
      (t.texts unit i depth =
        let indent := repeatText depth.toNat unit
        if (n.kind = .none ∨ n.kind = .functionParam) ∧ n.children = [] then
          [indent ++ n.heading]
        else
          (indent ++ n.heading ++ " \x7b") :: n.children.flatMap (t.texts unit · (depth + 1)) ++
            [indent ++ "\x7d"]) ∧
      Line.Nested depth (t.lines i depth) ∧
      (t.lines i depth).filterMap Line.heads? = t.walk i ∧ (t.walk i).Nodup ∧
      ∀ j, j ∈ t.walk i ↔ t.Descends i j := by
  refine ⟨?_, ?_, t.nested_lines i depth, heads_lines (lt_size_of_node? hn) depth,
    h.nodup_walk i⟩
  · rw [dumpWith, listing_eq_flatMap, List.flatMap_singleton]
    rfl
  · have hleaf : (n.kind.isLeaf && n.children.isEmpty) = true ↔
        (n.kind = .none ∨ n.kind = .functionParam) ∧ n.children = [] := by
      rw [Bool.and_eq_true_iff, List.isEmpty_iff]
      refine and_congr_left' ?_
      cases n.kind <;> simp [NodeKind.isLeaf]
    have hbelow : t.below i = n.children := by
      rw [h.below_eq_children, children_of_node? hn]
    dsimp only
    rw [texts, lines_of_node? hn, hbelow]
    by_cases hone : (n.kind = .none ∨ n.kind = .functionParam) ∧ n.children = []
    · rw [if_pos (hleaf.mpr hone), if_pos hone, List.map_singleton, Line.text, hn]
      rfl
    · rw [if_neg (mt hleaf.mp hone), if_neg hone, List.map_append, List.map_cons,
        List.map_flatMap, Line.text, hn]
      rfl

/-- A block with a call in it, and a word behind the block. -/
def blockTree : Tree :=
  let t := ((Tree.empty "test" {}).addChild 0 .none {}).1
  let t := ((t.addChild 1 .call {}).1.addChild 2 .functionParam {}).1
  (t.addChild 0 .none {}).1

theorem linked_blockTree : blockTree.Linked := by
  have h := (linked_empty "test" {}).addChild (p := 0) (by decide) .none {}
  have h := (h.addChild (p := 1) (by decide) .call {}).addChild (p := 2) (by decide)
    .functionParam {}
  exact h.addChild (p := 0) (by decide) .none {}

/-- The block takes several lines, and the word takes one. -/
theorem dump_by_recursion_block :
    blockTree.Linked ∧ blockTree.kind? 0 = some .global ∧
      blockTree.dumpWith "--" 0 1 =
        "--Global \x7b\n----None \x7b\n------Call \x7b\n--------FunctionParam\n" ++
          "------\x7d\n----\x7d\n----None\n--\x7d" ∧
      Line.Nested 1 (blockTree.lines 0 1) ∧
      (blockTree.lines 0 1).filterMap Line.heads? = [0, 1, 2, 3, 4] := by
  obtain ⟨hdump, -, hnested, hheads, -⟩ :=
    dump_by_recursion linked_blockTree (i := 0) rfl "--" 1
  refine ⟨linked_blockTree, rfl, hdump.trans ?_, hnested, hheads.trans ?_⟩
  · decide +kernel
  · decide +kernel

end Tree

end ScopeScript
