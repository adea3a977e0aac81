import Mathlib.Algebra.GroupWithZero.Nat
import ScopeScript.Proofs.Tree.Walk

/-!
# The texts of a tree

Every node has a **text** (`ScopeScript.Node.plain`), which may be empty: what the
script says at that place, be it the value of a word or the name of a scope. This file
counts how often a character occurs in the texts of a tree, and how the count changes
with the tree.

Detached nodes have no text, so that it does not matter whether the count is over all
nodes or over those that a walk from the root meets
(`ScopeScript.Tree.Laid.count_chars`).
-/

namespace ScopeScript

namespace Node

/-- The text of a node: its value, if that is a text, or else its name. -/
def plain (n : Node) : String :=
  match n.value with
  | some (.string text) => text
  | _ => n.name.getD ""

/-- How often a character occurs in the text of a node. -/
def tally (n : Node) (c : Char) : Nat := n.plain.toList.count c

theorem plain_of_value {n : Node} (h : n.value = none) : n.plain = n.name.getD "" := by
  rw [plain, h]

theorem plain_string {n : Node} {text : String} (h : n.value = some (.string text)) :
    n.plain = text := by
  rw [plain, h]

end Node

namespace Tree

variable {t t' : Tree} {i p : Nat} {n : Node} {f : Node → Node} {c : Char}

/-- The characters in the text of a node. -/
def charsAt (t : Tree) (i : Nat) : List Char := ((t.node? i).map fun n => n.plain.toList).getD []

/-- **The characters in the texts of all nodes that a walk from the root meets.** -/
def chars (t : Tree) : List Char := (t.walk 0).flatMap t.charsAt

/-- How often a character occurs in the texts of all nodes, whether they can be reached
or not. -/
def tally (t : Tree) (c : Char) : Nat := (t.nodes.toList.map fun n => n.tally c).sum

/-! ### Changes -/

theorem sum_modify {α : Type} {w : α → Nat} {g : α → α} {a : α} {l : List α}
    (h : l[i]? = some a) :
    ((l.modify i g).map w).sum + w a = (l.map w).sum + w (g a) := by
  induction l generalizing i with
  | nil => simp at h
  | cons b l ih =>
    cases i with
    | zero =>
      obtain rfl : b = a := by simpa using h
      simp only [List.modify_zero_cons, List.map_cons, List.sum_cons]
      omega
    | succ i =>
      have hrest := ih (i := i) (by simpa using h)
      simp only [List.modify_succ_cons, List.map_cons, List.sum_cons]
      omega

/-- **Changing a node replaces its text by another.** -/
theorem tally_modify (hn : t.node? i = some n) (f : Node → Node) (c : Char) :
    (t.modify i f).tally c + n.tally c = t.tally c + (f n).tally c := by
  have hget : t.nodes.toList[i]? = some n := by rwa [Array.getElem?_toList]
  rw [tally, tally, modify, Array.toList_modify]
  exact sum_modify (w := fun n => n.tally c) hget

/-- A change that leaves the text of a node alone. -/
theorem tally_modify_of_plain (h : ∀ n, t.node? i = some n → (f n).plain = n.plain) (c : Char) :
    (t.modify i f).tally c = t.tally c := by
  cases hn : t.node? i with
  | none =>
    have hsize : t.nodes.size ≤ i := by simpa [node?] using hn
    have hsame : t.nodes.modify i f = t.nodes := by
      refine Array.ext_getElem? fun j => ?_
      rw [Array.getElem?_modify]
      split
      · rename_i hij
        rw [← hij, Array.getElem?_eq_none hsize]
        rfl
      · rfl
    rw [tally, tally, modify, hsame]
  | some n =>
    have hmodify := tally_modify hn f c
    rw [Node.tally, Node.tally, h n hn] at hmodify
    omega

/-- **A new node adds its text.** -/
theorem tally_sprout (t : Tree) (p : Nat) (n : Node) (c : Char) :
    (t.sprout p n).tally c = t.tally c + n.tally c := by
  set grown : Tree := { t with nodes := t.nodes.push n }
  have hgrown : grown.tally c = t.tally c + n.tally c := by simp [grown, tally]
  have hsprout : t.sprout p n
      = grown.modify p fun m => { m with children := m.children ++ [t.size] } := rfl
  rw [hsprout, ← hgrown]
  refine tally_modify_of_plain ?_ c
  exact fun _ _ => rfl

/-! ### What a walk meets -/

theorem flatMap_filter_of_nil {α β : Type} {g : α → List β} {q : α → Bool} {l : List α}
    (h : ∀ a ∈ l, q a = false → g a = []) : (l.filter q).flatMap g = l.flatMap g := by
  induction l with
  | nil => rfl
  | cons a l ih =>
    have hrest := ih fun b hb => h b (List.mem_cons_of_mem a hb)
    cases hq : q a with
    | true => rw [List.filter_cons_of_pos hq, List.flatMap_cons, List.flatMap_cons, hrest]
    | false =>
      rw [List.filter_cons_of_neg (by simp [hq]), List.flatMap_cons, hrest,
        h a List.mem_cons_self hq, List.nil_append]

/-- **Nothing is missed by a walk**, if parameter lists have no text. -/
theorem Laid.count_chars (h : t.Laid)
    (hlist : ∀ i, t.kind? i = some .functionParams → t.charsAt i = []) (c : Char) :
    t.chars.count c = t.tally c := by
  have hall : t.chars = (List.range t.size).flatMap t.charsAt := by
    rw [chars, h.walk_eq]
    refine flatMap_filter_of_nil fun i _ hi => hlist i ?_
    have hd : t.IsDetached i := by simpa using hi
    exact hd.1
  have hmap : (List.range t.size).map (fun i => (t.charsAt i).count c)
      = t.nodes.toList.map fun n => n.tally c := by
    refine List.ext_getElem (by simp [size]) fun i hi hi' => ?_
    have hlt : i < t.nodes.size := by simpa using hi'
    simp [charsAt, node?, Node.tally, hlt]
  rw [hall, List.count_flatMap, tally, ← hmap]
  rfl

end Tree

end ScopeScript
