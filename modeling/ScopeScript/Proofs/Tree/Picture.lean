import ScopeScript.Proofs.Scanner.Values
import ScopeScript.Proofs.Tree.Export

/-!
# What an export tells

A reader of an export has nothing but a mapping for each node. **From that alone the whole
tree can be told**, at least if it has been parsed: kinds, names, values, places and which
nodes belong to which (`ScopeScript.Tree.exportNode_eq_iff_picture`). What cannot be told is
at which indices the nodes stand, and whether a text was quoted. A **picture** is a tree
without these (`ScopeScript.Tree.picture`).

A name and a value are exported only where there is one. Nothing is lost by that, since each
stands under a key of its own (`ScopeScript.Node.under_withChildren`). That values can be
told rests on their being texts (`ScopeScript.Tree.Textual`): there is no datum for a
function, so it is exported as the text that says so.
-/

namespace ScopeScript

/-! ### Pictures -/

/-- What is shown of a node. -/
structure Caption where
  /-- What it stands for. -/
  kind : NodeKind
  /-- Its name. -/
  name : Option String
  /-- Its value. -/
  value : Option Value
  /-- Where it begins. -/
  location : Location

/-- What is shown of a tree. -/
inductive Picture where
  /-- A node with its parts, in order. -/
  | node (caption : Caption) (parts : List Picture)

/-- What is shown of a node. -/
def Node.caption (n : Node) : Caption :=
  { kind := n.kind, name := n.name, value := n.value, location := n.location }

/-- **The tree at and below a node without its indices.** -/
def Tree.picture (t : Tree) (i : Nat) : Picture :=
  .node (((t.node? i).map Node.caption).getD (Node.caption { kind := .global, location := {} }))
    ((t.below i).attach.map fun c => picture t c.1)
termination_by t.size - i
decreasing_by
  have := Tree.lt_of_mem_below c.2
  omega

/-! ### Mappings by key -/

namespace Datum

/-- What stands under a text in a mapping. -/
def under (key : String) : Datum → Option Datum
  | map entries => field? key entries
  | _ => none

theorem under_ofFields (key : String) (fields : List (String × Datum)) :
    (ofFields fields).under key = fields.lookup key := by
  rw [ofFields, under]
  induction fields with
  | nil => rfl
  | cons field fields ih =>
    obtain ⟨k, v⟩ := field
    have hkey : (text k == text key) = (key == k) := by
      change (k == key) = (key == k)
      exact BEq.comm
    rw [List.map_cons, field?, hkey, List.lookup_cons, ih]
    cases key == k <;> rfl

end Datum

theorem NodeKind.text_injective {k l : NodeKind} (h : k.text = l.text) : k = l := by
  cases k <;> cases l <;> first | rfl | exact absurd h (by decide)

theorem Location.toDatum_injective {l m : Location} (h : l.toDatum = m.toDatum) : l = m := by
  obtain ⟨file, offset, line, column⟩ := l
  obtain ⟨file', offset', line', column'⟩ := m
  simpa [toDatum, Datum.ofFields] using h

/-- **What stands under the keys of a mapping.** -/
theorem Node.under_withChildren (n : Node) (children : List Datum) :
    (Datum.withChildren n.fields children).under "kind" = some (.text n.kind.text) ∧
      (Datum.withChildren n.fields children).under "name" = n.name.map .text ∧
      (Datum.withChildren n.fields children).under "value" = n.value.map Value.toDatum ∧
      (Datum.withChildren n.fields children).under "location" = some n.location.toDatum ∧
      (Datum.withChildren n.fields children).under "children"
        = if children.isEmpty then none else some (.list children) := by
  simp only [Datum.withChildren, Datum.under_ofFields, fields]
  cases n.name <;> cases n.value <;> cases children <;> exact ⟨rfl, rfl, rfl, rfl, rfl⟩

/-- A value that is a text can be told. -/
theorem Node.IsTextual.value_eq {n m : Node} (hn : n.IsTextual) (hm : m.IsTextual)
    (h : n.value.map Value.toDatum = m.value.map Value.toDatum) : n.value = m.value := by
  cases hv : n.value with
  | none =>
    rw [hv] at h
    exact (Option.map_eq_none_iff.mp h.symm).symm
  | some v =>
    rw [hv] at h
    obtain ⟨w, hw, heq⟩ := Option.map_eq_some_iff.mp h.symm
    obtain ⟨text, rfl⟩ := hn v hv
    obtain ⟨text', rfl⟩ := hm w hw
    rw [hw]
    cases heq
    rfl

/-- **A mapping tells what is shown of the node**, and what is below it. -/
theorem Node.withChildren_inj {n m : Node} (hn : n.IsTextual) (hm : m.IsTextual)
    {cs ds : List Datum} :
    Datum.withChildren n.fields cs = Datum.withChildren m.fields ds ↔
      n.caption = m.caption ∧ cs = ds := by
  constructor
  · intro h
    obtain ⟨hkind, hname, hvalue, hplace, hchildren⟩ := n.under_withChildren cs
    obtain ⟨hkind', hname', hvalue', hplace', hchildren'⟩ := m.under_withChildren ds
    rw [h] at hkind hname hvalue hplace hchildren
    refine ⟨?_, ?_⟩
    · have hk : n.kind = m.kind :=
        NodeKind.text_injective (Datum.text.inj (Option.some.inj (hkind.symm.trans hkind')))
      have hs : n.name = m.name :=
        Option.map_injective (fun _ _ => Datum.text.inj) (hname.symm.trans hname')
      have hv : n.value = m.value := hn.value_eq hm (hvalue.symm.trans hvalue')
      have hl : n.location = m.location :=
        Location.toDatum_injective (Option.some.inj (hplace.symm.trans hplace'))
      rw [caption, caption, hk, hs, hv, hl]
    · have hboth := hchildren.symm.trans hchildren'
      rcases cs with - | ⟨c, cs⟩ <;> rcases ds with - | ⟨d, ds⟩
      · rfl
      · cases hboth
      · cases hboth
      · exact Datum.list.inj (Option.some.inj hboth)
  · rintro ⟨hcaption, rfl⟩
    obtain ⟨hk, hs, hv, hl⟩ := Caption.mk.inj hcaption
    rw [fields, fields, hk, hs, hv, hl]

namespace Tree

variable {t t' : Tree} {i j : Nat} {n m : Node}

theorem picture_of_node? (hn : t.node? i = some n) :
    t.picture i = .node n.caption ((t.below i).map t.picture) := by
  rw [picture, hn]
  simp

/-- The picture of a node is that of the node and its children. -/
theorem Linked.picture_eq (h : t.Linked) (hn : t.node? i = some n) :
    t.picture i = .node n.caption (n.children.map t.picture) := by
  rw [picture_of_node? hn, h.below_eq_children, children_of_node? hn]

/-- Two lists agree in one way just if they do so in another, if their members do. -/
theorem map_eq_map_congr {α β γ δ : Type} {f : α → γ} {g : β → γ} {f' : α → δ} {g' : β → δ}
    {as : List α} {bs : List β} (h : ∀ a ∈ as, ∀ b ∈ bs, f a = g b ↔ f' a = g' b) :
    as.map f = bs.map g ↔ as.map f' = bs.map g' := by
  induction as generalizing bs with
  | nil => cases bs <;> simp
  | cons a as ih =>
    cases bs with
    | nil => simp
    | cons b bs =>
      have hrest := ih fun a ha b hb =>
        h a (List.mem_cons_of_mem _ ha) b (List.mem_cons_of_mem _ hb)
      rw [List.map_cons, List.map_cons, List.map_cons, List.map_cons, List.cons.injEq,
        List.cons.injEq, h a List.mem_cons_self b List.mem_cons_self, hrest]

theorem mapping_eq_iff_picture (ht : t.Textual) (ht' : t'.Textual) (hi : i < t.size)
    (hj : j < t'.size) : t.mapping i = t'.mapping j ↔ t.picture i = t'.picture j := by
  induction i using mapping.induct t generalizing j with
  | case1 i ih =>
    obtain ⟨n, hn⟩ := exists_node? hi
    obtain ⟨m, hm⟩ := exists_node? hj
    have hbelow : (t.below i).map t.mapping = (t'.below j).map t'.mapping ↔
        (t.below i).map t.picture = (t'.below j).map t'.picture :=
      map_eq_map_congr fun c hc d hd => ih ⟨c, hc⟩ (lt_of_mem_below hc).2 (lt_of_mem_below hd).2
    rw [mapping_eq, mapping_eq, draft, draft, hn, hm, Option.map_some, Option.map_some,
      Option.getD_some, Option.getD_some, Node.withChildren_inj (ht i n hn) (ht' j m hm), hbelow,
      picture_of_node? hn, picture_of_node? hm, Picture.node.injEq]

/-- **Two nodes are exported alike just if they are shown alike.** -/
theorem exportNode_eq_iff_picture (ht : t.Textual) (ht' : t'.Textual) (hi : i < t.size)
    (hj : j < t'.size) : t.exportNode i = t'.exportNode j ↔ t.picture i = t'.picture j := by
  rw [exportNode_eq_mapping, exportNode_eq_mapping]
  exact mapping_eq_iff_picture ht ht' hi hj

/-- **An export is made by recursion, and tells the tree.** Where parents and children
agree, the mapping of a node has its kind, its name and value if there are any, its place,
and the mappings of its children, in order, if there are any. Two nodes of parsed trees
have the same mapping just if all that is shown at and below them is the same. -/
theorem exportNode_by_recursion :
    (∀ (t : Tree) (i : Nat) (n : Node), t.Linked → t.node? i = some n →
      t.exportNode i = Datum.ofFields
        ([("kind", .text n.kind.text)] ++
          (n.name.map fun name => ("name", Datum.text name)).toList ++
          (n.value.map fun value => ("value", value.toDatum)).toList ++
          [("location", Datum.ofFields
            [("file", .text n.location.file), ("offset", .int n.location.offset),
              ("line", .int n.location.line), ("column", .int n.location.column)])] ++
          if n.children = [] then [] else [("children", .list (n.children.map t.exportNode))])) ∧
      ∀ (s s' r r' : Scanner) (name source name' source' : String) (i j : Nat),
        s.parse name (some source) = .ok s' → r.parse name' (some source') = .ok r' →
          i < s'.tree.size → j < r'.tree.size →
            (s'.tree.exportNode i = r'.tree.exportNode j ↔
              s'.tree.picture i = r'.tree.picture j) := by
  refine ⟨fun t i n h hn => ?_, fun s s' r r' name source name' source' i j hs hr hi hj => ?_⟩
  · rw [h.exportNode_eq hn, Datum.withChildren]
    cases n.children <;> rfl
  · exact exportNode_eq_iff_picture (Scanner.textual_parse hs) (Scanner.textual_parse hr) hi hj

/-- A call with its argument, and the same call with another one. -/
theorem exportNode_by_recursion_call :
    ∃ s' r', ({} : Scanner).parse "test" (some "f(a);") = .ok s' ∧
      ({} : Scanner).parse "test" (some "f(b);") = .ok r' ∧
      s'.tree.exportNode 1 = Datum.ofFields
        [("kind", .text "Call"), ("name", .text "f"),
          ("location", Datum.ofFields
            [("file", .text "test"), ("offset", .int 1), ("line", .int 1), ("column", .int 1)]),
          ("children", .list [s'.tree.exportNode 2])] ∧
      s'.tree.exportNode 2 ≠ r'.tree.exportNode 2 := by
  obtain ⟨s', r', hs, hr, hn, ⟨a, ha, hname⟩, ⟨b, hb, hname'⟩⟩ : ∃ s' r',
      ({} : Scanner).parse "test" (some "f(a);") = .ok s' ∧
      ({} : Scanner).parse "test" (some "f(b);") = .ok r' ∧
      s'.tree.node? 1 = some
        { kind := .call, location := { file := "test" }, parent := some 0, children := [2],
          name := some "f" } ∧
      (∃ a, s'.tree.node? 2 = some a ∧ a.name = some "a") ∧
      (∃ b, r'.tree.node? 2 = some b ∧ b.name = some "b") :=
    ⟨_, _, rfl, rfl, rfl, ⟨_, rfl, rfl⟩, ⟨_, rfl, rfl⟩⟩
  have hsound := Scanner.sound_parse {} "test" "f(a);"
  rw [hs] at hsound
  have hlinked : s'.tree.Linked := hsound.laid.toWellFormed.linked
  refine ⟨s', r', hs, hr, ?_, fun heq => ?_⟩
  · exact exportNode_by_recursion.1 s'.tree 1 _ hlinked hn
  · rw [exportNode_by_recursion.2 {} s' {} r' "test" "f(a);" "test" "f(b);" 2 2 hs hr
      (lt_size_of_node? ha) (lt_size_of_node? hb), picture_of_node? ha, picture_of_node? hb] at heq
    have heq : a.name = b.name := congrArg Caption.name (Picture.node.inj heq).1
    rw [hname, hname'] at heq
    exact absurd heq (by decide)

end Tree

end ScopeScript
