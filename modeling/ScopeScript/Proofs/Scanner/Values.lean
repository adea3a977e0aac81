import ScopeScript.Proofs.Scanner.Growth

/-!
# The values of a script are texts

A node can be given any value, but the scanner gives none but texts: a word that stands
alone is the value of its node, and so is an argument of a call, also where it was written
as a parameter and the header became a call. **In a parsed tree every value is a text**
(`ScopeScript.Scanner.textual_parse`).
-/

namespace ScopeScript

/-- **All values in the tree are texts.** -/
def Tree.Textual (t : Tree) : Prop := ∀ i n, t.node? i = some n → n.IsTextual

namespace Tree.Textual

variable {t : Tree}

theorem modify (h : t.Textual) (i : Nat) {f : Node → Node} (hf : KeepsTextual f) :
    (t.modify i f).Textual := by
  intro j n hn
  rw [node?_modify] at hn
  split at hn
  · obtain ⟨m, hm, rfl⟩ := Option.map_eq_some_iff.mp hn
    exact hf m (h j m hm)
  · exact h j n hn

theorem addChild (h : t.Textual) (p : Nat) (kind : NodeKind) (place : Location) :
    (t.addChild p kind place).1.Textual := by
  have hpush : Tree.Textual
      { t with nodes := t.nodes.push { kind, location := place, parent := some p } } := by
    intro j n hn
    rw [node?, Array.getElem?_push] at hn
    split at hn
    · cases hn
      rintro v ⟨⟩
    · exact h j n hn
  exact hpush.modify p fun _ => id

end Tree.Textual

namespace Scanner

variable {s s' : Scanner}

/-- What is adopted gets its name for its value. -/
theorem textual_adoptParameters {call : Nat} {ps : List Nat}
    (h : s.adoptParameters call ps = .ok s') (ht : s.tree.Textual) : s'.tree.Textual := by
  induction ps generalizing s with
  | nil =>
    cases h
    exact ht
  | cons p ps ih =>
    cases hname : s.tree.name? p with
    | none =>
      rw [adoptParameters_cons_none hname] at h
      cases h
    | some name =>
      rw [adoptParameters_cons_some hname] at h
      refine ih h (ht.modify p fun n _ v hv => ?_)
      exact (Option.map_eq_some_iff.mp hv).imp fun text htext => htext.2.symm

theorem textual_hoistParameters (hk : s.cursorKind = .function)
    (h : s.asCall.hoistParameters s.cursor = .ok s') (ht : s.tree.Textual) :
    s'.tree.Textual := by
  have hcall : s.asCall.tree.Textual := ht.modify s.cursor fun _ => id
  cases hlist : s.tree.childOfKind? s.cursor .functionParams with
  | none =>
    rw [hoistParameters_none hk hlist] at h
    cases h
    exact hcall
  | some l =>
    rw [hoistParameters_some hk hlist] at h
    obtain ⟨s₁, hadopt, h⟩ := Scanned.andThen_ok.mp h
    cases h
    have hadopted := textual_adoptParameters hadopt hcall
    refine Tree.Textual.modify (Tree.Textual.modify hadopted s.cursor ?_) l ?_
    · exact fun _ => id
    · exact fun _ => id

/-- **Every move keeps values to texts.** -/
theorem Move.textual (h : Move s s') (ht : s.tree.Textual) : s'.tree.Textual := by
  cases h with
  | quiet htree _ | pop htree _ => rwa [htree]
  | label i f _ hf htree _ =>
    rw [htree]
    exact ht.modify i hf
  | leaf kind place _ htree _ | push kind place _ htree _ =>
    rw [htree]
    exact ht.addChild s.cursor kind place
  | retire hh h => exact textual_hoistParameters hh.1 h ht

/-- **In a parsed tree every value is a text.** -/
theorem textual_parse {name : String} {content : Option String}
    (h : s.parse name content = .ok s') : s'.tree.Textual := by
  have hstart : (s.start name).tree.Textual := by
    intro i n hn v hv
    rw [eq_of_node?_start hn] at hv
    cases hv
  cases content with
  | none => cases h
  | some text =>
    by_cases htext : text = ""
    · subst htext
      cases h
    · have hfollows := s.parse_follows name htext
      rw [h] at hfollows
      exact Reach.keeps (P := fun r => r.tree.Textual) (fun _ _ => Move.textual) hfollows hstart

end Scanner

end ScopeScript
