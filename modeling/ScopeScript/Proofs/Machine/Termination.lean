import Mathlib.Algebra.Ring.Nat
import Mathlib.Logic.Function.Iterate
import ScopeScript.Proofs.Machine.Frames

/-!
# Runs come to an end

The list of tasks grows and shrinks: a call puts the body of its function in front, and
the same body may come up again and again. **It runs empty all the same, or a task
fails** (`ScopeScript.Code.loop_ends`), whatever functions call each other, in
whatever trees, and however calls are nested in arguments.

## What is shown here

`ScopeScript.Code.run` is a total function, and so it has to end; but it only goes
on to children that stand behind their node, and one may ask what that leaves out. So
the loop is written down once more without any precaution: `ScopeScript.Code.pass`
puts *all* children on the list, and `ScopeScript.Code.turn` is repeated for as long as
there is something to be done. In a tree where a node is listed below itself this would
go on for ever. Where nodes stand in the order in which they were made
(`ScopeScript.Forest.Downward`), as they do in every well-formed tree, both are the same
(`ScopeScript.Code.pass_eq_step`). In the same way, a function is looked for all the way
up (`ScopeScript.Forest.Downward.ancestors_eq`).

The number of turns is bounded by the nodes below the first one, each counted for as
many bodies as may be run on its behalf: with `n` calls that can still be nested, one
node stands for at most `(capacity + 2) ^ n` tasks
(`ScopeScript.Code.unitEffort_le_pow`).
-/

namespace ScopeScript

/-! ### Ways up and down -/

namespace Forest

variable {f : Forest}

/-- **Nodes stand in the order in which they were made**: children behind the node that
lists them, and parents before what belongs to them. -/
structure Downward (f : Forest) : Prop where
  /-- A child stands behind the node that lists it, in the same tree. -/
  child : ∀ t ∈ f.trees, ∀ i, ∀ j ∈ t.children i, i < j ∧ j < t.size
  /-- A parent stands before the node that belongs to it. -/
  parent : ∀ t ∈ f.trees, ∀ i p, t.parent? i = some p → p < i

theorem WellFormed.downward (h : f.WellFormed) : f.Downward where
  child := fun t ht _ _ hj => ⟨(h t ht).lt_of_mem hj, (h t ht).lt_size_of_mem hj⟩
  parent := fun t ht => (h t ht).parent_lt

/-- No parent is left out on the way up. -/
theorem Downward.ancestors_eq (h : f.Downward) {t : Tree} (ht : t ∈ f.trees) {i p : Nat}
    (hp : t.parent? i = some p) : t.ancestors i = p :: t.ancestors p := by
  rw [Tree.ancestors, hp]
  exact if_pos (h.parent t ht i p hp)

/-- No child is left out on the way down. -/
theorem Downward.below_eq (h : f.Downward) (r : NodeRef) : f.below r = f.children r := by
  unfold below children onTree
  cases ht : f.tree? r.tree with
  | none => rfl
  | some t =>
    have hmem : t ∈ f.trees := Array.mem_of_getElem? ht
    refine congrArg (siblings r) (List.filter_eq_self.mpr fun j hj => ?_)
    obtain ⟨hlt, hsize⟩ := h.child t hmem r.node j hj
    simp [hlt, hsize]

end Forest

namespace Code

variable {c : Code}

theorem body_eq_of_downward (h : c.forest.Downward) (func : NodeRef) :
    c.body func = c.statements func := by
  unfold body statements
  cases c.forest.childOfKind? func .functionImpl with
  | none => rfl
  | some impl => exact h.below_eq impl

/-! ### The loop -/

/-- **One task, without any precaution**: all children of a node are put on the list,
wherever they stand. -/
def pass (c : Code) (task : Task) (rest : List Task) (s : Store) :
    Except Failure (List Task) × Store :=
  match task with
  | .leave => (.ok rest, { s with frames := s.frames.tail })
  | .visit r =>
    match c.forest.node? r with
    | none => (.ok rest, s)
    | some n =>
      let s := c.visited n s
      if n.kind = .function && c.options.invokeFunctions then (.ok rest, s)
      else
        let rest := (c.forest.children r).map .visit ++ rest
        if n.kind ≠ .call then (.ok rest, s)
        else
          match if c.options.invokeFunctions then c.findFunction r else none with
          | none =>
            let (result, s) := c.call r s
            (result.map fun _ => rest, s)
          | some func =>
            match c.enter func r s with
            | .error e => (.error (.script e), s)
            | .ok s => (.ok ((c.statements func).map .visit ++ .leave :: rest), s)

/-- **One turn of the loop**: the first task is done, if there is one and none has
failed. -/
def turn (c : Code) : Except Failure (List Task) × Store → Except Failure (List Task) × Store
  | (.ok (task :: rest), s) => c.pass task rest s
  | (.ok [], s) => (.ok [], s)
  | (.error e, s) => (.error e, s)

/-- **Where nodes stand in order, no precaution is needed.** -/
theorem pass_eq_step (h : c.forest.Downward) (task : Task) (rest : List Task) (s : Store) :
    c.pass task rest s = c.step task rest s := by
  obtain ⟨out, s', hsteps⟩ := c.exists_steps task rest s
  rw [hsteps.step_eq]
  cases hsteps with
  | leave => rfl
  | missing hn => simp [pass, hn]
  | declaration hn hk hi => simp [pass, hn, hk, hi]
  | inner hn hk hi => simp [pass, hn, hk, hi, h.below_eq]
  | @direct r n s' result hn hk hi hcall =>
    have hnone : (if c.options.invokeFunctions then c.findFunction r else none) = none := by
      rcases hi with hi | hi <;> simp [hi]
    simp [pass, hn, hk, hnone, hcall, h.below_eq]
  | refused hn hk hi hf he => simp [pass, hn, hk, hi, hf, he]
  | entered hn hk hi hf he =>
    simp [pass, hn, hk, hi, hf, he, h.below_eq, body_eq_of_downward h]

/-! ### How often it is repeated -/

/-- The loop has come to an end: no task is left, or one has failed. -/
def Ended (out : Except Failure (List Task)) : Prop := out = .ok [] ∨ ∃ e, out = .error e

theorem effort_pos (c : Code) (task : Task) (rest : List Task) (level : Nat) :
    0 < c.effort (task :: rest) level := by
  cases task with
  | leave => exact Nat.succ_pos _
  | visit r => exact Nat.lt_of_le_of_lt (Nat.zero_le _) (c.effort_below_lt r rest level)

/-- **The loop ends within the effort for its tasks**, as the run does. -/
theorem ended_within (h : c.forest.Downward) (tasks : List Task) (s : Store) :
    ∃ k ≤ c.effort tasks s.frames.length,
      Ended (c.turn^[k] (.ok tasks, s)).1 ∧
        c.run tasks s = ((c.turn^[k] (.ok tasks, s)).1.map fun _ => (),
          (c.turn^[k] (.ok tasks, s)).2) := by
  induction tasks, s using Code.run.induct c with
  | case1 s =>
    refine ⟨0, Nat.zero_le _, Or.inl rfl, ?_⟩
    rw [Code.run]
    rfl
  | case2 s task rest tasks s' hstep ih =>
    obtain ⟨k, hk, hended, hrun⟩ := ih
    have hturn : c.turn (.ok (task :: rest), s) = (.ok tasks, s') :=
      (pass_eq_step h task rest s).trans hstep
    have hless := effort_step hstep
    refine ⟨k + 1, by omega, ?_⟩
    rw [Function.iterate_succ_apply, hturn, (turns_of_step hstep).run]
    exact ⟨hended, hrun⟩
  | case3 s task rest e s' hstep =>
    have hturn : c.turn (.ok (task :: rest), s) = (.error e, s') :=
      (pass_eq_step h task rest s).trans hstep
    refine ⟨1, c.effort_pos task rest _, ?_⟩
    rw [Function.iterate_one, hturn, (breaks_of_step hstep).run]
    exact ⟨Or.inr ⟨e, rfl⟩, rfl⟩

/-- What one node counts for grows by the same factor with every call that can be
nested. -/
theorem unitEffort_le_pow (c : Code) (depth : Nat) :
    c.unitEffort depth ≤ (c.forest.capacity + 2) ^ depth := by
  induction depth with
  | zero => exact Nat.le_refl 1
  | succ depth ih =>
    have hpos := c.unitEffort_pos depth
    calc c.unitEffort (depth + 1) = c.forest.capacity * c.unitEffort depth + 2 := rfl
      _ ≤ c.forest.capacity * c.unitEffort depth + 2 * c.unitEffort depth := by omega
      _ = c.unitEffort depth * (c.forest.capacity + 2) := by rw [← Nat.add_mul, Nat.mul_comm]
      _ ≤ (c.forest.capacity + 2) ^ depth * (c.forest.capacity + 2) := Nat.mul_le_mul_right _ ih

/-- **The loop of a run comes to an end.** Where nodes stand in order, after finitely
many turns no task is left or one of them has failed, and this is how running the node
ends. The turns are no more than the nodes at and below the first one, each counted
`(capacity + 2) ^ n` times, where `n` calls can still be nested. In each turn the way up
from a call, on which its function is looked for, is followed to its end. -/
theorem loop_ends (c : Code) (h : c.forest.Downward) (r : NodeRef) (s : Store) :
    (∃ k ≤ c.forest.weight r
          * (c.forest.capacity + 2) ^ (c.options.maxCallDepth - s.frames.length),
      ((c.turn^[k] (.ok [.visit r], s)).1 = .ok [] ∨
          ∃ e, (c.turn^[k] (.ok [.visit r], s)).1 = .error e) ∧
        c.executeNode r s = ((c.turn^[k] (.ok [.visit r], s)).1.map fun _ => (),
          Store.dropTo s.frames.length (c.turn^[k] (.ok [.visit r], s)).2)) ∧
      ∀ t ∈ c.forest.trees, ∀ i p, t.parent? i = some p → t.ancestors i = p :: t.ancestors p := by
  refine ⟨?_, fun t ht i p hp => h.ancestors_eq ht hp⟩
  obtain ⟨k, hk, hended, hrun⟩ := ended_within h [.visit r] s
  refine ⟨k, Nat.le_trans hk ?_, hended, by rw [executeNode, hrun]⟩
  rw [effort, effort, Nat.add_zero]
  exact Nat.mul_le_mul_left _ (c.unitEffort_le_pow _)

/-- The tree of `function f(){f();}f();`. -/
def recursiveTree : Tree :=
  { name := ""
    nodes :=
      #[{ kind := .global, location := {}, children := [1, 5] },
        { kind := .function, location := {}, parent := some 0, children := [2, 3]
          name := some "f" },
        { kind := .functionParams, location := { offset := 11, column := 11 }
          parent := some 1 },
        { kind := .functionImpl, location := { offset := 13, column := 13 }
          parent := some 1, children := [4] },
        { kind := .call, location := { offset := 14, column := 14 }
          parent := some 3, name := some "f" },
        { kind := .call, location := { offset := 19, column := 19 }
          parent := some 0, name := some "f" }] }

/-- That tree, where functions can be called. -/
def recursive : Code :=
  { options := { invokeFunctions := true }, forest := { trees := #[recursiveTree] }
    program := [0] }

theorem wellFormed_recursive : recursive.forest.WellFormed := by
  intro t ht
  obtain rfl : t = recursiveTree := by simpa [recursive] using ht
  have hsound := ({} : Scanner).sound_parse "" "function f()\x7bf();\x7df();"
  obtain ⟨s, hs, hparse⟩ : ∃ s : Scanner, s.tree = recursiveTree ∧
      ({} : Scanner).parse "" (some "function f()\x7bf();\x7df();") = .ok s := ⟨_, rfl, rfl⟩
  rw [hparse] at hsound
  exact hs ▸ hsound.wellFormed.tree

/-- A function that calls itself does not keep the loop going for ever. -/
theorem loop_ends_recursive :
    recursive.forest.Downward ∧
      ∃ k ≤ recursive.forest.weight ⟨0, 0⟩ * (recursive.forest.capacity + 2) ^ 256,
        (recursive.turn^[k] (.ok [.visit ⟨0, 0⟩], {})).1 = .ok [] ∨
          ∃ e, (recursive.turn^[k] (.ok [.visit ⟨0, 0⟩], {})).1 = .error e := by
  have hdown := wellFormed_recursive.downward
  obtain ⟨⟨k, hk, hended, -⟩, -⟩ := loop_ends recursive hdown ⟨0, 0⟩ {}
  exact ⟨hdown, k, hk, hended⟩

end Code

end ScopeScript
