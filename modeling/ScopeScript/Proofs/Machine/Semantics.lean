import ScopeScript.Machine.Execute
import ScopeScript.Proofs.Tree.WellFormed

/-!
# What running a node means

Running a node is easily said by recursion: note the node, make the call if it
is one, and then run its children from left to right. A call of a declared
function runs the statements of its body in a new frame, which is dropped
afterwards whether they failed or not. `ScopeScript.Code.Does` says just this,
rule by rule, together with the native calls that are made on the way and the
arguments they are given.

Wherever all trees are well-formed the rules apply to every node
(`ScopeScript.Code.exists_does`): calls can only be nested as deep as the options
allow.
-/

namespace ScopeScript

/-- A call of a native function. -/
structure NativeCall where
  /-- The name it is called by. -/
  name : String
  /-- What it is given. -/
  arguments : List Value

/-- What there is to be done. -/
inductive Work where
  /-- Run a node and all below it. -/
  | node (r : NodeRef)
  /-- Run nodes from left to right. -/
  | nodes (rs : List NodeRef)
  /-- Make a call, and leave out what is below it. -/
  | call (r : NodeRef)

/-- All trees are well-formed. -/
def Forest.WellFormed (f : Forest) : Prop := ∀ t ∈ f.trees, t.WellFormed

namespace Forest

variable {f : Forest} {r q : NodeRef} {n : Node}

theorem below_eq_children (hw : f.WellFormed) (r : NodeRef) : f.below r = f.children r := by
  unfold below children onTree
  cases ht : f.tree? r.tree with
  | none => rfl
  | some t =>
    have hmem : t ∈ f.trees := Array.mem_of_getElem? ht
    dsimp only
    rw [(hw t hmem).below_eq_children]

theorem exists_node?_of_mem_children (hw : f.WellFormed) (hq : q ∈ f.children r) :
    ∃ n, f.node? q = some n := by
  obtain ⟨i, hi, rfl⟩ := List.mem_map.mp hq
  unfold onTree at hi
  cases ht : f.tree? r.tree with
  | none => simp [ht] at hi
  | some t =>
    rw [ht] at hi
    have hmem : t ∈ f.trees := Array.mem_of_getElem? ht
    obtain ⟨n, hn⟩ := Tree.exists_node? ((hw t hmem).lt_size_of_mem hi)
    exact ⟨n, by simp [node?, ht, hn]⟩

theorem weight_lt_of_mem_children (hw : f.WellFormed) (hq : q ∈ f.children r) :
    f.weight q < f.weight r := by
  have hsum := f.total_weight_below r
  rw [below_eq_children hw] at hsum
  have hle : f.weight q ≤ total ((f.children r).map f.weight) :=
    le_total_of_mem (List.mem_map_of_mem hq)
  omega

end Forest

namespace Code

/-- The native call that a call amounts to, if no script declares the function
and it is a native one. -/
def nativeCall? (c : Code) (r : NodeRef) (s : Store) : Option NativeCall :=
  match c.findFunction r, c.name r with
  | none, some name =>
    if (c.natives.lookup name).isSome then some ⟨name, c.arguments s r⟩ else none
  | _, _ => none

/-- The statements of a function: there are none if it has no body. -/
def statements (c : Code) (func : NodeRef) : List NodeRef :=
  match c.forest.childOfKind? func .functionImpl with
  | none => []
  | some impl => c.forest.children impl

/-- The store once the trace tells of a node. -/
def visited (c : Code) (n : Node) (s : Store) : Store := c.note ("Execute node: " ++ n.text) s

/-- **What some work does to a store**: the native calls it makes, whether it
fails, and the store afterwards. -/
inductive Does (c : Code) : Work → Store → List NativeCall → Except Failure Unit → Store → Prop
  /-- The declaration of a function is not run where functions can be called. -/
  | declaration {r : NodeRef} {n : Node} {s : Store} (hn : c.forest.node? r = some n)
      (hk : n.kind = .function) (hi : c.options.invokeFunctions = true) :
      Does c (.node r) s [] (.ok ()) (c.visited n s)
  /-- A node that is no call is its children. -/
  | inner {r : NodeRef} {n : Node} {s s' : Store} {calls : List NativeCall}
      {out : Except Failure Unit} (hn : c.forest.node? r = some n) (hk : n.kind ≠ .call)
      (hi : ¬(n.kind = .function ∧ c.options.invokeFunctions = true))
      (h : Does c (.nodes (c.forest.children r)) (c.visited n s) calls out s') :
      Does c (.node r) s calls out s'
  /-- A call is made before its children are run. -/
  | called {r : NodeRef} {n : Node} {s s₁ s₂ : Store} {calls calls' : List NativeCall}
      {out : Except Failure Unit} (hn : c.forest.node? r = some n) (hk : n.kind = .call)
      (h : Does c (.call r) (c.visited n s) calls (.ok ()) s₁)
      (h' : Does c (.nodes (c.forest.children r)) s₁ calls' out s₂) :
      Does c (.node r) s (calls ++ calls') out s₂
  /-- The children of a call that fails are not run. -/
  | failed {r : NodeRef} {n : Node} {s s' : Store} {calls : List NativeCall} {e : Failure}
      (hn : c.forest.node? r = some n) (hk : n.kind = .call)
      (h : Does c (.call r) (c.visited n s) calls (.error e) s') :
      Does c (.node r) s calls (.error e) s'
  /-- The arguments of a call cannot be bound. -/
  | refused {r func : NodeRef} {s : Store} {e : ScriptError}
      (hi : c.options.invokeFunctions = true) (hf : c.findFunction r = some func)
      (he : c.enter func r s = .error e) : Does c (.call r) s [] (.error (.script e)) s
  /-- The arguments of a call are bound in a new frame, which is dropped after the
  body. -/
  | invoked {r func : NodeRef} {s s₁ s₂ : Store} {calls : List NativeCall}
      {out : Except Failure Unit} (hi : c.options.invokeFunctions = true)
      (hf : c.findFunction r = some func) (he : c.enter func r s = .ok s₁)
      (h : Does c (.nodes (c.statements func)) s₁ calls out s₂) :
      Does c (.call r) s calls out { s₂ with frames := s₂.frames.tail }
  /-- Any other call is made directly. -/
  | direct {r : NodeRef} {s s' : Store} {result : Except Failure Value}
      (hi : c.options.invokeFunctions = false ∨ c.findFunction r = none)
      (h : c.call r s = (result, s')) :
      Does c (.call r) s (c.nativeCall? r s).toList (result.map fun _ => ()) s'
  /-- There is nothing to do. -/
  | done {s : Store} : Does c (.nodes []) s [] (.ok ()) s
  /-- The first node is run, and then the others. -/
  | next {r : NodeRef} {rs : List NodeRef} {s s₁ s₂ : Store} {calls calls' : List NativeCall}
      {out : Except Failure Unit} (h : Does c (.node r) s calls (.ok ()) s₁)
      (h' : Does c (.nodes rs) s₁ calls' out s₂) :
      Does c (.nodes (r :: rs)) s (calls ++ calls') out s₂
  /-- The first node fails, and the others are not run. -/
  | stop {r : NodeRef} {rs : List NodeRef} {s s' : Store} {calls : List NativeCall} {e : Failure}
      (h : Does c (.node r) s calls (.error e) s') :
      Does c (.nodes (r :: rs)) s calls (.error e) s'

variable {c : Code} {r func : NodeRef} {s s' : Store} {calls : List NativeCall}
  {out : Except Failure Unit}

/-! ### Frames -/

@[simp] theorem frames_visited (c : Code) (n : Node) (s : Store) :
    (c.visited n s).frames = s.frames :=
  c.frames_note _ s

theorem frames_of_enter (h : c.enter func r s = .ok s') :
    s'.frames = bind (c.parameters func) (c.arguments s r) :: s.frames := by
  unfold enter at h
  split at h
  · cases h
  · dsimp only at h
    split at h
    · cases h
    · cases h
      rw [frames_note]

theorem exists_frame_of_enter (h : c.enter func r s = .ok s') :
    ∃ frame, s'.frames = frame :: s.frames :=
  ⟨_, frames_of_enter h⟩

/-- A call that is made directly. -/
theorem call_of_direct (hi : c.options.invokeFunctions = false ∨ c.findFunction r = none)
    (s : Store) :
    c.call r s = match c.findFunction r with
      | some _ => (.ok .none, c.noteDisabled r s)
      | none => c.callNative r s := by
  unfold call
  cases hf : c.findFunction r with
  | none => rfl
  | some func =>
    have hoff : c.options.invokeFunctions = false := hi.resolve_right (by simp [hf])
    simp [hoff]

theorem frames_call_of_direct
    (hi : c.options.invokeFunctions = false ∨ c.findFunction r = none) (s : Store) :
    (c.call r s).2.frames = s.frames := by
  rw [call_of_direct hi]
  split
  · exact c.frames_note _ s
  · exact c.frames_callNative r s

/-- **Whatever is done, the frames are the same afterwards.** -/
theorem Does.frames {w : Work} (h : c.Does w s calls out s') : s'.frames = s.frames := by
  induction h with
  | declaration => exact frames_visited _ _ _
  | inner _ _ _ _ ih => rw [ih, frames_visited]
  | called _ _ _ _ ih ih' => rw [ih', ih, frames_visited]
  | failed _ _ _ ih => rw [ih, frames_visited]
  | refused => rfl
  | invoked _ _ he _ ih =>
    obtain ⟨frame, hframe⟩ := exists_frame_of_enter he
    rw [ih, hframe, List.tail_cons]
  | @direct _ s _ _ hi h =>
    have hframes := frames_call_of_direct hi s
    rwa [h] at hframes
  | done => rfl
  | next _ _ ih ih' => rw [ih', ih]
  | stop _ ih => exact ih

/-! ### Every node can be run -/

/-- Some work can be done from a store. -/
def CanDo (c : Code) (w : Work) (s : Store) : Prop := ∃ calls out s', c.Does w s calls out s'

theorem canDo_nodes {rs : List NodeRef} {s : Store}
    (h : ∀ r ∈ rs, ∀ s' : Store, s'.frames = s.frames → c.CanDo (.node r) s') :
    c.CanDo (.nodes rs) s := by
  induction rs generalizing s with
  | nil => exact ⟨_, _, _, .done⟩
  | cons r rs ih =>
    obtain ⟨calls, out, s₁, hr⟩ := h r List.mem_cons_self s rfl
    cases out with
    | error e => exact ⟨_, _, _, .stop hr⟩
    | ok u =>
      obtain ⟨calls', out, s₂, hrs⟩ := ih (s := s₁) fun q hq s' hs' =>
        h q (List.mem_cons_of_mem r hq) s' (hs'.trans hr.frames)
      exact ⟨_, _, _, .next hr hrs⟩

/-- A call can be made if bodies can be run where one more call is under way. -/
theorem canDo_call (r : NodeRef) (s : Store)
    (h : ∀ func s', c.enter func r s = .ok s' → c.CanDo (.nodes (c.statements func)) s') :
    c.CanDo (.call r) s := by
  by_cases hi : c.options.invokeFunctions = false ∨ c.findFunction r = none
  · exact ⟨_, _, _, .direct hi rfl⟩
  · obtain ⟨hon, hfound⟩ := not_or.mp hi
    rw [Bool.not_eq_false] at hon
    obtain ⟨func, hf⟩ := Option.ne_none_iff_exists'.mp hfound
    cases he : c.enter func r s with
    | error e => exact ⟨_, _, _, .refused hon hf he⟩
    | ok s₁ =>
      obtain ⟨calls, out, s₂, hbody⟩ := h func s₁ he
      exact ⟨_, _, _, .invoked hon hf he hbody⟩

theorem canDo_node {n : Node} (hn : c.forest.node? r = some n)
    (hcall : c.CanDo (.call r) (c.visited n s))
    (hrest : ∀ s' : Store, s'.frames = s.frames → c.CanDo (.nodes (c.forest.children r)) s') :
    c.CanDo (.node r) s := by
  by_cases hk : n.kind = .call
  · obtain ⟨calls, out, s₁, h⟩ := hcall
    cases out with
    | error e => exact ⟨_, _, _, .failed hn hk h⟩
    | ok u =>
      obtain ⟨calls', out, s₂, h'⟩ := hrest s₁ (h.frames.trans (frames_visited c n s))
      exact ⟨_, _, _, .called hn hk h h'⟩
  · by_cases hi : n.kind = .function ∧ c.options.invokeFunctions = true
    · exact ⟨_, _, _, .declaration hn hi.1 hi.2⟩
    · obtain ⟨calls, out, s', h⟩ := hrest _ (frames_visited c n s)
      exact ⟨_, _, _, .inner hn hk hi h⟩

theorem exists_node?_of_mem_statements (hw : c.forest.WellFormed) {q : NodeRef}
    (hq : q ∈ c.statements func) : ∃ n, c.forest.node? q = some n := by
  unfold statements at hq
  split at hq
  · cases hq
  · exact Forest.exists_node?_of_mem_children hw hq

/-- **Every node can be run.** -/
theorem exists_does (hw : c.forest.WellFormed) {n : Node} (hn : c.forest.node? r = some n)
    (s : Store) : ∃ calls out s', c.Does (.node r) s calls out s' := by
  -- first by how many more calls can be nested, and then by what is below the node
  induction hd : c.options.maxCallDepth - s.frames.length using Nat.strongRecOn
    generalizing r n s with
  | _ depth ihdepth =>
    induction hweight : c.forest.weight r using Nat.strongRecOn generalizing r n s with
    | _ weight ihweight =>
      refine canDo_node hn (canDo_call r _ fun func s₁ he => ?_) fun s' hs' => ?_
      · obtain ⟨hlength, hroom⟩ := frames_enter he
        rw [frames_visited] at hlength hroom
        refine canDo_nodes fun q hq s₂ hs₂ => ?_
        obtain ⟨m, hm⟩ := exists_node?_of_mem_statements hw hq
        refine ihdepth _ ?_ hm s₂ rfl
        rw [hs₂, hlength]
        omega
      · refine canDo_nodes fun q hq s₂ hs₂ => ?_
        obtain ⟨m, hm⟩ := Forest.exists_node?_of_mem_children hw hq
        refine ihweight _ ?_ hm s₂ ?_ rfl
        · rw [← hweight]
          exact Forest.weight_lt_of_mem_children hw hq
        · rw [hs₂, hs', hd]

end Code

end ScopeScript
