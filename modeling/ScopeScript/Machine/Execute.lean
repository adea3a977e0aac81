import ScopeScript.Machine.Basic

/-!
# Running a node

A run keeps a list of **tasks**: nodes still to be visited, and ends of calls.
Visiting a node puts its children on the list; visiting a call that refers to a
declared function also puts the body of that function in front of them, followed
by a task that ends the call. So neither the depth of a tree nor that of calls
is limited by anything but the options.

`Code.step` does one task and `Code.run` all of them. Every run comes to an end:
`Code.effort` bounds the tasks that can still come up, counting a node of which
calls may be nested `n` deep as heavier than all bodies of which they may be
nested `n - 1` deep.
-/

namespace ScopeScript

/-- Something still to be done. -/
inductive Task where
  /-- Visit a node and all below it. -/
  | visit (node : NodeRef)
  /-- End the innermost call. -/
  | leave
deriving DecidableEq, Repr

namespace Code

/-- Notes that a declared function was found and is not run. -/
def noteDisabled (c : Code) (call : NodeRef) (s : Store) : Store :=
  c.note ("Script function " ++ (c.name call).getD "None" ++ " found, invocation disabled") s

/-- Does the first task. Returns the tasks that are left. -/
def step (c : Code) (task : Task) (rest : List Task) (s : Store) :
    Except Failure (List Task) × Store :=
  match task with
  | .leave => (.ok rest, { s with frames := s.frames.tail })
  | .visit r =>
    match c.forest.node? r with
    | none => (.ok rest, s)
    | some n =>
      let s := c.note ("Execute node: " ++ n.text) s
      if n.kind = .function && c.options.invokeFunctions then (.ok rest, s)
      else
        let rest := (c.forest.below r).map .visit ++ rest
        if n.kind ≠ .call then (.ok rest, s)
        else
          match c.findFunction r with
          | none =>
            match c.callNative r s with
            | (.error e, s) => (.error e, s)
            | (.ok _, s) => (.ok rest, s)
          | some func =>
            if c.options.invokeFunctions then
              match c.enter func r s with
              | .error e => (.error (.script e), s)
              | .ok s => (.ok ((c.body func).map .visit ++ .leave :: rest), s)
            else (.ok rest, c.noteDisabled r s)

/-! ### Runs come to an end -/

/-- What one node counts for when calls may be nested that much deeper. -/
def unitEffort (c : Code) : (depth : Nat) → Nat
  | 0 => 1
  | depth + 1 => c.forest.capacity * c.unitEffort depth + 2

/-- A bound for the tasks that come up, where `level` calls are under way. -/
def effort (c : Code) : List Task → (level : Nat) → Nat
  | [], _ => 0
  | .leave :: rest, level => c.effort rest (level - 1) + 1
  | .visit r :: rest, level =>
    c.forest.weight r * c.unitEffort (c.options.maxCallDepth - level) + c.effort rest level

/-- A node takes some effort at any depth. -/
theorem unitEffort_pos (c : Code) (depth : Nat) : 0 < c.unitEffort depth := by
  cases depth <;> simp [unitEffort]

/-- Keeping the trace does not touch the frames. -/
@[simp] theorem frames_note (c : Code) (line : String) (s : Store) :
    (c.note line s).frames = s.frames := by
  unfold note
  split <;> rfl

/-- Native functions do not touch the frames. -/
theorem frames_callNative (c : Code) (call : NodeRef) (s : Store) :
    (c.callNative call s).2.frames = s.frames := by
  unfold callNative
  split
  · rfl
  · dsimp only
    split
    · rfl
    · split <;> rfl

/-- The effort for nodes in front of other tasks. -/
theorem effort_visits (c : Code) (rs : List NodeRef) (rest : List Task) (level : Nat) :
    c.effort (rs.map .visit ++ rest) level
      = total (rs.map c.forest.weight) * c.unitEffort (c.options.maxCallDepth - level)
        + c.effort rest level := by
  induction rs with
  | nil => simp
  | cons r rs ih =>
    simp only [List.map_cons, List.cons_append, effort, ih, total_cons, Nat.add_mul]
    omega

/-- Going on to the children of a node takes less than the node. -/
theorem effort_below_lt (c : Code) (r : NodeRef) (rest : List Task) (level : Nat) :
    c.effort ((c.forest.below r).map .visit ++ rest) level < c.effort (.visit r :: rest) level := by
  have hw := c.forest.total_weight_below r
  have hu := c.unitEffort_pos (c.options.maxCallDepth - level)
  rw [effort_visits, effort, ← hw, Nat.add_mul]
  omega

/-- The statements of a body weigh no more than the forest. -/
theorem total_weight_body_le (c : Code) (func : NodeRef) :
    total ((c.body func).map c.forest.weight) ≤ c.forest.capacity := by
  unfold body
  cases h : c.forest.childOfKind? func .functionImpl with
  | none => simp
  | some impl =>
    obtain ⟨n, hn⟩ : ∃ n, c.forest.node? impl = some n := by
      obtain ⟨i, hi, rfl⟩ := Option.map_eq_some_iff.1 h
      unfold Forest.onTree at hi
      split at hi
      · rename_i t ht
        have hk := List.find?_some hi
        simp only [Tree.kind?, beq_iff_eq, Option.map_eq_some_iff] at hk
        obtain ⟨n, hn, -⟩ := hk
        exact ⟨n, by simp [Forest.node?, ht, hn]⟩
      · cases hi
    have h₁ := c.forest.total_weight_below impl
    have h₂ := Forest.weight_le_capacity hn
    dsimp only
    omega

/-- What `enter` does to the frames: there is one more, and there was room for it. -/
theorem frames_enter {c : Code} {func call : NodeRef} {s s' : Store}
    (h : c.enter func call s = .ok s') :
    s'.frames.length = s.frames.length + 1 ∧ s.frames.length < c.options.maxCallDepth := by
  unfold enter at h
  split at h
  · cases h
  · rename_i hd
    dsimp only at h
    split at h
    · cases h
    · cases h
      simp
      omega

/-- Every task that is done leaves less to do. -/
theorem effort_step {c : Code} {task : Task} {rest tasks : List Task} {s s' : Store}
    (h : c.step task rest s = (.ok tasks, s')) :
    c.effort tasks s'.frames.length < c.effort (task :: rest) s.frames.length := by
  cases task with
  | leave =>
    simp only [step, Prod.mk.injEq, Except.ok.injEq] at h
    obtain ⟨rfl, rfl⟩ := h
    simp [effort]
  | visit r =>
    have hdrop : c.effort rest s.frames.length < c.effort (.visit r :: rest) s.frames.length := by
      have h₁ := c.effort_below_lt r rest s.frames.length
      rw [effort_visits] at h₁
      omega
    have hbelow := c.effort_below_lt r rest s.frames.length
    simp only [step] at h
    split at h
    · simp only [Prod.mk.injEq, Except.ok.injEq] at h
      obtain ⟨rfl, rfl⟩ := h
      exact hdrop
    · split at h
      · simp only [Prod.mk.injEq, Except.ok.injEq] at h
        obtain ⟨rfl, rfl⟩ := h
        simpa using hdrop
      · split at h
        · simp only [Prod.mk.injEq, Except.ok.injEq] at h
          obtain ⟨rfl, rfl⟩ := h
          simpa using hbelow
        · split at h
          · split at h
            · simp at h
            · rename_i hc
              simp only [Prod.mk.injEq, Except.ok.injEq] at h
              obtain ⟨rfl, rfl⟩ := h
              have hframes := congrArg (fun p => p.2.frames) hc
              simp only [frames_callNative, frames_note] at hframes
              simpa [← hframes] using hbelow
          · rename_i func hf
            split at h
            · split at h
              · simp at h
              · rename_i s₁ he
                simp only [Prod.mk.injEq, Except.ok.injEq] at h
                obtain ⟨rfl, rfl⟩ := h
                obtain ⟨hlen, hroom⟩ := frames_enter he
                simp only [frames_note] at hlen hroom
                have hb := c.total_weight_body_le func
                have hw := c.forest.total_weight_below r
                rw [effort_visits, hlen]
                simp only [effort, Nat.add_sub_cancel]
                rw [effort_visits, ← hw, Nat.add_mul]
                obtain ⟨d, hd⟩ : ∃ d, c.options.maxCallDepth - s.frames.length = d + 1 :=
                  ⟨c.options.maxCallDepth - s.frames.length - 1, by omega⟩
                have hd' : c.options.maxCallDepth - (s.frames.length + 1) = d := by omega
                rw [hd, hd', Nat.one_mul]
                have := Nat.mul_le_mul_right (c.unitEffort d) hb
                have hu : c.unitEffort (d + 1) = c.forest.capacity * c.unitEffort d + 2 := rfl
                omega
            · simp only [Prod.mk.injEq, Except.ok.injEq] at h
              obtain ⟨rfl, rfl⟩ := h
              simpa [noteDisabled] using hbelow

/-- Does all tasks, up to the first failure. -/
def run (c : Code) (tasks : List Task) (s : Store) : Except Failure Unit × Store :=
  match tasks with
  | [] => (.ok (), s)
  | task :: rest =>
    match _h : c.step task rest s with
    | (.ok tasks, s) => c.run tasks s
    | (.error e, s) => (.error e, s)
termination_by c.effort tasks s.frames.length
decreasing_by exact effort_step _h

/-! ### Entry points -/

/-- Keeps only the outermost frames, as many as there were. -/
def Store.dropTo (count : Nat) (s : Store) : Store :=
  { s with frames := s.frames.drop (s.frames.length - count) }

/-- Runs a node and all below it. Calls that a failure leaves under way are
ended. -/
def executeNode (c : Code) (r : NodeRef) (s : Store) : Except Failure Unit × Store :=
  let (result, s') := c.run [.visit r] s
  (result, Store.dropTo s.frames.length s')

/-- Runs nodes one after the other, up to the first failure. -/
def executeNodes (c : Code) (s : Store) : List NodeRef → Except Failure Unit × Store
  | [] => (.ok (), s)
  | r :: rest =>
    match c.executeNode r s with
    | (.ok (), s) => c.executeNodes s rest
    | (.error e, s) => (.error e, s)

/-- Runs the body of a function with the arguments of a call. -/
def invoke (c : Code) (func call : NodeRef) (s : Store) : Except Failure Value × Store :=
  match c.enter func call s with
  | .error e => (.error (.script e), s)
  | .ok s =>
    let (result, s) := c.executeNodes s (c.body func)
    (result.map fun _ => .none, { s with frames := s.frames.tail })

/-- Makes a call, without running what is below it. -/
def call (c : Code) (r : NodeRef) (s : Store) : Except Failure Value × Store :=
  match c.findFunction r with
  | some func =>
    if c.options.invokeFunctions then c.invoke func r s else (.ok .none, c.noteDisabled r s)
  | none => c.callNative r s

end Code

end ScopeScript
