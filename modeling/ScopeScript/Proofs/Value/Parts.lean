import ScopeScript.Value.Basic

/-!
# Values within values

Arrays and objects have **parts**, which are values again, and everything that is said of a
value *at every depth* is said of it and of its parts, and so on
(`ScopeScript.Value.Everywhere`). Proofs go the same way: what holds of a value whenever it
holds of its parts, holds of all values (`ScopeScript.Value.ind`).

Two such properties matter when values leave the machine and come back. A **tidy** value has
distinct keys in all of its objects. Not every `ScopeScript.Value` is tidy, since the entries
of an object are a list, but whatever is made is. And nothing is known of a function but that
it is one, so that what becomes of it elsewhere does not tell what it was.
-/

namespace ScopeScript.Value

variable {P Q : Value → Prop} {v w : Value}

/-- The values that a value is made of. -/
def parts : Value → List Value
  | object entries => entries.map Prod.snd
  | array items => items
  | _ => []

theorem sizeOf_lt_of_mem_parts (h : w ∈ v.parts) : sizeOf w < sizeOf v := by
  cases v with
  | object entries =>
    obtain ⟨entry, hentry, rfl⟩ := List.mem_map.mp h
    have hlist := List.sizeOf_lt_of_mem hentry
    obtain ⟨key, value⟩ := entry
    simp only [Prod.mk.sizeOf_spec, object.sizeOf_spec] at hlist ⊢
    omega
  | array items =>
    have hlist : sizeOf w < sizeOf items := List.sizeOf_lt_of_mem h
    simp only [array.sizeOf_spec]
    omega
  | _ => cases h

/-- **Induction over values**: a value is settled once its parts are. -/
theorem ind (h : ∀ v : Value, (∀ w ∈ v.parts, P w) → P v) (v : Value) : P v :=
  h v fun w hw =>
    have := sizeOf_lt_of_mem_parts hw
    ind h w
termination_by sizeOf v

/-- **The property holds at every depth.** -/
inductive Everywhere (P : Value → Prop) : Value → Prop
  /-- It holds of the value, and everywhere in its parts. -/
  | intro {v : Value} (here : P v) (below : ∀ w ∈ v.parts, Everywhere P w) : Everywhere P v

theorem everywhere_iff : v.Everywhere P ↔ P v ∧ ∀ w ∈ v.parts, w.Everywhere P :=
  ⟨fun ⟨here, below⟩ => ⟨here, below⟩, fun ⟨here, below⟩ => ⟨here, below⟩⟩

theorem everywhere_and : v.Everywhere (fun w => P w ∧ Q w) ↔ v.Everywhere P ∧ v.Everywhere Q := by
  induction v using ind with
  | h v ih =>
    rw [everywhere_iff, @everywhere_iff P, @everywhere_iff Q, forall₂_congr ih]
    constructor
    · rintro ⟨⟨hp, hq⟩, hparts⟩
      exact ⟨⟨hp, fun w hw => (hparts w hw).1⟩, hq, fun w hw => (hparts w hw).2⟩
    · rintro ⟨⟨hp, hps⟩, hq, hqs⟩
      exact ⟨⟨hp, hq⟩, fun w hw => ⟨hps w hw, hqs w hw⟩⟩

theorem everywhere_array {items : List Value} :
    (array items).Everywhere P ↔ P (array items) ∧ ∀ v ∈ items, v.Everywhere P := everywhere_iff

theorem everywhere_object {entries : List (String × Value)} :
    (object entries).Everywhere P ↔ P (object entries) ∧ ∀ e ∈ entries, e.2.Everywhere P :=
  everywhere_iff.trans (and_congr_right fun _ => List.forall_mem_map)

/-- The keys of an object. -/
def keys : Value → List String
  | object entries => entries.map Prod.fst
  | _ => []

/-- **In all objects the keys are distinct.** -/
def Tidy (v : Value) : Prop := v.Everywhere fun w => w.keys.Nodup

theorem parts_of_isScalar (h : v.isScalar) : v.parts = [] := by
  cases v <;> first | rfl | cases h

/-- A scalar has nothing below it. -/
theorem everywhere_of_isScalar (h : v.isScalar) : v.Everywhere P ↔ P v := by
  rw [everywhere_iff, parts_of_isScalar h]
  exact and_iff_left (List.forall_mem_nil _)

theorem tidy_of_isScalar (h : v.isScalar) : v.Tidy := by
  refine .intro ?_ fun w hw => ?_
  · cases v <;> first | exact List.nodup_nil | cases h
  · rw [parts_of_isScalar h] at hw
    cases hw

/-- **There is no function at any depth.** -/
def FunctionFree (v : Value) : Prop := v.Everywhere (· ≠ .function)

end ScopeScript.Value
