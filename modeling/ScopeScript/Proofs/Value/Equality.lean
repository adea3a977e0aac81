import Mathlib.Data.List.Forall2
import Mathlib.Data.List.Nodup
import Mathlib.Data.List.Perm.Subperm
import Mathlib.Data.List.Zip
import ScopeScript.Proofs.Value.Parts

/-!
# When two values are equal

Values are compared by going through both at once: items one by one, and entries by looking
up each key of the first object in the second (`ScopeScript.Value.same`). This file says when
they are equal without looking anything up. **Equal values have the same kind and the same
content** (`ScopeScript.Value.Equal`): the same scalar, arrays of one length that are equal item
by item, or objects with the same keys and equal values under each of them, whatever the order
in which these were entered.

Said in this way equality is symmetric and transitive at once, since nothing in it depends on
which object is gone through. It is reflexive only where there is no *not a number*, which
equals nothing. What remains is that the comparison decides it
(`ScopeScript.Value.same_iff_equal`), and this rests on the keys of objects being distinct: two
objects with as many entries, of which the first has no key that the second lacks, have the
same keys.

Two things follow. Entries may change places at any depth
(`ScopeScript.Value.Rearranged.equal`), and wherever one of two equal values has something, the
other has something of the same kind in the same position (`ScopeScript.Value.Equal.at?`).
-/

namespace ScopeScript

/-! ### Numbers -/

namespace Number.Double

variable {a b c : Double}

/-- **Two doubles are the same number**: they are one datum, other than *not a number*, or both
are zero. -/
def SameNumber (a b : Double) : Prop := a ≠ nan ∧ (a = b ∨ ∃ m n, a = zero m ∧ b = zero n)

theorem exists_eq_zero_iff {negative : Bool} {e : Fin 2047} {f : Fin (1 <<< 52)} :
    (∃ m, finite negative e f = zero m) ↔ e.val = 0 ∧ f.val = 0 := by
  constructor
  · rintro ⟨m, h⟩
    cases h
    exact ⟨rfl, rfl⟩
  · rintro ⟨he, hf⟩
    exact ⟨negative, by rw [zero, Fin.ext (b := 0) he, Fin.ext (b := ⟨0, by decide⟩) hf]⟩

theorem same_iff : a.same b ↔ a.SameNumber b := by
  cases a with
  | nan => exact iff_of_false nofun fun h => h.1 rfl
  | infinity m =>
    cases b with
    | infinity n => simp [same, SameNumber, zero]
    | nan | finite => simp [same, SameNumber, zero]
  | finite m e f =>
    cases b with
    | nan | infinity => simp [same, SameNumber, zero]
    | finite n e' f' =>
      have hzero : (∃ k l, finite m e f = zero k ∧ finite n e' f' = zero l) ↔
          (e.val = 0 ∧ f.val = 0) ∧ e'.val = 0 ∧ f'.val = 0 := by
        rw [exists_and_exists_comm.symm, exists_eq_zero_iff, exists_eq_zero_iff]
      rw [SameNumber, hzero]
      simp [same, and_assoc]

theorem SameNumber.refl (h : a ≠ nan) : a.SameNumber a := ⟨h, Or.inl rfl⟩

theorem SameNumber.symm (h : a.SameNumber b) : b.SameNumber a := by
  obtain ⟨ha, rfl | ⟨m, n, rfl, rfl⟩⟩ := h
  · exact ⟨ha, Or.inl rfl⟩
  · exact ⟨nofun, Or.inr ⟨n, m, rfl, rfl⟩⟩

theorem SameNumber.trans (h : a.SameNumber b) (h' : b.SameNumber c) : a.SameNumber c := by
  obtain ⟨ha, rfl | ⟨m, n, rfl, rfl⟩⟩ := h
  · exact h'
  · obtain ⟨-, rfl | ⟨-, l, -, rfl⟩⟩ := h'
    · exact ⟨ha, Or.inr ⟨m, n, rfl, rfl⟩⟩
    · exact ⟨ha, Or.inr ⟨m, l, rfl, rfl⟩⟩

end Number.Double

/-! ### Entries under distinct keys -/

section Entries

variable {α β : Type} {key : String} {value : α} {entries : List (String × α)}

/-- Where keys are distinct, a look-up finds whatever stands under the key. -/
theorem lookup_eq_some_iff_mem (h : (entries.map Prod.fst).Nodup) :
    entries.lookup key = some value ↔ (key, value) ∈ entries := by
  induction entries with
  | nil => exact iff_of_false nofun List.not_mem_nil
  | cons entry entries ih =>
    obtain ⟨k, v⟩ := entry
    obtain ⟨hnew, hrest⟩ := List.nodup_cons.mp h
    rw [List.lookup_cons, List.mem_cons, Prod.mk.injEq]
    split
    · rename_i hkey
      obtain rfl := eq_of_beq hkey
      have hgone : (key, value) ∉ entries := fun hmem => hnew (List.mem_map.mpr ⟨_, hmem, rfl⟩)
      simp [hgone, eq_comm]
    · rename_i hkey
      have hne : key ≠ k := ne_of_beq_false hkey
      simp [hne, ih hrest]

/-- Under a key there is one value only. -/
theorem eq_of_mem_entries {v w : α} (h : (entries.map Prod.fst).Nodup) (hv : (key, v) ∈ entries)
    (hw : (key, w) ∈ entries) : v = w := by
  rw [← lookup_eq_some_iff_mem h] at hv hw
  exact Option.some.inj (hv.symm.trans hw)

/-- A key that stands in a list of entries has a value there. -/
theorem mem_keys_iff : key ∈ entries.map Prod.fst ↔ ∃ value, (key, value) ∈ entries := by
  simp

/-- Of two lists with equally many distinct entries, one has the same members as the other if
it has no others. -/
theorem mem_iff_of_subset {xs ys : List α} (hxs : xs.Nodup) (hlength : xs.length = ys.length)
    (h : xs ⊆ ys) (x : α) : x ∈ xs ↔ x ∈ ys :=
  ((hxs.subperm h).perm_of_length_le (Nat.le_of_eq hlength.symm)).mem_iff

/-- What stands at one position of two lists stands there in the list of pairs. -/
theorem getElem_mem_zip {xs : List α} {ys : List β} {i : Nat} (hx : i < xs.length)
    (hy : i < ys.length) : (xs[i], ys[i]) ∈ xs.zip ys := by
  have hlength : i < (xs.zip ys).length := by
    rw [List.length_zip]
    exact Nat.lt_min.mpr ⟨hx, hy⟩
  exact List.mem_iff_getElem.mpr ⟨i, hlength, List.getElem_zip⟩

end Entries

namespace Value

variable {u v w : Value}

/-! ### What equality means -/

/-- **Two values have the same kind and the same content.** -/
inductive Equal : Value → Value → Prop
  | string (text : String) : Equal (string text) (string text)
  /-- The same keys, and equal values under each of them. -/
  | object {es fs : List (String × Value)}
      (hkeys : ∀ key, key ∈ es.map Prod.fst ↔ key ∈ fs.map Prod.fst)
      (hvalues : ∀ key v w, (key, v) ∈ es → (key, w) ∈ fs → Equal v w) :
      Equal (object es) (object fs)
  /-- As many items, equal one by one. -/
  | array {xs ys : List Value} (hlength : xs.length = ys.length)
      (hitems : ∀ p ∈ xs.zip ys, Equal p.1 p.2) : Equal (array xs) (array ys)
  | integer (number : Int64) : Equal (integer number) (integer number)
  | double {a b : Number.Double} (h : a.SameNumber b) : Equal (double a) (double b)
  | boolean (flag : Bool) : Equal (boolean flag) (boolean flag)
  | function : Equal function function
  | none : Equal none none

/-- **There is no *not a number* at any depth.** -/
def NanFree (v : Value) : Prop := v.Everywhere (· ≠ .double .nan)

theorem Equal.kind_eq (h : v.Equal w) : v.kind = w.kind := by
  cases h <;> rfl

theorem sameItems_iff {xs ys : List Value} :
    sameItems xs ys ↔ xs.length = ys.length ∧ ∀ p ∈ xs.zip ys, p.1.same p.2 := by
  induction xs generalizing ys with
  | nil => cases ys <;> simp [sameItems]
  | cons x xs ih =>
    cases ys with
    | nil => simp [sameItems]
    | cons y ys =>
      rw [sameItems, Bool.and_eq_true, ih]
      simp only [List.length_cons, Nat.add_right_cancel_iff, List.zip_cons_cons,
        List.forall_mem_cons]
      exact and_left_comm

theorem sameEntries_iff {es fs : List (String × Value)} :
    sameEntries es fs ↔ ∀ e ∈ es, ∃ w, fs.lookup e.1 = some w ∧ e.2.same w := by
  induction es with
  | nil => simp [sameEntries]
  | cons e es ih =>
    rw [sameEntries, Bool.and_eq_true, ih, List.forall_mem_cons]
    refine and_congr_left fun _ => ?_
    cases fs.lookup e.1 <;> simp

/-- **Objects are equal if they agree as mappings.** -/
theorem same_object_iff {es fs : List (String × Value)} (hes : (es.map Prod.fst).Nodup)
    (hfs : (fs.map Prod.fst).Nodup) :
    (object es).same (object fs) ↔
      (∀ key, key ∈ es.map Prod.fst ↔ key ∈ fs.map Prod.fst) ∧
        ∀ key v w, (key, v) ∈ es → (key, w) ∈ fs → v.same w := by
  rw [same, Bool.and_eq_true, beq_iff_eq, sameEntries_iff]
  simp only [lookup_eq_some_iff_mem hfs]
  constructor
  · rintro ⟨hlength, h⟩
    have hsubset : es.map Prod.fst ⊆ fs.map Prod.fst := by
      intro key hkey
      obtain ⟨v, hv⟩ := mem_keys_iff.mp hkey
      obtain ⟨w, hw, -⟩ := h _ hv
      exact mem_keys_iff.mpr ⟨w, hw⟩
    refine ⟨mem_iff_of_subset hes (by simpa using hlength) hsubset, fun key v w hv hw => ?_⟩
    obtain ⟨w', hw', hsame⟩ := h _ hv
    rwa [eq_of_mem_entries hfs hw hw']
  · rintro ⟨hkeys, h⟩
    have hperm := (List.perm_ext_iff_of_nodup hes hfs).mpr hkeys
    refine ⟨by simpa using hperm.length_eq, fun ⟨key, v⟩ hv => ?_⟩
    obtain ⟨w, hw⟩ := mem_keys_iff.mp ((hkeys key).mp (mem_keys_iff.mpr ⟨v, hv⟩))
    exact ⟨w, hw, h key v w hv hw⟩

/-- The parts of a tidy value are tidy. -/
theorem Tidy.of_mem_parts (h : v.Tidy) (hw : w ∈ v.parts) : w.Tidy :=
  (everywhere_iff.mp h).2 w hw

theorem Tidy.keys_nodup (h : v.Tidy) : v.keys.Nodup := (everywhere_iff.mp h).1

theorem not_same_of_kind_ne (h : v.kind ≠ w.kind) : ¬ v.same w := by
  cases v <;> cases w <;> first | exact absurd rfl h | exact Bool.false_ne_true

/-- **The comparison of values decides their equality.** -/
theorem same_iff_equal (hv : v.Tidy) (hw : w.Tidy) : v.same w ↔ v.Equal w := by
  induction v using ind generalizing w with
  | h v ih =>
    by_cases hkind : v.kind = w.kind
    swap
    · exact iff_of_false (not_same_of_kind_ne hkind) fun h => hkind h.kind_eq
    cases v with
    | object es =>
      cases w with
      | object fs =>
        have hvalues : (∀ key v w, (key, v) ∈ es → (key, w) ∈ fs → v.same w) ↔
            ∀ key v w, (key, v) ∈ es → (key, w) ∈ fs → v.Equal w := by
          refine forall₃_congr fun key v w => forall₂_congr fun hmem hmem' => ?_
          have hpart : v ∈ (Value.object es).parts := List.mem_map_of_mem hmem
          have hpart' : w ∈ (Value.object fs).parts := List.mem_map_of_mem hmem'
          exact ih v hpart (hv.of_mem_parts hpart) (hw.of_mem_parts hpart')
        rw [same_object_iff hv.keys_nodup hw.keys_nodup, hvalues]
        exact ⟨fun h => .object h.1 h.2, fun | .object hkeys hvalues => ⟨hkeys, hvalues⟩⟩
      | _ => cases hkind
    | array xs =>
      cases w with
      | array ys =>
        have hitems : (∀ p ∈ xs.zip ys, p.1.same p.2) ↔ ∀ p ∈ xs.zip ys, p.1.Equal p.2 := by
          refine forall₂_congr fun p hp => ?_
          obtain ⟨hx, hy⟩ := List.of_mem_zip hp
          exact ih p.1 hx (hv.of_mem_parts hx) (hw.of_mem_parts hy)
        rw [same, sameItems_iff, hitems]
        exact ⟨fun h => .array h.1 h.2, fun | .array hlength hitems => ⟨hlength, hitems⟩⟩
      | _ => cases hkind
    | double a =>
      cases w with
      | double b =>
        rw [same, Number.Double.same_iff]
        exact ⟨.double, fun | .double h => h⟩
      | _ => cases hkind
    | string s =>
      cases w with
      | string t =>
        rw [same, beq_iff_eq]
        exact ⟨fun | rfl => .string s, fun | .string _ => rfl⟩
      | _ => cases hkind
    | integer m =>
      cases w with
      | integer n =>
        rw [same, beq_iff_eq]
        exact ⟨fun | rfl => .integer m, fun | .integer _ => rfl⟩
      | _ => cases hkind
    | boolean a =>
      cases w with
      | boolean b =>
        rw [same, beq_iff_eq]
        exact ⟨fun | rfl => .boolean a, fun | .boolean _ => rfl⟩
      | _ => cases hkind
    | function =>
      cases w with
      | function => exact iff_of_true rfl .function
      | _ => cases hkind
    | none =>
      cases w with
      | none => exact iff_of_true rfl .none
      | _ => cases hkind

/-! ### An equivalence -/

theorem Equal.symm (h : v.Equal w) : w.Equal v := by
  induction h with
  | string s => exact .string s
  | object hkeys _ ih =>
    exact .object (fun key => (hkeys key).symm) fun key v w hv hw => ih key w v hw hv
  | @array xs ys hlength _ ih =>
    refine .array hlength.symm fun p hp => ?_
    rw [← List.zip_swap, List.mem_map] at hp
    obtain ⟨q, hq, rfl⟩ := hp
    exact ih q hq
  | integer n => exact .integer n
  | double h => exact .double h.symm
  | boolean b => exact .boolean b
  | function => exact .function
  | none => exact .none

theorem Equal.trans (h : u.Equal v) (h' : v.Equal w) : u.Equal w := by
  induction h generalizing w with
  | string s => exact h'
  | @object es fs hkeys _ ih =>
    cases h' with
    | object hkeys' hvalues' =>
      refine .object (fun key => (hkeys key).trans (hkeys' key)) fun key v w hv hw => ?_
      -- the object in the middle has the key too, and what stands under it joins the two
      obtain ⟨x, hx⟩ := mem_keys_iff.mp ((hkeys key).mp (mem_keys_iff.mpr ⟨v, hv⟩))
      exact ih key v x hv hx (hvalues' key x w hx hw)
  | @array xs ys hlength _ ih =>
    cases h' with
    | @array _ zs hlength' hitems' =>
      refine .array (hlength.trans hlength') fun p hp => ?_
      obtain ⟨i, hi, rfl⟩ := List.mem_iff_getElem.mp hp
      rw [List.length_zip, Nat.lt_min] at hi
      have hy : i < ys.length := hlength ▸ hi.1
      rw [List.getElem_zip]
      exact ih _ (getElem_mem_zip hi.1 hy) (hitems' _ (getElem_mem_zip hy hi.2))
  | integer n => exact h'
  | double h =>
    cases h' with
    | double h' => exact .double (h.trans h')
  | boolean b => exact h'
  | function => exact h'
  | none => exact h'

/-- **A value without *not a number* equals itself.** -/
theorem Equal.refl (hv : v.Tidy) (hnan : v.NanFree) : v.Equal v := by
  induction v using ind with
  | h v ih =>
    have hparts : ∀ w ∈ v.parts, w.Equal w := fun w hw =>
      ih w hw (hv.of_mem_parts hw) ((everywhere_iff.mp hnan).2 w hw)
    cases v with
    | object es =>
      refine .object (fun _ => Iff.rfl) fun key v w hmem hmem' => ?_
      obtain rfl := eq_of_mem_entries hv.keys_nodup hmem hmem'
      exact hparts v (List.mem_map.mpr ⟨_, hmem, rfl⟩)
    | array xs =>
      refine .array rfl fun p hp => ?_
      obtain ⟨i, hi, rfl⟩ := List.mem_iff_getElem.mp hp
      rw [List.getElem_zip]
      exact hparts _ (List.getElem_mem _)
    | double a => exact .double (.refl fun h => (everywhere_iff.mp hnan).1 (h ▸ rfl))
    | string s => exact .string s
    | integer n => exact .integer n
    | boolean b => exact .boolean b
    | function => exact .function
    | none => exact .none

/-- **Equality is an equivalence** where there is no *not a number*. -/
theorem equivalence_same :
    Equivalence fun v w : {v : Value // v.Tidy ∧ v.NanFree} => v.1.same w.1 = true where
  refl v := (same_iff_equal v.2.1 v.2.1).mpr (.refl v.2.1 v.2.2)
  symm {v w} h := by
    rw [same_iff_equal v.2.1 w.2.1] at h
    exact (same_iff_equal w.2.1 v.2.1).mpr h.symm
  trans {u v w} h h' := by
    rw [same_iff_equal u.2.1 v.2.1] at h
    rw [same_iff_equal v.2.1 w.2.1] at h'
    exact (same_iff_equal u.2.1 w.2.1).mpr (h.trans h')

/-! ### Entries that change places -/

/-- **The second value is the first with the entries of objects in another order**, at any
depth. -/
inductive Rearranged : Value → Value → Prop
  /-- Nothing changes. -/
  | still (v : Value) : Rearranged v v
  /-- Something changes within items. -/
  | array {xs ys : List Value} (hlength : xs.length = ys.length)
      (hitems : ∀ p ∈ xs.zip ys, Rearranged p.1 p.2) : Rearranged (array xs) (array ys)
  /-- Something changes within entries, and then these are put in another order. -/
  | object {es fs gs : List (String × Value)} (hkeys : es.map Prod.fst = fs.map Prod.fst)
      (hvalues : ∀ p ∈ es.zip fs, Rearranged p.1.2 p.2.2) (hperm : fs.Perm gs) :
      Rearranged (object es) (object gs)

theorem Rearranged.keys_perm (h : v.Rearranged w) : v.keys.Perm w.keys := by
  cases h with
  | still => exact .refl _
  | array => exact .refl _
  | object hkeys _ hperm => exact (List.Perm.of_eq hkeys).trans (hperm.map Prod.fst)

/-- Every part of the second value comes from one of the first. -/
theorem Rearranged.exists_part (h : v.Rearranged w) {y : Value} (hy : y ∈ w.parts) :
    ∃ x ∈ v.parts, x.Rearranged y := by
  cases h with
  | still => exact ⟨y, hy, .still y⟩
  | @array xs ys hlength hitems =>
    obtain ⟨i, hi, rfl⟩ := List.mem_iff_getElem.mp hy
    have hx : i < xs.length := hlength ▸ hi
    exact ⟨xs[i], List.getElem_mem hx, hitems _ (getElem_mem_zip hx hi)⟩
  | @object es fs gs hkeys hvalues hperm =>
    obtain ⟨entry, hentry, rfl⟩ := List.mem_map.mp hy
    obtain ⟨i, hi, rfl⟩ := List.mem_iff_getElem.mp (hperm.mem_iff.mpr hentry)
    have hlength : es.length = fs.length := by simpa using congrArg List.length hkeys
    have hx : i < es.length := hlength ▸ hi
    exact ⟨es[i].2, List.mem_map_of_mem (List.getElem_mem hx), hvalues _ (getElem_mem_zip hx hi)⟩

/-- What holds at every depth still does if no single value loses it. -/
theorem Rearranged.everywhere {P : Value → Prop} (hP : ∀ x y, x.Rearranged y → P x → P y)
    (h : v.Rearranged w) (hv : v.Everywhere P) : w.Everywhere P := by
  induction w using ind generalizing v with
  | h w ih =>
    refine .intro (hP v w h (everywhere_iff.mp hv).1) fun y hy => ?_
    obtain ⟨x, hx, hxy⟩ := h.exists_part hy
    exact ih y hy hxy ((everywhere_iff.mp hv).2 x hx)

theorem Rearranged.tidy (h : v.Rearranged w) (hv : v.Tidy) : w.Tidy :=
  h.everywhere (fun _ _ hxy => hxy.keys_perm.nodup) hv

theorem Rearranged.nanFree (h : v.Rearranged w) (hv : v.NanFree) : w.NanFree := by
  refine h.everywhere (fun x y hxy hx => ?_) hv
  rintro rfl
  cases hxy
  exact hx rfl

/-- **The order of entries does not matter to equality**, at any depth. -/
theorem Rearranged.equal (h : v.Rearranged w) (hv : v.Tidy) (hnan : v.NanFree) : v.Equal w := by
  induction h with
  | still v => exact .refl hv hnan
  | array hlength _ ih =>
    refine .array hlength fun p hp => ?_
    have hpart := (List.of_mem_zip hp).1
    exact ih p hp (hv.of_mem_parts hpart) ((everywhere_iff.mp hnan).2 _ hpart)
  | @object es fs gs hkeys _ hperm ih =>
    have hfs : (fs.map Prod.fst).Nodup := hkeys ▸ hv.keys_nodup
    refine .object (fun key => ?_) fun key v w hmem hmem' => ?_
    · rw [hkeys]
      exact (hperm.map Prod.fst).mem_iff
    · -- the entry stood across from one with the same key, and only one has this key
      obtain ⟨i, hi, hv'⟩ := List.mem_iff_getElem.mp hmem
      have hlength : es.length = fs.length := by simpa using congrArg List.length hkeys
      have hi' : i < fs.length := hlength ▸ hi
      have hkey : fs[i].1 = key := by
        have hget : (es.map Prod.fst)[i]? = (fs.map Prod.fst)[i]? := by rw [hkeys]
        simpa [hi, hi', hv', eq_comm] using hget
      have hw : fs[i].2 = w := by
        have hstands : (key, fs[i].2) ∈ fs := hkey ▸ List.getElem_mem hi'
        exact eq_of_mem_entries hfs hstands (hperm.mem_iff.mpr hmem')
      have hpart : v ∈ (Value.object es).parts := List.mem_map.mpr ⟨_, hmem, rfl⟩
      have hequal := ih _ (getElem_mem_zip hi hi')
      rw [hv', hw] at hequal
      exact hequal (hv.of_mem_parts hpart) ((everywhere_iff.mp hnan).2 _ hpart)

/-! ### Positions -/

/-- The way from a value to one of its parts. -/
inductive Step where
  /-- To an item of an array, counted from zero. -/
  | item (position : Nat)
  /-- To what stands in an object under a key. -/
  | entry (key : String)
deriving DecidableEq, Repr

/-- The part of a value that a step leads to. -/
def part? : Value → Step → Option Value
  | array items, .item i => items[i]?
  | object entries, .entry key => entries.lookup key
  | _, _ => Option.none

/-- **What stands at a position of a value**, given by the steps that lead there. -/
def at? (v : Value) : List Step → Option Value
  | [] => some v
  | step :: path => (v.part? step).bind fun w => w.at? path

theorem part?_mem_parts {step : Step} (h : v.part? step = some w) : w ∈ v.parts := by
  cases v with
  | object entries =>
    cases step with
    | entry key =>
      obtain ⟨before, after, rfl, -⟩ := List.lookup_eq_some_iff.mp h
      simp [parts]
    | item => cases h
  | array items =>
    cases step with
    | item i => exact List.mem_of_getElem? h
    | entry => cases h
  | _ => cases step <;> cases h

/-- A step leads to equal parts of equal values, or nowhere in either. -/
theorem Equal.part? (h : v.Equal w) (hv : v.Tidy) (hw : w.Tidy) (step : Step) :
    Option.Rel Equal (v.part? step) (w.part? step) := by
  cases h with
  | @object es fs hkeys hvalues =>
    cases step with
    | item i => exact .none
    | entry key =>
      change Option.Rel Equal (es.lookup key) (fs.lookup key)
      cases hlookup : es.lookup key with
      | none =>
        have hmissing : fs.lookup key = Option.none := by
          rw [Option.eq_none_iff_forall_ne_some]
          intro x hx
          obtain ⟨y, hy⟩ := mem_keys_iff.mp ((hkeys key).mpr (mem_keys_iff.mpr
            ⟨x, (lookup_eq_some_iff_mem hw.keys_nodup).mp hx⟩))
          rw [(lookup_eq_some_iff_mem hv.keys_nodup).mpr hy] at hlookup
          cases hlookup
        rw [hmissing]
        exact .none
      | some x =>
        have hx := (lookup_eq_some_iff_mem hv.keys_nodup).mp hlookup
        obtain ⟨y, hy⟩ := mem_keys_iff.mp ((hkeys key).mp (mem_keys_iff.mpr ⟨x, hx⟩))
        rw [(lookup_eq_some_iff_mem hw.keys_nodup).mpr hy]
        exact .some (hvalues key x y hx hy)
  | @array xs ys hlength hitems =>
    cases step with
    | entry key => exact .none
    | item i =>
      change Option.Rel Equal xs[i]? ys[i]?
      by_cases hi : i < xs.length
      · have hiy : i < ys.length := hlength ▸ hi
        rw [List.getElem?_eq_getElem hi, List.getElem?_eq_getElem hiy]
        exact .some (hitems _ (getElem_mem_zip hi hiy))
      · rw [List.getElem?_eq_none (by omega), List.getElem?_eq_none (by omega)]
        exact .none
  | _ => cases step <;> exact .none

/-- **Equal values agree at every position.** -/
theorem Equal.at? (h : v.Equal w) (hv : v.Tidy) (hw : w.Tidy) (path : List Step) :
    Option.Rel Equal (v.at? path) (w.at? path) := by
  induction path generalizing v w with
  | nil => exact .some h
  | cons step path ih =>
    rw [Value.at?, Value.at?]
    match hx : v.part? step, hy : w.part? step, h.part? hv hw step with
    | Option.none, Option.none, _ => exact .none
    | some x, some y, .some hxy =>
      exact ih hxy (hv.of_mem_parts (part?_mem_parts hx)) (hw.of_mem_parts (part?_mem_parts hy))

/-- Equal values have values of one kind at every position. -/
theorem Equal.kind_at? (h : v.Equal w) (hv : v.Tidy) (hw : w.Tidy) (path : List Step) :
    (v.at? path).map kind = (w.at? path).map kind := by
  match v.at? path, w.at? path, h.at? hv hw path with
  | Option.none, Option.none, _ => rfl
  | some x, some y, .some hxy => exact congrArg some hxy.kind_eq

/-! ### The comparison -/

/-- **The comparison of values is structural equality.** It holds just if two values have the
same kind and the same content. So it is an equivalence where there is no *not a number*, the
entries of objects may change places at any depth, and equal values have values of one kind at
every position.

What two values hold is compared, and not whether it is the very same object of the host, which
would make a difference to a *not a number* in an array or an object. -/
theorem same_is_structural :
    (∀ v w : Value, v.Tidy → w.Tidy → (v.same w ↔ v.Equal w)) ∧
      Equivalence (fun v w : {v : Value // v.Tidy ∧ v.NanFree} => v.1.same w.1 = true) ∧
      (∀ v w : Value, v.Tidy → v.NanFree → v.Rearranged w → w.Tidy ∧ w.NanFree ∧ v.same w) ∧
      ∀ v w : Value, v.Tidy → w.Tidy →
        (∃ path, (v.at? path).map kind ≠ (w.at? path).map kind) → v.same w = false := by
  refine ⟨fun v w => same_iff_equal, equivalence_same, fun v w hv hnan h => ?_, ?_⟩
  · exact ⟨h.tidy hv, h.nanFree hnan, (same_iff_equal hv (h.tidy hv)).mpr (h.equal hv hnan)⟩
  · rintro v w hv hw ⟨path, hpath⟩
    refine eq_false_of_ne_true fun hsame => hpath ?_
    exact ((same_iff_equal hv hw).mp hsame).kind_at? hv hw path

/-- Two objects within arrays whose entries stand in another order, and a number of another
kind in one of them. -/
theorem same_is_structural_nested :
    (let v := array [object [("a", integer 1), ("b", array [double (.zero true)])]]
     let w := array [object [("b", array [double (.zero true)]), ("a", integer 1)]]
     v.Tidy ∧ v.NanFree ∧ v.Rearranged w ∧ v.same w) ∧
      (let v := array [object [("a", integer 1), ("b", array [double (.zero true)])]]
       let w := array [object [("a", boolean true), ("b", array [double (.zero true)])]]
       v.Tidy ∧ w.Tidy ∧
        (v.at? [.item 0, .entry "a"]).map kind ≠ (w.at? [.item 0, .entry "a"]).map kind ∧
        v.same w = false) := by
  obtain ⟨-, -, hrearranged, hkinds⟩ := same_is_structural
  -- whatever holds of all values concerned holds at every depth
  have heverywhere : ∀ {P : Value → Prop} {x : Value}, x.isScalar → P x → P (double (.zero true)) →
      (∀ items, P (array items)) → P (object [("a", x), ("b", array [double (.zero true)])]) →
      (array [object [("a", x), ("b", array [double (.zero true)])]]).Everywhere P := by
    intro P x hx hP hzero harray hobject
    have hscalar : (double (.zero true)).Everywhere P := (everywhere_of_isScalar rfl).mpr hzero
    simp [everywhere_array, everywhere_object, everywhere_of_isScalar hx, *]
  have htidy : ∀ x : Value, x.isScalar →
      (array [object [("a", x), ("b", array [double (.zero true)])]]).Tidy := fun x hx =>
    heverywhere hx (tidy_of_isScalar hx).keys_nodup List.nodup_nil (fun _ => List.nodup_nil)
      (by decide : ["a", "b"].Nodup)
  refine ⟨?_, ?_⟩
  · intro v w
    have hnan : v.NanFree := heverywhere rfl nofun nofun nofun nofun
    have hvw : v.Rearranged w := by
      refine .array rfl fun p hp => ?_
      obtain rfl := List.mem_singleton.mp hp
      refine .object rfl (fun q hq => ?_) (.swap _ _ _)
      simp only [List.zip_cons_cons, List.zip_nil_right, List.mem_cons, List.not_mem_nil,
        or_false] at hq
      rcases hq with rfl | rfl <;> exact .still _
    have hv : v.Tidy := htidy (integer 1) rfl
    exact ⟨hv, hnan, hvw, (hrearranged v w hv hnan hvw).2.2⟩
  · intro v w
    have hv : v.Tidy := htidy (integer 1) rfl
    have hw : w.Tidy := htidy (boolean true) rfl
    have hkind : (v.at? [.item 0, .entry "a"]).map kind ≠
        (w.at? [.item 0, .entry "a"]).map kind := by decide
    exact ⟨hv, hw, hkind, hkinds v w hv hw ⟨_, hkind⟩⟩

end Value

end ScopeScript
