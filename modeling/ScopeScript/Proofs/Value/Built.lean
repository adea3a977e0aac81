import ScopeScript.Proofs.Datum.Conversion

/-!
# Values that are made

A value is made from a datum of its own type, and that datum may hold values that have been
made before: an object is made from a mapping of texts to values, or from a list of pairs,
and an array from anything with items. **Values that are made have distinct keys in all of
their objects, and every such value can be made** (`ScopeScript.Value.built_iff_tidy`).
-/

namespace ScopeScript

/-- **The value stands somewhere in the datum.** -/
inductive Datum.Mentions (w : Value) : Datum → Prop
  | here : Mentions w (value w)
  | inside {d x : Datum} (hx : x ∈ d.parts) (h : Mentions w x) : Mentions w d

/-- **A value that is made by the constructors**, from a datum in which only such values
stand. -/
inductive Value.Built : Value → Prop
  | make (kind : ValueKind) (d : Datum) {v : Value} (hvalues : ∀ w, d.Mentions w → Built w)
      (h : Value.make kind d = .ok v) : Built v

namespace Datum

variable {d x : Datum} {xs : List Datum} {w : Value}

/-- Where nothing else stands in a datum, no value does. -/
theorem not_mentions (hparts : d.parts = []) (hd : d ≠ value w) : ¬d.Mentions w := by
  intro h
  cases h with
  | here => exact hd rfl
  | inside hx _ =>
    rw [hparts] at hx
    cases hx

theorem eq_of_mentions_value {v : Value} (h : (value v).Mentions w) : w = v := by
  cases h with
  | here => rfl
  | inside hx _ => cases hx

/-- What stands in an item stands in the datum. -/
theorem mentions_of_items (h : d.items? = some xs) (hx : x ∈ xs) (hw : x.Mentions w) :
    d.Mentions w := by
  cases d with
  | list ys | tuple ys | set ys =>
    cases h
    exact .inside hx hw
  | map es =>
    cases h
    obtain ⟨e, he, rfl⟩ := List.mem_map.mp hx
    exact .inside (List.mem_flatMap.mpr ⟨e, he, List.mem_cons_self⟩) hw
  | text s =>
    cases h
    obtain ⟨c, -, rfl⟩ := List.mem_map.mp hx
    exact absurd hw (not_mentions rfl nofun)
  | bytes bs =>
    cases h
    obtain ⟨b, -, rfl⟩ := List.mem_map.mp hx
    exact absurd hw (not_mentions rfl nofun)
  | _ => cases h

end Datum

namespace Value

variable {d : Datum} {v w : Value}

/-! ### What is made has distinct keys -/

/-- The second half of a pair is an item of an item. -/
theorem mem_pairsOf {position : Nat} {xs : List Datum} {pairs : List (Datum × Datum)}
    {p : Datum × Datum} (h : pairsOf position xs = .ok pairs) (hp : p ∈ pairs) :
    ∃ x ∈ xs, x.items? = some [p.1, p.2] := by
  induction xs generalizing position pairs with
  | nil =>
    cases h
    cases hp
  | cons x xs ih =>
    rw [pairsOf] at h
    split at h
    · cases h
    · rename_i key value hitems
      split at h
      · cases h
      · cases hrest : pairsOf (position + 1) xs with
        | error e =>
          rw [hrest] at h
          cases h
        | ok rest =>
          rw [hrest] at h
          cases h
          rcases List.mem_cons.mp hp with rfl | hp
          · exact ⟨x, List.mem_cons_self, hitems⟩
          · obtain ⟨y, hy, hpair⟩ := ih hrest hp
            exact ⟨y, List.mem_cons_of_mem x hy, hpair⟩
    · cases h

/-- A value that is entered stands in the datum. -/
theorem mentions_of_entriesOf {pairs : List (Datum × Datum)} {p : Datum × Datum}
    (h : entriesOf d = .ok pairs) (hp : p ∈ pairs) (hw : p.2.Mentions w) : d.Mentions w := by
  rw [entriesOf.eq_def] at h
  split at h
  · cases h
    exact .inside (Datum.mem_parts_map hp) hw
  · split at h
    · cases h
    · rename_i xs hitems
      obtain ⟨qs, hqs, rfl⟩ := map_eq_ok.mp h
      obtain ⟨q, hq, heq⟩ := mem_enterAll hp
      obtain ⟨x, hx, hpair⟩ := mem_pairsOf hqs hq
      rw [← heq] at hw
      refine Datum.mentions_of_items hitems hx (Datum.mentions_of_items hpair ?_ hw)
      exact List.mem_cons_of_mem _ List.mem_cons_self

theorem entryOf_eq_ok {p : Datum × Datum} {entry : String × Value}
    (h : entryOf p = .ok entry) : p = (.text entry.1, .value entry.2) := by
  rw [entryOf.eq_def] at h
  split at h <;> cases h
  rfl

theorem itemOf_eq_ok {x : Datum} (h : itemOf x = .ok v) : x = .value v := by
  rw [itemOf.eq_def] at h
  split at h <;> cases h
  rfl

/-- An object that is made has distinct keys, and its values stood in the datum. -/
theorem tidy_of_make_object (h : make .object d = .ok v)
    (hvalues : ∀ w, d.Mentions w → w.Tidy) : v.Tidy := by
  rw [make.eq_def] at h
  dsimp only at h
  split at h
  · cases h
    exact .intro List.nodup_nil nofun
  · cases hpairs : entriesOf d with
    | error e =>
      rw [hpairs] at h
      cases h
    | ok pairs =>
      rw [hpairs] at h
      cases hentries : pairs.mapM entryOf with
      | error e =>
        simp only [bind, Except.bind, hentries] at h
        cases h
      | ok entries =>
        simp only [bind, Except.bind, hentries] at h
        cases h
        refine .intro (nodup_keys_enterAll entries) fun w hw => ?_
        obtain ⟨b, hb, rfl⟩ := List.mem_map.mp hw
        obtain ⟨entry, hentry, heq⟩ := mem_enterAll hb
        obtain ⟨p, hp, hmade⟩ := exists_of_forall₂ (mapM_eq_ok.mp hentries) hentry
        have hsecond : p.2 = .value entry.2 := congrArg Prod.snd (entryOf_eq_ok hmade)
        rw [← heq]
        exact hvalues _ (mentions_of_entriesOf hpairs hp (hsecond ▸ .here))

/-- The items of an array that is made stood in the datum. -/
theorem tidy_of_make_array (h : make .array d = .ok v)
    (hvalues : ∀ w, d.Mentions w → w.Tidy) : v.Tidy := by
  rw [make.eq_def] at h
  dsimp only at h
  split at h
  · cases h
    exact .intro List.nodup_nil nofun
  · split at h
    · cases h
    · rename_i xs hitems
      obtain ⟨vs, hvs, rfl⟩ := map_eq_ok.mp h
      refine .intro List.nodup_nil fun w hw => ?_
      obtain ⟨x, hx, hmade⟩ := exists_of_forall₂ (mapM_eq_ok.mp hvs) hw
      obtain rfl := itemOf_eq_ok hmade
      exact hvalues w (Datum.mentions_of_items hitems hx .here)

/-- **What is made of tidy values is tidy.** -/
theorem tidy_of_make {kind : ValueKind} (h : make kind d = .ok v)
    (hvalues : ∀ w, d.Mentions w → w.Tidy) : v.Tidy := by
  cases kind with
  | object => exact tidy_of_make_object h hvalues
  | array => exact tidy_of_make_array h hvalues
  | integer =>
    cases d with
    | int n =>
      obtain ⟨m, -, rfl⟩ := toInt_of_ofInt h
      exact tidy_of_isScalar rfl
    | _ => cases h
  | string | double | boolean =>
    cases d <;> cases h
    exact tidy_of_isScalar rfl
  | function | none =>
    cases h
    exact tidy_of_isScalar rfl

/-! ### What has distinct keys can be made -/

theorem built_of_make (kind : ValueKind) (d : Datum) (hparts : d.parts = [])
    (hd : ∀ w, d ≠ .value w) (h : make kind d = .ok v) : v.Built :=
  .make kind d (fun w hw => absurd hw (Datum.not_mentions hparts (hd w))) h

/-- An object is made from the mapping of its keys to its values. -/
theorem built_object {entries : List (String × Value)} (hkeys : (entries.map Prod.fst).Nodup)
    (h : ∀ e ∈ entries, e.2.Built) : (object entries).Built := by
  refine .make .object (.map (entries.map fun e => (.text e.1, .value e.2))) (fun w hw => ?_) ?_
  · cases hw with
    | inside hx hw =>
      obtain ⟨p, hp, hx⟩ := List.mem_flatMap.mp hx
      obtain ⟨e, he, rfl⟩ := List.mem_map.mp hp
      simp only [List.mem_cons, List.not_mem_nil, or_false] at hx
      rcases hx with rfl | rfl
      · exact absurd hw (Datum.not_mentions rfl nofun)
      · obtain rfl := Datum.eq_of_mentions_value hw
        exact h e he
  · cases hentries : entries with
    | nil => rfl
    | cons e es =>
      have hmapM : (entries.map fun e => (Datum.text e.1, Datum.value e.2)).mapM entryOf
          = .ok entries := by
        rw [mapM_eq_ok, List.forall₂_map_left_iff, List.forall₂_same]
        exact fun _ _ => rfl
      change (do
        let entries ← ((e :: es).map fun e : String × Value =>
          (Datum.text e.1, Datum.value e.2)).mapM entryOf
        return ofEntries entries) = _
      rw [← hentries, hmapM]
      change Except.ok (ofEntries entries) = _
      rw [ofEntries, enterAll_of_nodup hkeys]

/-- An array is made from the list of its items. -/
theorem built_array {items : List Value} (h : ∀ v ∈ items, v.Built) : (array items).Built := by
  refine .make .array (.list (items.map .value)) (fun w hw => ?_) ?_
  · cases hw with
    | inside hx hw =>
      obtain ⟨v, hv, rfl⟩ := List.mem_map.mp hx
      obtain rfl := Datum.eq_of_mentions_value hw
      exact h w hv
  · cases hitems : items with
    | nil => rfl
    | cons v vs =>
      have hmapM : (items.map Datum.value).mapM itemOf = .ok items := by
        rw [mapM_eq_ok, List.forall₂_map_left_iff, List.forall₂_same]
        exact fun _ _ => rfl
      change (((v :: vs).map Datum.value).mapM itemOf).map array = _
      rw [← hitems, hmapM]
      rfl

/-- **Values that are made are those with distinct keys** in all of their objects. -/
theorem built_iff_tidy : v.Built ↔ v.Tidy := by
  constructor
  · intro h
    induction h with
    | make _ _ _ h ih => exact tidy_of_make h ih
  · intro h
    induction v using ind with
    | h v ih =>
      obtain ⟨hkeys, hparts⟩ := everywhere_iff.mp h
      have hbuilt : ∀ w ∈ v.parts, w.Built := fun w hw => ih w hw (hparts w hw)
      cases v with
      | object entries => exact built_object hkeys fun e he => hbuilt e.2 (List.mem_map_of_mem he)
      | array items => exact built_array hbuilt
      | string s => exact built_of_make .string (.text s) rfl nofun rfl
      | integer m => exact built_of_make .integer (.int m.toInt) rfl nofun (ofInt_toInt m)
      | double x => exact built_of_make .double (.float x) rfl nofun rfl
      | boolean b => exact built_of_make .boolean (.bool b) rfl nofun rfl
      | function => exact built_of_make .function .null rfl nofun rfl
      | none => exact built_of_make .none .null rfl nofun rfl

end Value

end ScopeScript
