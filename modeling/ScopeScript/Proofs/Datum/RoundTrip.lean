import ScopeScript.Proofs.Value.Built

/-!
# Out of the machine and back

A value that leaves the machine becomes plain data, and these become a value again when they
come back. **The value is the same** if it has been made by the constructors and there is no
function in it (`ScopeScript.Value.Built`, `ScopeScript.Value.FunctionFree`), **and so are the
data** if they are plain (`ScopeScript.Datum.Plain`). Nothing else survives the way
(`ScopeScript.Value.conversion_round_trips`).

That a value has been made by the constructors means that its objects have distinct keys, at
every depth (`ScopeScript.Value.built_iff_tidy`). So the first round trip is an induction over
values, in which the entries of an object are entered in the order in which they stand
(`ScopeScript.Value.ofDatum_toDatum_iff`). The second one follows from the first, since plain
data are just what such values stand for (`ScopeScript.Datum.plain_iff`).
-/

namespace ScopeScript

/-! ### Plain data -/

/-- **Plain data**: nothing, truth values, integers of 64 bits, doubles, texts, lists, and
mappings whose keys are distinct texts. -/
inductive Datum.Plain : Datum → Prop
  | null : Plain null
  | bool (flag : Bool) : Plain (bool flag)
  | int {number : Int} (h : Value.minInteger ≤ number ∧ number ≤ Value.maxInteger) :
    Plain (int number)
  | float (number : Number.Double) : Plain (float number)
  | text (content : String) : Plain (text content)
  | list {items : List Datum} (h : ∀ x ∈ items, Plain x) : Plain (list items)
  | map {fields : List (String × Datum)} (hkeys : (fields.map Prod.fst).Nodup)
      (h : ∀ f ∈ fields, Plain f.2) : Plain (ofFields fields)

namespace Value

theorem toDatumItems_eq (items : List Value) : toDatumItems items = items.map toDatum := by
  induction items with
  | nil => rfl
  | cons v items ih => rw [toDatumItems, ih, List.map_cons]

theorem toDatumEntries_eq (entries : List (String × Value)) :
    toDatumEntries entries = entries.map fun e => (.text e.1, e.2.toDatum) := by
  induction entries with
  | nil => rfl
  | cons e entries ih => rw [toDatumEntries, ih, List.map_cons]

/-- **Keys are distinct and there is no function**, at every depth. -/
abbrev Portable (v : Value) : Prop := v.Everywhere fun w => w.keys.Nodup ∧ w ≠ .function

theorem portable_iff {v : Value} : v.Portable ↔ v.Tidy ∧ v.FunctionFree := everywhere_and

theorem portable_of_isScalar {v : Value} (h : v.isScalar) (hv : v ≠ .function) : v.Portable := by
  refine .intro ⟨(everywhere_iff.mp (tidy_of_isScalar h)).1, hv⟩ fun w hw => ?_
  rw [parts_of_isScalar h] at hw
  cases hw

theorem portable_array {items : List Value} :
    (array items).Portable ↔ ∀ v ∈ items, v.Portable :=
  everywhere_iff.trans (and_iff_right ⟨List.nodup_nil, nofun⟩)

theorem portable_object {entries : List (String × Value)} :
    (object entries).Portable ↔
      (entries.map Prod.fst).Nodup ∧ ∀ e ∈ entries, e.2.Portable := by
  rw [Portable, everywhere_iff, parts, List.forall_mem_map, keys]
  exact and_congr_left fun _ => and_iff_left nofun

/-! ### Values -/

theorem ofDatum_toDatum_array {items : List Value} :
    ofDatum (array items).toDatum = .ok (array items) ↔
      ∀ v ∈ items, ofDatum v.toDatum = .ok v := by
  rw [toDatum, ofDatum, map_eq_ok]
  simp only [array.injEq, exists_eq_right]
  rw [ofDatumItems_eq_ok, toDatumItems_eq, List.forall₂_map_left_iff, List.forall₂_same]

theorem ofDatum_toDatum_object {entries : List (String × Value)} :
    ofDatum (object entries).toDatum = .ok (object entries) ↔
      (entries.map Prod.fst).Nodup ∧ ∀ e ∈ entries, ofDatum e.2.toDatum = .ok e.2 := by
  have hentries : ofDatumEntries (toDatumEntries entries) = .ok entries ↔
      ∀ e ∈ entries, ofDatum e.2.toDatum = .ok e.2 := by
    rw [ofDatumEntries_eq_ok, toDatumEntries_eq, List.forall₂_map_left_iff, List.forall₂_same]
    exact forall₂_congr fun e _ => and_iff_right rfl
  rw [toDatum, ofDatum, map_eq_ok, ← hentries]
  constructor
  · rintro ⟨ws, hws, heq⟩
    have heq : enterAll ws = entries := object.inj heq
    have hkeys : ws.map Prod.fst = entries.map Prod.fst := by
      rw [keys_of_ofDatumEntries hws, toDatumEntries_eq, List.map_map]
      rfl
    have hnodup : (entries.map Prod.fst).Nodup := heq ▸ nodup_keys_enterAll ws
    rw [← hkeys] at hnodup
    rw [enterAll_of_nodup hnodup] at heq
    subst heq
    exact ⟨hnodup, hws⟩
  · rintro ⟨hnodup, hws⟩
    exact ⟨entries, hws, by rw [ofEntries, enterAll_of_nodup hnodup]⟩

/-- **Values that come back as they were** have distinct keys and no function in them. -/
theorem ofDatum_toDatum_iff (v : Value) : ofDatum v.toDatum = .ok v ↔ v.Portable := by
  induction v using ind with
  | h v ih =>
    cases v with
    | object entries =>
      rw [ofDatum_toDatum_object, portable_object]
      exact and_congr_right fun _ => forall₂_congr fun e he => ih e.2 (List.mem_map_of_mem he)
    | array items =>
      rw [ofDatum_toDatum_array, portable_array]
      exact forall₂_congr ih
    | integer m => exact iff_of_true (ofInt_toInt m) (portable_of_isScalar rfl nofun)
    | function =>
      refine iff_of_false nofun fun h => ?_
      exact (everywhere_iff.mp h).1.2 rfl
    | string | double | boolean | none =>
      exact iff_of_true rfl (portable_of_isScalar rfl nofun)

end Value

/-! ### Data -/

/-- What is the image of something item by item is the image of a list. -/
theorem exists_map_eq {α β : Type} {P : α → Prop} {f : α → β} {bs : List β}
    (h : ∀ b ∈ bs, ∃ a, P a ∧ f a = b) : ∃ as : List α, (∀ a ∈ as, P a) ∧ as.map f = bs := by
  induction bs with
  | nil => exact ⟨[], nofun, rfl⟩
  | cons b bs ih =>
    obtain ⟨a, ha, rfl⟩ := h b List.mem_cons_self
    obtain ⟨as, has, rfl⟩ := ih fun b hb => h b (List.mem_cons_of_mem _ hb)
    exact ⟨a :: as, List.forall_mem_cons.mpr ⟨ha, has⟩, rfl⟩

/-- **Plain data are what values stand for** that have distinct keys and no function in
them. -/
theorem Datum.plain_iff {d : Datum} : d.Plain ↔ ∃ v : Value, v.Portable ∧ v.toDatum = d := by
  constructor
  · intro h
    induction h with
    | null => exact ⟨.none, Value.portable_of_isScalar rfl nofun, rfl⟩
    | bool b => exact ⟨.boolean b, Value.portable_of_isScalar rfl nofun, rfl⟩
    | @int n hn =>
      refine ⟨.integer (Int64.ofInt n), Value.portable_of_isScalar rfl nofun, ?_⟩
      rw [Value.toDatum, Value.toInt_ofInt hn]
    | float x => exact ⟨.double x, Value.portable_of_isScalar rfl nofun, rfl⟩
    | text s => exact ⟨.string s, Value.portable_of_isScalar rfl nofun, rfl⟩
    | list _ ih =>
      obtain ⟨items, hitems, rfl⟩ := exists_map_eq ih
      exact ⟨.array items, Value.portable_array.mpr hitems, by
        rw [Value.toDatum, Value.toDatumItems_eq]⟩
    | @map fields hkeys _ ih =>
      obtain ⟨entries, hentries, rfl⟩ : ∃ entries : List (String × Value),
          (∀ e ∈ entries, e.2.Portable) ∧ entries.map (Prod.map id Value.toDatum) = fields :=
        exists_map_eq fun f hf => by
          obtain ⟨v, hv, heq⟩ := ih f hf
          exact ⟨(f.1, v), hv, Prod.ext rfl heq⟩
      rw [List.map_map] at hkeys
      refine ⟨.object entries, Value.portable_object.mpr ⟨hkeys, hentries⟩, ?_⟩
      rw [Value.toDatum, Value.toDatumEntries_eq, ofFields, List.map_map]
      rfl
  · rintro ⟨v, hv, rfl⟩
    induction v using Value.ind with
    | h v ih =>
      cases v with
      | object entries =>
        obtain ⟨hkeys, hentries⟩ := Value.portable_object.mp hv
        have hfields : (Value.object entries).toDatum
            = ofFields (entries.map fun e => (e.1, e.2.toDatum)) := by
          rw [Value.toDatum, Value.toDatumEntries_eq, ofFields, List.map_map]
          rfl
        rw [hfields]
        refine .map ?_ fun f hf => ?_
        · rwa [List.map_map]
        · obtain ⟨e, he, rfl⟩ := List.mem_map.mp hf
          exact ih e.2 (List.mem_map_of_mem he) (hentries e he)
      | array items =>
        rw [Value.toDatum, Value.toDatumItems_eq]
        refine .list fun x hx => ?_
        obtain ⟨w, hw, rfl⟩ := List.mem_map.mp hx
        exact ih w hw (Value.portable_array.mp hv w hw)
      | string s => exact .text s
      | integer m => exact .int (Value.fits_toInt m)
      | double x => exact .float x
      | boolean b => exact .bool b
      | function => exact absurd rfl (Value.everywhere_iff.mp hv).1.2
      | none => exact .null

/-- **Conversion both ways changes nothing**: not a value that has been made and has no
function in it, nor plain data; and these are the only ones. -/
theorem Value.conversion_round_trips :
    (∀ v : Value, ofDatum v.toDatum = .ok v ↔ v.Built ∧ v.FunctionFree) ∧
      ∀ d : Datum, (∃ v, ofDatum d = .ok v ∧ v.toDatum = d) ↔ d.Plain := by
  refine ⟨fun v => ?_, fun d => ?_⟩
  · rw [ofDatum_toDatum_iff, portable_iff, built_iff_tidy]
  · rw [Datum.plain_iff]
    constructor
    · rintro ⟨v, hv, rfl⟩
      exact ⟨v, (ofDatum_toDatum_iff v).mp hv, rfl⟩
    · rintro ⟨v, hv, rfl⟩
      exact ⟨v, (ofDatum_toDatum_iff v).mpr hv, rfl⟩

end ScopeScript
