import Mathlib.Data.List.Forall2
import ScopeScript.Datum.Convert
import ScopeScript.Proofs.Value.Entries
import ScopeScript.Proofs.Value.Parts

/-!
# When host data make a value, and which one

A conversion goes through a datum from left to right and stops where it must. This file
says where that is without going through anything: **what it comes to stands in a list**
(`ScopeScript.Datum.stops`), the data that are nested in the datum and, before the value of each
entry of a mapping, the key that is written out for it. **Each of these is faulty or not by
itself** (`ScopeScript.Datum.fault?`, `ScopeScript.Datum.Stop.fault?`), **and the error is that
of the first one that is** (`ScopeScript.Value.errorOf_ofDatum`). An entry of a mapping counts
also where its key, written out, is that of a later entry, although nothing of it is left in the
result.

A datum is faulty if it is an integer outside 64 bits or of a type that no value stands for.
There is one more way to fail: the host does not write out integers of more than
`ScopeScript.Datum.digitLimit` digits. So it has no text for such an integer in a key, although
nothing may be wrong with the data that the mapping holds, and none for the error that should
name an integer as being too wide (`ScopeScript.Datum.not_forall_converts_unless_faulty`).

Where nothing is faulty there is a value (`ScopeScript.Datum.Becomes`). Its objects have the
written keys in the order in which they first occur, and under each the value that was entered
last.
-/
namespace ScopeScript

namespace Datum

/-! ### Data within data -/

/-- The data that a datum is made of: its items, or its keys and values. -/
def parts : Datum → List Datum
  | list xs => xs
  | tuple xs => xs
  | set xs => xs
  | map es => es.flatMap fun e => [e.1, e.2]
  | _ => []

theorem mem_parts_map {es : List (Datum × Datum)} {e : Datum × Datum} (h : e ∈ es) :
    e.2 ∈ (map es).parts :=
  List.mem_flatMap.mpr ⟨e, h, List.mem_cons_of_mem _ List.mem_cons_self⟩

theorem sizeOf_lt_of_mem_parts {d x : Datum} (h : x ∈ d.parts) : sizeOf x < sizeOf d := by
  cases d with
  | list xs | tuple xs | set xs =>
    have hlist : sizeOf x < sizeOf xs := List.sizeOf_lt_of_mem h
    simp only [list.sizeOf_spec, tuple.sizeOf_spec, set.sizeOf_spec]
    omega
  | map es =>
    obtain ⟨e, he, hx⟩ := List.mem_flatMap.mp h
    have hlist := List.sizeOf_lt_of_mem he
    obtain ⟨key, value⟩ := e
    simp only [List.mem_cons, List.not_mem_nil, or_false] at hx
    simp only [Prod.mk.sizeOf_spec, map.sizeOf_spec] at hlist ⊢
    rcases hx with rfl | rfl
    · omega
    · omega
  | _ => cases h

/-- **Induction over data**: a datum is settled once what it is made of is. -/
theorem ind {P : Datum → Prop} (h : ∀ d : Datum, (∀ x ∈ d.parts, P x) → P d) (d : Datum) : P d :=
  h d fun x hx =>
    have := sizeOf_lt_of_mem_parts hx
    ind h x
termination_by sizeOf d

/-! ### What is nested in a datum -/

mutual

/-- **The data nested in a datum** through lists, tuples and the values of mappings: first
the datum itself, then what is nested in it from left to right. -/
def nested : Datum → List Datum
  | list xs => list xs :: nestedItems xs
  | tuple xs => tuple xs :: nestedItems xs
  | map es => map es :: nestedEntries es
  | d => [d]

/-- The data nested in the items of a list. -/
def nestedItems : List Datum → List Datum
  | [] => []
  | x :: xs => nested x ++ nestedItems xs

/-- The data nested in the values of a mapping. -/
def nestedEntries : List (Datum × Datum) → List Datum
  | [] => []
  | (_, x) :: es => nested x ++ nestedEntries es

end

/-- **What is wrong with a datum**, whatever may be nested in it: it is an integer outside
signed 64 bits, or of a type that no value stands for. An integer that has too many digits is
not named. -/
def fault? : Datum → Option ConversionError
  | int n =>
    if Value.minInteger ≤ n ∧ n ≤ Value.maxInteger then none
    else if canWrite n then some (.tooWide n)
    else some .unwritable
  | bytes _ => some (.inconvertible "bytes")
  | set _ => some (.inconvertible "set")
  | foreign o => if o.callable then none else some (.inconvertible o.typeName)
  | _ => none

/-- What a conversion comes to. -/
inductive Stop where
  /-- A datum that is converted. -/
  | datum (d : Datum)
  /-- A key that is written out. -/
  | key (k : Datum)

/-- What is wrong there. A key is written out, and nothing else is done to it. -/
def Stop.fault? : Stop → Option ConversionError
  | datum d => d.fault?
  | key k => if k.isWritable then none else some .unwritable

/-- The datum that is converted there, if there is one. -/
def Stop.datum? : Stop → Option Datum
  | datum d => some d
  | key _ => none

mutual

/-- **What a conversion of a datum comes to**, from left to right: the data nested in it, and
before the value of each entry its key. -/
def stops : Datum → List Stop
  | list xs => .datum (list xs) :: stopsItems xs
  | tuple xs => .datum (tuple xs) :: stopsItems xs
  | map es => .datum (map es) :: stopsEntries es
  | d => [.datum d]

/-- What it comes to in the items of a list. -/
def stopsItems : List Datum → List Stop
  | [] => []
  | x :: xs => stops x ++ stopsItems xs

/-- What it comes to in the entries of a mapping. -/
def stopsEntries : List (Datum × Datum) → List Stop
  | [] => []
  | (k, x) :: es => .key k :: (stops x ++ stopsEntries es)

end

-- The three functions recur together, and so do the theorems about them.
mutual

/-- **Apart from keys, it comes to the data that are nested in the datum.** -/
theorem datums_stops : ∀ d : Datum, d.stops.filterMap Stop.datum? = d.nested
  | .list xs => by rw [stops, nested, ← datums_stopsItems xs]; rfl
  | .tuple xs => by rw [stops, nested, ← datums_stopsItems xs]; rfl
  | .map es => by rw [stops, nested, ← datums_stopsEntries es]; rfl
  | .null | .bool _ | .int _ | .float _ | .text _ | .bytes _ | .set _ | .foreign _ | .value _ =>
    rfl

theorem datums_stopsItems :
    ∀ xs : List Datum, (stopsItems xs).filterMap Stop.datum? = nestedItems xs
  | [] => rfl
  | x :: xs => by
    rw [stopsItems, nestedItems, List.filterMap_append, datums_stops x, datums_stopsItems xs]

theorem datums_stopsEntries :
    ∀ es : List (Datum × Datum), (stopsEntries es).filterMap Stop.datum? = nestedEntries es
  | [] => rfl
  | (k, x) :: es => by
    rw [stopsEntries, nestedEntries, List.filterMap_cons_none (rfl : (Stop.key k).datum? = none),
      List.filterMap_append, datums_stops x, datums_stopsEntries es]

end

theorem nestedItems_eq (xs : List Datum) : nestedItems xs = xs.flatMap nested := by
  induction xs with
  | nil => rfl
  | cons x xs ih => rw [nestedItems, ih, List.flatMap_cons]

theorem nestedEntries_eq (es : List (Datum × Datum)) :
    nestedEntries es = es.flatMap fun e => e.2.nested := by
  induction es with
  | nil => rfl
  | cons e es ih => rw [nestedEntries, ih, List.flatMap_cons]

/-! ### What a datum becomes -/

/-- **What a datum becomes**, at every depth. -/
inductive Becomes : Datum → Value → Prop
  | null : Becomes null .none
  | bool (flag : Bool) : Becomes (bool flag) (.boolean flag)
  /-- An integer of 64 bits stands for the same number. -/
  | int (number : Int64) : Becomes (int number.toInt) (.integer number)
  | float (number : Number.Double) : Becomes (float number) (.double number)
  | text (content : String) : Becomes (text content) (.string content)
  /-- Item by item. -/
  | list {xs : List Datum} {vs : List Value} (hlength : xs.length = vs.length)
      (hitems : ∀ p ∈ xs.zip vs, Becomes p.1 p.2) : Becomes (list xs) (.array vs)
  /-- Item by item. -/
  | tuple {xs : List Datum} {vs : List Value} (hlength : xs.length = vs.length)
      (hitems : ∀ p ∈ xs.zip vs, Becomes p.1 p.2) : Becomes (tuple xs) (.array vs)
  /-- Keys are written out. Each stands where it first occurs, with the last of its values. -/
  | map {es : List (Datum × Datum)} {written entries : List (String × Value)}
      (hwritten : written.map Prod.fst = es.map fun e => e.1.plain)
      (hvalues : ∀ p ∈ es.zip written, Becomes p.1.2 p.2.2)
      (hkeys : entries.map Prod.fst = (written.map Prod.fst).eraseDups)
      (hlast : ∀ key, entries.lookup key = written.reverse.lookup key) :
      Becomes (map es) (.object entries)
  /-- Whatever can be called is a function. -/
  | foreign {object : Foreign} (hcallable : object.callable = true) :
    Becomes (foreign object) .function
  /-- A value stays what it is. -/
  | value (content : Value) : Becomes (value content) content

end Datum

/-! ### Errors -/

/-- The error, if there is one. -/
def errorOf {ε α : Type} : Except ε α → Option ε
  | .ok _ => none
  | .error e => some e

theorem errorOf_eq_some {ε α : Type} {r : Except ε α} {e : ε} :
    errorOf r = some e ↔ r = .error e := by
  cases r <;> simp [errorOf]

theorem errorOf_map {ε α β : Type} (f : α → β) (r : Except ε α) :
    errorOf (r.map f) = errorOf r := by
  cases r <;> rfl

/-- Of two steps the first one that fails makes the error. -/
theorem errorOf_bind {ε α β γ : Type} (f : α → β → γ) (r : Except ε α) (s : Except ε β) :
    errorOf (do let a ← r; let b ← s; return f a b) = (errorOf r).or (errorOf s) := by
  cases r <;> cases s <;> rfl

/-- Of three steps the first one that fails makes the error. -/
theorem errorOf_bind₃ {ε α β γ δ : Type} (f : α → β → γ → δ) (r : Except ε α) (s : Except ε β)
    (t : Except ε γ) :
    errorOf (do let a ← r; let b ← s; let c ← t; return f a b c)
      = (errorOf r).or ((errorOf s).or (errorOf t)) := by
  cases r <;> cases s <;> cases t <;> rfl

/-- What stands on the right has something on the left to stand for. -/
theorem exists_of_forall₂ {α β : Type} {R : α → β → Prop} {as : List α} {bs : List β} {b : β}
    (h : List.Forall₂ R as bs) (hb : b ∈ bs) : ∃ a ∈ as, R a b := by
  induction h with
  | nil => cases hb
  | cons hr _ ih =>
    rcases List.mem_cons.mp hb with rfl | hb
    · exact ⟨_, List.mem_cons_self, hr⟩
    · obtain ⟨a, ha, hr⟩ := ih hb
      exact ⟨a, List.mem_cons_of_mem _ ha, hr⟩

theorem map_eq_ok {ε α β : Type} {f : α → β} {r : Except ε α} {b : β} :
    r.map f = .ok b ↔ ∃ a, r = .ok a ∧ f a = b := by
  cases r <;> simp [Except.map]

theorem bind_eq_ok {ε α β γ : Type} {f : α → β → γ} {r : Except ε α} {s : Except ε β} {c : γ} :
    (do let a ← r; let b ← s; return f a b) = .ok c ↔
      ∃ a b, r = .ok a ∧ s = .ok b ∧ f a b = c := by
  cases r <;> cases s <;> simp [Bind.bind, Except.bind, Pure.pure, Except.pure]

theorem bind₃_eq_ok {ε α β γ δ : Type} {f : α → β → γ → δ} {r : Except ε α} {s : Except ε β}
    {t : Except ε γ} {d : δ} :
    (do let a ← r; let b ← s; let c ← t; return f a b c) = .ok d ↔
      ∃ a b c, r = .ok a ∧ s = .ok b ∧ t = .ok c ∧ f a b c = d := by
  cases r <;> cases s <;> cases t <;> simp [Bind.bind, Except.bind, Pure.pure, Except.pure]

/-- **A list is gone through item by item.** -/
theorem mapM_eq_ok {ε α β : Type} {f : α → Except ε β} {as : List α} {bs : List β} :
    as.mapM f = .ok bs ↔ List.Forall₂ (fun a b => f a = .ok b) as bs := by
  induction as generalizing bs with
  | nil =>
    rw [List.mapM_nil, List.forall₂_nil_left_iff]
    exact ⟨fun h => (Except.ok.inj h).symm, fun h => congrArg _ h.symm⟩
  | cons a as ih =>
    rw [List.mapM_cons, bind_eq_ok (f := List.cons), List.forall₂_cons_left_iff]
    constructor
    · rintro ⟨b, bs, hb, hbs, rfl⟩
      exact ⟨b, bs, hb, ih.mp hbs, rfl⟩
    · rintro ⟨b, bs, hb, hbs, rfl⟩
      exact ⟨b, bs, hb, ih.mpr hbs, rfl⟩

namespace Value

theorem fits_iff {n : Int} : fits n = true ↔ minInteger ≤ n ∧ n ≤ maxInteger := by
  rw [fits, Bool.and_eq_true, decide_eq_true_iff, decide_eq_true_iff]

/-- An integer of 64 bits fits. -/
theorem fits_toInt (m : Int64) : minInteger ≤ m.toInt ∧ m.toInt ≤ maxInteger :=
  ⟨m.le_toInt, Int.le_sub_one_of_lt m.toInt_lt⟩

/-- An integer that fits is kept. -/
theorem toInt_ofInt {n : Int} (h : minInteger ≤ n ∧ n ≤ maxInteger) :
    (Int64.ofInt n).toInt = n :=
  Int64.toInt_ofInt_of_le h.1 (Int.lt_of_le_sub_one h.2)

theorem ofInt_toInt (m : Int64) : ofInt m.toInt = .ok (integer m) := by
  rw [ofInt, if_pos (fits_iff.mpr (fits_toInt m)), Int64.ofInt_toInt]

theorem toInt_of_ofInt {n : Int} {v : Value} (h : ofInt n = .ok v) :
    ∃ m : Int64, m.toInt = n ∧ v = integer m := by
  rw [ofInt] at h
  split at h
  · rename_i hfits
    cases h
    exact ⟨Int64.ofInt n, toInt_ofInt (fits_iff.mp hfits), rfl⟩
  · cases h

/-- What is wrong with an integer is what keeps it from making a value. -/
theorem errorOf_ofInt (n : Int) : errorOf (ofInt n) = (Datum.int n).fault? := by
  rw [ofInt, Datum.fault?, widthError]
  by_cases hfits : fits n
  · rw [if_pos hfits, if_pos (fits_iff.mp hfits)]
    rfl
  · rw [if_neg hfits, if_neg (mt fits_iff.mpr hfits)]
    split
    · rfl
    · rfl

theorem keyOf_eq_ok {k : Datum} {key : String} :
    keyOf k = .ok key ↔ k.isWritable = true ∧ k.plain = key := by
  rw [keyOf]
  split
  · rename_i hwritable
    rw [Except.ok.injEq, hwritable, and_iff_right rfl]
  · rename_i hwritable
    exact iff_of_false nofun fun h => hwritable h.1

theorem errorOf_keyOf (k : Datum) : errorOf (keyOf k) = (Datum.Stop.key k).fault? := by
  rw [keyOf, Datum.Stop.fault?]
  split
  · rfl
  · rfl

mutual

/-- **The error is that of the first stop where something is wrong.** -/
theorem errorOf_ofDatum :
    ∀ d : Datum, errorOf (ofDatum d) = d.stops.findSome? Datum.Stop.fault?
  | .int n => by
    have hstops : (Datum.int n).stops = [.datum (.int n)] := rfl
    rw [ofDatum, errorOf_ofInt, hstops, List.findSome?_singleton, Datum.Stop.fault?]
  | .foreign o => by
    have hstops : (Datum.foreign o).stops = [.datum (.foreign o)] := rfl
    rw [ofDatum, hstops, List.findSome?_singleton, Datum.Stop.fault?, Datum.fault?]
    split
    · rfl
    · rfl
  | .list xs => by
    rw [ofDatum, errorOf_map, errorOf_ofDatumItems xs, Datum.stops, List.findSome?_cons]
    rfl
  | .tuple xs => by
    rw [ofDatum, errorOf_map, errorOf_ofDatumItems xs, Datum.stops, List.findSome?_cons]
    rfl
  | .map es => by
    rw [ofDatum, errorOf_map, errorOf_ofDatumEntries es, Datum.stops, List.findSome?_cons]
    rfl
  | .null | .bool _ | .float _ | .text _ | .bytes _ | .set _ | .value _ => rfl

theorem errorOf_ofDatumItems :
    ∀ xs : List Datum,
      errorOf (ofDatumItems xs) = (Datum.stopsItems xs).findSome? Datum.Stop.fault?
  | [] => rfl
  | x :: xs => by
    rw [ofDatumItems, errorOf_bind, errorOf_ofDatum x, errorOf_ofDatumItems xs,
      Datum.stopsItems, List.findSome?_append]

theorem errorOf_ofDatumEntries :
    ∀ es : List (Datum × Datum),
      errorOf (ofDatumEntries es) = (Datum.stopsEntries es).findSome? Datum.Stop.fault?
  | [] => rfl
  | (k, x) :: es => by
    rw [ofDatumEntries, errorOf_bind₃ fun key v vs => (key, v) :: vs, errorOf_keyOf,
      errorOf_ofDatum x, errorOf_ofDatumEntries es, Datum.stopsEntries, List.findSome?_cons,
      List.findSome?_append]
    cases (Datum.Stop.key k).fault? with
    | none => rfl
    | some e => rfl

end

/-! ### Values -/

/-- **A list makes an array item by item.** -/
theorem ofDatumItems_eq_ok {xs : List Datum} {vs : List Value} :
    ofDatumItems xs = .ok vs ↔ List.Forall₂ (fun x v => ofDatum x = .ok v) xs vs := by
  have hmapM : ∀ xs, ofDatumItems xs = xs.mapM ofDatum := by
    intro xs
    induction xs with
    | nil => rfl
    | cons x xs ih => rw [ofDatumItems, List.mapM_cons, ih]
  rw [hmapM, mapM_eq_ok]

/-- **A mapping makes entries one by one**, with their keys written out. -/
theorem ofDatumEntries_eq_ok {es : List (Datum × Datum)} {ws : List (String × Value)} :
    ofDatumEntries es = .ok ws ↔
      List.Forall₂ (fun e w => keyOf e.1 = .ok w.1 ∧ ofDatum e.2 = .ok w.2) es ws := by
  induction es generalizing ws with
  | nil =>
    rw [ofDatumEntries, List.forall₂_nil_left_iff, Except.ok.injEq, eq_comm]
  | cons e es ih =>
    rw [ofDatumEntries, bind₃_eq_ok (f := fun key v vs => (key, v) :: vs),
      List.forall₂_cons_left_iff]
    constructor
    · rintro ⟨key, v, vs, hkey, hv, hvs, rfl⟩
      exact ⟨(key, v), vs, ⟨hkey, hv⟩, ih.mp hvs, rfl⟩
    · rintro ⟨w, ws, ⟨hkey, hw⟩, hws, rfl⟩
      exact ⟨w.1, w.2, ws, hkey, hw, ih.mpr hws, rfl⟩

/-- Entries that are written out have the written keys. -/
theorem keys_of_ofDatumEntries {es : List (Datum × Datum)} {ws : List (String × Value)}
    (h : ofDatumEntries es = .ok ws) : ws.map Prod.fst = es.map fun e => e.1.plain := by
  rw [ofDatumEntries_eq_ok] at h
  induction h with
  | nil => rfl
  | cons hentry _ ih => rw [List.map_cons, List.map_cons, (keyOf_eq_ok.mp hentry.1).2, ih]

/-- **What a datum is converted to is what it becomes.** -/
theorem becomes_of_ofDatum {d : Datum} {v : Value} (h : ofDatum d = .ok v) : d.Becomes v := by
  induction d using Datum.ind generalizing v with
  | h d ih =>
    cases d with
    | null =>
      cases h
      exact .null
    | bool b =>
      cases h
      exact .bool b
    | int n =>
      obtain ⟨m, rfl, rfl⟩ := toInt_of_ofInt h
      exact .int m
    | float x =>
      cases h
      exact .float x
    | text s =>
      cases h
      exact .text s
    | list xs =>
      obtain ⟨vs, hvs, rfl⟩ := map_eq_ok.mp h
      obtain ⟨hlength, hitems⟩ := List.forall₂_iff_zip.mp (ofDatumItems_eq_ok.mp hvs)
      exact .list hlength fun p hp => ih p.1 (List.of_mem_zip hp).1 (hitems hp)
    | tuple xs =>
      obtain ⟨vs, hvs, rfl⟩ := map_eq_ok.mp h
      obtain ⟨hlength, hitems⟩ := List.forall₂_iff_zip.mp (ofDatumItems_eq_ok.mp hvs)
      exact .tuple hlength fun p hp => ih p.1 (List.of_mem_zip hp).1 (hitems hp)
    | map es =>
      obtain ⟨ws, hws, rfl⟩ := map_eq_ok.mp h
      obtain ⟨-, hentries⟩ := List.forall₂_iff_zip.mp (ofDatumEntries_eq_ok.mp hws)
      exact .map (keys_of_ofDatumEntries hws)
        (fun p hp => ih p.1.2 (Datum.mem_parts_map (List.of_mem_zip hp).1) (hentries hp).2)
        (keys_enterAll ws) (lookup_enterAll ws)
    | foreign o =>
      rw [ofDatum] at h
      split at h
      · rename_i hcallable
        cases h
        exact .foreign hcallable
      · cases h
    | value w =>
      cases h
      exact .value v
    | bytes | set => cases h

/-- **The result is tidy at every depth**, if the values are that stand in the datum. -/
theorem tidy_of_ofDatum {d : Datum} {v : Value} (h : ofDatum d = .ok v)
    (hvalues : ∀ w, .value w ∈ d.nested → w.Tidy) : v.Tidy := by
  induction d using Datum.ind generalizing v with
  | h d ih =>
    cases d with
    | list xs | tuple xs =>
      obtain ⟨vs, hvs, rfl⟩ := map_eq_ok.mp h
      refine .intro List.nodup_nil fun w hw => ?_
      obtain ⟨x, hx, hxw⟩ := exists_of_forall₂ (ofDatumItems_eq_ok.mp hvs) hw
      refine ih x hx hxw fun u hu => hvalues u ?_
      rw [Datum.nested, Datum.nestedItems_eq]
      exact List.mem_cons_of_mem _ (List.mem_flatMap.mpr ⟨x, hx, hu⟩)
    | map es =>
      obtain ⟨ws, hws, rfl⟩ := map_eq_ok.mp h
      refine .intro (nodup_keys_enterAll ws) fun w hw => ?_
      obtain ⟨b, hb, rfl⟩ := List.mem_map.mp hw
      obtain ⟨entry, hentry, heq⟩ := mem_enterAll hb
      obtain ⟨e, he, -, hew⟩ := exists_of_forall₂ (ofDatumEntries_eq_ok.mp hws) hentry
      rw [← heq]
      refine ih e.2 (Datum.mem_parts_map he) hew fun u hu => hvalues u ?_
      rw [Datum.nested, Datum.nestedEntries_eq]
      exact List.mem_cons_of_mem _ (List.mem_flatMap.mpr ⟨e, he, hu⟩)
    | int n =>
      obtain ⟨m, -, rfl⟩ := toInt_of_ofInt h
      exact tidy_of_isScalar rfl
    | value w =>
      cases h
      exact hvalues v List.mem_cons_self
    | foreign o =>
      rw [ofDatum] at h
      split at h
      · cases h
        exact tidy_of_isScalar rfl
      · cases h
    | null | bool | float | text =>
      cases h
      exact tidy_of_isScalar rfl
    | bytes | set => cases h

end Value

namespace Datum

/-! ### Integers that cannot be written out -/

theorem canWrite_iff {n : Int} : canWrite n = true ↔ n.natAbs < digitBound := decide_eq_true_iff

theorem not_canWrite_iff {n : Int} : canWrite n = false ↔ digitBound ≤ n.natAbs := by
  rw [← Bool.not_eq_true, canWrite_iff, Nat.not_lt]

/-- The least number with too many digits takes more than 64 bits. -/
theorem lt_digitBound : 0xFFFFFFFFFFFFFFFF < digitBound := by
  -- the number of digits is kept apart from its value, which must not be computed with
  have hpow : ∀ digits ≥ 20, 0xFFFFFFFFFFFFFFFF < Nat.pow 10 digits := fun digits h =>
    Nat.lt_of_lt_of_le (by decide : 0xFFFFFFFFFFFFFFFF < Nat.pow 10 20)
      (Nat.pow_le_pow_right (by decide) h)
  unfold digitBound
  generalize hdigits : digitLimit = digits
  exact hpow digits (by rw [← hdigits]; decide)

/-- **An integer that has too many digits is too wide**, and there is no text to say so. -/
theorem fault?_of_not_canWrite {n : Int} (h : canWrite n = false) :
    (int n).fault? = some .unwritable := by
  have hwide : ¬(Value.minInteger ≤ n ∧ n ≤ Value.maxInteger) := by
    have habs : 0xFFFFFFFFFFFFFFFF < n.natAbs :=
      Nat.lt_of_lt_of_le lt_digitBound (not_canWrite_iff.mp h)
    rw [Value.minInteger, Value.maxInteger]
    omega
  rw [fault?, if_neg hwide, h, if_neg Bool.false_ne_true]

/-! ### When a conversion fails -/

/-- The first fault among the data that are nested in a datum is the first one of all, if all
keys can be written out. -/
theorem findSome?_nested {d : Datum} (hkeys : ∀ k, .key k ∈ d.stops → k.isWritable = true) :
    d.nested.findSome? fault? = d.stops.findSome? Stop.fault? := by
  rw [← datums_stops]
  generalize d.stops = stops at hkeys
  induction stops with
  | nil => rfl
  | cons stop stops ih =>
    have ih := ih fun k hk => hkeys k (List.mem_cons_of_mem stop hk)
    cases stop with
    | datum x =>
      rw [List.filterMap_cons_some (rfl : (Stop.datum x).datum? = some x), List.findSome?_cons,
        List.findSome?_cons, ih]
      rfl
    | key k =>
      have hk : (Stop.key k).fault? = none := by
        rw [Stop.fault?, if_pos (hkeys k List.mem_cons_self)]
      rw [List.filterMap_cons_none (rfl : (Stop.key k).datum? = none), List.findSome?_cons, hk, ih]

/-- **When a conversion fails, and what it makes otherwise.** It fails just if something is wrong
with what it comes to, and the error is that of the first stop from left to right where it is. If
all keys can be written out, this is the first nested datum that is an integer outside 64 bits or
of a type that no value stands for. Otherwise it makes what the datum becomes, and this is tidy if
the values are that stood in the datum. -/
theorem converts_unless_faulty (d : Datum) :
    ((∃ e, Value.ofDatum d = .error e) ↔ ∃ stop ∈ d.stops, stop.fault? ≠ none) ∧
      (∀ e, Value.ofDatum d = .error e ↔ ∃ before stop after, d.stops = before ++ stop :: after ∧
        stop.fault? = some e ∧ ∀ s ∈ before, s.fault? = none) ∧
      ((∀ k, .key k ∈ d.stops → k.isWritable = true) →
        ∀ e, Value.ofDatum d = .error e ↔ ∃ before x after, d.nested = before ++ x :: after ∧
          x.fault? = some e ∧ ∀ y ∈ before, y.fault? = none) ∧
      ∀ v, Value.ofDatum d = .ok v →
        d.Becomes v ∧ ((∀ w, value w ∈ d.nested → w.Tidy) → v.Tidy) := by
  have herror : ∀ e, Value.ofDatum d = .error e ↔ d.stops.findSome? Stop.fault? = some e := by
    intro e
    rw [← Value.errorOf_ofDatum, errorOf_eq_some]
  refine ⟨?_, fun e => ?_, fun hkeys e => ?_, fun v h =>
    ⟨Value.becomes_of_ofDatum h, Value.tidy_of_ofDatum h⟩⟩
  · refine (exists_congr herror).trans ?_
    rw [← Option.isSome_iff_exists, List.findSome?_isSome_iff]
    simp only [Option.isSome_iff_ne_none]
  · rw [herror, List.findSome?_eq_some_iff]
  · rw [herror, ← findSome?_nested hkeys, List.findSome?_eq_some_iff]

/-- A mapping with two keys that are written alike, a list with two faults, and a mapping in
which nothing is wrong but a key. -/
theorem converts_unless_faulty_examples :
    Value.ofDatum (.list [.tuple [.text "a", .int 0x8000000000000000], .bytes []])
        = .error (.tooWide 0x8000000000000000) ∧
      Value.ofDatum (.map [(.text "a", .null), (.int digitBound, .bool true)])
        = .error .unwritable ∧
      Value.ofDatum (.map [(.int 1, .bool true), (.text "a", .null), (.text "1", .int 2)])
        = .ok (.object [("1", .integer 2), ("a", .none)]) ∧
      (Value.object [("1", .integer 2), ("a", .none)]).Tidy := by
  have hwrite : canWrite 0x8000000000000000 = true :=
    canWrite_iff.mpr (Nat.lt_trans (by decide) lt_digitBound)
  have hone : canWrite 1 = true := canWrite_iff.mpr (Nat.lt_trans (by decide) lt_digitBound)
  have hbound : canWrite digitBound = false := not_canWrite_iff.mpr (Nat.le_refl digitBound)
  have hmap : Value.ofDatum
      (.map [(.int 1, .bool true), (.text "a", .null), (.text "1", .int 2)])
        = .ok (.object [("1", .integer 2), ("a", .none)]) := by
    have hkey : Value.keyOf (.int 1) = .ok "1" :=
      Value.keyOf_eq_ok.mpr ⟨hone, rfl⟩
    rw [Value.ofDatum, Value.ofDatumEntries, hkey]
    rfl
  refine ⟨?_, ?_, hmap, ?_⟩
  · refine ((converts_unless_faulty _).2.1 _).mpr
      ⟨[_, _, _], .datum (.int 0x8000000000000000), [.datum (.bytes [])], rfl, ?_, ?_⟩
    · rw [Stop.fault?, fault?, if_neg (by decide), if_pos hwrite]
    · simp [Stop.fault?, fault?]
  · refine ((converts_unless_faulty _).2.1 _).mpr
      ⟨[_, _, _], .key (.int digitBound), [.datum (.bool true)], rfl, ?_, ?_⟩
    · rw [Stop.fault?, isWritable, hbound, if_neg Bool.false_ne_true]
    · simp [Stop.fault?, fault?, isWritable]
  · refine ((converts_unless_faulty _).2.2.2 _ hmap).2 fun w hw => ?_
    simp [nested, nestedEntries] at hw

/-- **A conversion does not only fail with the errors that it should have**, since there is no
text for the error about an integer with too many digits; **and it does not only fail where some
nested datum is faulty**, since there is none for a key either. -/
theorem not_forall_converts_unless_faulty :
    (¬∀ d e, Value.ofDatum d = .error e →
        (∃ n, e = .tooWide n) ∨ ∃ found, e = .inconvertible found) ∧
      ¬∀ d, (∃ e, Value.ofDatum d = .error e) → ∃ x ∈ d.nested, x.fault? ≠ none := by
  have hbound : canWrite digitBound = false := not_canWrite_iff.mpr (Nat.le_refl digitBound)
  refine ⟨fun h => ?_, fun h => ?_⟩
  · have hfails : Value.ofDatum (.int digitBound) = .error .unwritable := by
      rw [← errorOf_eq_some, Value.ofDatum, Value.errorOf_ofInt,
        fault?_of_not_canWrite hbound]
    rcases h _ _ hfails with ⟨n, hn⟩ | ⟨found, hfound⟩
    · cases hn
    · cases hfound
  · have hfails : Value.ofDatum (.map [(.int digitBound, .null)]) = .error .unwritable := by
      have hkey : Value.keyOf (.int digitBound) = .error .unwritable := by
        rw [Value.keyOf, isWritable, hbound, if_neg Bool.false_ne_true]
      rw [Value.ofDatum, Value.ofDatumEntries, hkey]
      rfl
    obtain ⟨x, hx, hfault⟩ := h _ ⟨_, hfails⟩
    simp only [nested, nestedEntries, List.append_nil, List.mem_cons, List.not_mem_nil,
      or_false] at hx
    rcases hx with rfl | rfl
    · exact hfault rfl
    · exact hfault rfl

end Datum

end ScopeScript
