import Mathlib.Data.List.Induction
import ScopeScript.Value.Basic

/-!
# Entering pairs in a mapping

Objects, host mappings and frames are made by entering one pair after the other: a new key
goes to the end, and a known one keeps its place and takes the new value. So the result can
be told from the pairs at once. **Its keys are the keys of the pairs, in the order in which
they first occur** (`ScopeScript.keys_enterAll`), **and under each of them stands the last
value** (`ScopeScript.lookup_enterAll`). Where all keys are distinct, nothing changes
(`ScopeScript.enterAll_of_nodup`).
-/

namespace ScopeScript

variable {κ α : Type} [BEq κ]

section Members

variable {key : κ} {value : α} {done entries : List (κ × α)} {b : κ × α}

theorem mem_enter (h : b ∈ enter key value entries) : b.2 = value ∨ b ∈ entries := by
  induction entries with
  | nil =>
    rw [enter, List.mem_singleton] at h
    exact Or.inl (congrArg Prod.snd h)
  | cons entry entries ih =>
    rw [enter] at h
    split at h
    · rcases List.mem_cons.mp h with rfl | h
      · exact Or.inl rfl
      · exact Or.inr (List.mem_cons_of_mem entry h)
    · rcases List.mem_cons.mp h with rfl | h
      · exact Or.inr List.mem_cons_self
      · exact (ih h).imp id (List.mem_cons_of_mem entry)

theorem mem_foldl_enter (h : b ∈ entries.foldl (fun done (k, v) => enter k v done) done) :
    b ∈ done ∨ ∃ entry ∈ entries, entry.2 = b.2 := by
  induction entries generalizing done with
  | nil => exact Or.inl h
  | cons entry entries ih =>
    rcases ih h with h | ⟨entry', hmem, heq⟩
    · rcases mem_enter h with heq | h
      · exact Or.inr ⟨entry, List.mem_cons_self, heq.symm⟩
      · exact Or.inl h
    · exact Or.inr ⟨entry', List.mem_cons_of_mem entry hmem, heq⟩

/-- A mapping holds only values that were entered. -/
theorem mem_enterAll (h : b ∈ enterAll entries) : ∃ entry ∈ entries, entry.2 = b.2 :=
  (mem_foldl_enter h).resolve_left List.not_mem_nil

/-- The last pair is entered last. -/
theorem enterAll_concat (entries : List (κ × α)) (key : κ) (value : α) :
    enterAll (entries ++ [(key, value)]) = enter key value (enterAll entries) := by
  rw [enterAll, enterAll, List.foldl_append]
  rfl

end Members

/-! ### Keys and what stands under them -/

variable [LawfulBEq κ] {entries : List (κ × α)}

/-- A key that is new goes to the end. -/
theorem enter_of_not_mem {key : κ} (h : key ∉ entries.map Prod.fst) (value : α) :
    enter key value entries = entries ++ [(key, value)] := by
  induction entries with
  | nil => rfl
  | cons entry entries ih =>
    obtain ⟨hne, hrest⟩ := not_or.mp (mt List.mem_cons.mpr h)
    have hkey : (entry.1 == key) = false := beq_eq_false_iff_ne.mpr (Ne.symm hne)
    rw [enter, hkey, ih hrest, List.cons_append]
    rfl

/-- A key that is known keeps its place. -/
theorem keys_enter_of_mem {key : κ} (h : key ∈ entries.map Prod.fst) (value : α) :
    (enter key value entries).map Prod.fst = entries.map Prod.fst := by
  induction entries with
  | nil => cases h
  | cons entry entries ih =>
    rw [enter]
    split
    · rfl
    · rename_i hne
      rcases List.mem_cons.mp h with rfl | h
      · exact absurd (beq_self_eq_true _) hne
      · rw [List.map_cons, List.map_cons, ih h]

theorem lookup_enter (key k : κ) (value : α) (entries : List (κ × α)) :
    (enter key value entries).lookup k
      = if k == key then some value else entries.lookup k := by
  induction entries with
  | nil =>
    rw [enter, List.lookup_cons]
    cases k == key <;> rfl
  | cons entry entries ih =>
    obtain ⟨l, v⟩ := entry
    rw [enter]
    split
    · rename_i hl
      obtain rfl := eq_of_beq hl
      rw [List.lookup_cons, List.lookup_cons]
      cases k == l <;> rfl
    · rename_i hl
      rw [List.lookup_cons, List.lookup_cons, ih]
      cases hk : k == l with
      | false => rfl
      | true =>
        obtain rfl := eq_of_beq hk
        exact (if_neg hl).symm

/-- **The keys of a mapping are those of the pairs, in the order of first occurrence.** -/
theorem keys_enterAll (entries : List (κ × α)) :
    (enterAll entries).map Prod.fst = (entries.map Prod.fst).eraseDups := by
  induction entries using List.reverseRecOn with
  | nil => rfl
  | append_singleton entries entry ih =>
    obtain ⟨key, value⟩ := entry
    rw [enterAll_concat, List.map_append, List.eraseDups_append, ← ih]
    by_cases h : key ∈ (enterAll entries).map Prod.fst
    · have hmem : key ∈ entries.map Prod.fst := by rwa [ih, List.mem_eraseDups] at h
      rw [keys_enter_of_mem h]
      simp [List.removeAll, hmem]
    · have hmem : key ∉ entries.map Prod.fst := by rwa [ih, List.mem_eraseDups] at h
      rw [enter_of_not_mem h, List.map_append]
      simp [List.removeAll, hmem, List.eraseDups_cons]

/-- **Under each key stands the last value** that is entered for it. -/
theorem lookup_enterAll (entries : List (κ × α)) (k : κ) :
    (enterAll entries).lookup k = entries.reverse.lookup k := by
  induction entries using List.reverseRecOn with
  | nil => rfl
  | append_singleton entries entry ih =>
    obtain ⟨key, value⟩ := entry
    rw [enterAll_concat, lookup_enter, ih, List.reverse_append, List.reverse_singleton,
      List.singleton_append, List.lookup_cons]
    cases k == key <;> rfl

/-- No key stands in a mapping twice. -/
theorem nodup_keys_enterAll (entries : List (κ × α)) :
    ((enterAll entries).map Prod.fst).Nodup := by
  induction entries using List.reverseRecOn with
  | nil => exact List.nodup_nil
  | append_singleton entries entry ih =>
    obtain ⟨key, value⟩ := entry
    rw [enterAll_concat]
    by_cases h : key ∈ (enterAll entries).map Prod.fst
    · rwa [keys_enter_of_mem h]
    · rw [enter_of_not_mem h, List.map_append, List.nodup_append]
      refine ⟨ih, List.pairwise_singleton _ key, fun k hk l hl hkl => ?_⟩
      rw [hkl, List.mem_singleton.mp hl] at hk
      exact h hk

/-- **Where all keys are distinct, the pairs are the mapping.** -/
theorem enterAll_of_nodup (h : (entries.map Prod.fst).Nodup) : enterAll entries = entries := by
  induction entries using List.reverseRecOn with
  | nil => rfl
  | append_singleton entries entry ih =>
    obtain ⟨key, value⟩ := entry
    rw [List.map_append, List.nodup_append] at h
    obtain ⟨hnodup, -, hnew⟩ := h
    rw [enterAll_concat, ih hnodup, enter_of_not_mem]
    exact fun hmem => hnew key hmem key (List.mem_singleton.mpr rfl) rfl

end ScopeScript
