import ScopeScript.Proofs.Number.ReadBack
import ScopeScript.Proofs.Value.Parts
import ScopeScript.Value.Display

/-!
# Literal texts are unambiguous

Two values without objects in them have the same literal text only if they are the same value,
and no literal text has a newline in it (`ScopeScript.Value.literal_unambiguous`). Objects are
left out since their keys are written bare.

The proof reads a literal from the left. What may follow it in an array is a comma or a bracket
that closes (`ScopeScript.Value.Ends`), and before such a text **each literal ends in one place
only** (`ScopeScript.Value.literal_append_inj`):

* a **word**, which is a number, a truth value, a function or nothing, has none of the special
  characters, so it ends before the first one;
* a text ends at the first quote that no backslash escapes;
* an array ends where the bracket stands in place of one more item, which is seen after each
  item.

Apart from that, words must differ among each other. A double is never written like an integer
or like one of the fixed words, since it reads back
(`ScopeScript.Number.readDouble_text`).
-/

namespace ScopeScript.Value

open Number

variable {v w : Value} {r r' : List Char}

/-- **There is no object at any depth.** -/
def ObjectFree (v : Value) : Prop := v.Everywhere fun w => w.kind ≠ .object

/-- The value is written as one word, without quotes or brackets. -/
def IsWord : Value → Prop
  | string _ | object _ | array _ => False
  | _ => True

/-- The values whose words are fixed. -/
def fixed : List Value := [boolean true, boolean false, function, none]

/-- The characters that no word has. -/
def special : List Char := ['"', '[', ']', ',', '\n']

/-- **What may follow a literal**: nothing, or a comma or a bracket that closes. -/
def Ends (r : List Char) : Prop := ∀ c ∈ r.head?, c = ',' ∨ c = ']'

/-! ### Words -/

section Words

variable {n : Int64} {x : Number.Double}

theorem toString_ofNat (m : Nat) : toString (Int.ofNat m) = m.repr := rfl

theorem toString_negSucc (m : Nat) : toString (Int.negSucc m) = "-" ++ (m + 1).repr := rfl

theorem isDigit_or_eq_of_mem_toString (n : Int) :
    ∀ c ∈ (toString n).toList, c.isDigit ∨ c = '-' := by
  have hdigits : ∀ m : Nat, ∀ c ∈ m.repr.toList, c.isDigit ∨ c = '-' := fun m c hc => by
    rw [Nat.toList_repr] at hc
    exact .inl (Nat.isDigit_of_mem_toDigits (by decide) (by decide) hc)
  cases n with
  | ofNat m => exact hdigits m
  | negSucc m =>
    rw [toString_negSucc, String.toList_append]
    exact List.forall_mem_cons.mpr ⟨.inr rfl, hdigits (m + 1)⟩

theorem toString_ne_nil (n : Int) : (toString n).toList ≠ [] := by
  cases n with
  | ofNat m =>
    rw [toString_ofNat, Nat.toList_repr]
    exact Nat.toDigits_ne_nil
  | negSucc m =>
    rw [toString_negSucc, String.toList_append]
    exact List.cons_ne_nil _ _

/-- Different integers are written differently. -/
theorem toString_injective {m n : Int} (h : toString m = toString n) : m = n := by
  have hnat : ∀ {a b : Nat}, a.repr = b.repr → a = b := fun {a b} hab => by
    rw [← digitsValue_digitChars a, ← digitsValue_digitChars b, digitChars, digitChars,
      ← Nat.toList_repr, ← Nat.toList_repr, hab]
  have hsign : ∀ {a b : Nat}, a.repr ≠ "-" ++ b.repr := fun {a b} hab => by
    have hmem : '-' ∈ a.repr.toList := by simp [hab]
    rw [Nat.toList_repr] at hmem
    exact absurd (Nat.isDigit_of_mem_toDigits (by decide) (by decide) hmem) (by decide)
  cases m with
  | ofNat a =>
    cases n with
    | ofNat b => exact congrArg Int.ofNat (hnat h)
    | negSucc b => exact absurd h hsign
  | negSucc a =>
    cases n with
    | ofNat b => exact absurd h.symm hsign
    | negSucc b =>
      rw [toString_negSucc, toString_negSucc, ← String.toList_inj, String.toList_append,
        String.toList_append, List.append_cancel_left_eq, String.toList_inj] at h
      exact congrArg Int.negSucc (Nat.succ.inj (hnat h))

/-- A text with another character in it than digits and signs is that of no integer. -/
theorem toString_ne {s : String} (h : ∃ c ∈ s.toList, ¬ c.isDigit ∧ c ≠ '-') (n : Int) :
    toString n ≠ s := by
  rintro rfl
  obtain ⟨c, hmem, hdigit, hminus⟩ := h
  exact (isDigit_or_eq_of_mem_toString n c hmem).elim hdigit hminus

theorem not_mem_special_of_isDigit {c : Char} (hc : c.isDigit) : c ∉ special := by
  intro hmem
  simp only [special, List.mem_cons, List.not_mem_nil, or_false] at hmem
  rcases hmem with rfl | rfl | rfl | rfl | rfl <;> exact absurd hc (by decide)

theorem IsWord.cases (hv : v.IsWord) :
    (∃ n, v = integer n) ∨ (∃ x, v = double x) ∨ v ∈ fixed := by
  cases v with
  | integer n => exact .inl ⟨n, rfl⟩
  | double x => exact .inr (.inl ⟨x, rfl⟩)
  | boolean b => cases b <;> exact .inr (.inr (by simp [fixed]))
  | function => exact .inr (.inr (by simp [fixed]))
  | none => exact .inr (.inr (by simp [fixed]))
  | _ => cases hv

theorem not_mem_special_of_fixed (hv : v ∈ fixed) : ∀ c ∈ v.literal.toList, c ∉ special := by
  have hall : v.literal.toList.all (fun c => decide (c ∉ special)) = true := by
    simp only [fixed, List.mem_cons, List.not_mem_nil, or_false] at hv
    rcases hv with rfl | rfl | rfl | rfl <;> decide
  exact fun c hc => of_decide_eq_true (List.all_eq_true.mp hall c hc)

/-- A word has no special characters. -/
theorem IsWord.not_mem_special (hv : v.IsWord) : ∀ c ∈ v.literal.toList, c ∉ special := by
  rcases hv.cases with ⟨n, rfl⟩ | ⟨x, rfl⟩ | hfixed
  · intro c hc
    rw [literal] at hc
    rcases isDigit_or_eq_of_mem_toString _ c hc with hdigit | rfl
    · exact not_mem_special_of_isDigit hdigit
    · decide
  · intro c hc
    rw [literal] at hc
    rcases x.isDigit_or_mem_text c hc with hdigit | hmem
    · exact not_mem_special_of_isDigit hdigit
    · simp only [List.mem_cons, List.not_mem_nil, or_false] at hmem
      rcases hmem with rfl | rfl | rfl | rfl | rfl | rfl | rfl | rfl <;> decide
  · exact not_mem_special_of_fixed hfixed

theorem eq_of_literal_eq_integer (hw : w.IsWord) (h : (integer n).literal = w.literal) :
    integer n = w := by
  cases w with
  | integer m =>
    rw [literal, literal] at h
    rw [Int64.toInt_inj.mp (toString_injective h)]
  | double x =>
    rw [literal, literal] at h
    exact absurd h (toString_ne x.exists_mem_text _)
  | boolean b => exact absurd h (toString_ne ⟨'e', by cases b <;> decide⟩ _)
  | function => exact absurd h (toString_ne ⟨'n', by decide⟩ _)
  | none => exact absurd h (toString_ne ⟨'n', by decide⟩ _)
  | _ => cases hw

theorem eq_of_literal_eq_double (hw : w.IsWord) (h : (double x).literal = w.literal) :
    double x = w := by
  cases w with
  | integer m =>
    have hx : (double x).IsWord := trivial
    exact (eq_of_literal_eq_integer hx h.symm).symm
  | double y =>
    rw [literal, literal] at h
    rw [Double.text_injective h]
  | boolean b => exact absurd h (x.text_ne (by cases b <;> decide +kernel))
  | function => exact absurd h (x.text_ne (by decide +kernel))
  | none => exact absurd h (x.text_ne (by decide +kernel))
  | _ => cases hw

theorem eq_of_literal_eq_fixed (hv : v ∈ fixed) (hw : w ∈ fixed) (h : v.literal = w.literal) :
    v = w := by
  simp only [fixed, List.mem_cons, List.not_mem_nil, or_false] at hv hw
  rcases hv with rfl | rfl | rfl | rfl <;> rcases hw with rfl | rfl | rfl | rfl <;>
    first | rfl | exact absurd h (by decide)

/-- **The words of different values differ.** -/
theorem IsWord.eq_of_literal_eq (hv : v.IsWord) (hw : w.IsWord) (h : v.literal = w.literal) :
    v = w := by
  rcases hv.cases with ⟨n, rfl⟩ | ⟨x, rfl⟩ | hfixed
  · exact eq_of_literal_eq_integer hw h
  · exact eq_of_literal_eq_double hw h
  · rcases hw.cases with ⟨n, rfl⟩ | ⟨x, rfl⟩ | hfixed'
    · exact (eq_of_literal_eq_integer hv h.symm).symm
    · exact (eq_of_literal_eq_double hv h.symm).symm
    · exact eq_of_literal_eq_fixed hfixed hfixed' h

theorem IsWord.literal_ne_nil (hv : v.IsWord) : v.literal.toList ≠ [] := by
  cases v with
  | integer n =>
    rw [literal]
    exact toString_ne_nil n.toInt
  | double x =>
    obtain ⟨c, hmem, -⟩ := x.exists_mem_text
    exact List.ne_nil_of_mem hmem
  | boolean b => cases b <;> decide
  | function => decide
  | none => decide
  | _ => cases hv

/-- No word begins with a special character. -/
theorem IsWord.literal_append_ne (hv : v.IsWord) {c : Char} (hc : c ∈ special) :
    v.literal.toList ++ r ≠ c :: r' := by
  obtain ⟨d, rest, htext⟩ := List.exists_cons_of_ne_nil hv.literal_ne_nil
  intro h
  rw [htext] at h
  obtain ⟨rfl, -⟩ := List.cons.inj h
  exact hv.not_mem_special d (htext ▸ List.mem_cons_self) hc

end Words

/-! ### Where a literal ends -/

/-- Two texts without separators that are followed by one, or by nothing, are the same if the
whole is. -/
theorem append_inj_of_separated {xs ys : List Char} {p : Char → Prop} (hxs : ∀ c ∈ xs, ¬ p c)
    (hys : ∀ c ∈ ys, ¬ p c) (hr : ∀ c ∈ r.head?, p c) (hr' : ∀ c ∈ r'.head?, p c)
    (h : xs ++ r = ys ++ r') : xs = ys ∧ r = r' := by
  induction xs generalizing ys with
  | nil =>
    cases ys with
    | nil => exact ⟨rfl, h⟩
    | cons y ys =>
      obtain rfl : r = y :: (ys ++ r') := h
      exact absurd (hr y rfl) (hys y List.mem_cons_self)
  | cons x xs ih =>
    cases ys with
    | nil =>
      obtain rfl : x :: (xs ++ r) = r' := h
      exact absurd (hr' x rfl) (hxs x List.mem_cons_self)
    | cons y ys =>
      obtain ⟨rfl, hrest⟩ := List.cons.inj h
      obtain ⟨rfl, rfl⟩ := ih (fun c hc => hxs c (List.mem_cons_of_mem x hc))
        (fun c hc => hys c (List.mem_cons_of_mem x hc)) hrest
      exact ⟨rfl, rfl⟩

theorem IsWord.append_inj (hv : v.IsWord) (hw : w.IsWord) (hr : Ends r) (hr' : Ends r')
    (h : v.literal.toList ++ r = w.literal.toList ++ r') : v = w ∧ r = r' := by
  have hends : ∀ c, c = ',' ∨ c = ']' → c ∈ special := by
    rintro c (rfl | rfl) <;> decide
  obtain ⟨hliteral, hrest⟩ := append_inj_of_separated hv.not_mem_special hw.not_mem_special
    (fun c hc => hends c (hr c hc)) (fun c hc => hends c (hr' c hc)) h
  exact ⟨hv.eq_of_literal_eq hw (String.toList_inj.mp hliteral), hrest⟩

/-! ### Texts between quotes -/

theorem escapeChar_cases (c : Char) :
    (c = '\\' ∧ escapeChar c = ['\\', '\\']) ∨ (c = '"' ∧ escapeChar c = ['\\', '"']) ∨
      (c = '\n' ∧ escapeChar c = ['\\', 'n']) ∨
      ((c ≠ '\\' ∧ c ≠ '"' ∧ c ≠ '\n') ∧ escapeChar c = [c]) := by
  unfold escapeChar
  by_cases hbackslash : c = '\\'
  · exact .inl ⟨hbackslash, if_pos (beq_iff_eq.mpr hbackslash)⟩
  · by_cases hquote : c = '"'
    · subst hquote
      exact .inr (.inl ⟨rfl, rfl⟩)
    · by_cases hnewline : c = '\n'
      · subst hnewline
        exact .inr (.inr (.inl ⟨rfl, rfl⟩))
      · simp [hbackslash, hquote, hnewline]

/-- What stands for a character tells the character, and where it ends. -/
theorem escapeChar_append_inj {c d : Char} (h : escapeChar c ++ r = escapeChar d ++ r') :
    c = d ∧ r = r' := by
  rcases escapeChar_cases c with ⟨rfl, hc⟩ | ⟨rfl, hc⟩ | ⟨rfl, hc⟩ | ⟨⟨hc₁, hc₂, hc₃⟩, hc⟩ <;>
    rcases escapeChar_cases d with ⟨rfl, hd⟩ | ⟨rfl, hd⟩ | ⟨rfl, hd⟩ | ⟨⟨hd₁, hd₂, hd₃⟩, hd⟩ <;>
    simp only [hc, hd, List.cons_append, List.nil_append, List.cons.injEq] at h <;> grind

/-- What stands for a character does not begin with a quote. -/
theorem escapeChar_append_ne {c : Char} : escapeChar c ++ r ≠ '"' :: r' := by
  intro h
  rcases escapeChar_cases c with ⟨-, hc⟩ | ⟨-, hc⟩ | ⟨-, hc⟩ | ⟨⟨-, hquote, -⟩, hc⟩ <;>
    rw [hc] at h
  · cases h
  · cases h
  · cases h
  · exact hquote (List.cons.inj h).1

theorem newline_not_mem_escapeChar (c : Char) : '\n' ∉ escapeChar c := by
  rcases escapeChar_cases c with ⟨-, hc⟩ | ⟨-, hc⟩ | ⟨-, hc⟩ | ⟨⟨-, -, hnewline⟩, hc⟩ <;> rw [hc]
  · decide
  · decide
  · decide
  · exact fun h => hnewline (List.mem_singleton.mp h).symm

/-- **An escaped text ends at the first quote that is not escaped**, and it tells the text. -/
theorem escape_append_inj {s t : List Char}
    (h : s.flatMap escapeChar ++ '"' :: r = t.flatMap escapeChar ++ '"' :: r') :
    s = t ∧ r = r' := by
  induction s generalizing t with
  | nil =>
    cases t with
    | nil => exact ⟨rfl, (List.cons.inj h).2⟩
    | cons d t =>
      rw [List.flatMap_cons, List.append_assoc] at h
      exact absurd h.symm escapeChar_append_ne
  | cons c s ih =>
    cases t with
    | nil =>
      rw [List.flatMap_cons, List.append_assoc] at h
      exact absurd h escapeChar_append_ne
    | cons d t =>
      rw [List.flatMap_cons, List.flatMap_cons, List.append_assoc, List.append_assoc] at h
      obtain ⟨rfl, hrest⟩ := escapeChar_append_inj h
      obtain ⟨rfl, rfl⟩ := ih hrest
      exact ⟨rfl, rfl⟩

/-- Every occurrence of a character replaced by a text. -/
def replaced (c : Char) (text cs : List Char) : List Char :=
  cs.flatMap fun d => if d == c then text else [d]

/-- **Escaping is three replacements**, one after the other. The backslash comes first, so that
those which the other two bring in stay as they are. -/
theorem flatMap_escapeChar (cs : List Char) :
    cs.flatMap escapeChar = replaced '\n' ['\\', 'n']
      (replaced '"' ['\\', '"'] (replaced '\\' ['\\', '\\'] cs)) := by
  simp only [replaced, List.flatMap_assoc]
  congr 1
  funext c
  rcases escapeChar_cases c with ⟨rfl, hc⟩ | ⟨rfl, hc⟩ | ⟨rfl, hc⟩ | ⟨⟨hc₁, hc₂, hc₃⟩, hc⟩ <;>
    rw [hc]
  · rfl
  · rfl
  · rfl
  · simp [hc₁, hc₂, hc₃]

theorem toList_literal_string (s : String) :
    (string s).literal.toList = '"' :: (s.toList.flatMap escapeChar ++ ['"']) := by
  rw [literal, quoteText, String.toList_ofList]
  rfl

/-! ### Arrays -/

/-- What follows an item of an array: the other items, and the bracket that closes. -/
def following (items : List Value) : List Char :=
  items.flatMap (fun v => ',' :: ' ' :: v.literal.toList) ++ [']']

theorem following_nil : following [] = [']'] := rfl

theorem following_cons (v : Value) (items : List Value) :
    following (v :: items) = ',' :: ' ' :: (v.literal.toList ++ following items) := by
  simp [following]

theorem toList_literal_array_nil : (array []).literal.toList = ['[', ']'] := rfl

theorem toList_intercalate_literalItems (v : Value) (items : List Value) :
    (", ".intercalate (literalItems (v :: items))).toList ++ [']'] =
      v.literal.toList ++ following items := by
  induction items generalizing v with
  | nil => rw [literalItems, literalItems, String.intercalate_singleton, following_nil]
  | cons w items ih =>
    rw [literalItems, literalItems, String.intercalate_cons_cons, ← literalItems,
      String.toList_append, String.toList_append, List.append_assoc, ih, following_cons]
    simp

theorem toList_literal_array_cons (v : Value) (items : List Value) :
    (array (v :: items)).literal.toList = '[' :: (v.literal.toList ++ following items) := by
  rw [literal, String.toList_append, String.toList_append, ← toList_intercalate_literalItems]
  rfl

/-- An item is followed by a comma or by the bracket. -/
theorem ends_following (items : List Value) (r : List Char) : Ends (following items ++ r) := by
  cases items with
  | nil =>
    rintro c ⟨⟩
    exact .inr rfl
  | cons v items =>
    rw [following_cons]
    rintro c ⟨⟩
    exact .inl rfl

/-! ### Whole values -/

/-- **The literal tells the value, and where it ends.** -/
def Tells (v : Value) : Prop :=
  ∀ ⦃w : Value⦄ ⦃r r' : List Char⦄, w.ObjectFree → Ends r → Ends r' →
    v.literal.toList ++ r = w.literal.toList ++ r' → v = w ∧ r = r'

theorem ObjectFree.cases (hv : v.ObjectFree) :
    (∃ s, v = string s) ∨ (∃ items, v = array items ∧ ∀ w ∈ items, w.ObjectFree) ∨ v.IsWord := by
  cases v with
  | string s => exact .inl ⟨s, rfl⟩
  | object entries => exact absurd rfl (everywhere_iff.mp hv).1
  | array items => exact .inr (.inl ⟨items, rfl, (everywhere_array.mp hv).2⟩)
  | _ => exact .inr (.inr trivial)

theorem exists_literal_array (items : List Value) :
    ∃ rest, (array items).literal.toList = '[' :: rest := by
  cases items with
  | nil => exact ⟨_, toList_literal_array_nil⟩
  | cons v items => exact ⟨_, toList_literal_array_cons v items⟩

/-- No literal begins with the bracket that closes an array. -/
theorem ObjectFree.literal_ne (hv : v.ObjectFree) : v.literal.toList ++ r ≠ ']' :: r' := by
  intro h
  rcases hv.cases with ⟨s, rfl⟩ | ⟨items, rfl, -⟩ | hword
  · rw [toList_literal_string] at h
    cases h
  · obtain ⟨rest, htext⟩ := exists_literal_array items
    rw [htext] at h
    cases h
  · exact hword.literal_append_ne (by decide) h

theorem tells_string (s : String) : (string s).Tells := by
  intro w r r' hw _ _ h
  rw [toList_literal_string] at h
  rcases hw.cases with ⟨t, rfl⟩ | ⟨items, rfl, -⟩ | hword
  · rw [toList_literal_string] at h
    simp only [List.cons_append, List.append_assoc, List.nil_append] at h
    obtain ⟨htext, hrest⟩ := escape_append_inj (List.cons.inj h).2
    exact ⟨congrArg string (String.toList_inj.mp htext), hrest⟩
  · obtain ⟨rest, htext⟩ := exists_literal_array items
    rw [htext] at h
    cases h
  · exact absurd h.symm (hword.literal_append_ne (by decide))

theorem IsWord.tells (hv : v.IsWord) : v.Tells := by
  intro w r r' hw hr hr' h
  rcases hw.cases with ⟨s, rfl⟩ | ⟨items, rfl, -⟩ | hword
  · rw [toList_literal_string] at h
    exact absurd h (hv.literal_append_ne (by decide))
  · obtain ⟨rest, htext⟩ := exists_literal_array items
    rw [htext] at h
    exact absurd h (hv.literal_append_ne (by decide))
  · exact hv.append_inj hword hr hr' h

/-- The items of an array are told one after the other. -/
theorem following_append_inj {items items' : List Value} (hitems : ∀ v ∈ items, v.Tells)
    (hitems' : ∀ w ∈ items', w.ObjectFree) (h : following items ++ r = following items' ++ r') :
    items = items' ∧ r = r' := by
  induction items generalizing items' with
  | nil =>
    cases items' with
    | nil => exact ⟨rfl, (List.cons.inj h).2⟩
    | cons w items' =>
      rw [following_cons] at h
      cases h
  | cons v items ih =>
    rw [List.forall_mem_cons] at hitems
    cases items' with
    | nil =>
      rw [following_cons] at h
      cases h
    | cons w items' =>
      rw [List.forall_mem_cons] at hitems'
      rw [following_cons, following_cons] at h
      simp only [List.cons_append, List.append_assoc, List.cons.injEq, true_and] at h
      obtain ⟨rfl, hrest⟩ :=
        hitems.1 hitems'.1 (ends_following items r) (ends_following items' r') h
      obtain ⟨rfl, rfl⟩ := ih hitems.2 hitems'.2 hrest
      exact ⟨rfl, rfl⟩

theorem array_append_inj {items items' : List Value} (hitems : ∀ v ∈ items, v.Tells)
    (hfree : ∀ v ∈ items, v.ObjectFree) (hfree' : ∀ w ∈ items', w.ObjectFree)
    (h : (array items).literal.toList ++ r = (array items').literal.toList ++ r') :
    items = items' ∧ r = r' := by
  cases items with
  | nil =>
    cases items' with
    | nil => exact ⟨rfl, List.append_cancel_left h⟩
    | cons w items' =>
      rw [toList_literal_array_nil, toList_literal_array_cons] at h
      simp only [List.cons_append, List.nil_append, List.append_assoc, List.cons.injEq,
        true_and] at h
      exact absurd h.symm (hfree' w List.mem_cons_self).literal_ne
  | cons v items =>
    cases items' with
    | nil =>
      rw [toList_literal_array_nil, toList_literal_array_cons] at h
      simp only [List.cons_append, List.nil_append, List.append_assoc, List.cons.injEq,
        true_and] at h
      exact absurd h (hfree v List.mem_cons_self).literal_ne
    | cons w items' =>
      -- Two arrays with items read on like what follows an item of an array.
      rw [toList_literal_array_cons, toList_literal_array_cons] at h
      refine following_append_inj hitems hfree' ?_
      rw [following_cons, following_cons]
      exact congrArg (fun cs => ',' :: ' ' :: cs) (List.cons.inj h).2

theorem tells_array {items : List Value} (hitems : ∀ v ∈ items, v.Tells)
    (hfree : ∀ v ∈ items, v.ObjectFree) : (array items).Tells := by
  intro w r r' hw _ _ h
  obtain ⟨rest, htext⟩ := exists_literal_array items
  rcases hw.cases with ⟨s, rfl⟩ | ⟨items', rfl, hfree'⟩ | hword
  · rw [htext, toList_literal_string] at h
    cases h
  · obtain ⟨rfl, hrest⟩ := array_append_inj hitems hfree hfree' h
    exact ⟨rfl, hrest⟩
  · rw [htext] at h
    exact absurd h.symm (hword.literal_append_ne (by decide))

/-- **Without objects, literals tell values.** -/
theorem ObjectFree.tells (hv : v.ObjectFree) : v.Tells := by
  induction v using ind with
  | h v ih =>
    rcases hv.cases with ⟨s, rfl⟩ | ⟨items, rfl, hfree⟩ | hword
    · exact tells_string s
    · exact tells_array (fun w hw => ih w hw (hfree w hw)) hfree
    · exact hword.tells

theorem ObjectFree.newline_not_mem_literal (hv : v.ObjectFree) : '\n' ∉ v.literal.toList := by
  induction v using ind with
  | h v ih =>
    rcases hv.cases with ⟨s, rfl⟩ | ⟨items, rfl, hfree⟩ | hword
    · rw [toList_literal_string]
      simp [newline_not_mem_escapeChar]
    · have hitems : ∀ w ∈ items, '\n' ∉ w.literal.toList := fun w hw => ih w hw (hfree w hw)
      cases items with
      | nil => decide
      | cons w items =>
        rw [toList_literal_array_cons, following]
        rw [List.forall_mem_cons] at hitems
        simpa [hitems.1] using hitems.2
    · exact fun hmem => hword.not_mem_special _ hmem (by decide)

/-- **Literal texts are unambiguous.** Values without objects in them have the same literal text
just if they are the same, whatever stands in their texts, and the literal text has no newline
in it. -/
theorem literal_unambiguous (hv : v.ObjectFree) (hw : w.ObjectFree) :
    (v.literal = w.literal ↔ v = w) ∧ '\n' ∉ v.literal.toList := by
  refine ⟨⟨fun h => ?_, fun h => congrArg literal h⟩, hv.newline_not_mem_literal⟩
  have hends : Ends [] := nofun
  exact (hv.tells hw hends hends (congrArg (fun s => s.toList ++ []) h)).1

/-- One text that looks like two in an array, and two texts. -/
theorem literal_unambiguous_punctuation :
    (array [string "a\", \"b"]).ObjectFree ∧ (array [string "a", string "b"]).ObjectFree ∧
      (array [string "a\", \"b"]).literal ≠ (array [string "a", string "b"]).literal ∧
      '\n' ∉ (array [string "a\", \"b"]).literal.toList := by
  have hfree : ∀ texts : List String, (array (texts.map string)).ObjectFree := fun texts =>
    everywhere_array.mpr ⟨nofun, List.forall_mem_map.mpr fun s _ =>
      (everywhere_of_isScalar rfl).mpr nofun⟩
  have hone := hfree ["a\", \"b"]
  have htwo := hfree ["a", "b"]
  obtain ⟨htells, hnewline⟩ := literal_unambiguous hone htwo
  exact ⟨hone, htwo, fun h => absurd (htells.mp h) (by simp), hnewline⟩

end ScopeScript.Value
