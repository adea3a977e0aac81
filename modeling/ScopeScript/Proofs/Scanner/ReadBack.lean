import ScopeScript.Proofs.Scanner.Standing
import ScopeScript.Proofs.Scanner.WellFormed

/-!
# Reading what was written

A script of any statements, written out and scanned, becomes the tree of these
statements (`ScopeScript.Scanner.parse_render`). There are no tokens and there is
no grammar in between: what a symbol does depends on the open scope and on the
word before it. So the first half of this file says where each symbol leads from
a standing in which a statement can put it, and the second half puts statements
together from these, by induction on how they are nested.

What an argument, a parameter or a statement does is in each case to **grow** its
outline in the open scope (`ScopeScript.Standing.Grows`); what comes before it in
that scope, and what the scope itself is part of, makes no difference.
-/

namespace ScopeScript

/-- Whether statements can stand in a scope of this kind. -/
def NodeKind.holdsStatements : NodeKind → Bool
  | global | none | functionImpl => true
  | _ => false

theorem NodeKind.ne_function_of_holdsStatements {k : NodeKind} (h : k.holdsStatements) :
    k ≠ .function := by
  rintro rfl
  cases h

theorem NodeKind.isType_of_holdsStatements {k : NodeKind} (h : k.holdsStatements) :
    k.isType = false := by
  cases k <;> first | rfl | cases h

namespace Standing

open Scanner

variable {x y : Standing} {p h : Nat} {k : NodeKind} {w : BareWord}

/-- **Outlines were grown in the open scope**, the word was used up, and now the
scope `p` is open. -/
structure Grows (x : Standing) (os : List Outline) (p : Nat) (y : Standing) : Prop where
  /-- The open scope is `p`. -/
  cursor : y.cursor = p
  /-- There is no word. -/
  word : y.word = none
  /-- The tree has grown. -/
  grown : x.tree.Grown x.cursor os y.tree

/-! ### Parentheses and commas -/

theorem leads_openParen_call (hx : x.word = some (.word w))
    (hk : x.tree.kind? x.cursor = some k) (hfun : k ≠ .function) :
    x.Leads "(" fun y => ∃ place, y = x.opened { kind := .call, name := some w.text } place := by
  refine leads_symbol .openParen fun s hs => ?_
  have hstrip : Text.strip s.word.literal = w.text := by
    rw [(hs.word_is hx).literal_some]
    exact w.trimmed
  have hne : w.text.isEmpty = false := by simpa using w.nonempty
  rw [symbol, openParen, hs.cursorKind hk, if_neg hfun, hstrip]
  dsimp only
  rw [hne, if_neg Bool.false_ne_true]
  exact ⟨_, _, rfl, hs.pushNamed (Tree.lt_size_of_kind? hk) .call _ _, _, rfl⟩

/-- The header of a function has just been opened. -/
theorem leads_openParen_header (hx : x.cursor < x.tree.size) (place : Location) :
    ((x.opened { kind := .function } place).holding (some (.word w))).Leads "(" fun y =>
      ∃ place', y = (x.opened { kind := .function, name := some w.text } place).opened
        { kind := .functionParams } place' := by
  refine leads_symbol .openParen fun s hs => ?_
  have hname := hs.nameOpened hx
  have hnone : s.nameCursorIfPending.tree.childOfKind? s.nameCursorIfPending.cursor
      .functionParams = none := by
    rw [hname.tree, hname.cursor, Tree.childOfKind?, opened,
      Tree.children_of_node? (Tree.node?_sprout_new hx _)]
    rfl
  rw [symbol, openParen, hs.cursorKind (kind?_opened hx _ place), if_pos rfl]
  dsimp only
  rw [hnone, if_neg (by simp)]
  exact ⟨_, _, rfl, hname.pushScope .functionParams _, _, rfl⟩

theorem leads_comma_call (hk : x.tree.kind? x.cursor = some .call) :
    x.Leads "," (x.Grows [argumentOf x.word] x.cursor) := by
  refine leads_symbol .comma fun s hs => ?_
  obtain ⟨t, hs', hgrown⟩ := hs.addArgument (Tree.lt_size_of_kind? hk)
  rw [symbol, comma, hs.cursorKind hk]
  exact ⟨_, _, rfl, hs', rfl, rfl, hgrown⟩

theorem leads_closeParen_call (hk : x.tree.kind? x.cursor = some .call)
    (hp : x.tree.parent? x.cursor = some p) :
    x.Leads ")" (x.Grows (x.word.toList.map (·.outline .functionParam)) p) := by
  refine leads_symbol .closeParen fun s hs => ?_
  have hlt := Tree.lt_size_of_kind? hk
  rw [symbol, closeParen, hs.cursorKind hk]
  dsimp only
  cases hx : x.word with
  | none =>
    rw [if_neg (hs.word_is hx).not_isPending]
    obtain ⟨s', hpop, hs'⟩ := hs.popScope hx hp
    exact ⟨s', _, hpop, hs', rfl, hx, Tree.Grown.refl _ _⟩
  | some a =>
    rw [if_pos (hs.word_is hx).isPending_some]
    obtain ⟨t, hs₁, hgrown⟩ := hs.addArgument hlt
    obtain ⟨s', hpop, hs'⟩ := hs₁.popScope rfl ((hgrown.parent? hlt).trans hp)
    rw [hx] at hgrown
    exact ⟨s', _, hpop, hs', rfl, rfl, hgrown⟩

theorem leads_comma_list {a : Atom} (hx : x.word = some a)
    (hk : x.tree.kind? x.cursor = some .functionParams) :
    x.Leads "," (x.Grows [a.parameter] x.cursor) := by
  refine leads_symbol .comma fun s hs => ?_
  obtain ⟨t, hs', hgrown⟩ := hs.addParameter hx (Tree.lt_size_of_kind? hk)
  rw [symbol, comma, hs.cursorKind hk]
  dsimp only
  rw [if_pos (hs.word_is hx).isPending_some]
  exact ⟨_, _, rfl, hs', rfl, rfl, hgrown⟩

theorem leads_closeParen_list {a : Atom} (hx : x.word = some a)
    (hk : x.tree.kind? x.cursor = some .functionParams)
    (hp : x.tree.parent? x.cursor = some p) : x.Leads ")" (x.Grows [a.parameter] p) := by
  refine leads_symbol .closeParen fun s hs => ?_
  have hlt := Tree.lt_size_of_kind? hk
  obtain ⟨t, hs₁, hgrown⟩ := hs.addParameter hx hlt
  obtain ⟨s', hpop, hs'⟩ := hs₁.popScope rfl ((hgrown.parent? hlt).trans hp)
  rw [symbol, closeParen, hs.cursorKind hk]
  dsimp only
  rw [if_pos (hs.word_is hx).isPending_some]
  exact ⟨s', _, hpop, hs', rfl, rfl, hgrown⟩

theorem leads_closeParen_empty (hx : x.word = none)
    (hk : x.tree.kind? x.cursor = some .functionParams)
    (hp : x.tree.parent? x.cursor = some p) : x.Leads ")" (x.Grows [] p) := by
  refine leads_symbol .closeParen fun s hs => ?_
  obtain ⟨s', hpop, hs'⟩ := hs.popScope hx hp
  rw [symbol, closeParen, hs.cursorKind hk]
  dsimp only
  rw [if_neg (hs.word_is hx).not_isPending]
  exact ⟨s', _, hpop, hs', rfl, hx, Tree.Grown.refl _ _⟩

/-! ### Braces and semicolons -/

theorem leads_openBrace_block (hx : x.word = none)
    (hk : x.tree.kind? x.cursor = some k) (hst : k.holdsStatements) :
    x.Leads "\x7b" fun y => ∃ place, y = x.opened { kind := .none } place := by
  refine leads_symbol .openBrace fun s hs => ?_
  rw [symbol, openBrace, hs.cursorKind hk, if_neg (NodeKind.ne_function_of_holdsStatements hst),
    NodeKind.isType_of_holdsStatements hst, if_neg Bool.false_ne_true,
    if_neg (hs.word_is hx).not_isPending]
  exact ⟨_, _, rfl, hs.pushNamed (Tree.lt_size_of_kind? hk) .none _ _, _, rfl⟩

theorem leads_openBrace_function (hx : x.word = none)
    (hk : x.tree.kind? x.cursor = some .function) :
    x.Leads "\x7b" fun y => ∃ place, y = x.opened { kind := .functionImpl } place := by
  refine leads_symbol .openBrace fun s hs => ?_
  have hword := hs.word_is hx
  have hpush := hs.pushScope .functionImpl s.location
  rw [symbol, openBrace, hs.cursorKind hk, if_pos rfl,
    if_neg (by simp [hword.isPending_none]), hs.nameCursorIfPending_none hx]
  refine ⟨_, _, rfl, ?_, s.location, rfl⟩
  rw [hx] at hpush
  exact ⟨hpush.tree, hpush.cursor, hpush.quote, hpush.word⟩

/-- The declaration of a type has just been opened. -/
theorem leads_openBrace_type (form : TypeForm) (hx : x.cursor < x.tree.size) (place : Location) :
    ((x.opened { kind := form.kind } place).holding (some (.word w))).Leads "\x7b" fun y =>
      ∃ place', y = (x.opened { kind := form.kind, name := some w.text } place).opened
        { kind := .none } place' := by
  refine leads_symbol .openBrace fun s hs => ?_
  have hname := hs.nameOpened hx
  have hfun : form.kind ≠ .function := by cases form <;> decide
  have htype : form.kind.isType = true := by cases form <;> rfl
  rw [symbol, openBrace, hs.cursorKind (kind?_opened hx _ place), if_neg hfun, htype, if_pos rfl]
  exact ⟨_, _, rfl, hname.pushScope .none _, _, rfl⟩

/-- A closing brace where no word is left over. -/
theorem closeBrace_eq {s : Scanner} (hs : s.StandsIn x) (hx : x.word = none)
    (hk : x.tree.kind? x.cursor = some k) (hopen : k = .functionImpl ∨ k = .none) :
    s.closeBrace = s.popScope.andThen fun s' =>
      (if k = .functionImpl ∨ (((x.tree.parent? x.cursor).bind x.tree.kind?).map
          NodeKind.isType).getD false = true then s'.popScope else .ok s').andThen fun s' =>
        .ok s'.endStatement := by
  rw [closeBrace, hs.cursorKind hk, hs.flushIfPending_none hx]
  dsimp only
  rw [hs.tree, hs.cursor]
  rcases hopen with rfl | rfl
  · simp
  · simp

theorem leads_closeBrace_block (hx : x.word = none) (hk : x.tree.kind? x.cursor = some .none)
    (hp : x.tree.parent? x.cursor = some p) (hkp : x.tree.kind? p = some k)
    (hst : k.holdsStatements) : x.Leads "\x7d" (· = { x with cursor := p }) := by
  refine leads_symbol .closeBrace fun s hs => ?_
  obtain ⟨s₁, hpop, hs₁⟩ := hs.popScope hx hp
  refine ⟨s₁.endStatement, _, ?_, ⟨hs₁.tree, hs₁.cursor, hs₁.quote, hs₁.word⟩, rfl⟩
  rw [symbol, closeBrace_eq hs hx hk (Or.inr rfl), hpop, Scanned.andThen, hp, Option.bind_some, hkp,
    Option.map_some, Option.getD_some, NodeKind.isType_of_holdsStatements hst, if_neg (by simp)]
  rfl

/-- The body of a function or type ends together with what it is the body of. -/
theorem leads_closeBrace_body (hx : x.word = none) (hk : x.tree.kind? x.cursor = some k)
    (hh : x.tree.parent? x.cursor = some h) (hp : x.tree.parent? h = some p)
    (hbody : k = .functionImpl ∨ k = .none ∧ ∃ form : TypeForm, x.tree.kind? h = some form.kind) :
    x.Leads "\x7d" (· = { x with cursor := p }) := by
  refine leads_symbol .closeBrace fun s hs => ?_
  obtain ⟨s₁, hpop, hs₁⟩ := hs.popScope hx hh
  obtain ⟨s₂, hpop', hs₂⟩ := hs₁.popScope hx hp
  refine ⟨s₂.endStatement, _, ?_, ⟨hs₂.tree, hs₂.cursor, hs₂.quote, hs₂.word⟩, rfl⟩
  rw [symbol, closeBrace_eq hs hx hk (hbody.imp_right And.left), hpop, Scanned.andThen, if_pos,
    hpop']
  · rfl
  · refine hbody.imp_right ?_
    rintro ⟨-, form, hform⟩
    rw [hh, Option.bind_some, hform, Option.map_some, Option.getD_some]
    cases form <;> rfl

theorem leads_semicolon (hk : x.tree.kind? x.cursor = some k) (hst : k.holdsStatements) :
    x.Leads ";" (x.Grows (x.word.toList.map (·.outline .none)) x.cursor) := by
  refine leads_symbol .semicolon fun s hs => ?_
  obtain ⟨t, hs', hgrown⟩ := hs.flushIfPending (Tree.lt_size_of_kind? hk)
  refine ⟨s.flushIfPending.endStatement, _, ?_, ⟨hs'.tree, hs'.cursor, hs'.quote, hs'.word⟩, rfl,
    rfl, hgrown⟩
  rw [symbol, semicolon, hs.cursorKind hk]
  cases k <;> first | rfl | cases hst

/-! ### Scopes and what was grown in them -/

theorem Grows.andThen {z : Standing} {os os' : List Outline} (hx : x.cursor < x.tree.size)
    (h₁ : x.Grows os x.cursor y) (h₂ : y.Grows os' p z) : x.Grows (os ++ os') p z := by
  refine ⟨h₂.cursor, h₂.word, h₁.grown.append hx ?_⟩
  rw [← h₁.cursor]
  exact h₂.grown

theorem Grows.refl (h : x.word = none) : x.Grows [] x.cursor x := ⟨rfl, h, Tree.Grown.refl _ _⟩

theorem Grows.kind? {os : List Outline} (h : x.Grows os x.cursor y)
    (hk : x.tree.kind? x.cursor = some k) : y.tree.kind? y.cursor = some k := by
  rw [h.cursor, h.grown.kind? (Tree.lt_size_of_kind? hk), hk]

theorem Grows.parent? {os : List Outline} (h : x.Grows os x.cursor y)
    (hp : x.tree.parent? x.cursor = some p) : y.tree.parent? y.cursor = some p := by
  rw [h.cursor, h.grown.parent? (Tree.lt_size_of_parent? hp), hp]

/-- It makes no difference to the growth which word there was. -/
theorem Grows.of_holding {os : List Outline} {o : Option Atom} (h : (x.holding o).Grows os p y) :
    x.Grows os p y :=
  ⟨h.cursor, h.word, h.grown⟩

theorem holding_none (h : x.word = none) : x.holding none = x := by
  rw [holding, ← h]

/-- A new scope, in which outlines were grown until it was closed. -/
theorem Grows.inside {os : List Outline} {l : Label} {place : Location}
    (hx : x.cursor < x.tree.size) (h : (x.opened l place).Grows os x.cursor y) :
    x.Grows [.node l os] x.cursor y :=
  ⟨h.cursor, h.word, Tree.Grown.inside hx h.grown⟩

end Standing

/-! ### Arguments and parameters -/

namespace Argument

/-- The word that the argument leaves behind. -/
def left : Argument → Option Atom
  | atom a => some a
  | call _ _ => none

/-- What the argument has grown when it has been read. -/
def grown : Argument → List Outline
  | atom _ => []
  | call name args => [name.callOf (outlines args)]

theorem outlines_singleton (a : Argument) :
    outlines [a] = a.grown ++ a.left.toList.map (·.outline .functionParam) := by
  cases a <;> simp [outlines, grown, left, outline, isCall]

theorem outlines_cons_cons (a b : Argument) (rest : List Argument) :
    outlines (a :: b :: rest)
      = a.grown ++ ([Scanner.argumentOf a.left] ++ outlines (b :: rest)) := by
  cases a <;> simp [outlines, grown, left, outline, isCall, Scanner.argumentOf]

end Argument

namespace Standing

open Scanner

variable {x : Standing} {p : Nat} {k : NodeKind}

/-- A call leads on if its arguments do. -/
theorem leads_call {w : BareWord} {text : String} {os : List Outline} (hx : x.word = none)
    (hk : x.tree.kind? x.cursor = some k) (hfun : k ≠ .function)
    (hargs : ∀ y : Standing, y.word = none → y.tree.kind? y.cursor = some .call →
      y.tree.parent? y.cursor = some x.cursor → y.Leads (text ++ ")") (y.Grows os x.cursor)) :
    x.Leads (w.text ++ "(" ++ text ++ ")") (x.Grows [w.callOf os] x.cursor) := by
  have hlt := Tree.lt_size_of_kind? hk
  have hopen : x.Leads (w.text ++ "(") fun y =>
      ∃ place, y = x.opened { kind := .call, name := some w.text } place := by
    refine (leads_atom (.word w) hx).andThen ?_
    rintro _ rfl
    exact leads_openParen_call rfl hk hfun
  rw [String.append_assoc]
  refine hopen.andThen ?_
  rintro _ ⟨place, rfl⟩
  refine (hargs _ rfl ?_ ?_).imp fun z hz => hz.inside hlt
  · exact kind?_opened hlt _ place
  · exact parent?_opened hlt _ place

-- By induction on how calls are nested. The last argument is finished by the
-- parenthesis and every other one by the comma behind it, so that the induction on
-- the list has to take the parenthesis along.
mutual

theorem leads_argument : ∀ (a : Argument) {x : Standing}, x.word = none →
    x.tree.kind? x.cursor = some .call →
      x.Leads a.render fun y => ∃ z, x.Grows a.grown x.cursor z ∧ y = z.holding a.left
  | .atom a, x, hx, _ => by
    refine (leads_atom a hx).imp ?_
    rintro _ rfl
    exact ⟨x, Grows.refl hx, rfl⟩
  | .call name args, x, hx, hk => by
    have hcall : x.Leads _ (x.Grows [name.callOf (Argument.outlines args)] x.cursor) :=
      leads_call hx hk (by decide) fun y hy hky hpy => leads_arguments args hy hky hpy
    exact hcall.imp fun y hy => ⟨y, hy, (holding_none hy.word).symm⟩

/-- **Arguments grow their outlines, and the parenthesis closes the call.** -/
theorem leads_arguments : ∀ (args : List Argument) {x : Standing} {p : Nat}, x.word = none →
    x.tree.kind? x.cursor = some .call → x.tree.parent? x.cursor = some p →
      x.Leads (",".intercalate (Argument.renderEach args) ++ ")")
        (x.Grows (Argument.outlines args) p)
  | [], x, p, hx, hk, hp => by
    have hclose := leads_closeParen_call hk hp
    rw [hx] at hclose
    exact hclose
  | [a], x, p, hx, hk, hp => by
    have hlt := Tree.lt_size_of_kind? hk
    rw [Argument.outlines_singleton]
    refine (leads_argument a hx hk).andThen ?_
    rintro _ ⟨z, hz, rfl⟩
    have hclose : (z.holding a.left).Leads ")" _ :=
      leads_closeParen_call (hz.kind? hk) (hz.parent? hp)
    exact hclose.imp fun v hv => hz.andThen hlt hv.of_holding
  | a :: b :: rest, x, p, hx, hk, hp => by
    have hlt := Tree.lt_size_of_kind? hk
    rw [Argument.outlines_cons_cons, Argument.renderEach, Argument.renderEach,
      String.intercalate_cons_cons, ← Argument.renderEach, String.append_assoc,
      String.append_assoc]
    refine (leads_argument a hx hk).andThen ?_
    rintro _ ⟨z, hz, rfl⟩
    have hcomma : (z.holding a.left).Leads "," _ := leads_comma_call (hz.kind? hk)
    refine hcomma.andThen fun v hv => ?_
    have hzv : z.Grows [argumentOf a.left] z.cursor v := hv.of_holding
    have hzlt : z.cursor < z.tree.size := Tree.lt_size_of_kind? (hz.kind? hk)
    have hkv := hzv.kind? (hz.kind? hk)
    have hpv := hzv.parent? (hz.parent? hp)
    refine (leads_arguments (b :: rest) hv.word hkv hpv).imp fun u hu => ?_
    exact hz.andThen hlt (hzv.andThen hzlt hu)

end

/-- **Parameters grow their outlines, and the parenthesis closes the list.** -/
theorem leads_parameters : ∀ (params : List Atom) {x : Standing} {p : Nat}, x.word = none →
    x.tree.kind? x.cursor = some .functionParams → x.tree.parent? x.cursor = some p →
      x.Leads (",".intercalate (params.map Atom.render) ++ ")")
        (x.Grows (params.map Atom.parameter) p)
  | [], x, p, hx, hk, hp => leads_closeParen_empty hx hk hp
  | [a], x, p, hx, hk, hp => by
    refine (leads_atom a hx).andThen ?_
    rintro _ rfl
    have hclose : (x.holding (some a)).Leads ")" _ := leads_closeParen_list rfl hk hp
    exact hclose.imp fun y hy => hy.of_holding
  | a :: b :: rest, x, p, hx, hk, hp => by
    have hlt := Tree.lt_size_of_kind? hk
    rw [List.map_cons, List.map_cons, String.intercalate_cons_cons, ← List.map_cons,
      String.append_assoc, String.append_assoc]
    refine (leads_atom a hx).andThen ?_
    rintro _ rfl
    have hcomma : (x.holding (some a)).Leads "," _ := leads_comma_list rfl hk
    refine hcomma.andThen fun y hy => ?_
    have hxy : x.Grows [a.parameter] x.cursor y := hy.of_holding
    have hrest := leads_parameters (b :: rest) hy.word (hxy.kind? hk) (hxy.parent? hp)
    exact hrest.imp fun z hz => hxy.andThen hlt hz

/-! ### Statements -/

/-- A block, whatever is in it. -/
theorem leads_block {text : String} {os : List Outline} (hx : x.word = none)
    (hk : x.tree.kind? x.cursor = some k) (hst : k.holdsStatements)
    (hbody : ∀ y : Standing, y.word = none → y.tree.kind? y.cursor = some .none →
      y.Leads text (y.Grows os y.cursor)) :
    x.Leads (braced text) (x.Grows [.node { kind := .none } os] x.cursor) := by
  have hlt := Tree.lt_size_of_kind? hk
  rw [braced, String.append_assoc]
  refine (leads_openBrace_block hx hk hst).andThen ?_
  rintro _ ⟨place, rfl⟩
  have hky := kind?_opened hlt { kind := .none } place
  refine (hbody _ rfl hky).andThen fun z hz => ?_
  have hkz : z.tree.kind? x.cursor = some k := by
    rw [hz.grown.kind? (lt_size_opened hlt _ place), kind?_opened_of_lt hlt hlt, hk]
  have hpz := hz.parent? (parent?_opened hlt _ place)
  refine (leads_closeBrace_block hz.word (hz.kind? hky) hpz hkz hst).imp ?_
  rintro _ rfl
  exact Grows.inside hlt ⟨rfl, hz.word, hz.grown⟩

/-- The body of a function or type, which has just been opened, to its end. -/
theorem leads_body {text : String} {os : List Outline} {l : Label} {place : Location}
    (hx : x.cursor < x.tree.size) (hp : x.tree.parent? x.cursor = some p)
    (hl : l.kind = .functionImpl ∨
      l.kind = .none ∧ ∃ form : TypeForm, x.tree.kind? x.cursor = some form.kind)
    (hbody : (x.opened l place).Leads text ((x.opened l place).Grows os x.tree.size)) :
    (x.opened l place).Leads (text ++ "\x7d") (x.Grows [.node l os] p) := by
  refine hbody.andThen fun z hz => ?_
  have hkz := hz.kind? (kind?_opened hx l place)
  have hhz := hz.parent? (parent?_opened hx l place)
  have hpz : z.tree.parent? x.cursor = some p := by
    rw [hz.grown.parent? (lt_size_opened hx l place), parent?_opened_of_lt hx hx, hp]
  refine (leads_closeBrace_body hz.word hkz hhz hpz (hl.imp_right ?_)).imp ?_
  · rintro ⟨hnone, form, hform⟩
    refine ⟨hnone, form, ?_⟩
    rw [hz.grown.kind? (lt_size_opened hx l place), kind?_opened_of_lt hx hx, hform]
  · rintro _ rfl
    exact ⟨rfl, hz.word, Tree.Grown.inside hx hz.grown⟩

/-- A keyword and the name of what it declares. -/
theorem leads_declaration {k : Keyword} {kind : NodeKind} (hk : scopeOf? k = some kind)
    (name : BareWord) (hx : x.word = none) :
    x.Leads (k.text ++ " " ++ name.text) fun y => ∃ place,
      y = (x.opened { kind } place).holding (some (.word name)) := by
  refine (leads_keyword hk hx).andThen ?_
  rintro _ ⟨place, rfl⟩
  refine (leads_atom (.word name) rfl).imp ?_
  rintro _ rfl
  exact ⟨place, rfl⟩

/-- The header of a function, up to the parenthesis that closes its list. -/
theorem leads_header (name : BareWord) (params : List Atom) (hx : x.word = none)
    (hlt : x.cursor < x.tree.size) :
    x.Leads ("function " ++ name.text ++ "(" ++ ",".intercalate (params.map Atom.render) ++ ")")
      fun y => ∃ place, (x.opened { kind := .function, name := some name.text } place).Grows
        [.node { kind := .functionParams } (params.map Atom.parameter)] x.tree.size y := by
  have hname : x.Leads ("function " ++ name.text) _ :=
    leads_declaration (k := .function) rfl name hx
  have hopen : x.Leads ("function " ++ name.text ++ "(") fun y => ∃ place place',
      y = (x.opened { kind := .function, name := some name.text } place).opened
        { kind := .functionParams } place' := by
    refine hname.andThen ?_
    rintro _ ⟨place, rfl⟩
    exact (leads_openParen_header hlt place).imp fun y hy => ⟨place, hy⟩
  rw [String.append_assoc]
  refine hopen.andThen ?_
  rintro _ ⟨place, place', rfl⟩
  have hnew : x.tree.size
      < (x.opened { kind := .function, name := some name.text } place).tree.size :=
    Tree.lt_size_of_kind? (kind?_opened hlt _ place)
  refine (leads_parameters params rfl ?_ ?_).imp fun y hy => ⟨place, hy.inside hnew⟩
  · exact kind?_opened hnew _ place'
  · exact parent?_opened hnew _ place'

/-- A function, whatever is in its body. -/
theorem leads_function {text : String} {os : List Outline} (name : BareWord)
    (params : List BareWord) (hx : x.word = none) (hlt : x.cursor < x.tree.size)
    (hbody : ∀ y : Standing, y.word = none → y.tree.kind? y.cursor = some .functionImpl →
      y.Leads text (y.Grows os y.cursor)) :
    x.Leads ("function " ++ name.text ++ "(" ++ ",".intercalate (params.map BareWord.text) ++ ")" ++
        braced text)
      (x.Grows [.node { kind := .function, name := some name.text }
        [.node { kind := .functionParams } (params.map BareWord.parameter),
          .node { kind := .functionImpl } os]] x.cursor) := by
  -- the list and the body are two scopes side by side, both inside the header
  have hheader := leads_header name (params.map Atom.word) hx hlt
  rw [List.map_map, List.map_map] at hheader
  refine hheader.andThen ?_
  rintro y ⟨place, hy⟩
  have hk := hy.kind? (kind?_opened hlt _ place)
  have hylt := Tree.lt_size_of_kind? hk
  rw [braced, String.append_assoc]
  refine (leads_openBrace_function hy.word hk).andThen ?_
  rintro _ ⟨place', rfl⟩
  have hinner := hbody _ rfl (kind?_opened hylt { kind := .functionImpl } place')
  refine (leads_body hylt (hy.parent? (parent?_opened hlt _ place)) (Or.inl rfl) hinner).imp ?_
  have hnew : x.tree.size
      < (x.opened { kind := .function, name := some name.text } place).tree.size :=
    Tree.lt_size_of_kind? (kind?_opened hlt _ place)
  exact fun z hz => Grows.inside hlt (hy.andThen hnew hz)

/-- A type, whatever is in its body. -/
theorem leads_type {text : String} {os : List Outline} (form : TypeForm) (name : BareWord)
    (hx : x.word = none) (hlt : x.cursor < x.tree.size)
    (hbody : ∀ y : Standing, y.word = none → y.tree.kind? y.cursor = some .none →
      y.Leads text (y.Grows os y.cursor)) :
    x.Leads (form.keyword.text ++ " " ++ name.text ++ braced text)
      (x.Grows [.node { kind := form.kind, name := some name.text }
        [.node { kind := .none } os]] x.cursor) := by
  have hscope : scopeOf? form.keyword = some form.kind := by cases form <;> rfl
  refine (leads_declaration hscope name hx).andThen ?_
  rintro _ ⟨place, rfl⟩
  rw [braced, String.append_assoc]
  refine (leads_openBrace_type form hlt place).andThen ?_
  rintro _ ⟨place', rfl⟩
  have hk := kind?_opened hlt { kind := form.kind, name := some name.text } place
  have hnew := Tree.lt_size_of_kind? hk
  have hinner := hbody _ rfl (kind?_opened hnew { kind := .none } place')
  refine (leads_body hnew (parent?_opened hlt _ place) (Or.inr ⟨rfl, form, hk⟩) hinner).imp ?_
  exact fun z hz => Grows.inside hlt hz

-- By induction on how statements are nested. A statement is read alike in every
-- scope that holds statements, so the open scope is left general.
mutual

/-- **A statement grows its outline.** -/
theorem leads_statement : ∀ (st : Statement) {x : Standing} {k : NodeKind}, x.word = none →
    x.tree.kind? x.cursor = some k → k.holdsStatements →
      x.Leads st.render (x.Grows [st.outline] x.cursor)
  | .atom a, x, k, hx, hk, hst => by
    refine (leads_atom a hx).andThen ?_
    rintro _ rfl
    have hsemi : (x.holding (some a)).Leads ";" _ := leads_semicolon hk hst
    exact hsemi.imp fun y hy => hy.of_holding
  | .call name args, x, k, hx, hk, hst => by
    have hfun := NodeKind.ne_function_of_holdsStatements hst
    have hcall : x.Leads _ (x.Grows [name.callOf (Argument.outlines args)] x.cursor) :=
      leads_call hx hk hfun fun y hy hky hpy => leads_arguments args hy hky hpy
    refine hcall.andThen fun y hy => ?_
    -- the parenthesis has used up everything, and the semicolon adds nothing
    have hsemi := leads_semicolon (hy.kind? hk) hst
    rw [hy.word, hy.cursor] at hsemi
    exact hsemi.imp fun z hz => hy.andThen (Tree.lt_size_of_kind? hk) hz
  | .block body, x, k, hx, hk, hst =>
    leads_block hx hk hst fun _ hy hky => leads_statements body hy hky rfl
  | .function name params body, x, k, hx, hk, _ =>
    leads_function name params hx (Tree.lt_size_of_kind? hk) fun _ hy hky =>
      leads_statements body hy hky rfl
  | .type form name body, x, k, hx, hk, _ =>
    leads_type form name hx (Tree.lt_size_of_kind? hk) fun _ hy hky =>
      leads_statements body hy hky rfl

theorem leads_statements : ∀ (body : List Statement) {x : Standing} {k : NodeKind},
    x.word = none → x.tree.kind? x.cursor = some k → k.holdsStatements →
      x.Leads (Statement.renderAll body) (x.Grows (Statement.outlines body) x.cursor)
  | [], x, k, hx, hk, _ => leads_empty (Grows.refl hx)
  | st :: rest, x, k, hx, hk, hst => by
    refine (leads_statement st hx hk hst).andThen fun y hy => ?_
    refine (leads_statements rest hy.word (hy.kind? hk) hst).imp fun z hz => ?_
    rw [hy.cursor] at hz
    exact hy.andThen (Tree.lt_size_of_kind? hk) hz

end

end Standing

/-! ### Whole scripts -/

theorem Statement.renderAll_ne_empty {program : List Statement} (h : program ≠ []) :
    renderAll program ≠ "" := by
  cases program with
  | nil => exact absurd rfl h
  | cons st rest =>
    rw [renderAll]
    cases st <;> simp [render, braced]

namespace Scanner

theorem standsIn_start (s : Scanner) (name : String) :
    (s.start name).StandsIn { tree := Tree.empty name { file := name }, cursor := 0 } :=
  ⟨rfl, rfl, rfl, rfl, rfl⟩

/-- Where the root is open and there is no word, the script may end. -/
theorem StandsIn.finish {s : Scanner} {x : Standing} (h : s.StandsIn x) (hx : x.word = none)
    (hroot : x.tree.parent? x.cursor = none) : s.finish = .ok s := by
  have hat : s.atRoot = true := by
    rw [atRoot, h.tree, h.cursor, hroot]
    rfl
  rw [Scanner.finish, h.quote, if_neg (by simp), h.takeKeyword, h.flushIfPending_none hx]
  simp [hat]

/-- **What was written is read back**: the script of some statements becomes the
tree of these statements, and there is nothing else in it. -/
theorem parse_render (s : Scanner) (name : String) (program : List Statement)
    (h : program ≠ []) :
    ∃ s', s.parse name (some (Statement.renderAll program)) = .ok s' ∧
      s'.tree.outline 0 = Statement.script program ∧
      s'.tree.size = (Statement.script program).size ∧ s'.tree.name = name ∧
      s'.tree.WellFormed := by
  have hne : (Statement.renderAll program).isEmpty = false := by
    simpa using Statement.renderAll_ne_empty h
  obtain ⟨s₁, y, hfeed, hs₁, hy⟩ := Standing.leads_statements program (k := .global) rfl rfl rfl
    _ (s.standsIn_start name)
  have hroot : y.tree.parent? y.cursor = none := by
    rw [hy.cursor, hy.grown.parent? Nat.zero_lt_one]
    rfl
  have hparse : s.parse name (some (Statement.renderAll program)) = .ok (s₁.noteTree name) := by
    simp only [parse, hne, Bool.false_eq_true, if_false, hfeed, Scanned.andThen,
      hs₁.finish hy.word hroot]
  have htree : (s₁.noteTree name).tree = y.tree := by
    rw [noteTree, apply_ite Scanner.tree, tree_note, ite_self, hs₁.tree]
  have hwell := s.sound_parse name (Statement.renderAll program)
  rw [hparse] at hwell
  refine ⟨_, hparse, ?_, ?_, ?_, ?_⟩
  · rw [htree, hy.grown.outline_of_empty]
    rfl
  · rw [htree, hy.grown.size, Statement.script, Outline.size]
    rfl
  · rw [htree, hy.grown.name]
    rfl
  · exact hwell.wellFormed.tree

/-- A call among the arguments of another one, and symbols between quotes. -/
theorem parse_render_nested :
    ∃ (f : BareWord) (q : Quotation),
      [Statement.call f [.call f [.atom (.quotation q)], .atom (.word f)]] ≠ [] ∧
      ∃ s', ({} : Scanner).parse "test" (some "f(f(');'),f);") = .ok s' ∧ s'.tree.size = 6 ∧
        s'.tree.outline 0 = .node { kind := .global }
          [.node { kind := .call, name := some "f" }
            [.node { kind := .call, name := some "f" }
              [.node { kind := .functionParam, value := some (.string ");"), quoted := true } []],
            .node { kind := .functionParam } [],
            .node { kind := .functionParam, name := some "f", value := some (.string "f") }
              []]] := by
  have hfree : ∀ k : Keyword, k.text ≠ "f" := by
    intro k
    cases k <;> decide
  let f : BareWord := ⟨"f", by decide, plain_of_all rfl, by decide, hfree⟩
  let q : Quotation := ⟨.singleQuote, rfl, ");", by decide⟩
  refine ⟨f, q, by simp, ?_⟩
  obtain ⟨s', hparse, houtline, hsize, -, -⟩ :=
    parse_render {} "test" [.call f [.call f [.atom (.quotation q)], .atom (.word f)]] (by simp)
  exact ⟨s', hparse, hsize, houtline⟩

end Scanner

end ScopeScript
