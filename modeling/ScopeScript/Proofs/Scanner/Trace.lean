import ScopeScript.Scanner.Step

/-!
# The trace is an onlooker

A scanner that keeps a trace and one that does not read alike: forgetting the
trace before a move is forgetting it afterwards. So what a source does to a
scanner can be said of the scanner without a trace, whatever is written down on
the way (`ScopeScript.Scanner.untraced_parse`).
-/

namespace ScopeScript

/-- The scanner without its trace. -/
def Scanner.untraced (s : Scanner) : Scanner := { s with debug := false, trace := #[] }

/-- The outcome without the trace. -/
def Scanned.untraced : Scanned → Scanned
  | .ok s => .ok s.untraced
  | .failed s e => .failed s.untraced e

theorem Scanned.untraced_andThen {r : Scanned} {next : Scanner → Scanned}
    (h : ∀ s, (next s).untraced = next s.untraced) :
    (r.andThen next).untraced = r.untraced.andThen next := by
  rcases r with s | ⟨s, e⟩
  · exact h s
  · rfl

theorem Scanned.failure?_untraced (r : Scanned) : r.untraced.failure? = r.failure? := by
  cases r <;> rfl

namespace Scanner

/-! ### The parts of a move -/

@[simp] theorem untraced_note (s : Scanner) (line : String) :
    (s.note line).untraced = s.untraced := by
  unfold note
  split <;> rfl

@[simp] theorem note_untraced (s : Scanner) (line : String) :
    s.untraced.note line = s.untraced := rfl

theorem untraced_flushWord (s : Scanner) : s.flushWord.untraced = s.untraced.flushWord :=
  untraced_note _ _

theorem untraced_flushIfPending (s : Scanner) :
    s.flushIfPending.untraced = s.untraced.flushIfPending := by
  unfold flushIfPending
  rw [apply_ite Scanner.untraced, untraced_flushWord]
  rfl

theorem untraced_nameCursorIfPending (s : Scanner) :
    s.nameCursorIfPending.untraced = s.untraced.nameCursorIfPending := by
  unfold nameCursorIfPending
  rw [apply_ite Scanner.untraced]
  rfl

theorem untraced_addArgument (s : Scanner) : s.addArgument.untraced = s.untraced.addArgument := by
  unfold addArgument
  dsimp only
  rw [apply_ite Scanner.untraced]
  rfl

theorem untraced_pushScope (s : Scanner) (kind : NodeKind) (place : Location) :
    (s.pushScope kind place).untraced = s.untraced.pushScope kind place :=
  untraced_note _ _

theorem untraced_popScope (s : Scanner) : s.popScope.untraced = s.untraced.popScope := by
  unfold popScope
  cases h : s.tree.parent? s.cursor with
  | none =>
    have h' : s.untraced.tree.parent? s.untraced.cursor = none := h
    rw [h']
    rfl
  | some p =>
    have h' : s.untraced.tree.parent? s.untraced.cursor = some p := h
    rw [h']
    dsimp only
    rw [apply_ite Scanned.untraced]
    refine ite_congr rfl (fun _ => rfl) fun _ => ?_
    exact congrArg Scanned.ok (untraced_note _ _)

theorem untraced_takeKeyword (s : Scanner) : s.takeKeyword.untraced = s.untraced.takeKeyword := by
  unfold takeKeyword
  rw [apply_ite Scanner.untraced]
  refine ite_congr rfl (fun _ => rfl) fun _ => ?_
  have hw : s.untraced.word = s.word := rfl
  rw [hw]
  cases Keyword.ofText? s.word.text with
  | none => rfl
  | some k =>
    have hpend : ∀ s₁ s₂ : Scanner, s₁.untraced = s₂ →
        ({ s₁ with keywords := s₁.keywords ++ [k] } : Scanner).untraced
          = { s₂ with keywords := s₂.keywords ++ [k] } := by
      rintro s₁ _ rfl
      rfl
    dsimp only
    cases scopeOf? k with
    | none => exact hpend _ _ (untraced_note _ _)
    | some kind =>
      refine hpend _ _ ?_
      rw [untraced_pushScope, untraced_note]
      rfl

theorem untraced_adoptParameters (s : Scanner) (call : Nat) (ps : List Nat) :
    (s.adoptParameters call ps).untraced = s.untraced.adoptParameters call ps := by
  induction ps generalizing s with
  | nil => rfl
  | cons p ps ih =>
    rw [adoptParameters, adoptParameters]
    -- both look the name up in the same tree
    have hlook :
        ((s.untraced.modifyNode p fun n => { n with parent := some call }).tree.node? p).bind
          (·.name)
        = ((s.modifyNode p fun n => { n with parent := some call }).tree.node? p).bind
          (·.name) := rfl
    simp only [hlook]
    split
    · rfl
    · exact ih _

theorem untraced_hoistParameters (s : Scanner) (call : Nat) :
    (s.hoistParameters call).untraced = s.untraced.hoistParameters call := by
  unfold hoistParameters
  have htree : s.untraced.tree = s.tree := rfl
  rw [htree]
  cases s.tree.childOfKind? call .functionParams with
  | none => rfl
  | some l =>
    dsimp only
    rw [Scanned.untraced_andThen (fun _ => rfl), untraced_adoptParameters]

/-- Naming a scope right after it was opened. -/
theorem untraced_renameScope (s : Scanner) (kind : NodeKind) (place : Location)
    (name : Option String) :
    ((s.pushScope kind place).modifyNode (s.pushScope kind place).cursor fun n =>
        { n with name }).clearWord.untraced
      = ((s.untraced.pushScope kind place).modifyNode (s.untraced.pushScope kind place).cursor
          fun n => { n with name }).clearWord := by
  rw [← untraced_pushScope]
  rfl

/-! ### Symbols -/

theorem untraced_openParen (s : Scanner) : s.openParen.untraced = s.untraced.openParen := by
  unfold openParen
  rw [apply_ite Scanned.untraced]
  refine ite_congr rfl (fun _ => ?_) fun _ => ?_
  · dsimp only
    rw [← untraced_nameCursorIfPending, apply_ite Scanned.untraced]
    refine ite_congr rfl (fun _ => rfl) fun _ => ?_
    exact congrArg Scanned.ok (untraced_pushScope _ _ _)
  · dsimp only
    rw [apply_ite Scanned.untraced]
    refine ite_congr rfl (fun _ => rfl) fun _ => ?_
    exact congrArg Scanned.ok (untraced_renameScope _ _ _ _)

theorem untraced_closeParen (s : Scanner) : s.closeParen.untraced = s.untraced.closeParen := by
  unfold closeParen
  have hkind : s.untraced.cursorKind = s.cursorKind := rfl
  rw [hkind]
  split
  · rw [untraced_popScope, apply_ite Scanner.untraced]
    rfl
  · rw [untraced_popScope, apply_ite Scanner.untraced, untraced_addArgument]
    rfl
  · rfl

theorem untraced_comma (s : Scanner) : s.comma.untraced = s.untraced.comma := by
  unfold comma
  have hkind : s.untraced.cursorKind = s.cursorKind := rfl
  rw [hkind]
  split
  · rw [apply_ite Scanned.untraced]
    rfl
  · exact congrArg Scanned.ok s.untraced_addArgument
  · rfl

theorem untraced_openBrace (s : Scanner) : s.openBrace.untraced = s.untraced.openBrace := by
  unfold openBrace
  rw [apply_ite Scanned.untraced]
  refine ite_congr rfl (fun _ => ?_) fun _ => ?_
  · rw [apply_ite Scanned.untraced]
    refine ite_congr rfl (fun _ => rfl) fun _ => ?_
    dsimp only
    rw [← untraced_nameCursorIfPending]
    exact congrArg (fun s : Scanner => Scanned.ok s.endStatement) (untraced_pushScope _ _ _)
  · rw [apply_ite Scanned.untraced]
    refine ite_congr rfl (fun _ => ?_) fun _ => ?_
    · dsimp only
      rw [← untraced_nameCursorIfPending]
      exact congrArg Scanned.ok (untraced_pushScope _ _ _)
    · exact congrArg Scanned.ok (untraced_renameScope _ _ _ _)

theorem untraced_closeBrace (s : Scanner) : s.closeBrace.untraced = s.untraced.closeBrace := by
  unfold closeBrace
  dsimp only
  rw [apply_ite Scanned.untraced]
  refine ite_congr rfl (fun _ => rfl) fun _ => ?_
  rw [← untraced_flushIfPending, ← untraced_popScope, Scanned.untraced_andThen]
  · rfl
  · intro s₁
    rw [Scanned.untraced_andThen fun _ => rfl, apply_ite Scanned.untraced, untraced_popScope]
    rfl

theorem untraced_semicolon (s : Scanner) : s.semicolon.untraced = s.untraced.semicolon := by
  unfold semicolon
  extract_lets kind header s₁ s₂ call kind' header' s₁' s₂' call'
  have hs₁ : s₁.untraced = s₁' := by
    dsimp only [s₁, s₁']
    rw [apply_ite Scanner.untraced, untraced_nameCursorIfPending]
    rfl
  have hs₂ : s₂.untraced = s₂' := by
    dsimp only [s₂, s₂']
    rw [untraced_flushIfPending, hs₁]
  rw [apply_ite Scanned.untraced]
  refine ite_congr rfl (fun _ => rfl) fun _ => ?_
  rw [apply_ite Scanned.untraced]
  refine ite_congr rfl (fun _ => ?_) fun _ => ?_
  · rw [Scanned.untraced_andThen, untraced_hoistParameters]
    · have hcall : s₂.untraced.cursor = call' := congrArg Scanner.cursor hs₂
      rw [← hs₂, ← hcall]
      rfl
    · intro s₃
      dsimp only
      rw [Scanned.untraced_andThen fun _ => rfl, untraced_popScope, untraced_note]
      rfl
  · rw [← hs₂]
    rfl

theorem untraced_symbol (s : Scanner) (sym : Symbol) :
    (s.symbol sym).untraced = s.untraced.symbol sym := by
  cases sym with
  | openParen => exact s.untraced_openParen
  | closeParen => exact s.untraced_closeParen
  | openBrace => exact s.untraced_openBrace
  | closeBrace => exact s.untraced_closeBrace
  | comma => exact s.untraced_comma
  | semicolon => exact s.untraced_semicolon
  | openBracket | closeBracket | tab | space | singleQuote | doubleQuote | newline => rfl

/-! ### Characters and texts -/

theorem untraced_scan (s : Scanner) (c : Char) : (s.scan c).untraced = s.untraced.scan c := by
  unfold scan
  have hquote : s.untraced.quote = s.quote := rfl
  rw [hquote]
  cases s.quote with
  | some q =>
    dsimp only
    rw [apply_ite Scanned.untraced]
    rfl
  | none =>
    dsimp only
    cases Symbol.ofChar? c with
    | none => rfl
    | some sym =>
      dsimp only
      rw [untraced_symbol, untraced_takeKeyword]

theorem untraced_feed (s : Scanner) (cs : List Char) :
    (s.feed cs).untraced = s.untraced.feed cs := by
  induction cs generalizing s with
  | nil => rfl
  | cons c cs ih =>
    rw [feed, feed, Scanned.untraced_andThen, untraced_scan]
    exact fun s' => ih s'.advance

theorem untraced_finish (s : Scanner) : s.finish.untraced = s.untraced.finish := by
  unfold finish
  rw [apply_ite Scanned.untraced]
  refine ite_congr rfl (fun _ => rfl) fun _ => ?_
  dsimp only
  rw [← untraced_takeKeyword, ← untraced_flushIfPending, apply_ite Scanned.untraced]
  rfl

theorem untraced_noteTree (s : Scanner) (name : String) :
    (s.noteTree name).untraced = s.untraced := by
  unfold noteTree
  split
  · exact untraced_note _ _
  · rfl

/-- **Keeping a trace makes no difference to a parse.** -/
theorem untraced_parse (s : Scanner) (name : String) (content : Option String) :
    (s.parse name content).untraced = ({} : Scanner).parse name content := by
  cases content with
  | none => rfl
  | some text =>
    simp only [parse]
    rw [apply_ite Scanned.untraced]
    refine ite_congr rfl (fun _ => rfl) fun _ => ?_
    rw [Scanned.untraced_andThen, untraced_feed]
    · rfl
    · intro s₁
      rw [Scanned.untraced_andThen, untraced_finish]
      intro s₂
      exact congrArg Scanned.ok ((untraced_noteTree s₂ name).trans rfl)

end Scanner

end ScopeScript
