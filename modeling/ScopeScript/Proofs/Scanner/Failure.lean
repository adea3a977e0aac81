import ScopeScript.Proofs.Scanner.Trace
import ScopeScript.Proofs.Scanner.WellFormed
import ScopeScript.Report

/-!
# How a parse can fail

A source that is not well formed should be refused with a script error, which a
runner turns into a report. **There is one exception**: a semicolon that ends a
header whose parameter list holds a node without a name, such as the block of
`function f({});`. The header becomes a call, the block should become one of
its arguments, and there is no text to make its value of; what comes out is a
host error, which no runner catches.

`ScopeScript.Scanner.Trips` says that this happens somewhere in a source, and
`ScopeScript.Scanner.parse_outcome` that it is the exact limit: every other
source gives a tree or a script error, of the family of malformed scripts or that
of misused scopes.
-/

namespace ScopeScript

/-- A script error of the families that a scan may end with. -/
def Failure.IsOfScan : Failure → Prop
  | .script e => e.family = .malformed ∨ e.family = .unknown
  | .host _ => False

/-- If the moves failed at all, it was with a script error. -/
def Scanned.Tame (r : Scanned) : Prop := ∀ e, r.failure? = some e → e.IsOfScan

/-- A node without a name stands in the parameter list of the header `f`. -/
def Tree.HoldsNameless (t : Tree) (f : Nat) : Prop :=
  ∃ p ∈ t.listed f, t.name? p = none

namespace Scanned

variable {r : Scanned}

theorem tame_ok (s : Scanner) : (Scanned.ok s).Tame := fun _ h => nomatch h

theorem Tame.andThen {next : Scanner → Scanned} (hr : r.Tame)
    (hn : ∀ s, r = .ok s → (next s).Tame) : (r.andThen next).Tame := by
  rcases r with s | ⟨s, e⟩
  · exact hn s rfl
  · exact hr

theorem failure?_andThen (r : Scanned) (next : Scanner → Scanned) :
    (r.andThen next).failure?
      = match r with
        | .ok s => (next s).failure?
        | .failed _ e => some e := by
  cases r <;> rfl

end Scanned

namespace Scanner

variable {s s' : Scanner}

/-! ### Symbols that fail with script errors only -/

theorem tame_fail {fault : Fault} (h : fault.family = .malformed ∨ fault.family = .unknown)
    (s : Scanner) (place : Location) : (s.fail fault place).Tame := by
  intro e he
  obtain rfl := Option.some.inj he
  exact h

theorem tame_unexpected (s : Scanner) (sym : Symbol) (place : Location) :
    (s.fail (.unexpected sym) place).Tame :=
  tame_fail (Or.inl rfl) s place

theorem tame_popScope (s : Scanner) : s.popScope.Tame := by
  unfold popScope
  split
  · exact tame_fail (Or.inr rfl) s _
  · split
    · exact tame_fail (Or.inl rfl) s _
    · exact Scanned.tame_ok _

theorem tame_openParen (s : Scanner) : s.openParen.Tame := by
  unfold openParen
  split
  · dsimp only
    split
    · exact tame_unexpected _ _ _
    · exact Scanned.tame_ok _
  · dsimp only
    split
    · exact tame_unexpected _ _ _
    · exact Scanned.tame_ok _

theorem tame_closeParen (s : Scanner) : s.closeParen.Tame := by
  unfold closeParen
  split
  · exact tame_popScope _
  · exact tame_popScope _
  · exact tame_unexpected _ _ _

theorem tame_comma (s : Scanner) : s.comma.Tame := by
  unfold comma
  split
  · split
    · exact Scanned.tame_ok _
    · exact tame_unexpected _ _ _
  · exact Scanned.tame_ok _
  · exact tame_unexpected _ _ _

theorem tame_openBrace (s : Scanner) : s.openBrace.Tame := by
  unfold openBrace
  split
  · split
    · exact tame_fail (Or.inl rfl) s _
    · exact Scanned.tame_ok _
  · split
    · exact Scanned.tame_ok _
    · exact Scanned.tame_ok _

theorem tame_closeBrace (s : Scanner) : s.closeBrace.Tame := by
  unfold closeBrace
  dsimp only
  split
  · exact tame_unexpected _ _ _
  · refine (tame_popScope _).andThen fun s₁ _ => ?_
    refine Scanned.Tame.andThen ?_ fun s₂ _ => Scanned.tame_ok _
    split
    · exact s₁.tame_popScope
    · exact Scanned.tame_ok _

theorem tame_finish (s : Scanner) : s.finish.Tame := by
  unfold finish
  split
  · exact tame_fail (Or.inl rfl) s _
  · dsimp only
    split
    · exact Scanned.tame_ok _
    · exact tame_fail (Or.inl rfl) _ _

/-! ### The semicolon -/

/-- The open scope is a header that cannot become a call. -/
def Blocked (s : Scanner) : Prop := s.IsHeader ∧ s.tree.HoldsNameless s.cursor

theorem holdsNameless_congr {t t' : Tree} {f : Nat} (hl : t'.listed f = t.listed f)
    (hn : ∀ p ∈ t.listed f, t'.name? p = t.name? p) : t'.HoldsNameless f ↔ t.HoldsNameless f := by
  unfold Tree.HoldsNameless
  rw [hl]
  refine exists_congr fun p => and_congr_right fun hp => ?_
  rw [hn p hp]

theorem Sound.lt_of_mem_listed (hs : s.Sound) {p f : Nat} (hp : p ∈ s.tree.listed f) :
    f < p ∧ p < s.tree.size := by
  obtain ⟨l, hl, hpl⟩ := Tree.exists_of_mem_listed hp
  have h₁ := hs.laid.lt_of_mem (Tree.mem_of_childOfKind? hl)
  have h₂ := hs.laid.lt_of_mem hpl
  exact ⟨by omega, hs.laid.lt_size_of_mem hpl⟩

theorem Sound.nodup_listed (hs : s.Sound) (f : Nat) : (s.tree.listed f).Nodup := by
  unfold Tree.listed
  split
  · exact (hs.laid.increasing _).imp Nat.ne_of_lt
  · exact List.nodup_nil

theorem Sound.holdsNameless_nameCursorIfPending (hs : s.Sound) :
    s.nameCursorIfPending.tree.HoldsNameless s.cursor ↔ s.tree.HoldsNameless s.cursor := by
  refine holdsNameless_congr (s.sameLinks_nameCursorIfPending.listed s.cursor) fun p hp => ?_
  unfold nameCursorIfPending
  split
  · exact name?_modifyNode_of_ne (Nat.ne_of_lt (hs.lt_of_mem_listed hp).1)
  · rfl

theorem Sound.holdsNameless_flushIfPending (hs : s.Sound) (hk : s.cursorKind = .function) :
    s.flushIfPending.tree.HoldsNameless s.cursor ↔ s.tree.HoldsNameless s.cursor := by
  unfold flushIfPending
  split
  · have hkind := kind?_cursor hk (by decide)
    have hlt := hs.isOpen.lt_size
    have hlinks := Tree.SameLinks.modify s.word.keepsLinks_fill
      (s.tree.addChild s.cursor .none s.wordLocation).1 s.tree.size
    rw [tree_flushWord]
    refine holdsNameless_congr ?_ fun p hp => ?_
    · rw [hlinks.listed, Tree.addChild_eq_sprout]
      exact Tree.listed_sprout hlt (by simp [hkind]) rfl (by simp) s.cursor
    · obtain ⟨hcp, hps⟩ := hs.lt_of_mem_listed hp
      rw [Tree.name?, Tree.node?_modify_of_ne (Nat.ne_of_gt hps), Tree.addChild_eq_sprout,
        Tree.node?_sprout_of_ne hlt _ hps (Nat.ne_of_gt hcp), Tree.name?]
  · rfl

/-- **A header becomes a call unless its list holds a node without a name.** -/
theorem Sound.hoist_outcome (hs : s.Sound) (h : s.IsHeader) :
    (∃ s', s.asCall.hoistParameters s.cursor = .ok s' ∧ ¬s.tree.HoldsNameless s.cursor) ∨
      ∃ s', s.asCall.hoistParameters s.cursor = .failed s' nameless ∧
        s.tree.HoldsNameless s.cursor := by
  have hok := hoistParameters_ok_iff h.1 (hs.nodup_listed s.cursor)
  cases hr : s.asCall.hoistParameters s.cursor with
  | ok s' =>
    refine Or.inl ⟨s', rfl, ?_⟩
    rintro ⟨p, hp, hname⟩
    have := hok.mp ⟨s', hr⟩ p hp
    simp [hname] at this
  | failed s' e =>
    obtain rfl := hoistParameters_failed h.1 hr
    refine Or.inr ⟨s', rfl, ?_⟩
    by_contra hno
    obtain ⟨s'', hs''⟩ := hok.mpr fun p hp => by
      by_contra hname
      exact hno ⟨p, hp, by simpa using hname⟩
    rw [hr] at hs''
    cases hs''

/-- **What a semicolon can fail with**: a host error if it ends a header that
cannot become a call, and otherwise a script error. -/
theorem semicolon_outcome (hs : s.Sound) :
    (s.Blocked → s.semicolon.failure? = some nameless) ∧ (¬s.Blocked → s.semicolon.Tame) := by
  unfold semicolon
  extract_lets kind header s₁ s₂ call
  split
  · rename_i hk
    refine ⟨fun hb => ?_, fun _ => tame_unexpected _ _ _⟩
    have hfun : kind = .function := hb.1.1
    rw [hfun] at hk
    simp at hk
  · split
    · rename_i hheader
      have h : s.IsHeader := by simpa [header, kind, IsHeader] using hheader
      -- the word becomes the name of the header or a leaf behind the list, and either way
      -- the list and the names in it stay as they are
      obtain ⟨hs₁, h₁, hc₁, hn₁⟩ : s₁.Sound ∧ s₁.IsHeader ∧ s₁.cursor = s.cursor ∧
          (s₁.tree.HoldsNameless s.cursor ↔ s.tree.HoldsNameless s.cursor) := by
        dsimp only [s₁]
        split
        · exact ⟨hs.reach s.reach_nameCursorIfPending, h.nameCursorIfPending,
            s.cursor_nameCursorIfPending, hs.holdsNameless_nameCursorIfPending⟩
        · exact ⟨hs, h, rfl, Iff.rfl⟩
      have hs₂ : s₂.Sound := hs₁.reach s₁.reach_flushIfPending
      have h₂ : s₂.IsHeader := h₁.flushIfPending
      have hc₂ : s₂.cursor = s.cursor := s₁.cursor_flushIfPending.trans hc₁
      have hn₂ : s₂.tree.HoldsNameless s₂.cursor ↔ s.tree.HoldsNameless s.cursor := by
        rw [hc₂, ← hn₁, ← hc₁]
        exact hs₁.holdsNameless_flushIfPending h₁.1
      have hcall : (s₂.modifyNode call fun n => { n with kind := .call }).hoistParameters call
          = s₂.asCall.hoistParameters s₂.cursor := rfl
      rw [hcall]
      rcases hs₂.hoist_outcome h₂ with ⟨s₃, hr, hno⟩ | ⟨s₃, hr, hyes⟩
      · refine ⟨fun hb => absurd (hn₂.mpr hb.2) hno, fun _ => ?_⟩
        rw [hr]
        exact (tame_popScope _).andThen fun _ _ => Scanned.tame_ok _
      · refine ⟨fun _ => ?_, fun hb => absurd ⟨h, hn₂.mp hyes⟩ hb⟩
        rw [hr]
        rfl
    · rename_i hheader
      refine ⟨fun hb => ?_, fun _ => Scanned.tame_ok _⟩
      refine absurd ?_ hheader
      simpa [header, kind, IsHeader] using hb.1

theorem tame_symbol {sym : Symbol} (h : sym ≠ .semicolon) (s : Scanner) : (s.symbol sym).Tame := by
  cases sym with
  | openParen => exact s.tame_openParen
  | closeParen => exact s.tame_closeParen
  | openBrace => exact s.tame_openBrace
  | closeBrace => exact s.tame_closeBrace
  | comma => exact s.tame_comma
  | semicolon => exact absurd rfl h
  | openBracket | closeBracket | tab | space | singleQuote | doubleQuote | newline =>
    exact Scanned.tame_ok _

/-! ### Characters and texts -/

/-- The character is a semicolon outside quotes, and ends a header that cannot
become a call. -/
def TripsAt (s : Scanner) (c : Char) : Prop :=
  c = ';' ∧ s.quote = none ∧ s.takeKeyword.Blocked

theorem scan_outcome (hs : s.Sound) (c : Char) :
    (s.TripsAt c → (s.scan c).failure? = some nameless) ∧ (¬s.TripsAt c → (s.scan c).Tame) := by
  unfold scan
  cases hq : s.quote with
  | some q =>
    refine ⟨fun ht => ?_, fun _ => ?_⟩
    · have := ht.2.1
      simp [hq] at this
    · dsimp only
      split <;> exact Scanned.tame_ok _
  | none =>
    dsimp only
    cases hc : Symbol.ofChar? c with
    | none =>
      refine ⟨fun ht => ?_, fun _ => Scanned.tame_ok _⟩
      rw [ht.1] at hc
      cases hc
    | some sym =>
      dsimp only
      by_cases hsym : sym = .semicolon
      · subst hsym
        have hsemi := semicolon_outcome (hs.reach s.reach_takeKeyword)
        have hchar := eq_char_of_ofChar? hc
        exact ⟨fun ht => hsemi.1 ht.2.2, fun ht => hsemi.2 fun hb => ht ⟨hchar, hq, hb⟩⟩
      · refine ⟨fun ht => ?_, fun _ => tame_symbol hsym _⟩
        rw [ht.1] at hc
        exact absurd (Option.some.inj hc).symm hsym

/-- **A text fails at one of its characters.** -/
theorem feed_failure_iff {cs : List Char} {e : Failure} :
    (s.feed cs).failure? = some e ↔
      ∃ read c rest s', cs = read ++ c :: rest ∧ s.feed read = .ok s' ∧
        (s'.scan c).failure? = some e := by
  induction cs generalizing s with
  | nil => simp [feed, Scanned.failure?]
  | cons c cs ih =>
    rw [feed, Scanned.failure?_andThen]
    constructor
    · intro h
      cases hc : s.scan c with
      | failed s₁ e₁ =>
        rw [hc] at h
        exact ⟨[], c, cs, s, rfl, rfl, by rw [hc]; exact h⟩
      | ok s₁ =>
        rw [hc] at h
        obtain ⟨read, d, rest, s', rfl, hread, hd⟩ := ih.mp h
        exact ⟨c :: read, d, rest, s', rfl, feed_cons_ok.mpr ⟨s₁, hc, hread⟩, hd⟩
    · rintro ⟨read, d, rest, s', hcs, hread, hd⟩
      cases read with
      | nil =>
        obtain ⟨rfl, rfl⟩ := List.cons.inj hcs
        cases hread
        cases hc : s.scan c with
        | failed s₁ e₁ =>
          rw [hc] at hd
          exact hd
        | ok s₁ =>
          rw [hc] at hd
          cases hd
      | cons b read =>
        obtain ⟨rfl, rfl⟩ := List.cons.inj hcs
        obtain ⟨s₁, hc, hread⟩ := feed_cons_ok.mp hread
        rw [hc]
        exact ih.mpr ⟨read, d, rest, s', rfl, hread, hd⟩

/-! ### Whole sources -/

/-- **Somewhere in the source a semicolon ends a header that cannot become a
call.** -/
def Trips (name source : String) : Prop :=
  ∃ read rest s, source.toList = read ++ ';' :: rest ∧
    (({} : Scanner).start name).feed read = .ok s ∧ s.quote = none ∧ s.takeKeyword.Blocked

theorem feed_outcome (name source : String) :
    (Trips name source →
        ((({} : Scanner).start name).feed source.toList).failure? = some nameless) ∧
      (¬Trips name source → ((({} : Scanner).start name).feed source.toList).Tame) := by
  have hsound : ∀ {read s}, (({} : Scanner).start name).feed read = .ok s → s.Sound := by
    intro read s h
    have hleaves := (sound_start {} name).leaves (feed_follows _ read)
    rw [h] at hleaves
    exact hleaves
  refine ⟨?_, fun hno e he => ?_⟩
  · rintro ⟨read, rest, s, hsource, hread, hq, hb⟩
    rw [feed_failure_iff]
    exact ⟨read, ';', rest, s, hsource, hread, (scan_outcome (hsound hread) ';').1 ⟨rfl, hq, hb⟩⟩
  · obtain ⟨read, c, rest, s, hsource, hread, hc⟩ := feed_failure_iff.mp he
    refine (scan_outcome (hsound hread) c).2 ?_ e hc
    rintro ⟨rfl, hq, hb⟩
    exact hno ⟨read, rest, s, hsource, hread, hq, hb⟩

/-- How a parse of a source fails does not depend on the scanner. -/
theorem failure?_parse (s : Scanner) (name : String) (content : Option String) :
    (s.parse name content).failure? = (({} : Scanner).parse name content).failure? := by
  rw [← s.untraced_parse, Scanned.failure?_untraced]

theorem failure_of_parse (s : Scanner) (name : String) {source : String} (h : source ≠ "") :
    (Trips name source → (s.parse name (some source)).failure? = some nameless) ∧
      (¬Trips name source → (s.parse name (some source)).Tame) := by
  have hne : source.isEmpty = false := by simpa using h
  unfold Scanned.Tame
  rw [failure?_parse]
  simp only [parse, hne, Bool.false_eq_true, if_false]
  refine ⟨fun ht => ?_, fun ht => ?_⟩
  · have hfeed := (feed_outcome name source).1 ht
    rw [Scanned.failure?_andThen]
    cases hr : (({} : Scanner).start name).feed source.toList with
    | ok s₁ =>
      rw [hr] at hfeed
      cases hfeed
    | failed s₁ e =>
      rw [hr] at hfeed
      exact hfeed
  · refine ((feed_outcome name source).2 ht).andThen fun s₁ _ => ?_
    exact s₁.tame_finish.andThen fun s₂ _ => Scanned.tame_ok _

end Scanner

/-! ### Runners -/

namespace Machine

theorem prepareFrom_failed (m : Machine) (files : Nat → FileStore) {script : Script} {e : Failure}
    (hstate : script.state = .loaded)
    (he : ∀ s : Scanner, (s.parse script.name script.content).failure? = some e) :
    ∃ m', m.prepareFrom files [] [script] = (.error e, m') := by
  have hload : m.loadStep (files 0) script = (.ok script, m) := by
    simp [loadStep, hstate]
  have hparse : ∃ m', m.parseStep script = (.error e, m') := by
    unfold parseStep
    rw [if_pos hstate]
    dsimp only
    have hfail := he { debug := (m.note ("Parse Script: " ++ script.name)).code.options.debug,
                       trace := (m.note ("Parse Script: " ++ script.name)).store.trace }
    split
    · rename_i hr
      rw [hr] at hfail
      cases hfail
      exact ⟨_, rfl⟩
    · rename_i hr
      rw [hr] at hfail
      cases hfail
  obtain ⟨m', hm'⟩ := hparse
  refine ⟨{ m' with scripts := [script] }, ?_⟩
  simp [prepareFrom, hload, hm']

/-- **A runner reports the failure of a parse if it is a script error, and passes
it on otherwise.** -/
theorem runSource_of_failure {name source : String} {e : Failure} (h : source ≠ "")
    (he : ∀ s : Scanner, (s.parse name (some source)).failure? = some e) (m : Machine) :
    (m.runSource source name).1
      = match e with
        | .script e => .ok (.ofError e source)
        | .host e => .error e := by
  have hne : source.isEmpty = false := by simpa using h
  set script := Script.named (Locator.virtualScheme ++ name) name (some source) with hscript
  have hnamed : script = { path := Locator.virtualScheme ++ name, name,
                           content := some source, state := .loaded } := by
    simp [hscript, Script.named, hne]
  have hadd : m.reset.addScript script = .ok { m.reset with scripts := [script] } := rfl
  have hstate : script.state = .loaded := by rw [hnamed]
  have hfail : ∀ s : Scanner, (s.parse script.name script.content).failure? = some e := by
    rw [hnamed]
    exact he
  obtain ⟨m', hm'⟩ :=
    prepareFrom_failed { m.reset with scripts := [script] } (fun _ => {}) hstate hfail
  have hrun : run { m.reset with scripts := [script] } {} = (.error e, m') := by
    simp [run, runAmid, prepare, hm']
  simp only [runSource, hne, Bool.false_eq_true, if_false, ← hscript, hadd, hrun]
  cases e <;> rfl

end Machine

namespace Scanner

/-- **A parse gives a tree or a script error, which a runner reports, unless the
source trips over a node without a name**; a source that does so gives a host
error, which a runner passes on. -/
theorem parse_outcome (s : Scanner) (m : Machine) (name source : String) (h : source ≠ "") :
    (¬Trips name source →
        (∃ s', s.parse name (some source) = .ok s') ∨
          ∃ s' e, s.parse name (some source) = .failed s' (.script e) ∧
            (e.family = .malformed ∨ e.family = .unknown) ∧
              (m.runSource source name).1 = .ok (.ofError e source)) ∧
      (Trips name source →
        (∃ s', s.parse name (some source) = .failed s' (.host namelessError)) ∧
          (m.runSource source name).1 = .error namelessError) := by
  -- a failure does not depend on the scanner, so the runner meets the same one
  have hrun : ∀ {s' e}, s.parse name (some source) = .failed s' e →
      ∀ r : Scanner, (r.parse name (some source)).failure? = some e := by
    intro s' e hr r
    rw [failure?_parse r, ← failure?_parse s, hr, Scanned.failure?]
  refine ⟨fun ht => ?_, fun ht => ?_⟩
  · have htame := (failure_of_parse s name h).2 ht
    cases hr : s.parse name (some source) with
    | ok s' => exact Or.inl ⟨s', rfl⟩
    | failed s' e =>
      rw [hr] at htame
      have hfamily := htame e rfl
      cases e with
      | script e =>
        exact Or.inr ⟨s', e, rfl, hfamily, Machine.runSource_of_failure h (hrun hr) m⟩
      | host e => exact hfamily.elim
  · have hfail := (failure_of_parse s name h).1 ht
    cases hr : s.parse name (some source) with
    | ok s' =>
      rw [hr] at hfail
      cases hfail
    | failed s' e =>
      rw [hr] at hfail
      obtain rfl := Option.some.inj hfail
      exact ⟨⟨s', rfl⟩, Machine.runSource_of_failure h (hrun hr) m⟩

theorem failure?_parse_block :
    (({} : Scanner).parse "test" (some "function f({});")).failure? = some nameless := by
  rfl

/-- A block among parameters trips the scanner, and an open call does not. -/
theorem parse_outcome_block :
    ("function f({});" ≠ "" ∧ Trips "test" "function f({});" ∧
        (({} : Machine).runSource "function f({});" "test").1 = .error namelessError) ∧
      "f(" ≠ "" ∧ ¬Trips "test" "f(" ∧
        ∃ e, (({} : Machine).runSource "f(" "test").1 = .ok (.ofError e "f(") := by
  have hblock := parse_outcome {} {} "test" "function f({});" (by decide)
  have hcall := parse_outcome {} {} "test" "f(" (by decide)
  have hfail := failure?_parse_block
  have hopen : (({} : Scanner).parse "test" (some "f(")).failure?
      = some (.script { fault := .unclosed .call, location := some { file := "test" } }) := by rfl
  have htrips : Trips "test" "function f({});" := by
    by_contra hno
    rcases hblock.1 hno with ⟨s', hs'⟩ | ⟨s', e, hs', -⟩
    · rw [hs'] at hfail
      cases hfail
    · rw [hs'] at hfail
      cases hfail
  have hnot : ¬Trips "test" "f(" := by
    intro hyes
    obtain ⟨⟨s', hs'⟩, -⟩ := hcall.2 hyes
    rw [hs'] at hopen
    cases hopen
  refine ⟨⟨by decide, htrips, (hblock.2 htrips).2⟩, by decide, hnot, ?_⟩
  rcases hcall.1 hnot with ⟨s', hs'⟩ | ⟨s', e, -, -, hrun⟩
  · rw [hs'] at hopen
    cases hopen
  · exact ⟨e, hrun⟩

/-- **Not every failure is a script error.** -/
theorem not_forall_tame_parse :
    ¬∀ name source : String, source ≠ "" → (({} : Scanner).parse name (some source)).Tame := by
  intro h
  exact h "test" "function f({});" (by decide) nameless failure?_parse_block

end Scanner

end ScopeScript
