import DurableFlow.Proofs.Expr.RoundTrip
import DurableFlow.Proofs.Template.PathTokens

/-!
# Texts that are one output

A text that is one output of a plain path stands for what the path leads to, so its path has to be
one in the language of expressions as well: no name of it is a reserved word, and its positions are
not too large for numbers (`Hop.IsStep`). The parser is gone through for both cases. A path that is
one has a derivation, and a path that is none is refused at its first step that is none
(`Hop.segments_error`), or at the reserved word that it begins with.

The words of the literals are reserved, so one of them alone is no path but stands for the literal.
-/

namespace DurableFlow

namespace Template

open DurableFlow.Expr Expr.Lexer Expr.Writing Expr.Parser Expr.Grammar

namespace Hop

/-- The step is one in expressions: its name is no reserved word, and its position is not too
large for a number. -/
def IsStep : Hop → Prop
  | name letters => String.ofList letters ∉ keywords
  | position digits => Binary64.ofDecimal false (Nat.ofDigitChars 10 digits 0) 0 ≠ none

/-- The position of the step is held exactly. -/
def IsExact : Hop → Prop
  | name _ => True
  | position digits => Nat.ofDigitChars 10 digits 0 < 2 ^ (53 : Nat)

variable {hop : Hop} {hops : List Hop}

theorem not_identifier_of_keyword {s : String} (reserved : s ∈ keywords) (name : String) :
    wordToken s ≠ .identifier name := by
  simp only [keywords, List.mem_cons, List.not_mem_nil, or_false] at reserved
  rcases reserved with rfl | rfl | rfl | rfl | rfl | rfl | rfl <;> simp [wordToken]

theorem IsStep.exists_suffix (step : hop.IsStep) :
    ∃ suffix : Suffix, suffix.tokens = hop.tokens ∧
      (hop.IsExact → suffix.segment = hop.segment) := by
  cases hop with
  | name letters =>
    refine ⟨.property (String.ofList letters), ?_, fun _ => rfl⟩
    rw [tokens, wordToken_of_not_mem step]
    rfl
  | position digits =>
    obtain ⟨x, held⟩ := Option.ne_none_iff_exists'.mp step
    obtain ⟨m, whole⟩ := Binary64.toInt?_of_ofDecimal held
    refine ⟨.index x m whole, by rw [tokens, held]; rfl, fun precise => ?_⟩
    obtain ⟨y, held', whole'⟩ := Binary64.ofDecimal_nat precise
    obtain rfl : y = x := Option.some.inj (held'.symm.trans held)
    have same : (m : Int) = Nat.ofDigitChars 10 digits 0 :=
      Option.some.inj (whole.symm.trans whole')
    have below : m ≤ 2 ^ (64 : Nat) - 1 := by
      have : m = Nat.ofDigitChars 10 digits 0 := by exact_mod_cast same
      rw [this]
      exact Nat.le_trans (Nat.le_of_lt precise) (by decide)
    rw [Suffix.segment, Nat.min_eq_left below, segment, Int.ofNat_inj.mp same]

theorem exists_suffixes (steps : ∀ hop ∈ hops, hop.IsStep) :
    ∃ suffixes : List Suffix, suffixes.flatMap Suffix.tokens = hops.flatMap tokens ∧
      ((∀ hop ∈ hops, hop.IsExact) → suffixes.map Suffix.segment = hops.map segment) := by
  induction hops with
  | nil => exact ⟨[], rfl, fun _ => rfl⟩
  | cons hop more ih =>
    obtain ⟨own, others⟩ := List.forall_mem_cons.mp steps
    obtain ⟨suffix, spelled, means⟩ := own.exists_suffix
    obtain ⟨suffixes, spelled', means'⟩ := ih others
    refine ⟨suffix :: suffixes, ?_, fun precise => ?_⟩
    · rw [List.flatMap_cons, spelled, spelled', List.flatMap_cons]
    · obtain ⟨own, others⟩ := List.forall_mem_cons.mp precise
      rw [List.map_cons, means own, means' others, List.map_cons]

/-- Steps are refused at the first that is none in expressions. -/
theorem segments_error (bad : ∃ hop ∈ hops, ¬ hop.IsStep) (rest : List Token) :
    ∃ fault, segments (hops.flatMap tokens ++ rest) = .error fault := by
  induction hops with
  | nil =>
    obtain ⟨hop, member, -⟩ := bad
    cases member
  | cons hop more ih =>
    by_cases own : hop.IsStep
    · have later : ∃ hop ∈ more, ¬ hop.IsStep := by
        obtain ⟨other, member, void⟩ := bad
        refine ⟨other, (List.mem_cons.mp member).resolve_left ?_, void⟩
        rintro rfl
        exact void own
      obtain ⟨fault, refused⟩ := ih later
      obtain ⟨suffix, spelled, -⟩ := own.exists_suffix
      refine ⟨fault, ?_⟩
      rw [List.flatMap_cons, ← spelled, List.append_assoc]
      cases suffix with
      | property name =>
        simp only [Suffix.tokens, List.cons_append, List.nil_append]
        rw [segments, refused]
        rfl
      | index x position whole =>
        simp only [Suffix.tokens, List.cons_append, List.nil_append]
        simp only [segments, bracketed?, indexOf?_of_toInt? whole, Option.map_some]
        rw [refused]
        rfl
      | key name =>
        simp only [Suffix.tokens, List.cons_append, List.nil_append]
        simp only [segments, bracketed?]
        rw [refused]
        rfl
    · cases hop with
      | name letters =>
        have reserved : String.ofList letters ∈ keywords := not_not.mp own
        refine ⟨⟨.propertyName, wordToken (String.ofList letters), more.flatMap tokens ++ rest⟩, ?_⟩
        rw [List.flatMap_cons, tokens, List.cons_append, List.cons_append, List.cons_append,
          segments]
        · rfl
        · rintro name tokens same
          exact not_identifier_of_keyword reserved name (List.cons.inj same).1
      | position digits =>
        have beyond : Binary64.ofDecimal false (Nat.ofDigitChars 10 digits 0) 0 = none :=
          not_not.mp own
        refine ⟨⟨.indexOrKey, .number none, .closeBracket :: (more.flatMap tokens ++ rest)⟩, ?_⟩
        rw [List.flatMap_cons, tokens, beyond]
        rfl

end Hop

section Refusing

variable {toks : List Token}

/-- What is refused as a primary is refused as an expression. -/
theorem parseAll_of_parsePrimary {fault : Parser.Fault}
    (unsigned : ∀ more, toks ≠ .not :: more ∧ toks ≠ .minus :: more)
    (refused : ∀ fuel, parsePrimary (fuel + 1) toks = .error fault) :
    parseAll toks = .error fault := by
  have unary : ∀ fuel, parseUnary (fuel + 2) toks = .error fault := fun fuel => by
    rw [parseUnary]
    · exact refused fuel
    · exact fun more => (unsigned more).1
    · exact fun more => (unsigned more).2
  have whole : parseOr (8 * toks.length + 8) toks = .error fault := by
    rw [parseOr, parseAnd, parseComparison, unary]
    rfl
  rw [parseAll, whole]
  rfl

/-- A literal is no path, so no step can follow it. -/
theorem parseAll_of_literal {literal next : Token} {more : List Token}
    (known : literal ∈ [Token.yes, .no, .null]) (step : next ∈ [Token.dot, .openBracket]) :
    parseAll (literal :: next :: more) = .error ⟨.finish, next, next :: more⟩ := by
  simp only [List.mem_cons, List.not_mem_nil, or_false] at known step
  rcases known with rfl | rfl | rfl <;> rcases step with rfl | rfl <;> rfl

/-- A negation has an operand, which no step and no end is. -/
theorem parseAll_of_not {next : Token} {more : List Token}
    (void : next ∈ [Token.dot, .openBracket, .finish]) :
    parseAll (.not :: next :: more) = .error ⟨.value, next, more⟩ := by
  simp only [List.mem_cons, List.not_mem_nil, or_false] at void
  rcases void with rfl | rfl | rfl <;> rfl

end Refusing

namespace PlainPath

variable {path : PlainPath} {text : String}

/-- The path is one in expressions as well. -/
structure IsReadable (path : PlainPath) : Prop extends path.IsLegible where
  free : String.ofList path.head ∉ keywords
  steps : ∀ hop ∈ path.hops, hop.IsStep

/-- The literal that a path is, when it is nothing but a word. -/
def literal? (path : PlainPath) : Option Data :=
  match String.ofList path.head, path.hops with
  | "true", [] => some (.bool true)
  | "false", [] => some (.bool false)
  | "null", [] => some .null
  | _, _ => none

theorem parse_text (plain : path.IsPlain) (readable : path.IsReadable) :
    ∃ steps, Expr.parse path.text = .ok (.path (String.ofList path.head) steps) ∧
      ((∀ hop ∈ path.hops, hop.IsExact) → steps = path.hops.map Hop.segment) := by
  obtain ⟨suffixes, spelled, means⟩ := Hop.exists_suffixes readable.steps
  have form : Forms 4 (.path (String.ofList path.head) (suffixes.map Suffix.segment))
      path.tokens := by
    refine ⟨.path (String.ofList path.head) suffixes, rfl, ?_⟩
    rw [Primary.tokens, spelled, PlainPath.tokens, wordToken_of_not_mem readable.free]
  obtain ⟨d, means', derived⟩ := form.loose.loose.loose.loose
  refine ⟨_, ?_, means⟩
  rw [Expr.parse, tokens_text plain readable.toIsLegible, ← derived, ← means']
  exact d.parse_tokens

theorem IsPlain.parse_text_literal (plain : path.IsPlain) {value : Data}
    (literal : path.literal? = some value) : Expr.parse path.text = .ok (.literal value) := by
  unfold literal? at literal
  split at literal
  case h_4 => cases literal
  all_goals
    cases literal
    rename_i word void
    have letters := congrArg String.toList word
    rw [String.toList_ofList] at letters
    have legible : path.IsLegible :=
      ⟨by rw [letters]; exact List.all_eq_true.mp (by decide),
        by rw [void]; exact List.forall_mem_nil _⟩
    rw [Expr.parse, tokens_text plain legible, PlainPath.tokens, word, void]
    rfl

/-- What follows the name at the beginning of a path: a step or the end. -/
theorem exists_next (hops : List Hop) :
    ∃ next more, hops.flatMap Hop.tokens ++ [.finish] = next :: more ∧
      next ∈ [Token.dot, .openBracket, .finish] ∧
      (hops ≠ [] → next ∈ [Token.dot, .openBracket]) := by
  cases hops with
  | nil => exact ⟨_, _, rfl, by decide, fun h => absurd rfl h⟩
  | cons hop more => cases hop <;> exact ⟨_, _, rfl, by decide, fun _ => by decide⟩

theorem parseAll_error
    (bad : String.ofList path.head ∈ keywords ∨ ∃ hop ∈ path.hops, ¬ hop.IsStep)
    (other : path.literal? = none) :
    ∃ fault, parseAll (path.tokens ++ [.finish]) = .error fault := by
  rw [PlainPath.tokens, List.cons_append]
  by_cases free : String.ofList path.head ∉ keywords
  · obtain ⟨fault, refused⟩ := Hop.segments_error (bad.resolve_left free) [.finish]
    rw [wordToken_of_not_mem free]
    refine ⟨fault, parseAll_of_parsePrimary (by simp) fun fuel => ?_⟩
    rw [parsePrimary, refused]
    rfl
  · obtain ⟨next, more, behind, follows, step⟩ := exists_next path.hops
    have reserved := not_not.mp free
    simp only [keywords, List.mem_cons, List.not_mem_nil, or_false] at reserved
    rw [behind]
    unfold literal? at other
    rcases reserved with word | word | word | word | word | word | word <;> rw [word] at other ⊢
    -- The words of literals
    iterate 3
      refine ⟨_, parseAll_of_literal (by decide) (step ?_)⟩
      intro void
      rw [void] at other
      cases other
    -- The words of operators between operands
    iterate 3 exact ⟨_, parseAll_of_parsePrimary (by simp [wordToken]) fun _ => rfl⟩
    exact ⟨_, parseAll_of_not follows⟩

theorem parse_text_error (plain : path.IsPlain) (unreadable : ¬ path.IsReadable)
    (other : path.literal? = none) :
    ∃ e, Expr.parse path.text = .error e ∧ e.position?.isSome = true := by
  by_cases legible : path.IsLegible
  · have bad : String.ofList path.head ∈ keywords ∨ ∃ hop ∈ path.hops, ¬ hop.IsStep := by
      by_contra fine
      simp only [not_or, not_exists, not_and, not_not] at fine
      exact unreadable ⟨legible, fine.1, fine.2⟩
    obtain ⟨fault, refused⟩ := parseAll_error bad other
    have error : Expr.parse path.text = .error (.unexpected
        ((path.tokens ++ [Token.finish]).length - fault.rest.length) fault.wanted fault.found) := by
      rw [Expr.parse, tokens_text plain legible]
      simp only [Parser.parse, refused]
    exact ⟨_, error, rfl⟩
  · obtain ⟨position, c, stopped⟩ := tokens_text_error plain legible
    exact ⟨.lexical position (.unexpected c), by rw [Expr.parse, stopped], rfl⟩

end PlainPath

/-- What becomes of a text that is filled in as a template. -/
def filledIn (scope : Data) (text : String) : Except RenderFault Data :=
  match render text scope with
  | .ok s => .ok (.str s)
  | .error fault => .error (.template fault)

section Rendering

variable {path : PlainPath} {text : String} {scope : Data}

/-- A text that is one output is filled in only where its path has no value. -/
theorem renderData_lone (alone : path.StandsAlone text) :
    renderData scope (.str text) =
      match Expr.evaluate path.text scope with
      | .error e => .error (.path e)
      | .ok .null => filledIn scope text
      | .ok v => .ok v := by
  rw [renderData, if_pos alone.isTemplate, renderText, alone.lonePath?]
  rfl

theorem renderData_lone_error (alone : path.StandsAlone text) {e : ExprError}
    (refused : Expr.parse path.text = .error e) :
    renderData scope (.str text) = .error (.path e) := by
  rw [renderData_lone alone, Expr.evaluate, refused]
  rfl

theorem renderData_lone_value (alone : path.StandsAlone text) {e : Expr} {v : Data}
    (read : Expr.parse path.text = .ok e) (means : e.eval scope = .ok v) :
    renderData scope (.str text) = if v = .null then filledIn scope text else .ok v := by
  have value : Expr.evaluate path.text scope = .ok v := by
    rw [Expr.evaluate, read]
    exact means
  rw [renderData_lone alone, value]
  cases v <;> rfl

/-- Neither filling in nor a value is a failure of a path. -/
theorem value_ne_path (v : Data) (e : ExprError) :
    (if v = .null then filledIn scope text else .ok v) ≠ .error (.path e) := by
  unfold filledIn
  split <;> [split <;> simp; simp]

/-- A path that is none in expressions fails, and with it the text. -/
theorem renderData_of_unreadable (alone : path.StandsAlone text) (scope : Data)
    (unreadable : ¬ path.IsReadable) (other : path.literal? = none) :
    ∃ e, renderData scope (.str text) = .error (.path e) ∧ e.position?.isSome = true := by
  obtain ⟨e, error, placed⟩ := PlainPath.parse_text_error alone.toIsPlain unreadable other
  exact ⟨e, renderData_lone_error alone error, placed⟩

theorem renderData_of_literal (alone : path.StandsAlone text) (scope : Data) {v : Data}
    (known : path.literal? = some v) :
    renderData scope (.str text) = if v = .null then filledIn scope text else .ok v :=
  renderData_lone_value alone (alone.toIsPlain.parse_text_literal known) rfl

theorem renderData_of_readable (alone : path.StandsAlone text) (scope : Data)
    (readable : path.IsReadable) :
    ∃ v, renderData scope (.str text) = (if v = .null then filledIn scope text else .ok v) ∧
      ((∀ hop ∈ path.hops, hop.IsExact) → v = (scope.follow? path.segments).getD .null) := by
  obtain ⟨steps, read, means⟩ := PlainPath.parse_text alone.toIsPlain readable
  refine ⟨_, renderData_lone_value alone read rfl, fun precise => ?_⟩
  rw [means precise]
  rfl

/-- A text that is one output of a readable path stands for the value at its end. -/
theorem renderData_of_follow? (alone : path.StandsAlone text) (readable : path.IsReadable)
    (precise : ∀ hop ∈ path.hops, hop.IsExact) {v : Data}
    (leads : scope.follow? path.segments = some v) (valued : v ≠ .null) :
    renderData scope (.str text) = .ok v := by
  obtain ⟨w, same, means⟩ := renderData_of_readable alone scope readable
  rwa [means precise, leads, Option.getD_some, if_neg valued] at same

/-- A text that is one output of a plain path is refused where the path is none in expressions and
no literal. Otherwise it stands for the value that the path leads to, whatever its type, and is
filled in as a template if there is no value but null. -/
theorem lone_paths_stand_for_values (alone : path.StandsAlone text) (scope : Data) :
    ((∃ e, renderData scope (.str text) = .error (.path e)) ↔
      ¬ path.IsReadable ∧ path.literal? = none) ∧
    (∀ e, renderData scope (.str text) = .error (.path e) → e.position?.isSome = true) ∧
    (path.IsReadable → (∀ hop ∈ path.hops, hop.IsExact) →
      (∀ v, scope.follow? path.segments = some v → v ≠ .null →
        renderData scope (.str text) = .ok v) ∧
      ((∀ v, scope.follow? path.segments = some v → v = .null) →
        renderData scope (.str text) = filledIn scope text)) ∧
    ∀ v, path.literal? = some v →
      renderData scope (.str text) = if v = .null then filledIn scope text else .ok v := by
  have only : ∀ e, renderData scope (.str text) = .error (.path e) →
      ¬ path.IsReadable ∧ path.literal? = none := by
    intro e error
    refine ⟨fun readable => ?_, ?_⟩
    · obtain ⟨v, same, -⟩ := renderData_of_readable alone scope readable
      exact value_ne_path v e (same.symm.trans error)
    · cases known : path.literal? with
      | none => rfl
      | some v =>
        exact absurd ((renderData_of_literal alone scope known).symm.trans error)
          (value_ne_path v e)
  refine ⟨⟨fun ⟨e, error⟩ => only e error, fun ⟨unreadable, other⟩ => ?_⟩, fun e error => ?_,
    fun readable precise => ⟨fun v leads valued =>
      renderData_of_follow? alone readable precise leads valued, fun void => ?_⟩,
    fun v known => renderData_of_literal alone scope known⟩
  · obtain ⟨e, error, -⟩ := renderData_of_unreadable alone scope unreadable other
    exact ⟨e, error⟩
  · obtain ⟨unreadable, other⟩ := only e error
    obtain ⟨e', error', placed⟩ := renderData_of_unreadable alone scope unreadable other
    cases error'.symm.trans error
    exact placed
  · obtain ⟨w, same, means⟩ := renderData_of_readable alone scope readable
    have null : (scope.follow? path.segments).getD .null = .null := by
      cases leads : scope.follow? path.segments with
      | none => rfl
      | some v => exact void v leads
    rwa [means precise, null, if_pos rfl] at same

/-- A path that ends in a position stands for the item there, which is no text. -/
theorem lone_paths_stand_for_values_item :
    let path : PlainPath := ⟨"items".toList, [.position ['1']]⟩
    let scope : Data := .obj [("items", .arr [.int 3, .obj []])]
    path.StandsAlone "\x7b\x7bitems[1]\x7d\x7d" ∧ path.IsReadable ∧
      (∀ hop ∈ path.hops, hop.IsExact) ∧
      renderData scope (.str "\x7b\x7bitems[1]\x7d\x7d") = .ok (.obj []) := by
  intro path scope
  have alone : path.StandsAlone "\x7b\x7bitems[1]\x7d\x7d" := by
    refine ⟨⟨⟨'i', "tems".toList, by decide, by decide, List.all_eq_true.mp (by decide)⟩, ?_⟩,
      [], [], List.forall_mem_nil _, List.forall_mem_nil _, by decide⟩
    exact List.forall_mem_singleton.mpr ⟨by decide, List.forall_mem_singleton.mpr (by decide)⟩
  have readable : path.IsReadable :=
    ⟨⟨List.all_eq_true.mp (by decide),
        List.forall_mem_singleton.mpr (List.forall_mem_singleton.mpr (by decide))⟩,
      by decide, List.forall_mem_singleton.mpr
        (by decide : Binary64.ofDecimal false (Nat.ofDigitChars 10 ['1'] 0) 0 ≠ none)⟩
  have precise : ∀ hop ∈ path.hops, hop.IsExact :=
    List.forall_mem_singleton.mpr (by decide : Nat.ofDigitChars 10 ['1'] 0 < 2 ^ (53 : Nat))
  exact ⟨alone, readable, precise,
    ((lone_paths_stand_for_values alone scope).2.2.1 readable precise).1 _ (by decide) (by decide)⟩

/-- A field whose name is a reserved word is not found by its path. -/
theorem lone_path_of_reserved_word :
    let path : PlainPath := ⟨"variables".toList, [.name ['i', 'n']]⟩
    let scope : Data := .obj [("variables", .obj [("in", .int 5)])]
    path.StandsAlone "\x7b\x7b variables.in \x7d\x7d" ∧
      scope.follow? path.segments = some (.int 5) ∧
      renderData scope (.str "\x7b\x7b variables.in \x7d\x7d") =
        .error (.path (.unexpected 3 .propertyName .isIn)) := by
  intro path scope
  have alone : path.StandsAlone "\x7b\x7b variables.in \x7d\x7d" := by
    have blank : ∀ c ∈ [' '], Text.isBlank c = true :=
      List.forall_mem_singleton.mpr (by decide +kernel)
    refine ⟨⟨⟨'v', "ariables".toList, by decide, by decide, List.all_eq_true.mp (by decide)⟩, ?_⟩,
      [' '], [' '], blank, blank, by decide⟩
    exact List.forall_mem_singleton.mpr
      ⟨'i', ['n'], rfl, by decide, List.forall_mem_singleton.mpr (by decide)⟩
  have cut : Expr.tokens path.text = .ok [.identifier "variables", .dot, .isIn, .finish] :=
    PlainPath.tokens_text alone.toIsPlain ⟨List.all_eq_true.mp (by decide),
      List.forall_mem_singleton.mpr (List.all_eq_true.mp (by decide))⟩
  have refused : parseAll [.identifier "variables", .dot, .isIn, .finish] =
      .error ⟨.propertyName, .isIn, [.finish]⟩ :=
    parseAll_of_parsePrimary (by simp) fun fuel => by
      rw [parsePrimary, segments]
      · rfl
      · simp
  refine ⟨alone, by decide, renderData_lone_error alone ?_⟩
  rw [Expr.parse, cut]
  simp only [Parser.parse, refused]
  rfl

end Rendering

end Template

end DurableFlow
