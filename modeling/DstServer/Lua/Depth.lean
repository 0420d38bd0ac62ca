import DstServer.Lua.Grammar
import DstServer.Lua.Scan

/-!
# The depth of a script is bounded

`scanScript` sees the tokens of a script only, and not its tree.  `tree_law`
is what the tokens of a tree do to the scopes, by the nonterminal of the tree:

* an expression adds its operators and the depth of its brackets to the
  expression that it is part of (`ExpLaw`), and may only begin with a
  reset where no expression is open (`Start`);
* a block, a statement or a list leaves the scopes around it alone, and its
  depth stays in the scope that it is part of (`Within`).

A scope that is closed hands its depth on to the one around it, so the scope
of the script has the depth of its tree in the end, and no scope is deeper
than the limit (`bounded_of_step`).
-/

namespace DstServer.Lua

open Lib Outcome

/-! ## Runs of tokens -/

def scanTokens (tokens : List TokenType) (scan : ScriptScan) : Outcome String ScriptScan :=
  tokens.foldlM (fun scan kind => stepToken kind scan) scan

@[simp] theorem scanTokens_nil {scan scan' : ScriptScan} :
    scanTokens [] scan = .ok scan' ↔ scan = scan' := Except.ok.injEq scan scan' ▸ Iff.rfl

@[simp] theorem scanTokens_cons {kind : TokenType} {tokens : List TokenType}
    {scan scan' : ScriptScan} :
    scanTokens (kind :: tokens) scan = .ok scan' ↔
      ∃ next, stepToken kind scan = .ok next ∧ scanTokens tokens next = .ok scan' := bind_eq_ok

@[simp] theorem scanTokens_append {first second : List TokenType} {scan scan' : ScriptScan} :
    scanTokens (first ++ second) scan = .ok scan' ↔
      ∃ next, scanTokens first scan = .ok next ∧ scanTokens second next = .ok scan' := by
  unfold scanTokens
  rw [List.foldlM_append]
  exact bind_eq_ok

theorem scanScript_map (tokens : List TokenType) (scan : ScriptScan) :
    scanScript (tokens.map some) scan =
      scanTokens tokens scan >>= fun last => ensure (last.outer = []) "unclosed Lua scope" := by
  induction tokens generalizing scan with
  | nil => rfl
  | cons kind tokens ih =>
    rw [List.map_cons, scanScript_cons]
    show _ = ((stepToken kind scan >>= scanTokens tokens) >>= _)
    rw [bind_assoc]
    congr 1
    funext next
    exact ih next

/-! ## Depths of scopes -/

/-- The greatest depth of an expression in a scope, finished or not. -/
def ScriptScope.reach (scope : ScriptScope) : Nat :=
  max scope.maxDepth (scope.operators + scope.nestedDepth)

@[simp] theorem reach_finishExpression (scope : ScriptScope) :
    scope.finishExpression.reach = scope.reach :=
  Nat.max_zero scope.reach

theorem one_le_nesting_new (opening : Option Symbol) (canEndExpression : Bool) :
    1 ≤ (ScriptScope.new opening canEndExpression).nesting := by
  unfold ScriptScope.new
  dsimp only
  split
  · decide
  · decide
  · decide
  · decide
  · split <;> decide
  · split <;> decide
  · exact Nat.le_refl 1

/-- A closed scope hands its depth on. -/
theorem reach_enclose (parent scope : ScriptScope) :
    parent.reach ≤ (parent.enclose scope).reach ∧
      scope.reach + scope.nesting ≤ (parent.enclose scope).reach := by
  have hnested : (parent.enclose scope).nestedDepth =
      max parent.nestedDepth (scope.reach + scope.nesting) := rfl
  have hoperators : (parent.enclose scope).operators = parent.operators := rfl
  have hmax : (parent.enclose scope).maxDepth = parent.maxDepth := rfl
  have hreach : (parent.enclose scope).reach = max (parent.enclose scope).maxDepth
      ((parent.enclose scope).operators + (parent.enclose scope).nestedDepth) := rfl
  have hparent : parent.reach = max parent.maxDepth (parent.operators + parent.nestedDepth) := rfl
  rw [hreach, hmax, hoperators, hnested]
  omega

theorem reach_afterClosed (symbol : Symbol) (parent : ScriptScope) :
    (afterClosed symbol parent).reach = parent.reach ∧
      (afterClosed symbol parent).nesting = parent.nesting := by
  unfold afterClosed
  split_ifs
  · exact ⟨reach_finishExpression parent, rfl⟩
  · exact ⟨rfl, rfl⟩

/-! ## Steps -/

/-- The scope in which an expression starts: the current one, or that after the
expression before it, if that can be at its end. -/
def Start (scan : ScriptScan) (scope : ScriptScope) : Prop :=
  scope = scan.scope ∨ scan.canEndExpression = true ∧ scope = scan.scope.finishExpression

theorem Start.reach {scan : ScriptScan} {scope : ScriptScope} (h : Start scan scope) :
    scope.reach = scan.scope.reach ∧ scope.nesting = scan.scope.nesting := by
  rcases h with h | h
  · exact h ▸ ⟨rfl, rfl⟩
  · rw [h.2]
    exact ⟨reach_finishExpression scan.scope, rfl⟩

/-- In the middle of an expression another one starts in the same scope. -/
theorem Start.eq {scan : ScriptScan} {scope : ScriptScope} (h : Start scan scope)
    (hends : scan.canEndExpression = false) : scope = scan.scope := by
  rcases h with h | h
  · exact h
  · rw [hends] at h
    exact absurd h.1 (by decide)

theorem start_beginToken (kind : TokenType) (scan : ScriptScan) :
    Start scan (beginToken kind scan).scope := by
  unfold beginToken
  dsimp only
  split_ifs with hstarts
  · rw [Bool.and_eq_true] at hstarts
    exact Or.inr ⟨hstarts.1, rfl⟩
  · exact Or.inl rfl

theorem beginToken_scope {kind : TokenType} (scan : ScriptScan)
    (hkind : kind ∉ [TokenType.identifier, .symbol .functionWord]) :
    (beginToken kind scan).scope = scan.scope := by
  unfold beginToken
  dsimp only
  rw [if_neg]
  rw [Bool.and_eq_true, decide_eq_true_iff]
  exact fun h => hkind h.2

/-- Where a scan is: its scopes, and whether an expression can end here. -/
structure At (scan : ScriptScan) (scope : ScriptScope) (outer : List ScriptScope) (ends : Bool) :
    Prop where
  scope : scan.scope = scope
  outer : scan.outer = outer
  ends : scan.canEndExpression = ends

theorem step_symbol {symbol : Symbol} {scan scan' : ScriptScan}
    (h : stepToken (.symbol symbol) scan = .ok scan') :
    ∃ next, SymbolStep symbol (beginToken (.symbol symbol) scan) next ∧
      At scan' next.scope next.outer symbol.endsExpression := by
  simp only [stepToken, scanToken, bind_eq_ok, pure_eq_ok, Except.ok.injEq] at h
  obtain ⟨_, _, next, hnext, heq⟩ := h
  rw [← heq]
  exact ⟨next, step_of_scanSymbol hnext, rfl, rfl, rfl⟩

theorem step_name {scan scan' : ScriptScan} (h : stepToken .identifier scan = .ok scan') :
    ∃ scope, Start scan scope ∧ At scan' scope scan.outer true := by
  simp only [stepToken, scanToken, bind_eq_ok, pure_eq_ok, Except.ok.injEq] at h
  obtain ⟨_, _, next, hnext, heq⟩ := h
  rw [← heq, ← hnext]
  exact ⟨_, start_beginToken .identifier scan, rfl, rfl, rfl⟩

/-- The tokens that do nothing to the scopes. -/
def TokenType.isPlain : TokenType → Bool
  | .identifier => false
  | .symbol word => !word.opens && !word.closes && !word.separates && !word.operates
  | _ => true

theorem step_plain {kind : TokenType} (hkind : kind.isPlain = true) {scan scan' : ScriptScan}
    (h : stepToken kind scan = .ok scan') : At scan' scan.scope scan.outer kind.endsExpression := by
  cases kind with
  | identifier => cases hkind
  | symbol symbol =>
    simp only [TokenType.isPlain, Bool.and_eq_true, Bool.not_eq_true'] at hkind
    obtain ⟨next, hstep, hat⟩ := step_symbol h
    cases hstep with
    | opens hsymbol => rw [hkind.1.1.1] at hsymbol; cases hsymbol
    | closes _ _ _ hsymbol => rw [hkind.1.1.2] at hsymbol; cases hsymbol
    | separates hsymbol => rw [hkind.1.2] at hsymbol; cases hsymbol
    | operates hsymbol => rw [hkind.2] at hsymbol; cases hsymbol
    | other =>
      have hfunction : symbol ≠ .functionWord := by
        intro heq
        rw [heq] at hkind
        exact absurd hkind.1.1.1 (by decide)
      rw [beginToken_scope scan (by simpa using hfunction)] at hat
      exact hat
  | _ =>
    simp only [stepToken, scanToken, bind_eq_ok, pure_eq_ok, Except.ok.injEq] at h
    obtain ⟨_, _, next, hnext, heq⟩ := h
    rw [← heq, ← hnext]
    exact ⟨beginToken_scope scan (by simp), rfl, rfl⟩

/-- A symbol does at most one thing to the scopes. -/
theorem Symbol.one_role (symbol : Symbol) :
    ¬(symbol.opens = true ∧ symbol.closes = true) ∧
      ¬(symbol.opens = true ∧ symbol.separates = true) ∧
      ¬(symbol.opens = true ∧ symbol.operates = true) ∧
      ¬(symbol.closes = true ∧ symbol.separates = true) ∧
      ¬(symbol.closes = true ∧ symbol.operates = true) ∧
      ¬(symbol.separates = true ∧ symbol.operates = true) := by
  cases symbol <;> decide

/-- Only an identifier and the word of a function start another statement. -/
theorem beginToken_symbol {symbol : Symbol} (scan : ScriptScan) (hfunction : symbol ≠ .functionWord) :
    (beginToken (.symbol symbol) scan).scope = scan.scope :=
  beginToken_scope scan (by simpa using hfunction)

/-- An opening symbol: the scope around it may have finished an expression. -/
theorem step_opens {symbol : Symbol} (hsymbol : symbol.opens = true) {scan scan' : ScriptScan}
    (h : stepToken (.symbol symbol) scan = .ok scan') :
    ∃ scope canEnd, Start scan scope ∧ (symbol ≠ .functionWord → scope = scan.scope) ∧
      At scan' (ScriptScope.new (some symbol) canEnd)
        (aroundOpened symbol scope :: scan.outer) symbol.endsExpression := by
  obtain ⟨next, hstep, hat⟩ := step_symbol h
  cases hstep with
  | opens =>
    refine ⟨_, scan.canEndExpression, start_beginToken (.symbol symbol) scan, ?_, hat⟩
    intro hfunction
    exact beginToken_symbol scan hfunction
  | closes _ _ _ hcloses =>
    exact absurd ⟨hsymbol, hcloses⟩ symbol.one_role.1
  | separates hseparates =>
    exact absurd ⟨hsymbol, hseparates⟩ symbol.one_role.2.1
  | operates hoperates =>
    exact absurd ⟨hsymbol, hoperates⟩ symbol.one_role.2.2.1
  | other hopens =>
    rw [hopens] at hsymbol
    cases hsymbol

/-- A closing symbol: its scope is closed in the one around it. -/
theorem step_closes {symbol : Symbol} (hsymbol : symbol.closes = true) {scan scan' : ScriptScan}
    (h : stepToken (.symbol symbol) scan = .ok scan') {parent : ScriptScope}
    {outer : List ScriptScope} (houter : scan.outer = parent :: outer) :
    At scan' (afterClosed symbol (parent.enclose scan.scope)) outer symbol.endsExpression := by
  have hscope := beginToken_symbol scan (show symbol ≠ .functionWord by rintro rfl; cases hsymbol)
  obtain ⟨next, hstep, hat⟩ := step_symbol h
  cases hstep with
  | opens hopens =>
    exact absurd ⟨hopens, hsymbol⟩ symbol.one_role.1
  | closes found rest opening _ hfound =>
    have heq : found :: rest = parent :: outer := hfound.symm.trans houter
    cases heq
    rw [hscope] at hat
    exact hat
  | separates hseparates =>
    exact absurd ⟨hsymbol, hseparates⟩ symbol.one_role.2.2.2.1
  | operates hoperates =>
    exact absurd ⟨hsymbol, hoperates⟩ symbol.one_role.2.2.2.2.1
  | other _ hcloses =>
    rw [hcloses] at hsymbol
    cases hsymbol

theorem step_separates {symbol : Symbol} (hsymbol : symbol.separates = true) {scan scan' : ScriptScan}
    (h : stepToken (.symbol symbol) scan = .ok scan') :
    At scan' scan.scope.finishExpression scan.outer false := by
  have hscope := beginToken_symbol scan (show symbol ≠ .functionWord by rintro rfl; cases hsymbol)
  have hends : symbol.endsExpression = false := by
    revert hsymbol
    cases symbol <;> decide
  obtain ⟨next, hstep, hat⟩ := step_symbol h
  rw [hends] at hat
  cases hstep with
  | opens hopens =>
    exact absurd ⟨hopens, hsymbol⟩ symbol.one_role.2.1
  | closes _ _ _ hcloses =>
    exact absurd ⟨hcloses, hsymbol⟩ symbol.one_role.2.2.2.1
  | separates =>
    rw [hscope] at hat
    exact hat
  | operates hoperates =>
    exact absurd ⟨hsymbol, hoperates⟩ symbol.one_role.2.2.2.2.2
  | other _ _ hseparates =>
    rw [hseparates] at hsymbol
    cases hsymbol

theorem step_operates {symbol : Symbol} (hsymbol : symbol.operates = true) {scan scan' : ScriptScan}
    (h : stepToken (.symbol symbol) scan = .ok scan') :
    At scan' { scan.scope with operators := scan.scope.operators + 1 } scan.outer false := by
  have hscope := beginToken_symbol scan (show symbol ≠ .functionWord by rintro rfl; cases hsymbol)
  have hends : symbol.endsExpression = false := by
    revert hsymbol
    cases symbol <;> decide
  obtain ⟨next, hstep, hat⟩ := step_symbol h
  rw [hends] at hat
  cases hstep with
  | opens hopens =>
    exact absurd ⟨hopens, hsymbol⟩ symbol.one_role.2.2.1
  | closes _ _ _ hcloses =>
    exact absurd ⟨hcloses, hsymbol⟩ symbol.one_role.2.2.2.2.1
  | separates hseparates =>
    exact absurd ⟨hseparates, hsymbol⟩ symbol.one_role.2.2.2.2.2
  | operates =>
    rw [hscope] at hat
    exact hat
  | other _ _ _ hoperates =>
    rw [hoperates] at hsymbol
    cases hsymbol

/-! ## What a run of tokens does -/

/-- The run leaves the scopes around alone, and what it passes is no deeper
than the scope reaches in the end. -/
structure Within (scan scan' : ScriptScan) (depth : Nat) : Prop where
  outer : scan'.outer = scan.outer
  nesting : scan'.scope.nesting = scan.scope.nesting
  reach : scan.scope.reach ≤ scan'.scope.reach
  depth : depth ≤ scan'.scope.reach

theorem Within.trans {first second third : ScriptScan} {depth depth' : Nat}
    (h : Within first second depth) (h' : Within second third depth') :
    Within first third (max depth depth') where
  outer := h'.outer.trans h.outer
  nesting := h'.nesting.trans h.nesting
  reach := h.reach.trans h'.reach
  depth := max_le (h.depth.trans h'.reach) h'.depth

/-- What is passed before or after may have no depth. -/
theorem Within.skip {first second third : ScriptScan} {depth : Nat} (h : Within first second 0)
    (h' : Within second third depth) : Within first third depth :=
  Nat.zero_max depth ▸ h.trans h'

theorem Within.pass {first second third : ScriptScan} {depth : Nat}
    (h : Within first second depth) (h' : Within second third 0) : Within first third depth :=
  Nat.max_zero depth ▸ h.trans h'

/-- The scope has taken on an expression, or a part of one, of this depth. -/
structure Grows (scope scope' : ScriptScope) (depth : Nat) : Prop where
  nesting : scope'.nesting = scope.nesting
  maxDepth : scope'.maxDepth = scope.maxDepth
  operators : scope.operators ≤ scope'.operators
  nestedDepth : scope.nestedDepth ≤ scope'.nestedDepth
  depth : depth + scope.operators ≤ scope'.operators + scope'.nestedDepth

theorem Grows.refl (scope : ScriptScope) : Grows scope scope 0 where
  nesting := rfl
  maxDepth := rfl
  operators := Nat.le_refl _
  nestedDepth := Nat.le_refl _
  depth := by omega

theorem Grows.trans {first second third : ScriptScope} {depth depth' : Nat}
    (h : Grows first second depth) (h' : Grows second third depth') :
    Grows first third (max depth depth') where
  nesting := h'.nesting.trans h.nesting
  maxDepth := h'.maxDepth.trans h.maxDepth
  operators := h.operators.trans h'.operators
  nestedDepth := h.nestedDepth.trans h'.nestedDepth
  depth := by
    have hfirst := h.depth
    have hsecond := h'.depth
    have hoperators := h.operators
    have hoperators' := h'.operators
    have hnested := h'.nestedDepth
    omega

/-- An operator is around what comes before it and after it. -/
theorem Grows.operate {first second third : ScriptScope} {depth depth' : Nat}
    (h : Grows first second depth)
    (h' : Grows { second with operators := second.operators + 1 } third depth') :
    Grows first third (max depth depth' + 1) where
  nesting := h'.nesting.trans h.nesting
  maxDepth := h'.maxDepth.trans h.maxDepth
  operators := h.operators.trans ((Nat.le_succ _).trans h'.operators)
  nestedDepth := h.nestedDepth.trans h'.nestedDepth
  depth := by
    have hfirst := h.depth
    have hsecond : depth' + (second.operators + 1) ≤ third.operators + third.nestedDepth := h'.depth
    have hoperators := h.operators
    have hoperators' : second.operators + 1 ≤ third.operators := h'.operators
    have hnested : second.nestedDepth ≤ third.nestedDepth := h'.nestedDepth
    omega

theorem Grows.reach {scope scope' : ScriptScope} {depth : Nat} (h : Grows scope scope' depth) :
    scope.reach ≤ scope'.reach ∧ depth ≤ scope'.reach := by
  have hmax := h.maxDepth
  have hoperators := h.operators
  have hnested := h.nestedDepth
  have hdepth := h.depth
  unfold ScriptScope.reach
  omega

theorem Grows.within {scan scan' : ScriptScan} {scope : ScriptScope} {depth : Nat}
    (hstart : Start scan scope) (houter : scan'.outer = scan.outer)
    (h : Grows scope scan'.scope depth) : Within scan scan' depth where
  outer := houter
  nesting := h.nesting.trans hstart.reach.2
  reach := hstart.reach.1 ▸ h.reach.1
  depth := h.reach.2

/-- A closed scope in an expression. -/
theorem grows_enclose {parent scope : ScriptScope} {depth : Nat} (hnesting : 1 ≤ scope.nesting)
    (hdepth : depth ≤ scope.reach) : Grows parent (parent.enclose scope) (depth + 1) where
  nesting := rfl
  maxDepth := rfl
  operators := Nat.le_refl _
  nestedDepth := Nat.le_max_left _ _
  depth := by
    have hnested : (parent.enclose scope).nestedDepth =
        max parent.nestedDepth (scope.reach + scope.nesting) := rfl
    have hoperators : (parent.enclose scope).operators = parent.operators := rfl
    rw [hnested, hoperators]
    omega

/-! ## Laws of the nonterminals -/

/-- An expression: it starts in the scope, and its depth is added there. -/
def ExpLaw (scan scan' : ScriptScan) (depth : Nat) : Prop :=
  scan'.outer = scan.outer ∧ scan'.canEndExpression = true ∧
    ∃ scope, Start scan scope ∧ Grows scope scan'.scope depth

/-- The rest of an expression, which starts nothing. -/
def RestLaw (scan scan' : ScriptScan) (depth : Nat) : Prop :=
  scan'.outer = scan.outer ∧ scan'.canEndExpression = true ∧ Grows scan.scope scan'.scope depth

/-- The rest of a function after its word, which closes its scope. -/
def BodyLaw (scan scan' : ScriptScan) (depth : Nat) : Prop :=
  ∀ parent outer, scan.outer = parent :: outer → 1 ≤ scan.scope.nesting →
    scan'.outer = outer ∧ scan'.canEndExpression = true ∧ Grows parent scan'.scope depth

/-- The rest of a conditional after a block, whose scope it closes. -/
def BranchesLaw (scan scan' : ScriptScan) (depth : Nat) : Prop :=
  ∀ parent outer, scan.outer = parent :: outer → 1 ≤ scan.scope.nesting →
    scan'.outer = outer ∧ scan'.scope.nesting = parent.nesting ∧
      parent.reach ≤ scan'.scope.reach ∧ scan.scope.reach + 1 ≤ scan'.scope.reach ∧
      depth ≤ scan'.scope.reach

/-- What the tokens of a tree do, by its nonterminal. -/
def Law : Nonterminal → ScriptScan → ScriptScan → Nat → Prop
  | .exp | .primary | .var | .call => ExpLaw
  | .args | .table => RestLaw
  | .funcBody => BodyLaw
  | .branches => BranchesLaw
  | .block | .lastStat | .stat | .vars | .exps | .fields | .field => Within

theorem ExpLaw.within {scan scan' : ScriptScan} {depth : Nat} (h : ExpLaw scan scan' depth) :
    Within scan scan' depth := by
  obtain ⟨houter, _, scope, hstart, hgrows⟩ := h
  exact hgrows.within hstart houter

/-- In the middle of an expression, another one is a rest of it. -/
theorem ExpLaw.rest {scan scan' : ScriptScan} {depth : Nat} (h : ExpLaw scan scan' depth)
    (hends : scan.canEndExpression = false) : RestLaw scan scan' depth := by
  obtain ⟨houter, hends', scope, hstart, hgrows⟩ := h
  rw [hstart.eq hends] at hgrows
  exact ⟨houter, hends', hgrows⟩

/-- What goes on with an expression. -/
theorem ExpLaw.extend {first second third : ScriptScan} {depth depth' : Nat}
    (h : ExpLaw first second depth) (h' : RestLaw second third depth') :
    ExpLaw first third (max depth depth') := by
  obtain ⟨houter, _, scope, hstart, hgrows⟩ := h
  obtain ⟨houter', hends, hgrows'⟩ := h'
  exact ⟨houter'.trans houter, hends, scope, hstart, hgrows.trans hgrows'⟩

theorem RestLaw.exp {scan scan' : ScriptScan} {depth : Nat} (h : RestLaw scan scan' depth) :
    ExpLaw scan scan' depth := by
  obtain ⟨houter, hends, hgrows⟩ := h
  exact ⟨houter, hends, scan.scope, Or.inl rfl, hgrows⟩

/-! ## Tokens of one level -/

/-- The tokens that open and close nothing. -/
def TokenType.isLevel : TokenType → Bool
  | .symbol word => !word.opens && !word.closes
  | _ => true

theorem At.within {scan scan' : ScriptScan} {scope : ScriptScope} {ends : Bool}
    (h : At scan' scope scan.outer ends) (hnesting : scope.nesting = scan.scope.nesting)
    (hreach : scan.scope.reach ≤ scope.reach) : Within scan scan' 0 where
  outer := h.outer
  nesting := h.scope ▸ hnesting
  reach := h.scope ▸ hreach
  depth := Nat.zero_le _

theorem step_level {kind : TokenType} (hkind : kind.isLevel = true) {scan scan' : ScriptScan}
    (h : stepToken kind scan = .ok scan') : Within scan scan' 0 := by
  cases kind with
  | identifier =>
    obtain ⟨scope, hstart, hat⟩ := step_name h
    exact hat.within hstart.reach.2 (Nat.le_of_eq hstart.reach.1.symm)
  | symbol symbol =>
    simp only [TokenType.isLevel, Bool.and_eq_true, Bool.not_eq_true'] at hkind
    by_cases hseparates : symbol.separates = true
    · exact (step_separates hseparates h).within rfl
        (Nat.le_of_eq (reach_finishExpression scan.scope).symm)
    by_cases hoperates : symbol.operates = true
    · apply (step_operates hoperates h).within rfl
      unfold ScriptScope.reach
      dsimp only
      omega
    · have hplain : (TokenType.symbol symbol).isPlain = true := by
        simp [TokenType.isPlain, hkind, hseparates, hoperates]
      exact (step_plain hplain h).within rfl (Nat.le_refl _)
  | _ => exact (step_plain rfl h).within rfl (Nat.le_refl _)

theorem within_refl (scan : ScriptScan) : Within scan scan 0 where
  outer := rfl
  nesting := rfl
  reach := Nat.le_refl _
  depth := Nat.zero_le _

theorem scan_level {tokens : List TokenType} (htokens : ∀ kind ∈ tokens, kind.isLevel = true)
    {scan scan' : ScriptScan} (h : scanTokens tokens scan = .ok scan') : Within scan scan' 0 := by
  induction tokens generalizing scan with
  | nil =>
    rw [scanTokens_nil] at h
    exact h ▸ within_refl scan
  | cons kind tokens ih =>
    rw [scanTokens_cons] at h
    obtain ⟨next, hnext, h⟩ := h
    have hfirst := step_level (htokens kind List.mem_cons_self) hnext
    exact hfirst.trans (ih (fun later hlater => htokens later (List.mem_cons_of_mem kind hlater)) h)

theorem isLevel_repeated {tokens : List TokenType} (h : ∀ kind ∈ tokens, kind.isLevel = true)
    (count : Nat) : ∀ kind ∈ (List.replicate count tokens).flatten, kind.isLevel = true := by
  intro kind hkind
  obtain ⟨copy, hcopy, hkind⟩ := List.mem_flatten.1 hkind
  rw [List.eq_of_mem_replicate hcopy] at hkind
  exact h kind hkind

theorem isLevel_nameTokens (more : Nat) : ∀ kind ∈ nameTokens more, kind.isLevel = true := by
  intro kind hkind
  unfold nameTokens at hkind
  rw [List.mem_cons] at hkind
  rcases hkind with hkind | hkind
  · rw [hkind]
    rfl
  · exact isLevel_repeated (by decide) _ kind hkind

theorem isLevel_parameters (parameters : Parameters) :
    ∀ kind ∈ parameters.tokens, kind.isLevel = true := by
  cases parameters with
  | none => exact fun kind hkind => nomatch hkind
  | ellipsis => decide
  | names more varargs =>
    intro kind hkind
    unfold Parameters.tokens at hkind
    rw [List.mem_append] at hkind
    rcases hkind with hkind | hkind
    · exact isLevel_nameTokens more kind hkind
    · revert kind
      cases varargs <;> decide

theorem isLevel_functionName (members : Nat) (isMethod : Bool) :
    ∀ kind ∈ functionNameTokens members isMethod, kind.isLevel = true := by
  intro kind hkind
  unfold functionNameTokens at hkind
  rw [List.mem_cons, List.mem_append] at hkind
  rcases hkind with hkind | hkind | hkind
  · rw [hkind]
    rfl
  · exact isLevel_repeated (by decide) _ kind hkind
  · revert kind
    cases isMethod <;> decide

theorem isLevel_semicolon (semicolon : Bool) :
    ∀ kind ∈ semicolonTokens semicolon, kind.isLevel = true := by
  cases semicolon <;> decide

theorem isLevel_separator (semicolon : Bool) : (separatorToken semicolon).isLevel = true := by
  cases semicolon <;> rfl

/-! ## Brackets, blocks and functions -/

/-- A bracket in an expression. -/
theorem bracket_law {opening closing : Symbol}
    (hopening : opening ∈ [Symbol.leftParen, .leftBrace, .leftBracket])
    (hclosing : closing ∈ [Symbol.rightParen, .rightBrace, .rightBracket])
    {first second third last : ScriptScan} {depth : Nat}
    (hopen : stepToken (.symbol opening) first = .ok second) (h : Within second third depth)
    (hclose : stepToken (.symbol closing) third = .ok last) : RestLaw first last (depth + 1) := by
  have hopens : opening.opens = true := by
    revert hopening
    cases opening <;> decide
  have hcloses : closing.closes = true ∧ closing.endsExpression = true := by
    revert hclosing
    cases closing <;> decide
  have hround : ∀ scope, aroundOpened opening scope = scope := by
    intro scope
    apply if_neg
    revert hopening
    cases opening <;> decide
  have hafter : ∀ scope, afterClosed closing scope = scope := by
    intro scope
    apply if_neg
    revert hclosing
    cases closing <;> decide
  obtain ⟨scope, canEnd, _, hscope, hat⟩ := step_opens hopens hopen
  have hfunction : opening ≠ .functionWord := by
    intro heq
    rw [heq] at hopening
    exact absurd hopening (by decide)
  rw [hround, hscope hfunction] at hat
  have hlast := step_closes hcloses.1 hclose (h.outer.trans hat.outer)
  rw [hafter] at hlast
  have hnesting : 1 ≤ third.scope.nesting := by
    rw [h.nesting, hat.scope]
    exact one_le_nesting_new (some opening) canEnd
  refine ⟨hlast.outer, hlast.ends.trans hcloses.2, ?_⟩
  rw [hlast.scope]
  exact grows_enclose hnesting h.depth

/-- The end of a block: its depth goes to the scope around it. -/
theorem close_law {closing : Symbol} (hclosing : closing.closes = true) {scan last : ScriptScan}
    (h : stepToken (.symbol closing) scan = .ok last) {parent : ScriptScope}
    {outer : List ScriptScope} (houter : scan.outer = parent :: outer) :
    last.outer = outer ∧ last.scope.nesting = parent.nesting ∧ parent.reach ≤ last.scope.reach ∧
      scan.scope.reach + scan.scope.nesting ≤ last.scope.reach := by
  have hlast := step_closes hclosing h houter
  have henclose := reach_enclose parent scan.scope
  have hclosed := reach_afterClosed closing (parent.enclose scan.scope)
  rw [hlast.scope, hclosed.1, hclosed.2]
  exact ⟨hlast.outer, rfl, henclose.1, henclose.2⟩

/-- A block of a statement. -/
theorem block_law {opening closing : Symbol}
    (hopening : opening ∈ [Symbol.doWord, .thenWord, .repeatWord]) (hclosing : closing.closes = true)
    {first second third last : ScriptScan} {depth : Nat}
    (hopen : stepToken (.symbol opening) first = .ok second) (h : Within second third depth)
    (hclose : stepToken (.symbol closing) third = .ok last) : Within first last (depth + 1) := by
  have hopens : opening.opens = true := by
    revert hopening
    cases opening <;> decide
  have hfunction : opening ≠ .functionWord := by
    intro heq
    rw [heq] at hopening
    exact absurd hopening (by decide)
  obtain ⟨scope, canEnd, _, hscope, hat⟩ := step_opens hopens hopen
  have hround : aroundOpened opening scope = first.scope.finishExpression := by
    unfold aroundOpened
    rw [if_pos hopening, hscope hfunction]
  rw [hround] at hat
  obtain ⟨houter, hnest, hparent, hclosed⟩ := close_law hclosing hclose (h.outer.trans hat.outer)
  rw [reach_finishExpression] at hparent
  have hnesting : 1 ≤ third.scope.nesting := by
    rw [h.nesting, hat.scope]
    exact one_le_nesting_new (some opening) canEnd
  have hdepth := h.depth
  exact ⟨houter, hnest, hparent, by omega⟩

/-- A function from its word on, with what stands before its parameters. -/
theorem function_law {names : List TokenType} (hnames : ∀ kind ∈ names, kind.isLevel = true)
    {first second third last : ScriptScan} {depth : Nat}
    (hword : stepToken (.symbol .functionWord) first = .ok second)
    (h : scanTokens names second = .ok third) (hbody : BodyLaw third last depth) :
    ExpLaw first last depth := by
  obtain ⟨scope, canEnd, hstart, _, hat⟩ := step_opens (by decide) hword
  have hround : aroundOpened .functionWord scope = scope := if_neg (by decide)
  rw [hround] at hat
  have hwithin := scan_level hnames h
  have hnesting : 1 ≤ third.scope.nesting := by
    rw [hwithin.nesting, hat.scope]
    exact one_le_nesting_new (some .functionWord) canEnd
  obtain ⟨houter, hends, hgrows⟩ := hbody scope first.outer (hwithin.outer.trans hat.outer) hnesting
  exact ⟨houter, hends, scope, hstart, hgrows⟩

/-! ## The law of a tree -/

/-- A block after its condition, and the branches after it. -/
theorem then_law {first second third fourth last : ScriptScan} {condition block rest : Nat}
    (hcondition : Within first second condition)
    (hthen : stepToken (.symbol .thenWord) second = .ok third) (hblock : Within third fourth block)
    (hrest : BranchesLaw fourth last rest) :
    Within first last (max condition (max (block + 1) rest)) := by
  obtain ⟨scope, canEnd, _, hscope, hat⟩ := step_opens (by decide) hthen
  have hround : aroundOpened .thenWord scope = second.scope.finishExpression := by
    unfold aroundOpened
    rw [if_pos (by decide), hscope (by decide)]
  rw [hround] at hat
  have hnesting : 1 ≤ fourth.scope.nesting := by
    rw [hblock.nesting, hat.scope]
    exact one_le_nesting_new (some .thenWord) canEnd
  obtain ⟨houter, hnest, hparent, hclosed, hdepth⟩ :=
    hrest _ second.outer (hblock.outer.trans hat.outer) hnesting
  rw [reach_finishExpression] at hparent
  have hreach := hcondition.reach
  have hcond := hcondition.depth
  have hinner := hblock.depth
  constructor
  · exact houter.trans hcondition.outer
  · exact hnest.trans hcondition.nesting
  · omega
  · omega

/-- The three ways in which a conditional goes on after a block. -/
theorem endIf_law {first last : ScriptScan} (h : stepToken (.symbol .endWord) first = .ok last) :
    BranchesLaw first last 0 := by
  intro parent outer houter hnesting
  obtain ⟨hlast, hnest, hparent, hclosed⟩ := close_law (by decide) h houter
  exact ⟨hlast, hnest, hparent, by omega, Nat.zero_le _⟩

theorem elseBlock_law {first second third last : ScriptScan} {block : Nat}
    (helse : stepToken (.symbol .elseWord) first = .ok second) (hblock : Within second third block)
    (h : stepToken (.symbol .endWord) third = .ok last) : BranchesLaw first last (block + 1) := by
  intro parent outer houter hnesting
  have hwithin := (step_level rfl helse).trans hblock
  obtain ⟨hlast, hnest, hparent, hclosed⟩ := close_law (by decide) h (hwithin.outer.trans houter)
  have hthird := hwithin.nesting
  have hreach := hwithin.reach
  have hdepth := hblock.depth
  exact ⟨hlast, hnest, hparent, by omega, by omega⟩

theorem elseIf_law {first second last : ScriptScan} {depth : Nat}
    (helse : stepToken (.symbol .elseIfWord) first = .ok second) (h : Within second last depth) :
    BranchesLaw first last depth := by
  intro parent outer houter hnesting
  obtain ⟨hsecond, hnest, hparent, hclosed⟩ := close_law (by decide) helse houter
  have hreach := h.reach
  exact ⟨h.outer.trans hsecond, h.nesting.trans hnest, by omega, by omega, h.depth⟩

/-- The parameters and the block of a function. -/
theorem funcBody_law {names : List TokenType} (hnames : ∀ kind ∈ names, kind.isLevel = true)
    {first second third fourth fifth last : ScriptScan} {block : Nat}
    (hopen : stepToken (.symbol .leftParen) first = .ok second)
    (hparameters : scanTokens names second = .ok third)
    (hclose : stepToken (.symbol .rightParen) third = .ok fourth)
    (hblock : Within fourth fifth block) (hend : stepToken (.symbol .endWord) fifth = .ok last) :
    BodyLaw first last (block + 1) := by
  intro parent outer houter hnesting
  have hbracket := (bracket_law (by decide) (by decide) hopen (scan_level hnames hparameters)
    hclose).exp.within
  have hwithin := hbracket.trans hblock
  have hlast := step_closes (by decide) hend (hwithin.outer.trans houter)
  have hfifth : 1 ≤ fifth.scope.nesting := by
    rw [hwithin.nesting]
    exact hnesting
  refine ⟨hlast.outer, hlast.ends, ?_⟩
  rw [hlast.scope]
  exact grows_enclose hfifth hblock.depth

/-- An operator between two expressions, or before one. -/
theorem binary_law {operator : Symbol} (hoperator : operator.operates = true)
    {first second third last : ScriptScan} {left right : Nat} (hleft : ExpLaw first second left)
    (h : stepToken (.symbol operator) second = .ok third) (hright : ExpLaw third last right) :
    ExpLaw first last (max left right + 1) := by
  have hat := step_operates hoperator h
  obtain ⟨houter, _, scope, hstart, hgrows⟩ := hleft
  obtain ⟨houter', hends, hgrows'⟩ := hright.rest hat.ends
  rw [hat.scope] at hgrows'
  exact ⟨houter'.trans (hat.outer.trans houter), hends, scope, hstart, hgrows.operate hgrows'⟩

theorem unary_law {operator : Symbol} (hoperator : operator.operates = true)
    {first second last : ScriptScan} {operand : Nat}
    (h : stepToken (.symbol operator) first = .ok second) (hoperand : ExpLaw second last operand) :
    ExpLaw first last (operand + 1) := by
  have hat := step_operates hoperator h
  obtain ⟨houter, hends, hgrows⟩ := hoperand.rest hat.ends
  rw [hat.scope] at hgrows
  have hdepth := (Grows.refl first.scope).operate hgrows
  rw [Nat.zero_max] at hdepth
  exact ⟨houter.trans hat.outer, hends, first.scope, Or.inl rfl, hdepth⟩

/-- A dot or a colon and the name after it. -/
theorem member_law {first second last : ScriptScan}
    (hdot : stepToken (.symbol .other) first = .ok second)
    (hname : stepToken .identifier second = .ok last) : RestLaw first last 0 := by
  have hat := step_plain rfl hdot
  obtain ⟨scope, hstart, hlast⟩ := step_name hname
  have hscope : scope = first.scope := (hstart.eq hat.ends).trans hat.scope
  refine ⟨hlast.outer.trans hat.outer, hlast.ends, ?_⟩
  rw [hlast.scope, hscope]
  exact Grows.refl first.scope

theorem literal_law {kind : TokenType} (hkind : kind.isPlain = true)
    (hends : kind.endsExpression = true) {first last : ScriptScan}
    (h : stepToken kind first = .ok last) : RestLaw first last 0 := by
  have hat := step_plain hkind h
  refine ⟨hat.outer, hat.ends.trans hends, ?_⟩
  rw [hat.scope]
  exact Grows.refl first.scope

theorem name_law {first last : ScriptScan} (h : stepToken .identifier first = .ok last) :
    ExpLaw first last 0 := by
  obtain ⟨scope, hstart, hat⟩ := step_name h
  refine ⟨hat.outer, hat.ends, scope, hstart, ?_⟩
  rw [hat.scope]
  exact Grows.refl scope

/-- What the tokens of a tree do to the scopes. -/
theorem tree_law {kind : Nonterminal} (tree : Tree kind) {scan scan' : ScriptScan}
    (h : scanTokens tree.tokens scan = .ok scan') : Law kind scan scan' tree.depth := by
  induction tree generalizing scan scan' with
  | noStats =>
    rw [Tree.tokens, scanTokens_nil] at h
    exact h ▸ within_refl scan
  | stats stat semicolon rest ihstat ihrest =>
    simp only [Tree.tokens, scanTokens_append] at h
    obtain ⟨s₁, h₁, s₂, h₂, h₃⟩ := h
    have hend : Within s₁ s₂ 0 := scan_level (isLevel_semicolon semicolon) h₂
    have hstat : Within scan s₂ stat.depth := (ihstat h₁).pass hend
    exact hstat.trans (ihrest h₃)
  | last stat semicolon ih =>
    simp only [Tree.tokens, scanTokens_append] at h
    obtain ⟨s₁, h₁, h₂⟩ := h
    have hlast : Within scan scan' stat.depth :=
      (ih h₁).pass (scan_level (isLevel_semicolon semicolon) h₂)
    exact hlast
  | breakStat => exact scan_level (by decide) h
  | returnNone => exact scan_level (by decide) h
  | returnExps values ih =>
    simp only [Tree.tokens, scanTokens_cons] at h
    obtain ⟨s₁, h₁, h₂⟩ := h
    have hvalues : Within scan scan' values.depth := (step_level rfl h₁).skip (ih h₂)
    exact hvalues
  | assign targets values ihtargets ihvalues =>
    simp only [Tree.tokens, scanTokens_append, scanTokens_cons] at h
    obtain ⟨s₁, h₁, s₂, h₂, h₃⟩ := h
    have htargets : Within scan s₂ targets.depth := (ihtargets h₁).pass (step_level rfl h₂)
    exact htargets.trans (ihvalues h₃)
  | callStat call ih => exact ExpLaw.within (ih h)
  | doBlock block ih =>
    simp only [Tree.tokens, scanTokens_append, scanTokens_cons, scanTokens_nil] at h
    obtain ⟨s₁, h₁, s₂, h₂, s₃, h₃, heq⟩ := h
    rw [← heq]
    exact block_law (by decide) (by decide) h₁ (ih h₂) h₃
  | whileLoop condition block ihcondition ihblock =>
    simp only [Tree.tokens, scanTokens_append, scanTokens_cons, scanTokens_nil] at h
    obtain ⟨s₁, h₁, s₂, h₂, s₃, h₃, s₄, h₄, s₅, h₅, heq⟩ := h
    rw [← heq]
    have hcondition : Within scan s₂ condition.depth :=
      (step_level rfl h₁).skip (ExpLaw.within (ihcondition h₂))
    exact hcondition.trans (block_law (by decide) (by decide) h₃ (ihblock h₄) h₅)
  | repeatLoop block condition ihblock ihcondition =>
    simp only [Tree.tokens, scanTokens_append, scanTokens_cons] at h
    obtain ⟨s₁, h₁, s₂, h₂, s₃, h₃, h₄⟩ := h
    have hblock := block_law (by decide) (by decide) h₁ (ihblock h₂) h₃
    exact hblock.trans (ExpLaw.within (ihcondition h₄))
  | conditional condition block rest ihcondition ihblock ihrest =>
    simp only [Tree.tokens, scanTokens_append, scanTokens_cons] at h
    obtain ⟨s₁, h₁, s₂, h₂, s₃, h₃, s₄, h₄, h₅⟩ := h
    have hcondition : Within scan s₂ condition.depth :=
      (step_level rfl h₁).skip (ExpLaw.within (ihcondition h₂))
    exact then_law hcondition h₃ (ihblock h₄) (ihrest h₅)
  | numericFor start limit block ihstart ihlimit ihblock =>
    simp only [Tree.tokens, scanTokens_append, scanTokens_cons, scanTokens_nil] at h
    obtain ⟨s₁, h₁, s₂, h₂, s₃, h₃, s₄, h₄, s₅, h₅, s₆, h₆, s₇, h₇, s₈, h₈, s₉, h₉, heq⟩ := h
    rw [← heq]
    have hbegin := (step_level rfl h₁).skip ((step_level rfl h₂).skip (step_level rfl h₃))
    have hstart := hbegin.skip (ExpLaw.within (ihstart h₄))
    have hlimit := (step_level rfl h₅).skip (ExpLaw.within (ihlimit h₆))
    have hblock := block_law (by decide) (by decide) h₇ (ihblock h₈) h₉
    exact hstart.trans (hlimit.trans hblock)
  | steppedFor start limit step block ihstart ihlimit ihstep ihblock =>
    simp only [Tree.tokens, scanTokens_append, scanTokens_cons, scanTokens_nil] at h
    obtain ⟨s₁, h₁, s₂, h₂, s₃, h₃, s₄, h₄, s₅, h₅, s₆, h₆, s₇, h₇, s₈, h₈, s₉, h₉, t, ht, u, hu,
      heq⟩ := h
    rw [← heq]
    have hbegin := (step_level rfl h₁).skip ((step_level rfl h₂).skip (step_level rfl h₃))
    have hstart := hbegin.skip (ExpLaw.within (ihstart h₄))
    have hlimit := (step_level rfl h₅).skip (ExpLaw.within (ihlimit h₆))
    have hstep := (step_level rfl h₇).skip (ExpLaw.within (ihstep h₈))
    have hblock := block_law (by decide) (by decide) h₉ (ihblock ht) hu
    exact hstart.trans (hlimit.trans (hstep.trans hblock))
  | genericFor more values block ihvalues ihblock =>
    simp only [Tree.tokens, scanTokens_append, scanTokens_cons, scanTokens_nil] at h
    obtain ⟨s₁, h₁, s₂, h₂, s₃, h₃, s₄, h₄, s₅, h₅, s₆, h₆, s₇, h₇, heq⟩ := h
    rw [← heq]
    have hbegin := (step_level rfl h₁).skip ((scan_level (isLevel_nameTokens more) h₂).skip
      (step_level rfl h₃))
    have hvalues : Within s₃ s₄ values.depth := ihvalues h₄
    have hblock := block_law (by decide) (by decide) h₅ (ihblock h₆) h₇
    exact hbegin.skip (hvalues.trans hblock)
  | functionStat members isMethod body ih =>
    simp only [Tree.tokens, scanTokens_append, scanTokens_cons] at h
    obtain ⟨s₁, h₁, s₂, h₂, h₃⟩ := h
    exact (function_law (isLevel_functionName members isMethod) h₁ h₂ (ih h₃)).within
  | localFunction body ih =>
    simp only [Tree.tokens, scanTokens_cons] at h
    obtain ⟨s₁, h₁, s₂, h₂, s₃, h₃, h₄⟩ := h
    have hname : scanTokens [.identifier] s₂ = .ok s₃ := scanTokens_cons.2 ⟨s₃, h₃, rfl⟩
    have hfunction := (function_law (by decide) h₂ hname (ih h₄)).within
    have hlocal : Within scan scan' body.depth := (step_level rfl h₁).skip hfunction
    exact hlocal
  | localNames more =>
    simp only [Tree.tokens, scanTokens_cons] at h
    obtain ⟨s₁, h₁, h₂⟩ := h
    exact (step_level rfl h₁).skip (scan_level (isLevel_nameTokens more) h₂)
  | localValues more values ih =>
    simp only [Tree.tokens, scanTokens_append, scanTokens_cons] at h
    obtain ⟨s₁, h₁, s₂, h₂, s₃, h₃, h₄⟩ := h
    have hbegin := (step_level rfl h₁).skip ((scan_level (isLevel_nameTokens more) h₂).skip
      (step_level rfl h₃))
    exact hbegin.skip (ih h₄)
  | endIf =>
    simp only [Tree.tokens, scanTokens_cons, scanTokens_nil] at h
    obtain ⟨s₁, h₁, heq⟩ := h
    rw [← heq]
    exact endIf_law h₁
  | elseBlock block ih =>
    simp only [Tree.tokens, scanTokens_append, scanTokens_cons, scanTokens_nil] at h
    obtain ⟨s₁, h₁, s₂, h₂, s₃, h₃, heq⟩ := h
    rw [← heq]
    exact elseBlock_law h₁ (ih h₂) h₃
  | elseIf condition block rest ihcondition ihblock ihrest =>
    simp only [Tree.tokens, scanTokens_append, scanTokens_cons] at h
    obtain ⟨s₁, h₁, s₂, h₂, s₃, h₃, s₄, h₄, h₅⟩ := h
    exact elseIf_law h₁ (then_law (ExpLaw.within (ihcondition h₂)) h₃ (ihblock h₄) (ihrest h₅))
  | oneVar var ih => exact ExpLaw.within (ih h)
  | moreVars var rest ihvar ihrest =>
    simp only [Tree.tokens, scanTokens_append, scanTokens_cons] at h
    obtain ⟨s₁, h₁, s₂, h₂, h₃⟩ := h
    have hvar : Within scan s₂ var.depth :=
      (ExpLaw.within (ihvar h₁)).pass (step_level rfl h₂)
    exact hvar.trans (ihrest h₃)
  | oneExp exp ih => exact ExpLaw.within (ih h)
  | moreExps exp rest ihexp ihrest =>
    simp only [Tree.tokens, scanTokens_append, scanTokens_cons] at h
    obtain ⟨s₁, h₁, s₂, h₂, h₃⟩ := h
    have hexp : Within scan s₂ exp.depth :=
      (ExpLaw.within (ihexp h₁)).pass (step_level rfl h₂)
    exact hexp.trans (ihrest h₃)
  | literal value =>
    simp only [Tree.tokens, scanTokens_cons, scanTokens_nil] at h
    obtain ⟨s₁, h₁, heq⟩ := h
    rw [← heq]
    exact (literal_law (by cases value <;> rfl) (by cases value <;> rfl) h₁).exp
  | function body ih =>
    simp only [Tree.tokens, scanTokens_cons] at h
    obtain ⟨s₁, h₁, h₂⟩ := h
    exact function_law (List.forall_mem_nil _) h₁ (scanTokens_nil.2 rfl) (ih h₂)
  | primaryExp primary ih => exact ih h
  | tableExp constructed ih => exact RestLaw.exp (ih h)
  | binary left operator right ihleft ihright =>
    simp only [Tree.tokens, scanTokens_append, scanTokens_cons] at h
    obtain ⟨s₁, h₁, s₂, h₂, h₃⟩ := h
    exact binary_law (by cases operator <;> rfl) (ihleft h₁) h₂ (ihright h₃)
  | unary operator operand ih =>
    simp only [Tree.tokens, scanTokens_cons] at h
    obtain ⟨s₁, h₁, h₂⟩ := h
    exact unary_law (by cases operator <;> rfl) h₁ (ih h₂)
  | primaryVar var ih => exact ih h
  | primaryCall call ih => exact ih h
  | group exp ih =>
    simp only [Tree.tokens, scanTokens_append, scanTokens_cons, scanTokens_nil] at h
    obtain ⟨s₁, h₁, s₂, h₂, s₃, h₃, heq⟩ := h
    rw [← heq]
    exact (bracket_law (by decide) (by decide) h₁ (ExpLaw.within (ih h₂)) h₃).exp
  | name =>
    simp only [Tree.tokens, scanTokens_cons, scanTokens_nil] at h
    obtain ⟨s₁, h₁, heq⟩ := h
    rw [← heq]
    exact name_law h₁
  | index of key ihof ihkey =>
    simp only [Tree.tokens, scanTokens_append, scanTokens_cons, scanTokens_nil] at h
    obtain ⟨s₁, h₁, s₂, h₂, s₃, h₃, s₄, h₄, heq⟩ := h
    rw [← heq]
    have hof : ExpLaw scan s₁ of.depth := ihof h₁
    exact hof.extend (bracket_law (by decide) (by decide) h₂ (ExpLaw.within (ihkey h₃)) h₄)
  | member of ih =>
    simp only [Tree.tokens, scanTokens_append, scanTokens_cons, scanTokens_nil] at h
    obtain ⟨s₁, h₁, s₂, h₂, s₃, h₃, heq⟩ := h
    rw [← heq]
    have hof : ExpLaw scan s₁ of.depth := ih h₁
    have hmember := hof.extend (member_law h₂ h₃)
    rw [Nat.max_zero] at hmember
    exact hmember
  | apply of args ihof ihargs =>
    rw [Tree.tokens, scanTokens_append] at h
    obtain ⟨s₁, h₁, h₂⟩ := h
    have hof : ExpLaw scan s₁ of.depth := ihof h₁
    exact hof.extend (ihargs h₂)
  | method of args ihof ihargs =>
    simp only [Tree.tokens, scanTokens_append, scanTokens_cons] at h
    obtain ⟨s₁, h₁, s₂, h₂, s₃, h₃, h₄⟩ := h
    have hof : ExpLaw scan s₁ of.depth := ihof h₁
    have hmember := hof.extend (member_law h₂ h₃)
    rw [Nat.max_zero] at hmember
    exact hmember.extend (ihargs h₄)
  | noArgs =>
    simp only [Tree.tokens, scanTokens_cons, scanTokens_nil] at h
    obtain ⟨s₁, h₁, s₂, h₂, heq⟩ := h
    rw [← heq]
    exact bracket_law (by decide) (by decide) h₁ (within_refl s₁) h₂
  | someArgs values ih =>
    simp only [Tree.tokens, scanTokens_append, scanTokens_cons, scanTokens_nil] at h
    obtain ⟨s₁, h₁, s₂, h₂, s₃, h₃, heq⟩ := h
    rw [← heq]
    exact bracket_law (by decide) (by decide) h₁ (ih h₂) h₃
  | tableArg constructed ih => exact ih h
  | stringArg quoteType =>
    simp only [Tree.tokens, scanTokens_cons, scanTokens_nil] at h
    obtain ⟨s₁, h₁, heq⟩ := h
    rw [← heq]
    exact literal_law rfl rfl h₁
  | table fields ih =>
    simp only [Tree.tokens, scanTokens_append, scanTokens_cons, scanTokens_nil] at h
    obtain ⟨s₁, h₁, s₂, h₂, s₃, h₃, heq⟩ := h
    rw [← heq]
    exact bracket_law (by decide) (by decide) h₁ (ih h₂) h₃
  | noFields =>
    rw [Tree.tokens, scanTokens_nil] at h
    exact h ▸ within_refl scan
  | lastField field ih => exact ih h
  | moreFields field semicolon rest ihfield ihrest =>
    simp only [Tree.tokens, scanTokens_append, scanTokens_cons] at h
    obtain ⟨s₁, h₁, s₂, h₂, h₃⟩ := h
    have hfield : Within scan s₂ field.depth :=
      (ihfield h₁).pass (step_level (isLevel_separator semicolon) h₂)
    exact hfield.trans (ihrest h₃)
  | keyed key value ihkey ihvalue =>
    simp only [Tree.tokens, scanTokens_append, scanTokens_cons] at h
    obtain ⟨s₁, h₁, s₂, h₂, s₃, h₃, s₄, h₄, h₅⟩ := h
    have hkey := (bracket_law (by decide) (by decide) h₁ (ExpLaw.within (ihkey h₂)) h₃).exp.within
    have hequal : Within scan s₄ (key.depth + 1) := hkey.pass (step_level rfl h₄)
    exact hequal.trans (ExpLaw.within (ihvalue h₅))
  | named value ih =>
    simp only [Tree.tokens, scanTokens_cons] at h
    obtain ⟨s₁, h₁, s₂, h₂, h₃⟩ := h
    have hname := (step_level rfl h₁).skip (step_level rfl h₂)
    exact hname.skip (ExpLaw.within (ih h₃))
  | item value ih => exact ExpLaw.within (ih h)
  | funcBody parameters block ih =>
    simp only [Tree.tokens, scanTokens_append, scanTokens_cons, scanTokens_nil] at h
    obtain ⟨s₁, h₁, s₂, h₂, s₃, h₃, s₄, h₄, s₅, h₅, heq⟩ := h
    rw [← heq]
    exact funcBody_law (isLevel_parameters parameters) h₁ h₂ h₃ (ih h₄) h₅

/-! ## The bound -/

/-- The scan before the first token. -/
def initialScan : ScriptScan := ⟨ScriptScope.new none false, [], false, 0⟩

/-- A scope within the limit, which counts for one level at least. -/
def ScriptScope.Sound (scope : ScriptScope) : Prop :=
  scope.reach ≤ maxNesting ∧ 1 ≤ scope.nesting

theorem ScriptScope.Sound.finish {scope : ScriptScope} (h : scope.Sound) :
    scope.finishExpression.Sound :=
  ⟨(reach_finishExpression scope).symm ▸ h.1, h.2⟩

/-- The open scopes are within the limit. -/
structure Sound (scan : ScriptScan) : Prop where
  scope : scan.scope.Sound
  outer : ∀ scope ∈ scan.outer, scope.Sound

theorem sound_initialScan : Sound initialScan where
  scope := ⟨by decide, Nat.le_refl 1⟩
  outer := List.forall_mem_nil _

/-- What a token does to the scopes that are open: it leaves them open and takes
no depth away, or opens one more, or closes the innermost one, where its
symbol belongs to the opening one and its depth goes to the one around it. -/
inductive Accounts (kind : TokenType) (scan scan' : ScriptScan) : Prop where
  | level (houter : scan'.outer = scan.outer)
      (hopening : scan'.scope.opening = scan.scope.opening)
      (hreach : scan.scope.reach ≤ scan'.scope.reach)
  | opens (symbol : Symbol) (parent : ScriptScope) (hkind : kind = .symbol symbol)
      (houter : scan'.outer = parent :: scan.outer) (hparent : parent.opening = scan.scope.opening)
      (hreach : parent.reach = scan.scope.reach) (hopening : scan'.scope.opening = some symbol)
  | closes (symbol opening : Symbol) (parent : ScriptScope) (hkind : kind = .symbol symbol)
      (hopening : scan.scope.opening = some opening) (hpairs : opening.pairs symbol = true)
      (houter : scan.outer = parent :: scan'.outer) (hparent : parent.opening = scan'.scope.opening)
      (hreach : max parent.reach (scan.scope.reach + 1) ≤ scan'.scope.reach)

theorem beginToken_sound {kind : TokenType} {scan : ScriptScan} (h : Sound scan) :
    Sound (beginToken kind scan) where
  scope := by
    rcases start_beginToken kind scan with hscope | hscope
    · exact hscope ▸ h.scope
    · exact hscope.2 ▸ h.scope.finish
  outer := h.outer

theorem opening_beginToken (kind : TokenType) (scan : ScriptScan) :
    (beginToken kind scan).scope.opening = scan.scope.opening := by
  rcases start_beginToken kind scan with hscope | hscope
  · rw [hscope]
  · rw [hscope.2]
    rfl

theorem reach_aroundOpened (symbol : Symbol) (scope : ScriptScope) :
    (aroundOpened symbol scope).reach = scope.reach ∧
      (aroundOpened symbol scope).nesting = scope.nesting ∧
      (aroundOpened symbol scope).opening = scope.opening := by
  unfold aroundOpened
  split_ifs
  · exact ⟨reach_finishExpression scope, rfl, rfl⟩
  · exact ⟨rfl, rfl, rfl⟩

theorem opening_afterClosed (symbol : Symbol) (scope : ScriptScope) :
    (afterClosed symbol scope).opening = scope.opening := by
  unfold afterClosed
  split_ifs <;> rfl

/-- A symbol keeps the scopes within the limit and accounts for them. -/
theorem sound_of_symbol {symbol : Symbol} {scan scan' : ScriptScan} (h : Sound scan)
    (hstep : SymbolStep symbol scan scan') :
    Sound scan' ∧ Accounts (.symbol symbol) scan scan' := by
  cases hstep with
  | opens hsymbol hdepth =>
    obtain ⟨hreach, hnesting, hopening⟩ := reach_aroundOpened symbol scan.scope
    refine ⟨⟨⟨Nat.zero_le maxNesting, one_le_nesting_new _ _⟩, ?_⟩, ?_⟩
    · show ∀ scope ∈ aroundOpened symbol scan.scope :: scan.outer, scope.Sound
      rw [List.forall_mem_cons]
      refine ⟨⟨?_, ?_⟩, h.outer⟩
      · rw [hreach]
        exact h.scope.1
      · rw [hnesting]
        exact h.scope.2
    · exact .opens symbol (aroundOpened symbol scan.scope) rfl rfl hopening hreach rfl
  | closes parent outer opening hsymbol houter hopening hpairs hdepth =>
    have hscopes := h.outer
    rw [houter] at hscopes
    obtain ⟨hparent, hrest⟩ := List.forall_mem_cons.1 hscopes
    obtain ⟨hclosed, hnesting⟩ := reach_afterClosed symbol (parent.enclose scan.scope)
    obtain ⟨henclose, hscope⟩ := reach_enclose parent scan.scope
    have hone := h.scope.2
    have hlimit : (parent.enclose scan.scope).reach ≤ maxNesting := by
      have hmax : (parent.enclose scan.scope).maxDepth ≤ parent.reach := Nat.le_max_left _ _
      exact max_le (hmax.trans hparent.1) hdepth
    refine ⟨⟨⟨?_, ?_⟩, hrest⟩, ?_⟩
    · show (afterClosed symbol (parent.enclose scan.scope)).reach ≤ maxNesting
      rw [hclosed]
      exact hlimit
    · show 1 ≤ (afterClosed symbol (parent.enclose scan.scope)).nesting
      rw [hnesting]
      exact hparent.2
    · refine .closes symbol opening parent rfl hopening hpairs houter ?_ ?_
      · show parent.opening = (afterClosed symbol (parent.enclose scan.scope)).opening
        rw [opening_afterClosed]
        rfl
      · show _ ≤ (afterClosed symbol (parent.enclose scan.scope)).reach
        rw [hclosed]
        omega
  | separates =>
    refine ⟨⟨h.scope.finish, h.outer⟩, .level rfl rfl ?_⟩
    exact Nat.le_of_eq (reach_finishExpression scan.scope).symm
  | operates hsymbol hdepth =>
    have hmax : scan.scope.maxDepth ≤ scan.scope.reach := Nat.le_max_left _ _
    refine ⟨⟨⟨max_le (hmax.trans h.scope.1) hdepth, h.scope.2⟩, h.outer⟩, .level rfl rfl ?_⟩
    unfold ScriptScope.reach
    dsimp only
    omega
  | other => exact ⟨h, .level rfl rfl (Nat.le_refl _)⟩

/-- One step keeps the scopes within the limit and accounts for them. -/
theorem sound_of_step {kind : TokenType} {scan scan' : ScriptScan} (h : Sound scan)
    (hstep : stepToken kind scan = .ok scan') : Sound scan' ∧ Accounts kind scan scan' := by
  have hbegin : Sound (beginToken kind scan) := beginToken_sound h
  have hopening := opening_beginToken kind scan
  have hreach := (start_beginToken kind scan).reach.1
  simp only [stepToken, bind_eq_ok, pure_eq_ok, Except.ok.injEq] at hstep
  obtain ⟨_, _, next, hnext, heq⟩ := hstep
  subst heq
  have hlevel (heq : beginToken kind scan = next) :
      Sound { next with canEndExpression := kind.endsExpression } ∧
        Accounts kind scan { next with canEndExpression := kind.endsExpression } := by
    subst heq
    exact ⟨⟨hbegin.scope, hbegin.outer⟩, .level rfl hopening (Nat.le_of_eq hreach.symm)⟩
  cases kind with
  | symbol symbol =>
    obtain ⟨hsound, haccounts⟩ := sound_of_symbol hbegin (step_of_scanSymbol hnext)
    refine ⟨⟨hsound.scope, hsound.outer⟩, ?_⟩
    cases haccounts with
    | level houter hopening' hreach' =>
      exact .level houter (hopening'.trans hopening) (hreach ▸ hreach')
    | opens found parent hkind houter hparent hreach' hopening' =>
      exact .opens found parent hkind houter (hparent.trans hopening) (hreach'.trans hreach)
        hopening'
    | closes found opening parent hkind hopening' hpairs houter hparent hreach' =>
      rw [hreach] at hreach'
      exact .closes found opening parent hkind (hopening.symm.trans hopening') hpairs houter hparent
        hreach'
  | _ => exact hlevel (Except.ok.inj hnext)

/-- All scopes of a run are within the limit. -/
theorem sound_of_scan {tokens : List TokenType} {scan scan' : ScriptScan} (h : Sound scan)
    (hscan : scanTokens tokens scan = .ok scan') : Sound scan' := by
  induction tokens generalizing scan with
  | nil =>
    rw [scanTokens_nil] at hscan
    exact hscan ▸ h
  | cons kind tokens ih =>
    rw [scanTokens_cons] at hscan
    obtain ⟨next, hnext, hscan⟩ := hscan
    exact ih (sound_of_step h hnext).1 hscan

/-- The nesting in the tree of a chunk that the check accepts is within the
limit, and every token of a run accounts for the scopes that are open. -/
theorem script_depth_sound :
    (∀ chunk : Tree .block,
      (scanScript ((chunk.tokens ++ [TokenType.eof]).map some) initialScan).Succeeds →
        chunk.depth ≤ maxNesting) ∧
    ∀ before kind scan scan', scanTokens before initialScan = .ok scan →
      stepToken kind scan = .ok scan' → Accounts kind scan scan' := by
  constructor
  · intro chunk h
    obtain ⟨_, h⟩ := h
    rw [scanScript_map, bind_eq_ok] at h
    obtain ⟨last, hscan, _⟩ := h
    rw [scanTokens_append] at hscan
    obtain ⟨next, hchunk, _⟩ := hscan
    have hwithin : Within initialScan next chunk.depth := tree_law chunk hchunk
    exact hwithin.depth.trans (sound_of_scan sound_initialScan hchunk).scope.1
  · intro before kind scan scan' hbefore hstep
    exact (sound_of_step (sound_of_scan sound_initialScan hbefore) hstep).2

/-- The chunk `x = -f(1)`, and its first token. -/
theorem script_depth_sound_sample :
    (Tree.stats (.assign (.oneVar .name) (.oneExp (.unary .minus (.primaryExp (.primaryCall
      (.apply (.primaryVar .name) (.someArgs (.oneExp (.literal .number))))))))) false
        .noStats).depth ≤ maxNesting ∧
    Accounts .identifier initialScan { initialScan with canEndExpression := true, tokens := 1 } :=
  ⟨script_depth_sound.1 _ ⟨(), rfl⟩, script_depth_sound.2 [] _ _ _ rfl rfl⟩

end DstServer.Lua
