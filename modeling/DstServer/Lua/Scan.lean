import DstServer.Lua.Syntax

/-!
# The scan of a script

One step of `scanScript`, and what every step does: it counts its token, and
there is a limit to that.
-/

namespace DstServer.Lua

open Lib Outcome

/-- The scan at a token, before what the token does to the scopes: a token
that starts another statement finishes the expression. -/
def beginToken (kind : TokenType) (scan : ScriptScan) : ScriptScan :=
  { scan with
    scope := if scan.canEndExpression && decide (kind ∈ [.identifier, .symbol .functionWord]) then
        scan.scope.finishExpression
      else scan.scope
    tokens := scan.tokens + 1 }

/-- What a token does to the scopes. -/
def scanToken (kind : TokenType) (scan : ScriptScan) : Outcome String ScriptScan :=
  match kind with
  | .symbol symbol => scanSymbol symbol scan
  | _ => .ok scan

/-- The body of the loop of `scanScript`. -/
def stepToken (kind : TokenType) (scan : ScriptScan) : Outcome String ScriptScan := do
  ensure (scan.tokens + 1 ≤ maxTokens) "Lua source exceeds the token limit"
  let next ← scanToken kind (beginToken kind scan)
  pure { next with canEndExpression := kind.endsExpression }

theorem scanScript_cons (kind : TokenType) (rest : List (Option TokenType)) (scan : ScriptScan) :
    scanScript (some kind :: rest) scan = stepToken kind scan >>= scanScript rest := by
  rw [scanScript, stepToken]
  unfold ensure
  split_ifs with hcount
  · cases kind with
    | symbol symbol =>
      show (scanSymbol symbol _ >>= _) = ((scanSymbol symbol _ >>= _) >>= _)
      rw [bind_assoc]
      rfl
    | _ => rfl
  · rfl

/-- The scope around one that a symbol opens: a block finishes the expression
before it. -/
def aroundOpened (symbol : Symbol) (scope : ScriptScope) : ScriptScope :=
  if symbol ∈ [Symbol.doWord, .thenWord, .repeatWord] then scope.finishExpression else scope

/-- A parent with the depth of a scope that was closed in it. -/
def ScriptScope.enclose (parent scope : ScriptScope) : ScriptScope :=
  { parent with
    nestedDepth := max parent.nestedDepth (scope.finishExpression.maxDepth + scope.nesting) }

/-- The parent of a closed scope: after a condition or at the next branch it
finishes its expression. -/
def afterClosed (symbol : Symbol) (parent : ScriptScope) : ScriptScope :=
  if symbol ∈ [Symbol.elseIfWord, .untilWord] then parent.finishExpression else parent

/-- All that a symbol can do to the scopes. -/
inductive SymbolStep (symbol : Symbol) (scan : ScriptScan) : ScriptScan → Prop where
  | opens (hsymbol : symbol.opens = true) (hdepth : scan.outer.length + 2 ≤ maxNesting + 1) :
      SymbolStep symbol scan { scan with
        scope := ScriptScope.new (some symbol) scan.canEndExpression
        outer := aroundOpened symbol scan.scope :: scan.outer }
  | closes (parent : ScriptScope) (outer : List ScriptScope) (opening : Symbol)
      (hsymbol : symbol.closes = true) (houter : scan.outer = parent :: outer)
      (hopening : scan.scope.opening = some opening) (hpairs : opening.pairs symbol = true)
      (hdepth : parent.operators + (parent.enclose scan.scope).nestedDepth ≤ maxNesting) :
      SymbolStep symbol scan { scan with
        scope := afterClosed symbol (parent.enclose scan.scope)
        outer := outer }
  | separates (hsymbol : symbol.separates = true) :
      SymbolStep symbol scan { scan with scope := scan.scope.finishExpression }
  | operates (hsymbol : symbol.operates = true)
      (hdepth : scan.scope.operators + 1 + scan.scope.nestedDepth ≤ maxNesting) :
      SymbolStep symbol scan { scan with
        scope := { scan.scope with operators := scan.scope.operators + 1 } }
  | other (hopens : symbol.opens = false) (hcloses : symbol.closes = false)
      (hseparates : symbol.separates = false) (hoperates : symbol.operates = false) :
      SymbolStep symbol scan scan

theorem step_of_scanSymbol {symbol : Symbol} {scan scan' : ScriptScan}
    (h : scanSymbol symbol scan = .ok scan') : SymbolStep symbol scan scan' := by
  unfold scanSymbol at h
  by_cases hopens : symbol.opens = true
  · simp only [if_pos hopens, bind_eq_ok, ensure_eq_ok, pure_eq_ok, Except.ok.injEq] at h
    obtain ⟨_, hdepth, heq⟩ := h
    subst heq
    exact .opens hopens hdepth
  simp only [if_neg hopens] at h
  by_cases hcloses : symbol.closes = true
  · simp only [if_pos hcloses] at h
    cases houter : scan.outer with
    | nil =>
      rw [houter] at h
      cases h
    | cons parent outer =>
      rw [houter] at h
      simp only [bind_eq_ok, ensure_eq_ok, pure_eq_ok, Except.ok.injEq] at h
      obtain ⟨_, hpairs, _, hdepth, heq⟩ := h
      subst heq
      cases hopening : scan.scope.opening with
      | none =>
        rw [hopening] at hpairs
        cases hpairs
      | some opening =>
        rw [hopening] at hpairs
        exact .closes parent outer opening hcloses houter hopening hpairs hdepth
  simp only [if_neg hcloses] at h
  by_cases hseparates : symbol.separates = true
  · rw [if_pos hseparates] at h
    cases h
    exact .separates hseparates
  rw [if_neg hseparates] at h
  by_cases hoperates : symbol.operates = true
  · simp only [if_pos hoperates, bind_eq_ok, ensure_eq_ok, pure_eq_ok, Except.ok.injEq] at h
    obtain ⟨_, hdepth, heq⟩ := h
    subst heq
    exact .operates hoperates hdepth
  rw [if_neg hoperates] at h
  cases h
  exact .other (Bool.of_not_eq_true hopens) (Bool.of_not_eq_true hcloses)
    (Bool.of_not_eq_true hseparates) (Bool.of_not_eq_true hoperates)

/-- A symbol leaves the count of the tokens as it is. -/
theorem tokens_of_scanSymbol {symbol : Symbol} {scan scan' : ScriptScan}
    (h : scanSymbol symbol scan = .ok scan') : scan'.tokens = scan.tokens := by
  cases step_of_scanSymbol h <;> rfl

theorem tokens_of_stepToken {kind : TokenType} {scan scan' : ScriptScan}
    (h : stepToken kind scan = .ok scan') :
    scan'.tokens = scan.tokens + 1 ∧ scan'.tokens ≤ maxTokens := by
  simp only [stepToken, bind_eq_ok, ensure_eq_ok, pure_eq_ok, Except.ok.injEq] at h
  obtain ⟨_, hcount, next, hnext, heq⟩ := h
  have htokens : next.tokens = scan.tokens + 1 := by
    cases kind with
    | symbol symbol => exact tokens_of_scanSymbol hnext
    | _ =>
      cases hnext
      rfl
  rw [← heq]
  exact ⟨htokens, htokens ▸ hcount⟩

/-- A script with too many tokens is refused, whatever they are. -/
theorem tokens_le_of_scanScript {tokens : List (Option TokenType)} {scan : ScriptScan}
    (h : (scanScript tokens scan).Succeeds) (hscan : scan.tokens ≤ maxTokens) :
    scan.tokens + tokens.length ≤ maxTokens := by
  induction tokens generalizing scan with
  | nil => exact hscan
  | cons token tokens ih =>
    obtain ⟨_, h⟩ := h
    cases token with
    | none => cases h
    | some kind =>
      rw [scanScript_cons, bind_eq_ok] at h
      obtain ⟨next, hnext, h⟩ := h
      obtain ⟨htokens, hcount⟩ := tokens_of_stepToken hnext
      have hrest := ih ⟨_, h⟩ hcount
      rw [List.length_cons]
      omega

end DstServer.Lua
