import DstServer.Lib.Outcome
import DstServer.Lib.Text

/-!
# Reading Lua source

The model of the first half of `lua.rs`: `parse` checks a source and its
tokens and hands it to the Lua parser.

The parser and its lexer are those of the `full_moon` library (`Reader`).
An `Expression` is its syntax tree as far as `lua.rs` looks at it.
-/

namespace DstServer.Lua

open Lib Outcome

def maxSourceBytes : Nat := 1024 * 1024

def maxNesting : Nat := 64

def maxTokens : Nat := 65536

/-- The symbols of Lua 5.1; the reserved words are marked as such.  `binary`
is a binary operator other than the minus. -/
inductive Symbol where
  | leftBrace
  | rightBrace
  | leftBracket
  | rightBracket
  | leftParen
  | rightParen
  | equal
  | comma
  | semicolon
  | minus
  | binary
  | hash
  | notWord
  | trueWord
  | falseWord
  | nilWord
  | ellipsis
  | returnWord
  | breakWord
  | localWord
  | functionWord
  | doWord
  | thenWord
  | endWord
  | ifWord
  | elseIfWord
  | elseWord
  | whileWord
  | forWord
  | repeatWord
  | untilWord
  | other
  deriving DecidableEq, Repr

inductive StringLiteralQuoteType where
  | single
  | double
  | brackets
  deriving DecidableEq, Repr

inductive TokenType where
  | identifier
  | number
  | stringLiteral (quoteType : StringLiteralQuoteType)
  | symbol (symbol : Symbol)
  | eof
  | other
  deriving DecidableEq, Repr

/-- The key of a field of a table. -/
inductive Key where
  /-- `NoKey`. -/
  | absent
  /-- `NameKey`. -/
  | name (identifier : Text)
  /-- `ExpressionKey` with a string, a number or another expression. -/
  | string (quoteType : StringLiteralQuoteType) (literal : Text)
  | number (text : Text)
  | expression
  /-- Another kind of field. -/
  | other
  deriving DecidableEq, Repr

inductive Expression where
  | string (quoteType : StringLiteralQuoteType) (literal : Text)
  | number (text : Text)
  | minus (expression : Expression)
  | symbol (symbol : Symbol)
  | tableConstructor (fields : List (Key × Expression))
  | other

/-- A block: its statements before the last one, and what it returns. -/
structure Ast where
  stmts : Nat
  returns : Option (List Expression)
  /-- `Ast::to_string`. -/
  text : Text

/-- The lexer and the parser of `full_moon` for Lua 5.1. -/
structure Reader where
  /-- The tokens of a source; an absent one is a lexical error. -/
  tokens : Text → List (Option TokenType)
  /-- `parse_fallible`, without the trees of faulty sources. -/
  parseFallible : Text → Option Ast

/-! ## Line endings -/

/-- The rest of a source after a line ending that `pair` would complete. -/
def normalizeAfter (pair : Option Char) : Text → Text
  | [] => []
  | character :: rest =>
    if pair = some character then normalizeAfter none rest
    else if character = '\r' then '\n' :: normalizeAfter (some '\n') rest
    else if character = '\n' then '\n' :: normalizeAfter (some '\r') rest
    else character :: normalizeAfter none rest

def normalizeLineEndings (source : Text) : Text := normalizeAfter none source

theorem normalizeAfter_eq_self {source : Text} (h : '\r' ∉ source) {pair : Option Char}
    (hpair : ∀ character, pair = some character → character = '\r') :
    normalizeAfter pair source = source := by
  induction source generalizing pair with
  | nil => rfl
  | cons character rest ih =>
    rw [List.mem_cons, not_or] at h
    have hnone : normalizeAfter none rest = rest := ih h.2 fun _ heq => nomatch heq
    have hreturn : normalizeAfter (some '\r') rest = rest := by
      refine ih h.2 ?_
      intro found heq
      exact (Option.some.inj heq).symm
    have hne : pair ≠ some character := fun heq => h.1 (hpair character heq).symm
    have hcharacter : character ≠ '\r' := fun heq => h.1 heq.symm
    rw [normalizeAfter, if_neg hne, if_neg hcharacter]
    split
    · rename_i hfeed
      rw [hreturn, hfeed]
    · rw [hnone]

/-- A source without carriage returns is left as it is. -/
theorem normalizeLineEndings_eq_self {source : Text} (h : '\r' ∉ source) :
    normalizeLineEndings source = source :=
  normalizeAfter_eq_self h fun _ heq => nomatch heq

/-! ## The tokens of literal data -/

/-- The state of the loop over the tokens in `parse`. -/
structure LiteralScan where
  depth : Nat
  tokens : Nat
  minus : Bool
  canNegate : Bool
  deriving DecidableEq, Repr

def nest (depth : Nat) : Outcome String Nat := do
  ensure (depth + 1 ≤ maxNesting) "Lua nesting exceeds the limit"
  pure (depth + 1)

def unnest (depth : Nat) (message : String) : Outcome String Nat :=
  if 0 < depth then .ok (depth - 1) else fail message

/-- The symbols after which a minus belongs to a number. -/
def Symbol.canNegate : Symbol → Bool
  | .returnWord | .equal | .comma | .semicolon | .leftBrace | .leftBracket | .leftParen => true
  | _ => false

/-- The nesting after a token of literal data. -/
def literalDepth (calls : Bool) (kind : TokenType) (depth : Nat) : Outcome String Nat :=
  match kind with
  | .symbol .leftBrace | .symbol .leftBracket => nest depth
  | .symbol .leftParen =>
    if calls then nest depth else fail "only literal Lua data is supported"
  | .symbol .rightParen =>
    if calls then unnest depth "unbalanced Lua call"
    else fail "only literal Lua data is supported"
  | .symbol .rightBrace | .symbol .rightBracket => unnest depth "unbalanced Lua table"
  | .symbol .returnWord | .symbol .trueWord | .symbol .falseWord | .symbol .minus | .symbol .equal
  | .symbol .comma | .symbol .semicolon | .identifier | .number | .eof
  | .stringLiteral .single | .stringLiteral .double => .ok depth
  | _ => fail "only literal Lua data is supported"

def scanLiteral (calls : Bool) : List (Option TokenType) → LiteralScan → Outcome String Unit
  | [], _ => .ok ()
  | none :: _, _ => fail "invalid Lua 5.1 syntax"
  | some kind :: rest, scan => do
    ensure (scan.tokens + 1 ≤ maxTokens) "Lua source exceeds the token limit"
    ensure (scan.minus = false ∨ kind = .number) "minus requires a literal number"
    let minus := decide (kind = .symbol .minus)
    ensure (minus = false ∨ scan.canNegate = true) "only literal Lua data is supported"
    let canNegate := match kind with
      | .symbol symbol => symbol.canNegate
      | _ => false
    let depth ← literalDepth calls kind scan.depth
    scanLiteral calls rest ⟨depth, scan.tokens + 1, minus, canNegate⟩

/-! ## The depth of a script -/

structure ScriptScope where
  opening : Option Symbol
  nesting : Nat
  operators : Nat
  nestedDepth : Nat
  maxDepth : Nat
  deriving DecidableEq, Repr

def ScriptScope.new (opening : Option Symbol) (canEndExpression : Bool) : ScriptScope where
  opening := opening
  -- call arguments and blocks need more parser stack than grouping
  nesting := match opening with
    | some .doWord | some .thenWord | some .functionWord | some .repeatWord => 4
    | some .leftParen | some .leftBrace => if canEndExpression then 2 else 1
    | _ => 1
  operators := 0
  nestedDepth := 0
  maxDepth := 0

def ScriptScope.finishExpression (scope : ScriptScope) : ScriptScope :=
  { scope with
    maxDepth := max scope.maxDepth (scope.operators + scope.nestedDepth)
    operators := 0
    nestedDepth := 0 }

/-- The scopes from the innermost one outwards: the innermost one and those
around it. -/
structure ScriptScan where
  scope : ScriptScope
  outer : List ScriptScope
  canEndExpression : Bool
  tokens : Nat
  deriving DecidableEq, Repr

def Symbol.opens : Symbol → Bool
  | .leftBrace | .leftBracket | .leftParen | .doWord | .thenWord | .functionWord | .repeatWord => true
  | _ => false

def Symbol.closes : Symbol → Bool
  | .rightBrace | .rightBracket | .rightParen | .endWord | .elseIfWord | .untilWord => true
  | _ => false

def Symbol.separates : Symbol → Bool
  | .equal | .comma | .semicolon | .localWord | .returnWord | .breakWord | .ifWord | .whileWord | .forWord | .elseWord =>
    true
  | _ => false

/-- `Hash`, `Not` and what `precedence_of_token` knows. -/
def Symbol.operates : Symbol → Bool
  | .hash | .notWord | .minus | .binary => true
  | _ => false

def Symbol.pairs : Symbol → Symbol → Bool
  | .leftBrace, .rightBrace | .leftBracket, .rightBracket | .leftParen, .rightParen => true
  | .doWord, .endWord | .thenWord, .endWord | .functionWord, .endWord | .thenWord, .elseIfWord | .repeatWord, .untilWord => true
  | _, _ => false

def Symbol.endsExpression : Symbol → Bool
  | .rightBrace | .rightBracket | .rightParen | .endWord | .trueWord | .falseWord | .nilWord | .ellipsis =>
    true
  | _ => false

def TokenType.endsExpression : TokenType → Bool
  | .identifier | .number | .stringLiteral _ => true
  | .symbol word => word.endsExpression
  | _ => false

/-- What a symbol does to the scopes. -/
def scanSymbol (symbol : Symbol) (scan : ScriptScan) : Outcome String ScriptScan :=
  if symbol.opens then do
    let around := if symbol ∈ [Symbol.doWord, .thenWord, .repeatWord] then scan.scope.finishExpression
      else scan.scope
    ensure (scan.outer.length + 2 ≤ maxNesting + 1) "Lua nesting exceeds the limit"
    pure { scan with
      scope := ScriptScope.new (some symbol) scan.canEndExpression
      outer := around :: scan.outer }
  else if symbol.closes then
    match scan.outer with
    | [] => fail "unbalanced Lua scope"
    | parent :: outer => do
      ensure ((scan.scope.opening.map (Symbol.pairs · symbol)).getD false = true)
        "unbalanced Lua scope"
      let scope := scan.scope.finishExpression
      let parent := { parent with
        nestedDepth := max parent.nestedDepth (scope.maxDepth + scope.nesting) }
      ensure (parent.operators + parent.nestedDepth ≤ maxNesting)
        "Lua expression exceeds the depth limit"
      pure { scan with
        scope := if symbol ∈ [Symbol.elseIfWord, .untilWord] then parent.finishExpression else parent
        outer := outer }
  else if symbol.separates then pure { scan with scope := scan.scope.finishExpression }
  else if symbol.operates then do
    ensure (scan.scope.operators + 1 + scan.scope.nestedDepth ≤ maxNesting)
      "Lua expression exceeds the depth limit"
    pure { scan with scope := { scan.scope with operators := scan.scope.operators + 1 } }
  else pure scan

def scanScript : List (Option TokenType) → ScriptScan → Outcome String Unit
  | [], scan => ensure (scan.outer = []) "unclosed Lua scope"
  | none :: _, _ => fail "invalid Lua 5.1 syntax"
  | some kind :: rest, scan => do
    ensure (scan.tokens + 1 ≤ maxTokens) "Lua source exceeds the token limit"
    -- these tokens after a complete expression start another statement
    let starts := scan.canEndExpression && decide (kind ∈ [.identifier, .symbol .functionWord])
    let scope := if starts then scan.scope.finishExpression else scan.scope
    let scan := { scan with scope := scope, tokens := scan.tokens + 1 }
    let scan ← match kind with
      | .symbol symbol => scanSymbol symbol scan
      | _ => pure scan
    scanScript rest { scan with canEndExpression := kind.endsExpression }

/-! ## Parsing -/

def checkSource (source : Text) : Outcome String Unit := do
  ensure (Text.utf8Length source ≤ maxSourceBytes) "Lua source exceeds the byte limit"
  ensure ('\x00' ∉ source) "Lua source contains an embedded NUL"

section Parse

variable (reader : Reader)

def parseScript (source : Text) : Outcome String Ast := do
  checkSource source
  let source := normalizeLineEndings source
  scanScript (reader.tokens source)
    ⟨ScriptScope.new none false, [], false, 0⟩
  let ast ← orError (reader.parseFallible source) "invalid Lua 5.1 syntax"
  ensure (ast.text = source) "Lua parser did not consume the complete source"
  pure ast

def parse (source : Text) (calls : Bool) : Outcome String Ast := do
  checkSource source
  let source := normalizeLineEndings source
  scanLiteral calls (reader.tokens source) ⟨0, 0, false, true⟩
  parseScript reader source

/-- The tree of a source that was accepted. -/
theorem parseFallible_of_parse {source : Text} {calls : Bool} {ast : Ast}
    (h : parse reader source calls = .ok ast) (hsource : '\r' ∉ source) :
    reader.parseFallible source = some ast := by
  simp only [parse, parseScript, bind_eq_ok, normalizeLineEndings_eq_self hsource] at h
  obtain ⟨_, _, _, _, _, _, _, _, ast', hparse, _, _, hpure⟩ := h
  cases hpure
  exact orError_eq_ok.1 hparse

end Parse

end DstServer.Lua
