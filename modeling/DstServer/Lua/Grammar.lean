import DstServer.Lua.Syntax

/-!
# The grammar of Lua

The syntax trees of Lua 5.1 by the nonterminals of its grammar.

* `Tree.tokens` are the tokens of a tree from left to right, without those
  that are only trivia.
* `Tree.depth` is the nesting on its deepest path: the groups in parentheses,
  the arguments of calls, the tables, the indices in brackets, the blocks, the
  bodies of functions and the operators around the innermost one.
-/

namespace DstServer.Lua

inductive Nonterminal where
  | block
  | lastStat
  | stat
  /-- The rest of a conditional after one of its blocks. -/
  | branches
  | vars
  | exps
  | exp
  | primary
  | var
  | call
  | args
  | table
  | fields
  | field
  | funcBody
  deriving DecidableEq, Repr

inductive Literal where
  | nil
  | false
  | true
  | number
  | string (quoteType : StringLiteralQuoteType)
  | ellipsis
  deriving DecidableEq, Repr

def Literal.token : Literal → TokenType
  | .nil => .symbol .nilWord
  | .false => .symbol .falseWord
  | .true => .symbol .trueWord
  | .number => .number
  | .string quoteType => .stringLiteral quoteType
  | .ellipsis => .symbol .ellipsis

inductive BinaryOperator where
  | minus
  | other
  deriving DecidableEq, Repr

def BinaryOperator.symbol : BinaryOperator → Symbol
  | .minus => .minus
  | .other => .binary

inductive UnaryOperator where
  | minus
  | not
  | hash
  deriving DecidableEq, Repr

def UnaryOperator.symbol : UnaryOperator → Symbol
  | .minus => .minus
  | .not => .notWord
  | .hash => .hash

/-- The parameters of a function: names, and whether there is an ellipsis. -/
inductive Parameters where
  | none
  | ellipsis
  | names (more : Nat) (varargs : Bool)
  deriving DecidableEq, Repr

/-- A name and more of them after commas. -/
def nameTokens (more : Nat) : List TokenType :=
  .identifier :: (List.replicate more [.symbol .comma, .identifier]).flatten

def Parameters.tokens : Parameters → List TokenType
  | .none => []
  | .ellipsis => [.symbol .ellipsis]
  | .names more varargs =>
    nameTokens more ++ if varargs then [.symbol .comma, .symbol .ellipsis] else []

/-- The name of a function statement: fields after dots, and a method. -/
def functionNameTokens (members : Nat) (isMethod : Bool) : List TokenType :=
  .identifier :: ((List.replicate members [.symbol .other, .identifier]).flatten ++
    if isMethod then [.symbol .other, .identifier] else [])

/-- A separator of fields. -/
def separatorToken (semicolon : Bool) : TokenType :=
  .symbol (if semicolon then .semicolon else .comma)

/-- An optional semicolon after a statement. -/
def semicolonTokens (semicolon : Bool) : List TokenType :=
  if semicolon then [.symbol .semicolon] else []

inductive Tree : Nonterminal → Type where
  -- blocks
  | noStats : Tree .block
  | stats (stat : Tree .stat) (semicolon : Bool) (rest : Tree .block) : Tree .block
  | last (stat : Tree .lastStat) (semicolon : Bool) : Tree .block
  | breakStat : Tree .lastStat
  | returnNone : Tree .lastStat
  | returnExps (values : Tree .exps) : Tree .lastStat
  -- statements
  | assign (targets : Tree .vars) (values : Tree .exps) : Tree .stat
  | callStat (call : Tree .call) : Tree .stat
  | doBlock (block : Tree .block) : Tree .stat
  | whileLoop (condition : Tree .exp) (block : Tree .block) : Tree .stat
  | repeatLoop (block : Tree .block) (condition : Tree .exp) : Tree .stat
  | conditional (condition : Tree .exp) (block : Tree .block) (rest : Tree .branches) : Tree .stat
  | numericFor (start limit : Tree .exp) (block : Tree .block) : Tree .stat
  | steppedFor (start limit step : Tree .exp) (block : Tree .block) : Tree .stat
  | genericFor (more : Nat) (values : Tree .exps) (block : Tree .block) : Tree .stat
  | functionStat (members : Nat) (isMethod : Bool) (body : Tree .funcBody) : Tree .stat
  | localFunction (body : Tree .funcBody) : Tree .stat
  | localNames (more : Nat) : Tree .stat
  | localValues (more : Nat) (values : Tree .exps) : Tree .stat
  -- branches
  | endIf : Tree .branches
  | elseBlock (block : Tree .block) : Tree .branches
  | elseIf (condition : Tree .exp) (block : Tree .block) (rest : Tree .branches) : Tree .branches
  -- lists
  | oneVar (var : Tree .var) : Tree .vars
  | moreVars (var : Tree .var) (rest : Tree .vars) : Tree .vars
  | oneExp (exp : Tree .exp) : Tree .exps
  | moreExps (exp : Tree .exp) (rest : Tree .exps) : Tree .exps
  -- expressions
  | literal (value : Literal) : Tree .exp
  | function (body : Tree .funcBody) : Tree .exp
  | primaryExp (primary : Tree .primary) : Tree .exp
  | tableExp (constructed : Tree .table) : Tree .exp
  | binary (left : Tree .exp) (operator : BinaryOperator) (right : Tree .exp) : Tree .exp
  | unary (operator : UnaryOperator) (operand : Tree .exp) : Tree .exp
  -- what can be called and indexed
  | primaryVar (var : Tree .var) : Tree .primary
  | primaryCall (call : Tree .call) : Tree .primary
  | group (exp : Tree .exp) : Tree .primary
  | name : Tree .var
  | index (of : Tree .primary) (key : Tree .exp) : Tree .var
  | member (of : Tree .primary) : Tree .var
  | apply (of : Tree .primary) (args : Tree .args) : Tree .call
  | method (of : Tree .primary) (args : Tree .args) : Tree .call
  | noArgs : Tree .args
  | someArgs (values : Tree .exps) : Tree .args
  | tableArg (constructed : Tree .table) : Tree .args
  | stringArg (quoteType : StringLiteralQuoteType) : Tree .args
  -- tables
  | table (fields : Tree .fields) : Tree .table
  | noFields : Tree .fields
  | lastField (field : Tree .field) : Tree .fields
  | moreFields (field : Tree .field) (semicolon : Bool) (rest : Tree .fields) : Tree .fields
  | keyed (key value : Tree .exp) : Tree .field
  | named (value : Tree .exp) : Tree .field
  | item (value : Tree .exp) : Tree .field
  -- functions
  | funcBody (parameters : Parameters) (block : Tree .block) : Tree .funcBody

namespace Tree

def tokens {kind : Nonterminal} : Tree kind → List TokenType
  | noStats => []
  | stats stat semicolon rest => stat.tokens ++ (semicolonTokens semicolon ++ rest.tokens)
  | last stat semicolon => stat.tokens ++ semicolonTokens semicolon
  | breakStat => [.symbol .breakWord]
  | returnNone => [.symbol .returnWord]
  | returnExps values => .symbol .returnWord :: values.tokens
  | assign targets values => targets.tokens ++ .symbol .equal :: values.tokens
  | callStat call => call.tokens
  | doBlock block => .symbol .doWord :: (block.tokens ++ [.symbol .endWord])
  | whileLoop condition block =>
    .symbol .whileWord :: (condition.tokens ++ .symbol .doWord :: (block.tokens ++ [.symbol .endWord]))
  | repeatLoop block condition =>
    .symbol .repeatWord :: (block.tokens ++ .symbol .untilWord :: condition.tokens)
  | conditional condition block rest =>
    .symbol .ifWord :: (condition.tokens ++ .symbol .thenWord :: (block.tokens ++ rest.tokens))
  | numericFor start limit block =>
    .symbol .forWord :: .identifier :: .symbol .equal :: (start.tokens ++ .symbol .comma ::
      (limit.tokens ++ .symbol .doWord :: (block.tokens ++ [.symbol .endWord])))
  | steppedFor start limit step block =>
    .symbol .forWord :: .identifier :: .symbol .equal :: (start.tokens ++ .symbol .comma ::
      (limit.tokens ++ .symbol .comma ::
        (step.tokens ++ .symbol .doWord :: (block.tokens ++ [.symbol .endWord]))))
  | genericFor more values block =>
    .symbol .forWord :: (nameTokens more ++ .symbol .other ::
      (values.tokens ++ .symbol .doWord :: (block.tokens ++ [.symbol .endWord])))
  | functionStat members isMethod body =>
    .symbol .functionWord :: (functionNameTokens members isMethod ++ body.tokens)
  | localFunction body =>
    .symbol .localWord :: .symbol .functionWord :: .identifier :: body.tokens
  | localNames more => .symbol .localWord :: nameTokens more
  | localValues more values =>
    .symbol .localWord :: (nameTokens more ++ .symbol .equal :: values.tokens)
  | endIf => [.symbol .endWord]
  | elseBlock block => .symbol .elseWord :: (block.tokens ++ [.symbol .endWord])
  | elseIf condition block rest =>
    .symbol .elseIfWord :: (condition.tokens ++ .symbol .thenWord :: (block.tokens ++ rest.tokens))
  | oneVar var => var.tokens
  | moreVars var rest => var.tokens ++ .symbol .comma :: rest.tokens
  | oneExp exp => exp.tokens
  | moreExps exp rest => exp.tokens ++ .symbol .comma :: rest.tokens
  | literal value => [value.token]
  | function body => .symbol .functionWord :: body.tokens
  | primaryExp primary => primary.tokens
  | tableExp constructed => constructed.tokens
  | binary left operator right => left.tokens ++ .symbol operator.symbol :: right.tokens
  | unary operator operand => .symbol operator.symbol :: operand.tokens
  | primaryVar var => var.tokens
  | primaryCall call => call.tokens
  | group exp => .symbol .leftParen :: (exp.tokens ++ [.symbol .rightParen])
  | name => [.identifier]
  | index of key => of.tokens ++ .symbol .leftBracket :: (key.tokens ++ [.symbol .rightBracket])
  | member of => of.tokens ++ [.symbol .other, .identifier]
  | apply of args => of.tokens ++ args.tokens
  | method of args => of.tokens ++ .symbol .other :: .identifier :: args.tokens
  | noArgs => [.symbol .leftParen, .symbol .rightParen]
  | someArgs values => .symbol .leftParen :: (values.tokens ++ [.symbol .rightParen])
  | tableArg constructed => constructed.tokens
  | stringArg quoteType => [.stringLiteral quoteType]
  | table fields => .symbol .leftBrace :: (fields.tokens ++ [.symbol .rightBrace])
  | noFields => []
  | lastField field => field.tokens
  | moreFields field semicolon rest => field.tokens ++ separatorToken semicolon :: rest.tokens
  | keyed key value => .symbol .leftBracket ::
      (key.tokens ++ .symbol .rightBracket :: .symbol .equal :: value.tokens)
  | named value => .identifier :: .symbol .equal :: value.tokens
  | item value => value.tokens
  | funcBody parameters block => .symbol .leftParen ::
      (parameters.tokens ++ .symbol .rightParen :: (block.tokens ++ [.symbol .endWord]))

def depth {kind : Nonterminal} : Tree kind → Nat
  | noStats => 0
  | stats stat _ rest => max stat.depth rest.depth
  | last stat _ => stat.depth
  | breakStat => 0
  | returnNone => 0
  | returnExps values => values.depth
  | assign targets values => max targets.depth values.depth
  | callStat call => call.depth
  | doBlock block => block.depth + 1
  | whileLoop condition block => max condition.depth (block.depth + 1)
  | repeatLoop block condition => max (block.depth + 1) condition.depth
  | conditional condition block rest => max condition.depth (max (block.depth + 1) rest.depth)
  | numericFor start limit block => max start.depth (max limit.depth (block.depth + 1))
  | steppedFor start limit step block =>
    max start.depth (max limit.depth (max step.depth (block.depth + 1)))
  | genericFor _ values block => max values.depth (block.depth + 1)
  | functionStat _ _ body => body.depth
  | localFunction body => body.depth
  | localNames _ => 0
  | localValues _ values => values.depth
  | endIf => 0
  | elseBlock block => block.depth + 1
  | elseIf condition block rest => max condition.depth (max (block.depth + 1) rest.depth)
  | oneVar var => var.depth
  | moreVars var rest => max var.depth rest.depth
  | oneExp exp => exp.depth
  | moreExps exp rest => max exp.depth rest.depth
  | literal _ => 0
  | function body => body.depth
  | primaryExp primary => primary.depth
  | tableExp constructed => constructed.depth
  | binary left _ right => max left.depth right.depth + 1
  | unary _ operand => operand.depth + 1
  | primaryVar var => var.depth
  | primaryCall call => call.depth
  | group exp => exp.depth + 1
  | name => 0
  | index of key => max of.depth (key.depth + 1)
  | member of => of.depth
  | apply of args => max of.depth args.depth
  | method of args => max of.depth args.depth
  | noArgs => 1
  | someArgs values => values.depth + 1
  | tableArg constructed => constructed.depth
  | stringArg _ => 0
  | table fields => fields.depth + 1
  | noFields => 0
  | lastField field => field.depth
  | moreFields field _ rest => max field.depth rest.depth
  | keyed key value => max (key.depth + 1) value.depth
  | named value => value.depth
  | item value => value.depth
  | funcBody _ block => block.depth + 1

end Tree

end DstServer.Lua
