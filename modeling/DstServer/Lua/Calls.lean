import DstServer.Lua.Literal
import DstServer.Lua.Scan
import DstServer.Lua.Strings

/-!
# Calls in Lua source

The model of `literal_calls` of `lua.rs`, which reads the native setup files:
their statements are calls with literal arguments.

`Nodes` is the tree of a source as far as the readers of setup files look at
it.  `ReadsCalls` says what the parser makes of one call a line.
-/

namespace DstServer.Lua

open Lib Outcome

/-! ## The tree of a script -/

inductive FunctionArgs where
  | parentheses (arguments : List Expression)
  | string (quoteType : StringLiteralQuoteType) (literal : Text)
  | tableConstructor

inductive Suffix where
  /-- `Call::AnonymousCall`. -/
  | anonymousCall (arguments : FunctionArgs)
  /-- A method call or an index. -/
  | other

structure FunctionCall where
  /-- The name of the prefix, unless it is an expression. -/
  name : Option Text
  suffixes : List Suffix

inductive LastStmt where
  /-- The returned expressions; an absent one is no call. -/
  | returned (expressions : List (Option FunctionCall))
  | other

/-- The statements of a script; an absent one is no call. -/
structure Nodes where
  stmts : List (Option FunctionCall)
  lastStmt : Option LastStmt

/-- The parser with its tree of the statements of a source that it accepts. -/
structure ScriptReader extends Reader where
  nodes : Text → Nodes

/-! ## Literal calls -/

section Calls

variable (doubles : Doubles) (reader : ScriptReader)

def literalArguments (arguments : FunctionArgs) : Outcome String (List Json) :=
  match arguments with
  | .parentheses arguments => arguments.mapM' fun argument => value doubles argument 0
  | .string quoteType literal => (string quoteType literal).map fun text => [.string text]
  | .tableConstructor => fail "unsupported literal function arguments"

def literalCall (call : FunctionCall) : Outcome String (Text × List Json) := do
  let name ← orError call.name "expected a named function"
  match call.suffixes with
  | [.anonymousCall arguments] => (literalArguments doubles arguments).map (name, ·)
  | _ => fail "expected one direct function call"

/-- The calls of a list of statements or of returned expressions. -/
def literalCallsOf (message : String) (calls : List (Option FunctionCall)) :
    Outcome String (List (Text × List Json)) :=
  calls.mapM' fun call => do
    let call ← orError call message
    literalCall doubles call

def literalReturns (last : Option LastStmt) : Outcome String (List (Text × List Json)) :=
  match last with
  | none => .ok []
  | some (.returned expressions) =>
    literalCallsOf doubles "expected a returned literal function call" expressions
  | some .other => fail "expected literal function calls"

/-- Literal calls used by native Mod setup files.  No Lua is executed. -/
def literalCalls (source : Text) : Outcome String (List (Text × List Json)) := do
  let _ ← parse reader.toReader source true
  let nodes := reader.nodes (normalizeLineEndings source)
  let calls ← literalCallsOf doubles "expected literal function calls" nodes.stmts
  let returned ← literalReturns doubles nodes.lastStmt
  pure (calls ++ returned)

end Calls

/-! ## Line endings -/

theorem return_not_mem_normalizeAfter (source : Text) (pair : Option Char) :
    '\r' ∉ normalizeAfter pair source := by
  induction source generalizing pair with
  | nil => exact List.not_mem_nil
  | cons character rest ih =>
    rw [normalizeAfter]
    split_ifs with hpair hreturn hfeed
    · exact ih none
    · exact List.not_mem_cons_of_ne_of_not_mem (by decide) (ih _)
    · exact List.not_mem_cons_of_ne_of_not_mem (by decide) (ih _)
    · exact List.not_mem_cons_of_ne_of_not_mem (Ne.symm hreturn) (ih _)

/-- The line endings of a source are normalised only once. -/
theorem normalizeLineEndings_idem (source : Text) :
    normalizeLineEndings (normalizeLineEndings source) = normalizeLineEndings source :=
  normalizeLineEndings_eq_self (return_not_mem_normalizeAfter source none)

/-- A source of literal data is a script. -/
theorem parseScript_of_parse {reader : Reader} {source : Text} {calls : Bool} {ast : Ast}
    (h : parse reader source calls = .ok ast) : parseScript reader source = .ok ast := by
  simp only [parse, bind_eq_ok] at h
  obtain ⟨_, hsource, _, _, h⟩ := h
  simp only [parseScript, normalizeLineEndings_idem, bind_eq_ok] at h ⊢
  obtain ⟨_, _, hrest⟩ := h
  exact ⟨_, hsource, hrest⟩

end DstServer.Lua
