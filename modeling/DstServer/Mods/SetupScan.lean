import DstServer.Mods.Setup
import DstServer.Lua.RoundTrip
import DstServer.Lib.Numeral

/-!
# The two readers of the setup file agree

What `WorkshopDownloads::parse` accepts, `scan_setup` reads as the same ids: a
file of literal calls is a script (`parseScript_of_parse`), and the two loops
over its calls go on with the same ids at every call (`collectCall_of_addCall`).

In the other direction, a rendered file is read as what was rendered as long
as it has not too many tokens for a script.
-/

namespace DstServer.Mods

open Lib Outcome
open DstServer.Lua (ScriptReader FunctionCall FunctionArgs LastStmt Doubles TokenType ScriptScope
  ScriptScan)

/-! ## Strings among the literals -/

section Literals

variable {doubles : Doubles}

theorem integerNumber_ne_string {integer : Option Nat} {message text : String} {negative : Bool} :
    Lua.integerNumber integer message negative ≠ .ok (.string text) := by
  intro h
  simp only [Lua.integerNumber, bind_eq_ok, pure_eq_ok, Except.ok.injEq] at h
  obtain ⟨_, _, _, _, h⟩ := h
  cases h

theorem number_ne_string {text : Text} {negative : Bool} {found : String} :
    Lua.number doubles text negative ≠ .ok (.string found) := by
  unfold Lua.number
  split
  · exact integerNumber_ne_string
  · exact integerNumber_ne_string
  · split_ifs
    · intro h
      simp only [Lua.floatNumber, bind_eq_ok, pure_eq_ok, Except.ok.injEq] at h
      obtain ⟨_, _, _, _, h⟩ := h
      cases h
    · exact integerNumber_ne_string

theorem tableValue_ne_string {table : Lua.Table} {found : String} :
    table.value ≠ .ok (.string found) := by
  unfold Lua.Table.value
  split_ifs
  · intro h
    cases h
  · intro h
    simp only [bind_eq_ok, pure_eq_ok, Except.ok.injEq] at h
    obtain ⟨_, _, h⟩ := h
    cases h

/-- A literal that is read as a string is a string. -/
theorem string_of_value {argument : Lua.Expression} {found : String}
    (h : Lua.value doubles argument 0 = .ok (.string found)) :
    ∃ quoteType literal, argument = .string quoteType literal ∧
      Lua.string quoteType literal = .ok found := by
  rw [Lua.value.eq_def, bind_eq_ok] at h
  obtain ⟨_, _, h⟩ := h
  cases argument with
  | string quoteType literal =>
    refine ⟨quoteType, literal, rfl, ?_⟩
    cases hstring : Lua.string quoteType literal with
    | error fault =>
      simp only [hstring] at h
      cases h
    | ok text =>
      simp only [hstring] at h
      cases h
      rfl
  | number text => exact absurd h number_ne_string
  | minus expression =>
    cases expression with
    | number text => exact absurd h number_ne_string
    | _ => cases h
  | symbol symbol => cases symbol <;> cases h
  | tableConstructor fields =>
    simp only [bind_eq_ok] at h
    obtain ⟨table, _, h⟩ := h
    exact absurd h tableValue_ne_string
  | other => cases h

/-- The arguments of a literal call that has one string. -/
theorem stringArgument_of_literal {arguments : FunctionArgs} {literals : List Json} {found : String}
    (h : Lua.literalArguments doubles arguments = .ok literals) (hlength : literals.length = 1)
    (hfound : literals.head?.bind Json.asStr? = some found) :
    ∃ quoteType literal, stringArgument arguments = some (quoteType, literal) ∧
      Lua.string quoteType literal = .ok found := by
  cases arguments with
  | parentheses arguments =>
    obtain ⟨literal, hliterals⟩ := List.length_eq_one_iff.1 hlength
    subst hliterals
    have hvalues := mapM'_eq_ok.1 h
    cases hvalues with
    | cons hvalue hrest =>
      cases hrest
      cases literal with
      | string text =>
        cases hfound
        obtain ⟨quoteType, literal, hargument, hstring⟩ := string_of_value hvalue
        subst hargument
        exact ⟨quoteType, literal, rfl, hstring⟩
      | _ => cases hfound
  | string quoteType literal =>
    change (Lua.string quoteType literal).map _ = _ at h
    cases hstring : Lua.string quoteType literal with
    | error fault =>
      rw [hstring] at h
      cases h
    | ok text =>
      rw [hstring] at h
      cases h
      cases hfound
      exact ⟨quoteType, literal, rfl, hstring⟩
  | tableConstructor => cases h

end Literals

/-! ## What is parsed is found -/

theorem digits_of_workshopId {value : String} {id : WorkshopId} (h : workshopId value = .ok id) :
    value ≠ "" ∧ value.toList.all (·.toNat < 128) = true := by
  unfold workshopId at h
  rw [bind_eq_ok] at h
  obtain ⟨_, hdigits, _⟩ := h
  rw [ensure_eq_ok] at hdigits
  constructor
  · intro hempty
    rw [hempty] at hdigits
    exact hdigits.1 rfl
  · rw [List.all_eq_true] at hdigits ⊢
    intro c hc
    have hdigit := hdigits.2.2 c hc
    rw [Char.isDigit_iff_toNat] at hdigit
    have hnine : '9'.toNat = 57 := rfl
    rw [decide_eq_true_iff]
    omega

/-- The declaration of a direct call with one string. -/
theorem declaration?_of_string {call : FunctionCall} {name literal : Text} {found : String}
    {arguments : FunctionArgs} {quoteType : Lua.StringLiteralQuoteType}
    (hname : call.name = some name) (hsuffixes : call.suffixes = [.anonymousCall arguments])
    (hargument : stringArgument arguments = some (quoteType, literal))
    (hstring : Lua.string quoteType literal = .ok found) :
    declaration? call = (declares name).bind fun collection =>
      if found.toList.all (·.toNat < 128) = true ∧ ¬(found = "" ∧ collection = false) then
        some (collection, found)
      else none := by
  unfold declaration?
  rw [hname, hsuffixes]
  show (declares name).bind _ = _
  congr 1
  funext collection
  show (stringArgument arguments).bind _ = _
  rw [hargument]
  show (Lua.string quoteType literal).toOption.bind _ = _
  rw [hstring]
  rfl

variable {doubles : Doubles} {reader : ScriptReader}

/-- A call that `parse` takes declares the same id to the scan. -/
theorem collectCall_of_addCall {call : FunctionCall} {literal : Text × List Json}
    {ids ids' : Declared} (hcode : Bool) (hliteral : Lua.literalCall doubles call = .ok literal)
    (h : WorkshopDownloads.addCall ids literal = .ok ids') :
    collectCall ⟨ids, hcode⟩ call = .ok ⟨ids', hcode⟩ := by
  simp only [Lua.literalCall, bind_eq_ok, orError_eq_ok] at hliteral
  obtain ⟨name, hname, hliteral⟩ := hliteral
  split at hliteral
  · rename_i arguments hsuffixes
    cases hliterals : Lua.literalArguments doubles arguments with
    | error fault =>
      rw [hliterals] at hliteral
      cases hliteral
    | ok literals =>
      rw [hliterals] at hliteral
      cases hliteral
      simp only [WorkshopDownloads.addCall, bind_eq_ok, ensure_eq_ok, orError_eq_ok] at h
      obtain ⟨_, hlength, found, hfound, h⟩ := h
      unfold WorkshopDownloads.addId at h
      obtain ⟨quoteType, text, hargument, hstring⟩ :=
        stringArgument_of_literal hliterals hlength hfound
      have hdeclaration := declaration?_of_string hname hsuffixes hargument hstring
      unfold collectCall
      rw [hdeclaration]
      unfold declares
      by_cases hitem : name = "ServerModSetup".toList
      · simp only [if_pos hitem, Option.bind_some] at h ⊢
        by_cases hempty : found = ""
        · rw [if_pos hempty] at h
          cases h
          rw [if_neg (by simp [hempty])]
        · simp only [if_neg hempty, bind_eq_ok, pure_eq_ok, Except.ok.injEq] at h
          obtain ⟨item, hworkshop, heq⟩ := h
          have hascii := (digits_of_workshopId hworkshop).2
          rw [if_pos ⟨hascii, fun h => hempty h.1⟩]
          simp only [hworkshop]
          rw [← heq]
          rfl
      · simp only [if_neg hitem] at h ⊢
        by_cases hcollection : name = "ServerModCollectionSetup".toList
        · simp only [if_pos hcollection, Option.bind_some, bind_eq_ok, pure_eq_ok,
            Except.ok.injEq] at h ⊢
          obtain ⟨item, hworkshop, heq⟩ := h
          have hascii := (digits_of_workshopId hworkshop).2
          rw [if_pos ⟨hascii, fun h => Bool.noConfusion h.2⟩]
          simp only [hworkshop]
          rw [← heq]
          rfl
        · rw [if_neg hcollection] at h
          cases h
  · cases hliteral

/-- The loops over the statements, or over the returned expressions. -/
theorem collect_of_addCall {calls : List (Option FunctionCall)} {message : String}
    {literals : List (Text × List Json)} {ids ids' : Declared} (hcode : Bool)
    (hliterals : Lua.literalCallsOf doubles message calls = .ok literals)
    (h : literals.foldlM WorkshopDownloads.addCall ids = .ok ids') :
    calls.foldlM collect ⟨ids, hcode⟩ = .ok ⟨ids', hcode⟩ := by
  have hpairs := mapM'_eq_ok.1 hliterals
  clear hliterals
  induction hpairs generalizing ids with
  | nil =>
    cases h
    rfl
  | @cons call literal calls literals hcall _ ih =>
    rw [bind_eq_ok] at hcall
    obtain ⟨found, hfound, hcall⟩ := hcall
    rw [orError_eq_ok] at hfound
    rw [List.foldlM_cons, bind_eq_ok] at h
    obtain ⟨next, hnext, h⟩ := h
    rw [List.foldlM_cons, hfound]
    show (collectCall _ _ >>= _) = _
    rw [collectCall_of_addCall hcode hcall hnext]
    exact ih h

theorem toFinset_ascending (set : Finset WorkshopId) : (ascending set).toFinset = set := by
  ext id
  rw [List.mem_toFinset, mem_ascending]

theorem declared_of_fromDeclared {ids : Declared} {downloads : WorkshopDownloads}
    (h : WorkshopDownloads.fromDeclared ids = .ok downloads) : downloads.declared = ids := by
  simp only [WorkshopDownloads.fromDeclared, bind_eq_ok, pure_eq_ok, Except.ok.injEq] at h
  obtain ⟨_, _, h⟩ := h
  rw [← h]
  show (⟨(ascending ids.items).toFinset, (ascending ids.collections).toFinset⟩ : Declared) = ids
  rw [toFinset_ascending, toFinset_ascending]

/-- What `parse` accepts, the scan finds. -/
theorem scan_of_parse {source : Text} {downloads : WorkshopDownloads}
    (h : WorkshopDownloads.parse doubles reader source = .ok downloads) :
    ∃ setup, scanSetup reader source = .ok setup ∧ setup.toDeclared = downloads.declared := by
  simp only [WorkshopDownloads.parse, Lua.literalCalls, bind_eq_ok, pure_eq_ok,
    Except.ok.injEq] at h
  obtain ⟨literals, ⟨ast, hparse, stmts, hstmts, returned, hreturned, hliterals⟩, ids, hids,
    hdownloads⟩ := h
  rw [← hliterals, List.foldlM_append, bind_eq_ok] at hids
  obtain ⟨middle, hmiddle, hids⟩ := hids
  have hscript := Lua.parseScript_of_parse hparse
  rw [declared_of_fromDeclared hdownloads]
  unfold scanSetup
  rw [hscript]
  show ∃ setup, (List.foldlM collect _ _ >>= _) = _ ∧ _
  rw [collect_of_addCall _ hstmts hmiddle]
  show ∃ setup, collectReturns _ _ = _ ∧ _
  cases hlast : (reader.nodes (Lua.normalizeLineEndings source)).lastStmt with
  | none =>
    rw [hlast] at hreturned
    cases hreturned
    cases hids
    exact ⟨_, rfl, rfl⟩
  | some last =>
    rw [hlast] at hreturned
    cases last with
    | returned expressions => exact ⟨_, collect_of_addCall _ hreturned hids, rfl⟩
    | other => cases hreturned

/-! ## What is rendered is found -/

/-- The tokens of a call with one quoted string. -/
def callTokens : List TokenType :=
  [.identifier, .symbol .leftParen, .stringLiteral .double, .symbol .rightParen]

/-- A call with one quoted id, as the parser has it. -/
def idCall (function : String) (id : WorkshopId) : FunctionCall where
  name := some function.toList
  suffixes := [.anonymousCall (.parentheses [.string .double (Text.decimal id.val)])]

/-- The parser knows the calls of a rendered file: their tokens and the end of
the file, and their statements. -/
structure ReadsCalls (reader : ScriptReader) (downloads : WorkshopDownloads) : Prop where
  tokens : reader.tokens downloads.render =
    (downloads.calls.flatMap fun _ => callTokens.map some) ++ [some .eof]
  tree : ∃ ast, reader.parseFallible downloads.render = some ast ∧ ast.text = downloads.render
  nodes : reader.nodes downloads.render =
    ⟨downloads.calls.map fun call => some (idCall call.1 call.2), none⟩

/-- The most ids that a script has the tokens for. -/
def maxDeclared : Nat := 16383

/-- The scan between two calls of a setup file. -/
structure Between (scan : ScriptScan) : Prop where
  outer : scan.outer = []
  operators : scan.scope.operators = 0
  nestedDepth : scan.scope.nestedDepth ≤ 2

/-- The name of the called function finishes what is before it. -/
theorem step_name {scan : ScriptScan} (h : Between scan) (hcount : scan.tokens + 1 ≤ Lua.maxTokens) :
    ∃ scope, scope.operators = 0 ∧ scope.nestedDepth ≤ 2 ∧
      Lua.stepToken .identifier scan = .ok ⟨scope, [], true, scan.tokens + 1⟩ := by
  refine ⟨(Lua.beginToken .identifier scan).scope, ?_, ?_, ?_⟩
  · unfold Lua.beginToken
    split_ifs
    · rfl
    · exact h.operators
  · unfold Lua.beginToken
    split_ifs
    · exact Nat.zero_le 2
    · exact h.nestedDepth
  · rw [Lua.stepToken, ensure_of hcount, ← h.outer]
    rfl

/-- The closing parenthesis of a call is two levels deep. -/
theorem step_close {scope : ScriptScope} {tokens : Nat} (hoperators : scope.operators = 0)
    (hnested : scope.nestedDepth ≤ 2) (hcount : tokens + 1 ≤ Lua.maxTokens) :
    Lua.stepToken (.symbol .rightParen)
        ⟨ScriptScope.new (some .leftParen) true, [scope], true, tokens⟩ =
      .ok ⟨{ scope with nestedDepth := 2 }, [], true, tokens + 1⟩ := by
  have hmax : max scope.nestedDepth 2 = 2 := max_eq_right hnested
  have hdepth : scope.operators + max scope.nestedDepth 2 ≤ Lua.maxNesting := by
    rw [hoperators, hmax]
    decide
  rw [Lua.stepToken, ensure_of hcount]
  show ((ensure (scope.operators + max scope.nestedDepth 2 ≤ Lua.maxNesting) _ >>= _) >>= _) = _
  rw [ensure_of hdepth, ← hmax]
  rfl

/-- A call opens one scope and closes it. -/
theorem scan_call {scan : ScriptScan} (h : Between scan) (hcount : scan.tokens + 4 ≤ Lua.maxTokens)
    (rest : List (Option TokenType)) :
    ∃ next, Between next ∧ next.tokens = scan.tokens + 4 ∧
      Lua.scanScript (callTokens.map some ++ rest) scan = Lua.scanScript rest next := by
  obtain ⟨scope, hoperators, hnested, hname⟩ := step_name h (by omega)
  have hopen : Lua.stepToken (.symbol .leftParen) ⟨scope, [], true, scan.tokens + 1⟩ =
      .ok ⟨ScriptScope.new (some .leftParen) true, [scope], false, scan.tokens + 1 + 1⟩ := by
    rw [Lua.stepToken, ensure_of (show scan.tokens + 1 + 1 ≤ Lua.maxTokens by omega)]
    rfl
  have hstring : Lua.stepToken (.stringLiteral .double)
      ⟨ScriptScope.new (some .leftParen) true, [scope], false, scan.tokens + 1 + 1⟩ =
      .ok ⟨ScriptScope.new (some .leftParen) true, [scope], true, scan.tokens + 1 + 1 + 1⟩ := by
    rw [Lua.stepToken, ensure_of (show scan.tokens + 1 + 1 + 1 ≤ Lua.maxTokens by omega)]
    rfl
  have hclose := step_close hoperators hnested (show scan.tokens + 1 + 1 + 1 + 1 ≤ Lua.maxTokens by omega)
  refine ⟨⟨{ scope with nestedDepth := 2 }, [], true, scan.tokens + 1 + 1 + 1 + 1⟩,
    ⟨rfl, hoperators, Nat.le_refl 2⟩, rfl, ?_⟩
  simp only [callTokens, List.map_cons, List.map_nil, List.cons_append, List.nil_append,
    Lua.scanScript_cons]
  rw [hname, ok_bind, Lua.scanScript_cons, hopen, ok_bind, Lua.scanScript_cons, hstring, ok_bind,
    Lua.scanScript_cons, hclose, ok_bind]

/-- The calls of a setup file, as long as there are tokens for them and for
the end of the file. -/
theorem scan_calls {calls : List (String × WorkshopId)} {scan : ScriptScan} (h : Between scan)
    (hcount : scan.tokens + 4 * calls.length + 1 ≤ Lua.maxTokens) :
    Lua.scanScript ((calls.flatMap fun _ => callTokens.map some) ++ [some .eof]) scan = .ok () := by
  induction calls generalizing scan with
  | nil =>
    show Lua.scanScript [some .eof] scan = .ok ()
    rw [Lua.scanScript_cons, Lua.stepToken, ensure_of (by rw [List.length_nil] at hcount; omega)]
    show ensure (scan.outer = []) _ = _
    rw [ensure_of h.outer]
  | cons call calls ih =>
    rw [List.length_cons] at hcount
    rw [List.flatMap_cons, List.append_assoc]
    obtain ⟨next, hnext, htokens, hscan⟩ := scan_call h (by omega)
      ((calls.flatMap fun _ => callTokens.map some) ++ [some .eof])
    rw [hscan]
    exact ih hnext (by omega)

/-- The functions of a setup file. -/
def setupFunctions : List String := ["ServerModSetup", "ServerModCollectionSetup"]

theorem mem_setupFunctions {downloads : WorkshopDownloads} {call : String × WorkshopId}
    (h : call ∈ downloads.calls) : call.1 ∈ setupFunctions := by
  unfold WorkshopDownloads.calls at h
  rw [List.mem_append, List.mem_map, List.mem_map] at h
  rcases h with h | h
  · obtain ⟨_, _, heq⟩ := h
    rw [← heq]
    exact List.mem_cons_self
  · obtain ⟨_, _, heq⟩ := h
    rw [← heq]
    exact List.mem_cons_of_mem _ List.mem_cons_self

theorem length_calls (downloads : WorkshopDownloads) :
    downloads.calls.length = downloads.declared.items.card + downloads.declared.collections.card := by
  unfold WorkshopDownloads.calls
  rw [List.length_append, List.length_map, List.length_map, length_ascending, length_ascending]

/-- The characters of a rendered line are in ASCII, and none of them is a NUL
or a carriage return. -/
theorem char_of_mem_callLine {function : String} (hfunction : function ∈ setupFunctions)
    {id : WorkshopId} {c : Char} (h : c ∈ WorkshopDownloads.callLine function id) :
    c.toNat < 128 ∧ c ≠ '\x00' ∧ c ≠ '\r' := by
  have hplain : ∀ function ∈ setupFunctions, ∀ c ∈ function.toList ++ "(\"".toList ++ "\")\n".toList,
      c.toNat < 128 ∧ c ≠ '\x00' ∧ c ≠ '\r' := by decide
  unfold WorkshopDownloads.callLine at h
  rw [List.mem_append, List.mem_append] at h
  rcases h with (h | h) | h
  · exact hplain function hfunction c (List.mem_append_left _ h)
  · have hdigit := Text.toNat_of_mem_decimal h
    refine ⟨by omega, ?_, ?_⟩
    · intro heq
      subst heq
      revert hdigit
      decide
    · intro heq
      subst heq
      revert hdigit
      decide
  · exact hplain function hfunction c (List.mem_append_right _ h)

theorem char_of_mem_render {downloads : WorkshopDownloads} {c : Char} (h : c ∈ downloads.render) :
    c.toNat < 128 ∧ c ≠ '\x00' ∧ c ≠ '\r' := by
  obtain ⟨call, hcall, hc⟩ := List.mem_flatMap.1 h
  exact char_of_mem_callLine (mem_setupFunctions hcall) hc

/-- A rendered line has at most forty-nine characters. -/
theorem length_callLine_le {function : String} (hfunction : function ∈ setupFunctions)
    (id : WorkshopId) : (WorkshopDownloads.callLine function id).length ≤ 49 := by
  have hname : ∀ function ∈ setupFunctions, function.toList.length ≤ 24 := by decide
  have hdigits : (Text.decimal id.val).length ≤ 20 := by
    apply (Nat.length_toDigits_le_iff (by decide) (by decide)).2
    exact Nat.lt_of_lt_of_le id.property.2 (by decide)
  have hopen : "(\"".toList.length = 2 := by decide
  have hclose : "\")\n".toList.length = 3 := by decide
  have hlength := hname function hfunction
  unfold WorkshopDownloads.callLine
  rw [List.length_append, List.length_append, List.length_append, hopen, hclose]
  omega

theorem utf8Length_render_le (downloads : WorkshopDownloads) :
    Text.utf8Length downloads.render ≤ 49 * downloads.calls.length := by
  rw [utf8Length_of_ascii fun c hc => (char_of_mem_render hc).1]
  have hcalls : ∀ call ∈ downloads.calls, call.1 ∈ setupFunctions := fun _ => mem_setupFunctions
  unfold WorkshopDownloads.render
  generalize downloads.calls = calls at hcalls
  induction calls with
  | nil => exact Nat.le_refl 0
  | cons call calls ih =>
    have hline := length_callLine_le (hcalls call List.mem_cons_self) call.2
    have hrest := ih fun other hother => hcalls other (List.mem_cons_of_mem call hother)
    rw [List.flatMap_cons, List.length_append, List.length_cons]
    omega

/-- The parser is reached with the rendered text, as long as it has not too
many tokens. -/
theorem parseScript_render {downloads : WorkshopDownloads} (hreads : ReadsCalls reader downloads)
    (hcount : downloads.calls.length ≤ maxDeclared) :
    (Lua.parseScript reader.toReader downloads.render).Succeeds := by
  obtain ⟨ast, htree, htext⟩ := hreads.tree
  have hbytes := utf8Length_render_le downloads
  have hreturn : '\r' ∉ downloads.render := fun h => (char_of_mem_render h).2.2 rfl
  have hnul : '\x00' ∉ downloads.render := fun h => (char_of_mem_render h).2.1 rfl
  have hsource : Lua.checkSource downloads.render = .ok () := by
    unfold Lua.checkSource
    rw [ensure_of (by unfold Lua.maxSourceBytes; unfold maxDeclared at hcount; omega), ok_bind,
      ensure_of hnul]
  have hscan : Lua.scanScript (reader.tokens downloads.render)
      ⟨ScriptScope.new none false, [], false, 0⟩ = .ok () := by
    rw [hreads.tokens]
    apply scan_calls ⟨rfl, rfl, Nat.zero_le 2⟩
    unfold maxDeclared at hcount
    show 0 + 4 * downloads.calls.length + 1 ≤ 65536
    omega
  refine ⟨ast, ?_⟩
  simp only [Lua.parseScript, bind_eq_ok, Lua.normalizeLineEndings_eq_self hreturn, hsource, hscan,
    htree, orError_eq_ok, ensure_eq_ok, pure_eq_ok, Except.ok.injEq, Option.some.injEq]
  exact ⟨(), trivial, (), trivial, ast, rfl, (), htext, rfl⟩

theorem workshopId_decimal (id : WorkshopId) :
    workshopId (.ofList (Text.decimal id.val)) = .ok id := by
  have hzero : (Text.decimal id.val).head? ≠ some '0' := by
    intro hhead
    have hvalue := Numeral.head?_decimal id.val hhead
    have hpos := id.property.1
    omega
  have hall : (Text.decimal id.val).all Char.isDigit = true :=
    List.all_eq_true.2 fun _ hc => Text.isDigit_of_mem_decimal hc
  unfold workshopId
  rw [String.toList_ofList, ensure_of ⟨Text.decimal_ne_nil id.val, hzero, hall⟩, ok_bind,
    Json.digits?_decimal]
  show (if h : 0 < id.val ∧ id.val < Json.u64Bound then _ else _) = _
  rw [dif_pos id.property]
  rfl

/-- A quoted id stands for itself. -/
theorem string_decimal (id : WorkshopId) :
    Lua.string .double (Text.decimal id.val) = .ok (.ofList (Text.decimal id.val)) := by
  have hascii : ∀ c ∈ Text.decimal id.val, c.toNat < 128 := by
    intro c hc
    have hdigit := Text.toNat_of_mem_decimal hc
    omega
  have hplain : ∀ byte ∈ utf8 (Text.decimal id.val), byte ≠ 92 := by
    intro byte hbyte heq
    rw [utf8_of_ascii hascii] at hbyte
    obtain ⟨c, hc, hbyte⟩ := List.mem_map.1 hbyte
    have hdigit := Text.toNat_of_mem_decimal hc
    rw [heq] at hbyte
    have hvalue := congrArg UInt8.toNat hbyte
    rw [UInt8.toNat_ofNat'] at hvalue
    change c.toNat % 256 = 92 at hvalue
    omega
  have hdecode : Lua.decode (utf8 (Text.decimal id.val) ++ []) = _ := Lua.decode_plain hplain
  rw [List.append_nil, Lua.decode] at hdecode
  show (Lua.decode (utf8 (Text.decimal id.val)) >>= _) = _
  rw [hdecode]
  show orError (String.fromUTF8? (utf8 (Text.decimal id.val) ++ []).toByteArray) _ = _
  rw [List.append_nil, fromUTF8?_utf8]
  rfl

/-- The declaration of a rendered call. -/
theorem declaration?_idCall {function : String} {collection : Bool}
    (h : declares function.toList = some collection) (id : WorkshopId) :
    declaration? (idCall function id) = some (collection, .ofList (Text.decimal id.val)) := by
  have hascii := (digits_of_workshopId (workshopId_decimal id)).2
  have hempty := (digits_of_workshopId (workshopId_decimal id)).1
  have hdeclaration : declaration? (idCall function id) = _ :=
    declaration?_of_string rfl rfl rfl (string_decimal id)
  rw [hdeclaration, h, Option.bind_some, if_pos ⟨hascii, fun h => hempty h.1⟩]

/-- A setup with more items or more collections. -/
def Setup.extend (setup : Setup) (collection : Bool) (ids : Finset WorkshopId) : Setup :=
  if collection then { setup with collections := ids ∪ setup.collections }
  else { setup with items := ids ∪ setup.items }

theorem Setup.extend_insert (setup : Setup) (collection : Bool) (id : WorkshopId)
    (ids : Finset WorkshopId) :
    (setup.extend collection [id].toFinset).extend collection ids =
      setup.extend collection (insert id ids) := by
  have hset (set : Finset WorkshopId) : ids ∪ ([id].toFinset ∪ set) = insert id ids ∪ set := by
    ext other
    simp only [Finset.mem_union, Finset.mem_insert, List.mem_toFinset, List.mem_singleton]
    tauto
  cases collection with
  | true => exact congrArg (fun set => { setup with collections := set }) (hset setup.collections)
  | false => exact congrArg (fun set => { setup with items := set }) (hset setup.items)

/-- The calls of one function add their ids. -/
theorem collect_ids {function : String} {collection : Bool}
    (h : declares function.toList = some collection) (ids : List WorkshopId) (setup : Setup) :
    (ids.map fun id => some (idCall function id)).foldlM collect setup =
      .ok (setup.extend collection ids.toFinset) := by
  induction ids generalizing setup with
  | nil => cases collection <;> simp [Setup.extend]
  | cons id ids ih =>
    have hfirst : collectCall setup (idCall function id) =
        .ok (setup.extend collection [id].toFinset) := by
      unfold collectCall
      rw [declaration?_idCall h]
      simp only [workshopId_decimal]
      cases collection <;> rfl
    rw [List.map_cons, List.foldlM_cons]
    show (collectCall setup (idCall function id) >>= _) = _
    rw [hfirst, ok_bind, ih, Setup.extend_insert, List.toFinset_cons]

/-- The scan of a rendered file finds what was rendered. -/
theorem scan_of_render {downloads : WorkshopDownloads} (hreads : ReadsCalls reader downloads)
    (hcount : downloads.calls.length ≤ maxDeclared) :
    ∃ setup, scanSetup reader downloads.render = .ok setup ∧
      setup.toDeclared = downloads.declared := by
  obtain ⟨ast, hparse⟩ := parseScript_render hreads hcount
  have hreturn : '\r' ∉ downloads.render := fun h => (char_of_mem_render h).2.2 rfl
  have hcalls : (downloads.calls.map fun call => some (idCall call.1 call.2)) =
      ((ascending downloads.declared.items).map fun id => some (idCall "ServerModSetup" id)) ++
        (ascending downloads.declared.collections).map fun id =>
          some (idCall "ServerModCollectionSetup" id) := by
    unfold WorkshopDownloads.calls
    rw [List.map_append, List.map_map, List.map_map]
    rfl
  unfold scanSetup
  rw [hparse, Lua.normalizeLineEndings_eq_self hreturn, hreads.nodes]
  show ∃ setup, (List.foldlM collect _ _ >>= _) = _ ∧ _
  have hitems : declares "ServerModSetup".toList = some false := by decide
  have hcollections : declares "ServerModCollectionSetup".toList = some true := by decide
  rw [hcalls, List.foldlM_append, collect_ids hitems, ok_bind, collect_ids hcollections]
  refine ⟨_, rfl, ?_⟩
  show (⟨(ascending downloads.declared.items).toFinset ∪ ∅,
    (ascending downloads.declared.collections).toFinset ∪ ∅⟩ : Declared) = downloads.declared
  rw [toFinset_ascending, toFinset_ascending, Finset.union_empty, Finset.union_empty]

theorem length_callTokens (calls : List (String × WorkshopId)) :
    (calls.flatMap fun _ => callTokens.map some).length = 4 * calls.length := by
  induction calls with
  | nil => rfl
  | cons call calls ih =>
    have hfour : (callTokens.map some).length = 4 := by decide
    rw [List.flatMap_cons, List.length_append, ih, List.length_cons, hfour]
    omega

/-- A rendered file that the scan takes has the tokens of a script. -/
theorem length_calls_le {downloads : WorkshopDownloads} (hreads : ReadsCalls reader downloads)
    (h : (scanSetup reader downloads.render).Succeeds) : downloads.calls.length ≤ maxDeclared := by
  obtain ⟨setup, h⟩ := h
  have hreturn : '\r' ∉ downloads.render := fun h => (char_of_mem_render h).2.2 rfl
  cases hparse : Lua.parseScript reader.toReader downloads.render with
  | error fault =>
    unfold scanSetup at h
    rw [hparse] at h
    cases h
  | ok ast =>
    simp only [Lua.parseScript, bind_eq_ok, Lua.normalizeLineEndings_eq_self hreturn] at hparse
    obtain ⟨_, _, _, hscan, _⟩ := hparse
    have htokens := Lua.tokens_le_of_scanScript ⟨_, hscan⟩ (Nat.zero_le Lua.maxTokens)
    have hlength : (reader.tokens downloads.render).length = 4 * downloads.calls.length + 1 := by
      rw [hreads.tokens, List.length_append, length_callTokens]
      rfl
    rw [hlength] at htokens
    unfold Lua.maxTokens at htokens
    unfold maxDeclared
    change 0 + (4 * downloads.calls.length + 1) ≤ 65536 at htokens
    omega

/-- Both readers of a setup file find the same ids in what the stricter one
accepts, and the scan finds in a rendered file what was rendered exactly if
that does not name more ids than a script has the tokens for. -/
theorem setup_readers_agree (reader : ScriptReader) :
    (∀ (doubles : Doubles) (source : Text) (downloads : WorkshopDownloads),
      WorkshopDownloads.parse doubles reader source = .ok downloads →
      ∃ setup, scanSetup reader source = .ok setup ∧ setup.toDeclared = downloads.declared) ∧
    ∀ downloads : WorkshopDownloads, ReadsCalls reader downloads →
      ((∃ setup, scanSetup reader downloads.render = .ok setup ∧
          setup.toDeclared = downloads.declared) ↔
        downloads.declared.items.card + downloads.declared.collections.card ≤ maxDeclared) := by
  refine ⟨fun doubles source downloads h => scan_of_parse h, ?_⟩
  intro downloads hreads
  rw [← length_calls]
  constructor
  · intro h
    obtain ⟨setup, hscan, _⟩ := h
    exact length_calls_le hreads ⟨setup, hscan⟩
  · exact scan_of_render hreads

/-- A parser that knows one rendered file. -/
def knowing (downloads : WorkshopDownloads) : ScriptReader where
  tokens text :=
    if text = downloads.render then
      (downloads.calls.flatMap fun _ => callTokens.map some) ++ [some .eof]
    else [none]
  parseFallible text :=
    if text = downloads.render then some ⟨downloads.calls.length, none, text⟩ else none
  nodes _ := ⟨downloads.calls.map fun call => some (idCall call.1 call.2), none⟩

theorem readsCalls_knowing (downloads : WorkshopDownloads) :
    ReadsCalls (knowing downloads) downloads where
  tokens := if_pos rfl
  tree := ⟨_, if_pos rfl, rfl⟩
  nodes := rfl

/-- A call for an item adds it. -/
theorem addCall_item {text : String} {id : WorkshopId} (h : workshopId text = .ok id)
    (ids : Declared) :
    WorkshopDownloads.addCall ids ("ServerModSetup".toList, [.string text]) =
      .ok { ids with items := insert id ids.items } := by
  have hempty := (digits_of_workshopId h).1
  have hlength : [Json.string text].length = 1 := rfl
  unfold WorkshopDownloads.addCall
  rw [ensure_of hlength]
  show WorkshopDownloads.addId ids "ServerModSetup".toList text = _
  unfold WorkshopDownloads.addId
  rw [if_pos rfl, if_neg hempty, h]
  rfl

def sampleId : WorkshopId := ⟨42, by decide⟩

/-- The parser at a file with one call. -/
def oneCall : ScriptReader where
  tokens _ := callTokens.map some ++ [some .eof]
  parseFallible text := some ⟨1, none, text⟩
  nodes _ := ⟨[some (idCall "ServerModSetup" sampleId)], none⟩

/-- A file with one call and no line ending. -/
def oneCallSource : Text := "ServerModSetup(\"42\")".toList

theorem parse_oneCall :
    ∃ downloads, WorkshopDownloads.parse Lua.sampleDoubles oneCall oneCallSource =
      .ok downloads := by
  have hparse : Lua.parse oneCall.toReader oneCallSource true = .ok ⟨1, none, oneCallSource⟩ := rfl
  have hcall : Lua.literalCall Lua.sampleDoubles (idCall "ServerModSetup" sampleId) =
      .ok ("ServerModSetup".toList, [.string (.ofList (Text.decimal sampleId.val))]) := by
    show (([Lua.Expression.string .double (Text.decimal sampleId.val)].mapM' fun argument =>
      Lua.value Lua.sampleDoubles argument 0).map _) = _
    rw [List.mapM'_cons, Lua.value, string_decimal]
    rfl
  have hcalls : Lua.literalCalls Lua.sampleDoubles oneCall oneCallSource =
      .ok [("ServerModSetup".toList, [.string (.ofList (Text.decimal sampleId.val))])] := by
    unfold Lua.literalCalls
    rw [hparse, ok_bind]
    show (Lua.literalCallsOf _ _ [some (idCall "ServerModSetup" sampleId)] >>= _) = _
    rw [Lua.literalCallsOf, List.mapM'_cons]
    show (((Lua.literalCall Lua.sampleDoubles (idCall "ServerModSetup" sampleId)) >>= _) >>= _) = _
    rw [hcall]
    rfl
  have hids : ascending {sampleId} = [sampleId] := Finset.sort_singleton (· ≤ ·) _
  have hnone : ascending ∅ = [] := Finset.sort_empty (· ≤ ·)
  have hdeclared : WorkshopDownloads.addCall .empty
      ("ServerModSetup".toList, [.string (.ofList (Text.decimal sampleId.val))]) =
      .ok ⟨{sampleId}, ∅⟩ := addCall_item (workshopId_decimal sampleId) .empty
  unfold WorkshopDownloads.parse
  rw [hcalls, ok_bind, List.foldlM_cons, hdeclared]
  show ∃ downloads, WorkshopDownloads.fromDeclared ⟨{sampleId}, ∅⟩ = .ok downloads
  unfold WorkshopDownloads.fromDeclared WorkshopDownloads.idArray
  simp only [hids, hnone]
  exact ⟨_, rfl⟩

/-- An item and the largest collection. -/
def sampleDownloads : WorkshopDownloads where
  collections := some [⟨18446744073709551615, by decide⟩]
  items := some [sampleId]
  nodup_collections := List.nodup_singleton _
  nodup_items := List.nodup_singleton _

theorem setup_readers_agree_sample :
    (∃ downloads setup,
      WorkshopDownloads.parse Lua.sampleDoubles oneCall oneCallSource = .ok downloads ∧
      scanSetup oneCall oneCallSource = .ok setup ∧ setup.toDeclared = downloads.declared) ∧
    ∃ setup, scanSetup (knowing sampleDownloads) sampleDownloads.render = .ok setup ∧
      setup.toDeclared = sampleDownloads.declared := by
  constructor
  · obtain ⟨downloads, hparse⟩ := parse_oneCall
    obtain ⟨setup, hscan, hids⟩ := (setup_readers_agree oneCall).1 _ _ downloads hparse
    exact ⟨downloads, setup, hparse, hscan, hids⟩
  · exact ((setup_readers_agree _).2 _ (readsCalls_knowing sampleDownloads)).2 (by decide)

/-! ## Too many ids -/

/-- The ids from one on. -/
def consecutive (count : Nat) (hcount : count < Json.u64Bound) : List WorkshopId :=
  (List.finRange count).map fun i => ⟨i.val + 1, Nat.succ_pos i.val,
    Nat.lt_of_le_of_lt i.isLt hcount⟩

theorem nodup_consecutive (count : Nat) (hcount : count < Json.u64Bound) :
    (consecutive count hcount).Nodup := by
  apply List.Nodup.map _ (List.nodup_finRange count)
  intro i j heq
  have hval := congrArg Subtype.val heq
  exact Fin.ext (Nat.succ.inj hval)

def consecutiveItems (count : Nat) (hcount : count < Json.u64Bound) : WorkshopDownloads where
  collections := none
  items := some (consecutive count hcount)
  nodup_collections := List.nodup_nil
  nodup_items := nodup_consecutive count hcount

theorem length_calls_consecutive (count : Nat) (hcount : count < Json.u64Bound) :
    (consecutiveItems count hcount).calls.length = count := by
  have hitems : (consecutiveItems count hcount).declared.items.card = count := by
    show (consecutive count hcount).toFinset.card = count
    rw [List.toFinset_card_of_nodup (nodup_consecutive count hcount), consecutive, List.length_map,
      List.length_finRange]
  rw [length_calls, hitems]
  rfl

/-- A file with 16384 items is rendered, and the scan refuses it. -/
theorem scan_refuses_rendered :
    ∃ reader, ReadsCalls reader (consecutiveItems 16384 (by decide)) ∧
      ¬(scanSetup reader (consecutiveItems 16384 (by decide)).render).Succeeds := by
  refine ⟨knowing (consecutiveItems 16384 (by decide)), readsCalls_knowing _, ?_⟩
  intro h
  have hle := length_calls_le (readsCalls_knowing _) h
  rw [length_calls_consecutive] at hle
  exact absurd hle (by decide)

end DstServer.Mods
