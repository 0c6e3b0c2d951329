import ReportSql.Proofs.ReadQueries
import ReportSql.Proofs.ReadableTrees
import ReportSql.Proofs.SeparateTrees

/-!
The text of a tree is read as the syntax of the tree, construct by construct.
-/
namespace ReportSql.Tree

open Output (isWrittenBare nameToken spelled isReserved)
open Sql.Grammar (Reads Leads Inside ReadsItem ReadsOption ReadsArgument ReadsBranch ReadsQuery
  ReadsSelectItem ReadsKey ReadsTable ReadsJoin ReadsSource ReadsCte ReadsOrder ReadsChain nesting
  NothingEmpty reservedConstructs openingWords notColumns notTokens distinctTokens whenTokens
  testPrecedence)
open Sql.Parse (commaJoined wordIdent)

variable {n m level edge level' edge' : Nat} {name k type sql : String} {ts us : List Sql.Token}
  {x y : Sql.Expr} {negated : Bool} {label : Option String}

/-! ### Names -/

theorem wordIdent_name : wordIdent name (!isWrittenBare name) = nameIdent name := by
  unfold wordIdent nameIdent
  cases isWrittenBare name <;> rfl

/-- A name is written with quotes where it spells a reserved word. -/
theorem keyword?_name_ne (hk : isReserved (Text.lower k) = true) :
    (nameToken name).keyword? ≠ some k := by
  unfold nameToken
  cases bare : isWrittenBare name with
  | false => exact nofun
  | true =>
      simp only [isWrittenBare, Bool.and_eq_true, Bool.not_eq_true'] at bare
      exact fun h => Output.upper_ne_of_reserved bare.1 bare.2 hk (Option.some.inj h)

theorem getD_notMem {o : Option String} {ks : List String} (hk : "" ∉ ks)
    (h : ∀ k ∈ ks, o ≠ some k) : o.getD "" ∉ ks := by
  cases o with
  | none => exact hk
  | some k => exact fun hks => h k hks rfl

theorem reserved_notColumns : ∀ k ∈ reservedConstructs ++ openingWords,
    isReserved (Text.lower k) = true := by
  decide +kernel

theorem column_start (h : isColumnStart name = true) :
    (nameToken name).keyword?.getD "" ∉ notColumns := by
  refine getD_notMem (by decide) fun k hk same => ?_
  simp only [notColumns, List.append_assoc, List.mem_append] at hk
  rcases hk with construct | reserved
  · simp [isColumnStart, same, construct] at h
  · exact keyword?_name_ne (reserved_notColumns k (List.mem_append.mpr reserved)) same

theorem call_start (h : isCallStart name = true) :
    (Sql.Token.word (Text.upper name) false).keyword?.getD "" ∉ Sql.Grammar.callConstructs := by
  refine getD_notMem (by decide) fun k hk same => ?_
  simp [isCallStart, same, hk] at h

theorem reads_column {table : Option String} (h : isColumnStart (table.getD name) = true) :
    Leads (nesting n) edge (spelled (Expr.column table name).tokens)
      (Expr.column table name).toSyntax := by
  cases table with
  | none =>
      have own := @Leads.column (nesting n) name edge (!isWrittenBare name) (column_start h)
      rw [wordIdent_name] at own
      have text : spelled (Expr.column none name).tokens = [nameToken name] := by
        simp [Expr.tokens, qualifier]
      rw [text]
      exact own
  | some table =>
      have own := @Leads.qualified (nesting n) table name edge (!isWrittenBare table)
        (!isWrittenBare name) (column_start h)
      rw [wordIdent_name, wordIdent_name] at own
      have text : spelled (Expr.column (some table) name).tokens =
          [nameToken table, .symbol .period, nameToken name] := by
        simp [Expr.tokens, qualifier]
        rfl
      rw [text]
      exact own

/-! ### Literals -/

theorem reads_literal {value : Literal} (h : value.isReadable = true) :
    Leads (nesting n) edge (spelled [value.token]) value.toSyntax := by
  cases value with
  | int v => exact Leads.number
  | float v => cases h
  | text s => exact Leads.text
  | boolean b =>
      refine Leads.boolean (b := b) ?_
      cases b <;> decide +kernel
  | date d => exact Leads.date
  | null => exact Leads.null

theorem reads_raw (h : Sql.isNumeral sql = true) :
    Leads (nesting n) edge (spelled [.raw sql]) (Expr.raw sql).toSyntax := by
  simpa [Output.spelling_number h, Expr.toSyntax] using Leads.number

/-! ### Operators -/

theorem reads_binary {op : BinaryOp} (hl : Reads (nesting n) level edge ts x)
    (hr : Inside (nesting n) level' edge' us y) (left : op.precedence ≤ edge)
    (right : op.precedence < level') :
    Reads (nesting n) (min op.precedence level) (min op.precedence edge')
      (ts ++ (spelled op.tokens ++ us)) (op.toSyntax x y) := by
  cases op with
  | eq => exact hl.binary (s := .eq) (by decide) rfl hr left right
  | ne => exact hl.binary (s := .neq) (by decide) rfl hr left right
  | lt => exact hl.binary (s := .lt) (by decide) rfl hr left right
  | gt => exact hl.binary (s := .gt) (by decide) rfl hr left right
  | ltEq => exact hl.binary (s := .ltEq) (by decide) rfl hr left right
  | gtEq => exact hl.binary (s := .gtEq) (by decide) rfl hr left right
  | plus => exact hl.binary (s := .plus) (by decide) rfl hr left right
  | minus => exact hl.binary (s := .minus) (by decide) rfl hr left right
  | times => exact hl.binary (s := .star) (by decide) rfl hr left right
  | divide => exact hl.binary (s := .slash) (by decide) rfl hr left right
  | modulo => exact hl.binary (s := .percent) (by decide) rfl hr left right
  | concat => exact hl.binary (s := .concat) (by decide) rfl hr left right
  | and => exact hl.connective (w := "AND") (by decide) hr left right
  | or => exact hl.connective (w := "OR") (by decide) hr left right
  | like => exact hl.like false false hr left right
  | notLike => exact hl.like true false hr left right
  | ilike => exact hl.like false true hr left right
  | notIlike => exact hl.like true true hr left right

theorem reads_isNull (negated : Bool) (hx : Reads (nesting n) level edge ts x) (left : 40 ≤ edge) :
    Reads (nesting n) (min 40 level) 200
      (ts ++ spelled [.mark (if negated then .isNotNull else .isNull)]) (.isNull x negated) := by
  cases negated with
  | false => exact hx.isNull false left
  | true => exact hx.isNull true left

theorem reads_isTruth (negated value : Bool) (hx : Reads (nesting n) level edge ts x)
    (left : 40 ≤ edge) :
    Reads (nesting n) (min 40 level) 200
      (ts ++ spelled
        (spaced .is ++ leadingNot negated ++ [.mark (if value then .true else .false)]))
      (.isTruth x value negated) := by
  cases negated <;> cases value
  · exact hx.isTruth false false left
  · exact hx.isTruth false true left
  · exact hx.isTruth true false left
  · exact hx.isTruth true true left

theorem castType_alone (h : (castType? type).isSome = true) :
    Sql.Grammar.dataType [.word type false] = .ok (castType type, []) := by
  unfold castType castType? at *
  cases read : Sql.Grammar.dataType [.word type false] with
  | error e => simp [read] at h
  | ok found =>
      obtain ⟨found, rest⟩ := found
      cases rest with
      | nil => rfl
      | cons t rest => simp [read] at h

theorem castType_notArray (h : (castType? type).isSome = true) :
    (Sql.Token.word type false).keyword? ≠ some "ARRAY" := by
  intro array
  have refused : Sql.Grammar.dataType [.word type false] = .error .unexpected := by
    have : (Sql.Token.word type false).isKeyword "ARRAY" = true := by
      simp [Sql.Token.isKeyword, array]
    simp [Sql.Grammar.dataType, Sql.Grammar.dataTypeWithin, this, Sql.Parse.expect]
  rw [castType_alone h] at refused
  cases refused

theorem reads_cast (hx : Reads (nesting n) level edge ts x) (left : 140 ≤ edge)
    (h : (castType? type).isSome = true) :
    Reads (nesting n) (min 140 level) 200 (ts ++ spelled [.castTo type])
      (.cast .suffix x (castType type) none) :=
  hx.cast left (castType_notArray h) (castType_alone h)

theorem Expr.level_pos : ∀ e : Expr, 0 < e.level
  | .binary left op _ => by
      have := left.level_pos
      cases op <;> simp only [Expr.level, BinaryOp.precedence] <;> omega
  | .inList operand (_ :: _) _ | .inQuery operand _ _ | .between operand _ _ _
  | .isNull operand _ | .isTruth operand _ _ => by
      have := operand.level_pos
      simp only [Expr.level, testPrecedence]
      omega
  | .cast _ _ | .inList _ [] _ | .column _ _ | .literal _ | .param _ | .unary _ _ | .call _ _ _
  | .case _ _ _ | .subquery _ | .exists _ _ | .interval _ | .star _ | .paren _ | .raw _ => by
      simp [Expr.level]

/-- A cast can follow an expression that it needs no parentheses for. -/
theorem atomic_edge {e : Expr} (h : e.isAtomic = true) : e.edge = 200 ∧ min 140 e.level = 140 := by
  cases e <;> first | (cases h; done) | simp [Expr.edge, Expr.level]

/-! ### Tokens -/

/-- The name of an alias, and whether it is quoted. -/
def labelWord (label : Option String) : Option (String × Bool) :=
  label.map fun l => (l, !isWrittenBare l)

theorem aliasIdent_label : Sql.Grammar.aliasIdent (labelWord label) = label.map nameIdent := by
  cases label with
  | none => rfl
  | some l => exact congrArg some wordIdent_name

theorem aliasOf_label : Sql.Grammar.aliasOf (labelWord label) = aliasSyntax label := by
  cases label with
  | none => rfl
  | some l =>
      show some (⟨wordIdent l (!isWrittenBare l), []⟩ : Sql.Alias) = some ⟨nameIdent l, []⟩
      rw [wordIdent_name]

theorem spelled_alias :
    spelled (aliasTokens label) = Sql.Grammar.aliasTokens (labelWord label) := by
  cases label with
  | none => rfl
  | some l =>
      simp only [aliasTokens, Output.spelled_cons, Output.spelling_ident, Output.spelled_nil]
      rfl

theorem spelled_parens {inner : List Output.Token} : spelled (parens inner) =
    .symbol .leftParen :: (spelled inner ++ [.symbol .rightParen]) := by
  simp only [parens, List.cons_append, Output.spelled_cons, Output.spelled_append]
  rfl

theorem spelled_spaced {m : Output.Mark} : spelled (spaced m) = m.spelling := by
  simp [spaced, Output.Mark.spelling]

theorem spelled_spacedNot : spelled (spacedNot negated) = notTokens negated := by
  cases negated <;> rfl

theorem spelled_leadingNot : spelled (leadingNot negated) = notTokens negated := by
  cases negated <;> rfl

theorem opener_ne {ts : List Output.Token} (h : opener ts ≠ some k) :
    ∀ t ∈ (spelled ts).head?, t.keyword? ≠ some k := by
  intro t ht
  rw [opener, Option.mem_def.mp ht] at h
  exact h

/-! ### Expressions -/

/-- The text of an expression is read as its syntax, up to operators that do not bind tightly
enough. -/
def Expr.ReadBack (e : Expr) : Prop :=
  ∀ n, e.depth ≤ n → Reads (nesting n) e.level e.edge (spelled e.tokens) e.toSyntax

variable {e l r low high : Expr}

theorem Expr.ReadBack.inside (h : e.ReadBack) (hn : e.depth + 1 ≤ n) :
    Inside (nesting n) e.level e.edge (spelled e.tokens) e.toSyntax := by
  obtain ⟨m, rfl⟩ : ∃ m, n = m + 1 := ⟨n - 1, by omega⟩
  exact (h m (by omega)).inside

theorem Expr.ReadBack.item (h : e.ReadBack) (hn : e.depth + 1 ≤ n) :
    ReadsItem (nesting n) (spelled e.tokens) e.toSyntax :=
  ⟨e.level, e.edge, e.level_pos, h.inside hn⟩

theorem Expr.ReadBack.binary {op : BinaryOp} (hl : l.ReadBack) (hr : r.ReadBack)
    (left : op.precedence ≤ l.edge) (right : op.precedence < r.level) :
    (Expr.binary l op r).ReadBack := by
  intro n hn
  simp only [Expr.depth] at hn
  have read := reads_binary (hl n (by omega)) (hr.inside (n := n) (by omega)) left right
  have text : spelled (Expr.binary l op r).tokens =
      spelled l.tokens ++ (spelled op.tokens ++ spelled r.tokens) := by
    simp [Expr.tokens, Output.Mark.spelling]
  rw [text]
  exact read

theorem Expr.ReadBack.not (h : e.ReadBack) (hl : UnaryOp.not.precedence < e.level)
    (start : opener e.tokens ≠ some "EXISTS") : (Expr.unary .not e).ReadBack := by
  intro n hn
  simp only [Expr.depth] at hn
  have text : spelled (Expr.unary .not e).tokens = .word "NOT" false :: spelled e.tokens := by
    simp only [Expr.tokens, Output.spelled_cons]
    rfl
  rw [text]
  exact (Leads.not (h.inside hn) hl (opener_ne start) (h.item hn).nonempty).whole

theorem Expr.ReadBack.minus (h : e.ReadBack) (hl : UnaryOp.minus.precedence < e.level) :
    (Expr.unary .minus e).ReadBack := by
  intro n hn
  simp only [Expr.depth] at hn
  have text : spelled (Expr.unary .minus e).tokens = .symbol .minus :: spelled e.tokens := by
    simp only [Expr.tokens, Output.spelled_cons]
    rfl
  rw [text]
  exact (Leads.minus (h.inside hn) hl).whole

theorem Expr.ReadBack.isNull (h : e.ReadBack) (left : 40 ≤ e.edge) :
    (Expr.isNull e negated).ReadBack := by
  intro n hn
  simp only [Expr.depth] at hn
  have read := reads_isNull negated (h n hn) left
  have text : spelled (Expr.isNull e negated).tokens =
      spelled e.tokens ++ spelled [.mark (if negated then .isNotNull else .isNull)] := by
    simp [Expr.tokens, Output.Mark.spelling]
  rw [text]
  exact read

theorem Expr.ReadBack.isTruth {value : Bool} (h : e.ReadBack) (left : 40 ≤ e.edge) :
    (Expr.isTruth e value negated).ReadBack := by
  intro n hn
  simp only [Expr.depth] at hn
  have read := reads_isTruth negated value (h n hn) left
  have text : spelled (Expr.isTruth e value negated).tokens = spelled e.tokens ++
      spelled (spaced .is ++ leadingNot negated ++ [.mark (if value then .true else .false)]) := by
    simp [Expr.tokens]
  rw [text]
  exact read

theorem Expr.ReadBack.between (h : e.ReadBack) (hl : low.ReadBack) (hh : high.ReadBack)
    (left : testPrecedence ≤ e.edge) (middle : testPrecedence < low.level) (ends : 20 ≤ low.edge)
    (right : testPrecedence < high.level) : (Expr.between e low high negated).ReadBack := by
  intro n hn
  simp only [Expr.depth] at hn
  have read := (h n (by omega)).between negated (hl.inside (n := n) (by omega))
    (hh.inside (by omega)) left middle ends right
  have text : spelled (Expr.between e low high negated).tokens =
      spelled e.tokens ++ (notTokens negated ++ .word "BETWEEN" false ::
        (spelled low.tokens ++ .word "AND" false :: spelled high.tokens)) := by
    simp only [Expr.tokens, Output.spelled_append, spelled_spacedNot, spelled_spaced,
      List.append_assoc]
    rfl
  rw [text]
  exact read

theorem Expr.ReadBack.paren (h : e.ReadBack) : (Expr.paren e).ReadBack := by
  intro n hn
  simp only [Expr.depth] at hn
  simp only [Expr.tokens, spelled_parens]
  exact (Leads.nested (h.item hn)).whole

theorem Expr.ReadBack.cast (h : e.ReadBack) (ht : (castType? type).isSome = true) :
    (Expr.cast e type).ReadBack := by
  intro n hn
  simp only [Expr.depth] at hn
  simp only [Expr.tokens, Expr.toSyntax, Output.spelled_append]
  by_cases atomic : e.isAtomic = true
  · obtain ⟨edge, level⟩ := atomic_edge atomic
    simp only [atomic, if_true] at hn ⊢
    have read := reads_cast (h n hn) (by omega) ht
    rw [level] at read
    exact read
  · simp only [atomic, Bool.false_eq_true, if_false, spelled_parens] at hn ⊢
    have whole : Reads (nesting n) 200 200 _ _ := (Leads.nested (h.item hn)).whole
    exact reads_cast whole (by decide) ht

theorem readBack_interval {text : String} : (Expr.interval text).ReadBack := by
  intro n _
  have text : spelled (Expr.interval text).tokens =
      [.word "INTERVAL" false, .text .plain text] := by
    simp only [Expr.tokens, Output.spelled_cons]
    rfl
  rw [text]
  exact Leads.interval.whole

/-! ### Lists of expressions -/

variable {es : List Expr} {o : Option Expr} {branches : List Branch} {words : List Sql.Token}

theorem exprs_read (h : ∀ e ∈ es, e.ReadBack) (hn : exprsDepth es + 1 ≤ n) :
    List.Forall₂ (ReadsItem (nesting n)) ((exprGroups es).map spelled) (exprsSyntax es) := by
  induction es with
  | nil => exact .nil
  | cons e es ih =>
      obtain ⟨own, others⟩ := List.forall_mem_cons.mp h
      simp only [exprsDepth] at hn
      exact .cons (own.item (by omega)) (ih others (by omega))

/-- A readable expression is no star. -/
theorem toSyntax_notWildcard (h : e.isReadable = true) : ∀ names, e.toSyntax ≠ .wildcard names := by
  intro names
  cases e with
  | star table => cases h
  | literal value => cases value <;> exact nofun
  | binary l op r => cases op <;> exact nofun
  | unary op e => cases op <;> exact nofun
  | inList e values negated => cases values <;> exact nofun
  | _ => exact nofun

theorem arguments_read (h : argumentsReadable es = true) (own : ∀ e ∈ es, e.isReadable = true →
    e.ReadBack) (hn : exprsDepth es + 1 ≤ n) :
    List.Forall₂ (ReadsArgument (nesting n)) ((exprGroups es).map spelled)
      (argumentsSyntax es) := by
  have each := argumentsReadable_cases h
  clear h
  induction es with
  | nil => exact .nil
  | cons e es ih =>
      obtain ⟨first, others⟩ := List.forall_mem_cons.mp own
      obtain ⟨kind, kinds⟩ := List.forall_mem_cons.mp each
      simp only [exprsDepth] at hn
      refine .cons ?_ (ih others (by omega) kinds)
      rcases kind with rfl | ⟨plain, readable⟩
      · exact .star
      · rw [plain]
        exact .expr ((first readable).item (by omega)) (toSyntax_notWildcard readable)

/-- The tokens of an optional expression after some words. -/
def optionTokens (words : List Sql.Token) : Option Expr → List Sql.Token
  | none => []
  | some e => words ++ spelled e.tokens

theorem option_read (words : List Sql.Token) (h : ∀ e ∈ o, e.ReadBack)
    (hn : optionDepth o + 1 ≤ n) :
    ReadsOption (nesting n) words (optionTokens words o) (optionSyntax o) := by
  cases o with
  | none => exact .none
  | some e => exact .some ((h e rfl).item hn)

/-- The tokens of a branch after its WHEN. -/
def branchSpelling (b : Branch) : List Sql.Token :=
  spelled b.condition.tokens ++ .word "THEN" false :: spelled b.result.tokens

theorem branches_read (h : ∀ b ∈ branches, b.condition.ReadBack ∧ b.result.ReadBack)
    (hn : branchesDepth branches + 1 ≤ n) :
    List.Forall₂ (ReadsBranch (nesting n)) (branches.map branchSpelling)
      (branchesSyntax branches) := by
  induction branches with
  | nil => exact .nil
  | cons b branches ih =>
      obtain ⟨own, others⟩ := List.forall_mem_cons.mp h
      obtain ⟨condition, result⟩ := b
      have own : condition.ReadBack ∧ result.ReadBack := own
      simp only [branchesDepth] at hn
      exact .cons ((own.1.item (by omega)).branch (own.2.item (by omega))) (ih others (by omega))

theorem spelled_branches : spelled (branchTokens branches) =
    whenTokens (branches.map branchSpelling) := by
  induction branches with
  | nil => rfl
  | cons b branches ih =>
      obtain ⟨condition, result⟩ := b
      simp only [branchTokens, Output.spelled_append, spelled_spaced, ih, List.map_cons,
        Sql.Grammar.whenTokens_cons, branchSpelling, List.append_assoc]
      rfl

/-! ### Calls and cases -/

/-- No expression starts with a star or with a closing parenthesis. -/
theorem expr_unread {s : Sql.Symbol} (hs : s ∈ [Sql.Symbol.star, .rightParen])
    (rest : List Sql.Token) :
    (nesting (n + 1)).expr (.symbol s :: rest) = .error .unexpected := by
  have literal := @Sql.Grammar.typedLiteral_of_not_word rest
    (Sql.Grammar.leadingExpr (nesting n) (rest.length + 1)) (.symbol s) nofun
  have value : Sql.Parse.value (.symbol s :: rest) = .error .unexpected := by
    simp only [List.mem_cons, List.not_mem_nil, or_false] at hs
    rcases hs with rfl | rfl <;> rfl
  have lead : Sql.Grammar.leadingExpr (nesting n) (rest.length + 2) (.symbol s :: rest) =
      .error .unexpected := by
    rw [Sql.Grammar.leadingExpr, Sql.Parse.run_bind, Sql.Parse.run_optional_none literal]
    simp only [List.mem_cons, List.not_mem_nil, or_false] at hs
    rcases hs with rfl | rfl <;>
      simp only [Sql.Parse.run_bind, Sql.Parse.run_ahead, Sql.Parse.run_next, Sql.Parse.run_set,
        value]
  show Sql.Grammar.exprAbove (nesting n) 0 (.symbol s :: rest) = _
  rw [Sql.Grammar.exprAbove_eq, Sql.Parse.run_bind, Sql.Parse.run_ahead]
  simp only [Sql.Parse.run_bind, List.length_cons, lead]

theorem Expr.ReadBack.call {distinct : Bool} (start : isCallStart name = true)
    (readable : argumentsReadable es = true) (nonempty : distinct = true → es ≠ [])
    (own : ∀ e ∈ es, e.isReadable = true → e.ReadBack) :
    (Expr.call name es distinct).ReadBack := by
  intro n hn
  simp only [Expr.depth] at hn
  obtain ⟨m, rfl⟩ : ∃ m, n = m + 1 := ⟨n - 1, by omega⟩
  have arguments := arguments_read readable own hn
  have groups : distinct = true → (exprGroups es).map spelled ≠ [] := by
    intro marked empty
    rw [exprGroups_eq, List.map_map, List.map_eq_nil_iff] at empty
    exact nonempty marked empty
  have read := @Leads.call (nesting (m + 1)) (Text.upper name) 200 false _ _ distinct
    (call_start start) arguments groups (expr_unread (by decide))
  have text : spelled (Expr.call name es distinct).tokens =
      .word (Text.upper name) false :: .symbol .leftParen ::
        (distinctTokens distinct ++ (commaJoined ((exprGroups es).map spelled) ++
          [.symbol .rightParen])) := by
    have marks : spelled (if distinct then [.mark .distinct, .mark .space] else []) =
        distinctTokens distinct := by
      cases distinct <;> rfl
    simp only [Expr.tokens, Output.spelled_cons, Output.spelling_function, spelled_parens,
      Output.spelled_append, marks, Output.spelled_commaSeparated, List.append_assoc]
    rfl
  rw [text]
  exact read.whole

/-- The tokens of the operand of a case. -/
def spacedTokens : Option Expr → List Output.Token
  | some e => .mark .space :: e.tokens
  | none => []

/-- The tokens of what a case is otherwise. -/
def elseTokens : Option Expr → List Output.Token
  | some e => spaced .else ++ e.tokens
  | none => []

theorem Expr.tokens_case (operand : Option Expr) (branches : List Branch)
    (otherwise : Option Expr) :
    (Expr.case operand branches otherwise).tokens = .mark .case :: (spacedTokens operand ++
      (branchTokens branches ++ (elseTokens otherwise ++ [.mark .space, .mark .end]))) := by
  have unfolded : (Expr.case operand branches otherwise).tokens = .mark .case ::
      (spacedTokens operand ++ branchTokens branches ++ elseTokens otherwise
        ++ [.mark .space, .mark .end]) := by
    cases operand <;> cases otherwise <;> rfl
  simp only [unfolded, List.append_assoc]

theorem spelled_operand : spelled (spacedTokens o) = optionTokens [] o := by
  cases o with
  | none => rfl
  | some e => simp [spacedTokens, optionTokens, Output.Mark.spelling]

theorem spelled_else : spelled (elseTokens o) = optionTokens [.word "ELSE" false] o := by
  cases o with
  | none => rfl
  | some e => simp only [elseTokens, Output.spelled_append, spelled_spaced]; rfl

theorem Expr.ReadBack.case {operand otherwise : Option Expr}
    (ho : ∀ e ∈ operand, e.ReadBack) (nonempty : branches ≠ [])
    (hb : ∀ b ∈ branches, b.condition.ReadBack ∧ b.result.ReadBack)
    (he : ∀ e ∈ otherwise, e.ReadBack) : (Expr.case operand branches otherwise).ReadBack := by
  intro n hn
  simp only [Expr.depth] at hn
  have first := option_read [] ho (n := n) (by omega)
  have last := option_read [.word "ELSE" false] he (n := n) (by omega)
  have each := branches_read hb (n := n) (by omega)
  have text : spelled (Expr.case operand branches otherwise).tokens =
      .word "CASE" false :: (optionTokens [] operand ++ (whenTokens (branches.map branchSpelling) ++
        (optionTokens [.word "ELSE" false] otherwise ++ [.word "END" false]))) := by
    simp only [Expr.tokens_case, Output.spelled_cons, Output.spelled_append, spelled_branches,
      spelled_operand, spelled_else]
    rfl
  rw [text]
  cases branches with
  | nil => exact absurd rfl nonempty
  | cons b branches =>
      obtain ⟨condition, result⟩ := b
      obtain ⟨own, others⟩ := List.forall₂_cons.mp each
      exact (Leads.case first own others last).whole

/-! ### Queries in expressions -/

/-- Whether the text of a query is read as its syntax. A chain of set operations without
parentheses may go on from there. -/
structure Query.ReadBack (q : Query) : Prop where
  reads : ∀ n, q.depth ≤ n → ReadsQuery (nesting (n + 1)) (spelled q.tokens) q.toSyntax
  chain : q.isBareSetOperation = true → ∀ n, q.depth ≤ n → ∀ op ∈ q.lastOperator,
    ReadsChain (nesting n) (Sql.Grammar.setPrecedence op) (spelled q.tokens) q.toSyntax.body

variable {q : Query}

theorem Query.ReadBack.inside (h : q.ReadBack) (hn : q.depth + 1 ≤ n) :
    ReadsQuery (nesting n) (spelled q.tokens) q.toSyntax := by
  obtain ⟨m, rfl⟩ : ∃ m, n = m + 1 := ⟨n - 1, by omega⟩
  exact h.reads m (by omega)

/-- The tokens of the common table expressions of a query. -/
def definitionTokens (ctes : List Cte) : List Output.Token :=
  if ctes.isEmpty then []
  else .mark .with :: ((if ctes.any Cte.isRecursive then [.mark .space, .mark .recursive] else [])
    ++ (.mark .space :: (Output.separated [.mark .comma, .mark .newline] (cteGroups ctes)
      ++ [.mark .newline])))

def havingTokens : Option Expr → List Output.Token
  | some e => lineStart .having ++ e.tokens
  | none => []

/-- The tokens of a query that is no set operation, up to the clauses around it. -/
def Query.selectTokens (q : Query) : List Output.Token :=
  .mark .select :: ((if q.distinct then [.mark .space, .mark .distinct] else [])
    ++ (itemTokens (itemGroups q.items) ++ (listTokens .from (sourceGroups q.sources)
      ++ (whereTokens q.condition ++ (listTokens .groupBy (exprGroups q.groupBy)
        ++ havingTokens q.having)))))

def Query.bodyTokens (q : Query) : List Output.Token :=
  match q.setOperation with
  | some operation => operation.tokens
  | none => q.selectTokens

theorem isEmpty_groups {α β : Type} {f : α → β} {as : List α} {bs : List β} (h : bs = as.map f) :
    bs.isEmpty = as.isEmpty := by
  rw [h, List.isEmpty_map]

theorem Query.tokens_parts (q : Query) : q.tokens = definitionTokens q.ctes ++
    (q.bodyTokens ++ (listTokens .orderBy (orderGroups q.orderBy) ++ rowTokens q.rows)) := by
  obtain ⟨ctes, items, distinct, sources, condition, groupBy, having, orderBy, rows, operation⟩ := q
  have unfolded : Query.tokens
      ⟨ctes, items, distinct, sources, condition, groupBy, having, orderBy, rows, operation⟩ =
      (if ctes.isEmpty then []
        else .mark .with
          :: (if ctes.any Cte.isRecursive then [.mark .space, .mark .recursive] else [])
          ++ [.mark .space]
          ++ Output.separated [.mark .comma, .mark .newline] (cteGroups ctes) ++ [.mark .newline])
      ++ (match operation with
        | some operation => operation.tokens
        | none => .mark .select :: (if distinct then [.mark .space, .mark .distinct] else [])
          ++ (if items.isEmpty then []
            else [.mark .newline, .indent 1]
              ++ Output.separated [.mark .comma, .mark .newline, .indent 1] (itemGroups items))
          ++ (if sources.isEmpty then []
            else lineStart .from ++ Output.commaSeparated (sourceGroups sources))
          ++ whereTokens condition
          ++ (if groupBy.isEmpty then []
            else lineStart .groupBy ++ Output.commaSeparated (exprGroups groupBy))
          ++ havingTokens having)
      ++ (if orderBy.isEmpty then []
        else lineStart .orderBy ++ Output.commaSeparated (orderGroups orderBy))
      ++ rowTokens rows := by
    cases operation with
    | none => cases condition <;> cases having <;> cases rows <;> rfl
    | some operation => cases rows <;> rfl
  rw [unfolded]
  simp only [definitionTokens, Query.bodyTokens, Query.selectTokens, itemTokens, listTokens,
    isEmpty_groups (itemGroups_eq items), isEmpty_groups (sourceGroups_eq sources),
    isEmpty_groups (exprGroups_eq groupBy), isEmpty_groups (orderGroups_eq orderBy),
    List.append_assoc, List.cons_append, List.nil_append]

theorem starts_query (h : q.startsPlainly = true) :
    Sql.Grammar.StartsQuery (spelled q.tokens) := by
  simp only [Query.startsPlainly, Bool.or_eq_true, Bool.not_eq_true', Option.isNone_iff_eq_none]
    at h
  rw [Query.tokens_parts, Output.spelled_append]
  by_cases empty : q.ctes.isEmpty = true
  · have select := h.resolve_right (by simp [empty])
    refine ⟨"SELECT", by decide, ?_⟩
    simp only [definitionTokens, empty, if_true, Query.bodyTokens, select, Query.selectTokens,
      Output.spelled_append, Output.spelled_cons]
    exact ⟨_, rfl⟩
  · refine ⟨"WITH", by decide, ?_⟩
    simp only [definitionTokens, empty, Bool.false_eq_true, if_false, Output.spelled_cons]
    exact ⟨_, rfl⟩

theorem Query.ReadBack.subquery (h : q.ReadBack) (starts : q.startsPlainly = true) :
    (Expr.subquery q).ReadBack := by
  intro n hn
  simp only [Expr.depth] at hn
  simp only [Expr.tokens, spelled_parens]
  exact (Leads.subquery (h.inside hn) (starts_query starts)).whole

theorem Query.ReadBack.exists (h : q.ReadBack) : (Expr.exists q negated).ReadBack := by
  intro n hn
  simp only [Expr.depth] at hn
  have text : spelled (Expr.exists q negated).tokens = notTokens negated ++ .word "EXISTS" false ::
      .symbol .leftParen :: (spelled q.tokens ++ [.symbol .rightParen]) := by
    simp only [Expr.tokens, Output.spelled_append, spelled_leadingNot, spelled_parens,
      List.append_assoc]
    rfl
  rw [text]
  exact (Leads.exists (h.inside hn)).whole

theorem Query.ReadBack.inQuery (h : q.ReadBack) (he : e.ReadBack) (starts : q.startsPlainly = true)
    (left : testPrecedence ≤ e.edge) : (Expr.inQuery e q negated).ReadBack := by
  intro n hn
  simp only [Expr.depth] at hn
  have read := (he n (by omega)).inQuery negated (h.inside (n := n) (by omega))
    (starts_query starts) left
  have text : spelled (Expr.inQuery e q negated).tokens = spelled e.tokens ++ (notTokens negated ++
      .word "IN" false :: .symbol .leftParen :: (spelled q.tokens ++ [.symbol .rightParen])) := by
    simp only [Expr.tokens, Output.spelled_append, spelled_spacedNot, spelled_spaced,
      spelled_parens, List.append_assoc]
    rfl
  rw [text]
  exact read

/-- A test of an empty list is written as its value. -/
theorem Expr.ReadBack.inList (h : es.isEmpty = true ∨ e.ReadBack ∧ testPrecedence ≤ e.edge)
    (own : ∀ x ∈ es, x.ReadBack) : (Expr.inList e es negated).ReadBack := by
  intro n hn
  simp only [Expr.depth] at hn
  cases es with
  | nil =>
      cases negated with
      | false => exact (Leads.boolean (b := false) (by decide +kernel)).whole
      | true => exact (Leads.boolean (b := true) (by decide +kernel)).whole
  | cons x es =>
      obtain ⟨he, left⟩ := h.resolve_left nofun
      have read := (he n (by omega)).inList negated (exprs_read own (n := n) (by omega))
        (List.cons_ne_nil _ _) left
      have text : spelled (Expr.inList e (x :: es) negated).tokens = spelled e.tokens ++
          (notTokens negated ++ .word "IN" false :: .symbol .leftParen ::
            (commaJoined ((exprGroups (x :: es)).map spelled) ++ [.symbol .rightParen])) := by
        simp only [Expr.tokens, Output.spelled_append, spelled_spacedNot, spelled_spaced,
          spelled_parens, Output.spelled_commaSeparated, List.append_assoc]
        rfl
      rw [text]
      exact read

/-! ### Select lists and keys -/

variable {items : List SelectItem} {sources : List FromItem} {joins : List Join}
  {orders : List OrderItem} {ctes : List Cte}

/-- The name `from` is written with quotes. -/
theorem toSyntax_notFrom (h : e.isReadable = true) (s : String)
    (same : e.toSyntax = .name [⟨s, .bare⟩]) : (Text.lower s == "from") = false := by
  cases e with
  | column table name =>
      cases table with
      | some table => simp [Expr.toSyntax] at same
      | none =>
          simp only [Expr.toSyntax, nameIdent, Sql.Expr.name.injEq, List.cons.injEq,
            Sql.Ident.mk.injEq, and_true] at same
          obtain ⟨rfl, bare⟩ := same
          by_cases written : isWrittenBare name = true
          · simp only [isWrittenBare, Bool.and_eq_true, Bool.not_eq_true'] at written
            rw [Output.lower_bareName written.1, beq_eq_false_iff_ne]
            rintro rfl
            exact absurd written.2 (by decide)
          · simp [written] at bare
  | literal value => cases value <;> cases same
  | binary l op r => cases op <;> cases same
  | unary op e => cases op <;> cases same
  | inList e values negated => cases values <;> cases same
  | star table => cases h
  | _ => cases same

theorem item_read {i : SelectItem} (h : i.expr.isWildcard = false ∧ i.expr.isReadable = true)
    (own : i.expr.ReadBack) (hn : i.expr.depth + 1 ≤ n) :
    ReadsSelectItem (nesting n) (spelled i.tokens)
      (.expr i.expr.toSyntax (i.label.map nameIdent)) := by
  obtain ⟨expr, label⟩ := i
  have read := ReadsSelectItem.expr (labelWord label) (own.item hn) (toSyntax_notWildcard h.2)
    (toSyntax_notFrom h.2)
  rw [aliasIdent_label, ← spelled_alias, ← Output.spelled_append] at read
  exact read

theorem items_read (h : itemsReadable items = true)
    (own : ∀ i ∈ items, i.expr.isReadable = true → i.expr.ReadBack) (hn : itemsDepth items ≤ n) :
    List.Forall₂ (ReadsSelectItem (nesting n)) ((itemGroups items).map spelled)
      (itemsSyntax items) := by
  have each := itemsReadable_cases h
  clear h
  induction items with
  | nil => exact .nil
  | cons i items ih =>
      obtain ⟨first, others⟩ := List.forall_mem_cons.mp own
      obtain ⟨kind, kinds⟩ := List.forall_mem_cons.mp each
      obtain ⟨expr, label⟩ := i
      simp only [itemsDepth] at hn
      refine .cons ?_ (ih others (by omega) kinds)
      rcases kind with star | plain
      · cases star
        exact .star
      · have read := item_read plain (first plain.2) (n := n) (by simp only; omega)
        rw [show expr.isWildcard = false from plain.1]
        exact read

theorem keys_read (h : keysReadable es = true)
    (own : ∀ e ∈ es, e.isReadable = true → e.ReadBack) (hn : exprsDepth es + 1 ≤ n) :
    List.Forall₂ (ReadsKey (nesting n)) ((exprGroups es).map spelled) (exprsSyntax es) := by
  induction es with
  | nil => exact .nil
  | cons e es ih =>
      obtain ⟨first, others⟩ := List.forall_mem_cons.mp own
      simp only [keysReadable, Bool.and_eq_true, Bool.not_eq_true'] at h
      simp only [exprsDepth] at hn
      refine .cons ⟨(first h.1.1).item (by omega), fun k hk => opener_ne fun same => ?_⟩
        (ih h.2 others (by omega))
      have plain := h.1.2
      rw [same, Option.any_some] at plain
      exact absurd (List.contains_iff_mem.mpr hk) (by simpa [Sql.Grammar.groupWords] using plain)

theorem nothingEmpty : NothingEmpty (nesting n) := by
  intro rest y more read
  cases n with
  | zero => cases read
  | succ n =>
      have literal := @Sql.Grammar.typedLiteral_of_not_word (.symbol .rightParen :: rest)
        (Sql.Grammar.leadingExpr (nesting n) (rest.length + 2)) (.symbol .leftParen) nofun
      have inner : ∃ f, Sql.Parse.commaSeparated (nesting n).expr (.symbol .rightParen :: rest) =
          .error f := by
        cases n with
        | zero => exact ⟨_, rfl⟩
        | succ n =>
            have unread := @expr_unread n .rightParen (by decide) rest
            exact ⟨.unexpected, by simp only [Sql.Parse.commaSeparated,
              Sql.Parse.commaSeparatedWithin, Sql.Parse.run_bind, unread]⟩
      obtain ⟨f, inner⟩ := inner
      have query : Sql.Parse.atQuery (.symbol .rightParen :: rest) = .ok (false, _) := rfl
      have paren : Sql.Grammar.parenExpr (nesting n) (.symbol .rightParen :: rest) = .error f := by
        simp only [Sql.Grammar.parenExpr, Sql.Parse.run_bind, query, Sql.Parse.run_ite,
          Bool.false_eq_true, if_false, inner]
      have lead : Sql.Grammar.leadingExpr (nesting n) (rest.length + 3)
          (.symbol .leftParen :: .symbol .rightParen :: rest) = .error f := by
        rw [Sql.Grammar.leadingExpr, Sql.Parse.run_bind, Sql.Parse.run_optional_none literal]
        simp only [Sql.Parse.run_bind, Sql.Parse.run_ahead, Sql.Parse.run_next, paren]
      have refused : Sql.Grammar.exprAbove (nesting n) 0
          (.symbol .leftParen :: .symbol .rightParen :: rest) = .error f := by
        rw [Sql.Grammar.exprAbove_eq, Sql.Parse.run_bind, Sql.Parse.run_ahead]
        simp only [Sql.Parse.run_bind, List.length_cons, lead]
      cases refused.symm.trans read

end ReportSql.Tree
