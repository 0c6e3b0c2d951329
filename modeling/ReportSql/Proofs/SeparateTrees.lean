import ReportSql.Proofs.WholeTexts
import ReportSql.Tree.Build
import ReportSql.Tree.Render

/-!
The tokens that trees are written in do not run into each other. Each construct puts a blank, a
line break or punctuation between its parts; only raw SQL has to have a blank after it.
-/
namespace ReportSql.Tree

open Output (Token Mark Apart Separate Whole fits commaSeparated separated separate_tail sound_head)

variable {t : Token} {ts us left right inner : List Token} {groups : List (List Token)}
  {e l r : Expr} {name type : String}

section

-- the equations of all that writes trees, made before the proofs that would wait for them
attribute [local simp] Expr.tokens
attribute [local simp] Cte.tokens
attribute [local simp] SelectItem.tokens
attribute [local simp] FromItem.tokens
attribute [local simp] Join.tokens
attribute [local simp] Source.tokens
attribute [local simp] OrderItem.tokens
attribute [local simp] SetOperation.tokens

end

/-! ### What comes next -/

/-- The tokens end, or go on with one that ends the token before it. -/
def AtBreak (us : List Token) : Prop := ∀ u ∈ us.head?, u.isBreak = true

/-- The tokens end, or go on with a blank or a line break. -/
def AtBlank (us : List Token) : Prop :=
  ∀ u ∈ us.head?, u = .mark .space ∨ u = .mark .newline

/-- Whether tokens stay separate before others that come next. -/
def Stands (next : List Token → Prop) (ts : List Token) : Prop :=
  ∀ us, next us → Separate us → Separate (ts ++ us)

variable {next : List Token → Prop}

theorem atBlank_space : AtBlank (.mark .space :: us) := by
  rintro _ ⟨⟩
  exact .inl rfl

theorem atBlank_newline : AtBlank (.mark .newline :: us) := by
  rintro _ ⟨⟩
  exact .inr rfl

theorem atBreak_of_blank (h : AtBlank us) : AtBreak us := by
  intro u hu
  rcases h u hu with rfl | rfl <;> rfl

theorem atBreak_space : AtBreak (.mark .space :: us) := atBreak_of_blank atBlank_space

theorem Stands.before_blank (h : Stands AtBreak ts) : Stands AtBlank ts :=
  fun us blank => h us (atBreak_of_blank blank)

theorem Stands.separate (h : Stands AtBlank ts) : Separate ts := by
  have ends : AtBlank [] := fun _ hu => by cases hu
  simpa using h [] ends trivial

theorem Stands.nil : Stands next [] := fun _ _ separate => separate

theorem Stands.append {middle : List Token → Prop} (ht : Stands middle ts)
    (hm : ∀ vs, next vs → middle (us ++ vs)) (hu : Stands next us) : Stands next (ts ++ us) := by
  intro vs hn h
  rw [List.append_assoc]
  exact ht _ (hm vs hn) (hu vs hn h)

/-! ### Tokens -/

/-- Anything can follow a free token. -/
theorem separate_free (hf : t.isFree = true) (hs : t.Sound) (hr : t.isRaw = false) :
    Separate (t :: us) ↔ Separate us := by
  refine ⟨separate_tail, fun h => ?_⟩
  cases us with
  | nil =>
      have : t.isOperator = false := by
        cases t with
        | mark m => cases m <;> first | rfl | cases hf
        | _ => first | rfl | cases hf
      exact ⟨hs, this⟩
  | cons u us =>
      have apart : Apart t u := by
        cases t with
        | raw _ => cases hr
        | _ => exact ⟨by simp [fits, hf], .inr hf⟩
      exact ⟨hs, apart, h⟩

@[simp] theorem separate_space : Separate (.mark .space :: us) ↔ Separate us :=
  separate_free rfl rfl rfl

@[simp] theorem separate_newline : Separate (.mark .newline :: us) ↔ Separate us :=
  separate_free rfl rfl rfl

@[simp] theorem separate_comma : Separate (.mark .comma :: us) ↔ Separate us :=
  separate_free rfl rfl rfl

@[simp] theorem separate_leftParen : Separate (.mark .leftParen :: us) ↔ Separate us :=
  separate_free rfl rfl rfl

@[simp] theorem separate_rightParen : Separate (.mark .rightParen :: us) ↔ Separate us :=
  separate_free rfl rfl rfl

@[simp] theorem separate_indent : Separate (.indent 1 :: us) ↔ Separate us :=
  separate_free rfl rfl rfl

/-- Whether a token needs nothing but a break after it. -/
def closes (t : Token) : Bool :=
  !t.isRaw && !t.isOperator && t != .mark .minus && t != .mark .dot

theorem separate_closes (hc : closes t = true) (hs : t.Sound) (hb : AtBreak us)
    (h : Separate us) : Separate (t :: us) := by
  simp only [closes, Bool.and_eq_true, Bool.not_eq_true', bne_iff_ne, ne_eq] at hc
  obtain ⟨⟨⟨raw, operator⟩, minus⟩, dot⟩ := hc
  cases us with
  | nil => exact ⟨hs, operator⟩
  | cons u us =>
      have breaks : u.isBreak = true := hb u rfl
      have plain : u.isPlain = true := by
        refine Output.plain_of_sound (sound_head h) ?_
        cases u <;> first | rfl | cases breaks
      have fit : fits t u = true := by
        unfold fits
        split
        · rfl
        · rw [if_neg (by simp [operator])]
          split
          · exact breaks
          · split
            · exact absurd rfl minus
            · exact absurd rfl dot
            · simp [Token.endsName, breaks]
      have apart : Apart t u := by
        cases t with
        | raw _ => cases raw
        | _ => exact ⟨fit, .inl plain⟩
      exact ⟨hs, apart, h⟩

theorem stands_token (hc : closes t = true) (hs : t.Sound) : Stands AtBreak [t] :=
  fun _ hb h => separate_closes hc hs hb h

theorem stands_raw {sql : String} (h : Whole sql) : Stands AtBlank [.raw sql] := by
  intro us blank separate
  cases us with
  | nil => exact ⟨h, rfl⟩
  | cons u us => exact ⟨h, blank u rfl, separate⟩

/-! ### Groups -/

theorem exprGroups_eq (es : List Expr) : exprGroups es = es.map Expr.tokens := by
  induction es with
  | nil => rfl
  | cons e es ih => rw [exprGroups, ih, List.map_cons]

theorem stands_separated (separator : List Token)
    (hs : ∀ us, AtBreak (separator ++ us) ∧ (Separate us → Separate (separator ++ us)))
    (hne : groups ≠ []) (hg : ∀ group ∈ groups, Stands AtBreak group) :
    Stands AtBreak (separated separator groups) := by
  induction groups with
  | nil => exact absurd rfl hne
  | cons group groups ih =>
      obtain ⟨own, others⟩ := List.forall_mem_cons.mp hg
      cases groups with
      | nil => exact own
      | cons other groups =>
          intro us hb h
          show Separate (group ++ separator ++ separated separator (other :: groups) ++ us)
          rw [List.append_assoc, List.append_assoc]
          exact own _ (hs _).1 ((hs _).2 (ih (List.cons_ne_nil _ _) others us hb h))

theorem stands_commaSeparated (hne : groups ≠ []) (hg : ∀ group ∈ groups, Stands AtBreak group) :
    Stands AtBreak (commaSeparated groups) := by
  refine stands_separated _ (fun us => ⟨?_, fun h => by simpa using h⟩) hne hg
  rintro _ ⟨⟩
  rfl

theorem Stands.parens (h : Stands AtBreak inner) : Stands next (parens inner) := by
  intro us _ separate
  have closing : AtBreak (.mark .rightParen :: us) := by
    rintro _ ⟨⟩
    rfl
  simpa [Tree.parens] using h _ closing (separate_rightParen.mpr separate)

/-! ### Expressions -/

theorem Stands.column (table : Option String) : Stands AtBreak (Expr.column table name).tokens := by
  intro us hb h
  have own : Separate (.ident name :: us) := separate_closes rfl rfl hb h
  cases table with
  | none => exact own
  | some table => exact ⟨rfl, ⟨rfl, .inl rfl⟩, rfl, ⟨rfl, .inl rfl⟩, own⟩

theorem separate_operator (op : BinaryOp) (h : Separate us) :
    Separate (op.tokens ++ .mark .space :: us) := by
  have space := separate_space.mpr h
  have blank : AtBreak (.mark .space :: us) := by
    rintro _ ⟨⟩
    rfl
  cases op with
  | and | or | like | ilike => exact separate_closes rfl rfl blank space
  | notLike | notIlike =>
      refine separate_closes rfl rfl ?_ (separate_space.mpr (separate_closes rfl rfl blank space))
      rintro _ ⟨⟩
      rfl
  | _ => exact ⟨rfl, ⟨rfl, .inl rfl⟩, space⟩

/-- Raw SQL may stand on both sides of an operator; on the right the blank has to come. -/
theorem Stands.binary {op : BinaryOp} (hl : Stands AtBlank l.tokens) (hr : Stands next r.tokens) :
    Stands next (Expr.binary l op r).tokens := by
  intro us hn h
  have right := separate_operator op (hr us hn h)
  have left := hl _ atBlank_space (separate_space.mpr right)
  simpa [Expr.tokens] using left

theorem Stands.call {arguments : List Expr}
    (hn : Sql.Placeholder.isName (Text.upper name) = true)
    (ha : ∀ e ∈ arguments, Stands AtBreak e.tokens) :
    Stands next (Expr.call name arguments false).tokens := by
  have inside : Stands AtBreak (commaSeparated (exprGroups arguments)) := by
    rw [exprGroups_eq]
    cases arguments with
    | nil => exact .nil
    | cons e es => exact stands_commaSeparated (List.cons_ne_nil _ _) (by simpa using ha)
  intro us hu h
  have opening := inside.parens us hu h
  exact ⟨hn, ⟨rfl, .inl rfl⟩, opening⟩

theorem Stands.cast (he : Stands AtBreak e.tokens) (ht : Sql.Placeholder.isName type = true) :
    Stands AtBreak (Expr.cast e type).tokens := by
  intro us hb h
  have cast : Separate (.castTo type :: us) := separate_closes rfl ht hb h
  have closing : AtBreak (.castTo type :: us) := by
    rintro _ ⟨⟩
    rfl
  by_cases atomic : e.isAtomic = true
  · simpa [Expr.tokens, atomic] using he _ closing cast
  · simpa [Expr.tokens, atomic] using he.parens _ closing cast

theorem Stands.paren (h : Stands AtBreak e.tokens) : Stands next (Expr.paren e).tokens :=
  Stands.parens h

theorem Stands.interval (value : String) : Stands AtBreak (Expr.interval value).tokens := by
  intro us hb h
  have text : Separate (.text value :: us) := separate_closes rfl rfl hb h
  refine separate_closes rfl rfl ?_ (separate_space.mpr text)
  rintro _ ⟨⟩
  rfl

theorem Stands.inList {values : List Expr} (he : Stands AtBlank e.tokens) (hne : values ≠ [])
    (hv : ∀ v ∈ values, Stands AtBreak v.tokens) :
    Stands next (Expr.inList e values false).tokens := by
  obtain ⟨v, vs, rfl⟩ := List.exists_cons_of_ne_nil hne
  intro us hn h
  have groups : Stands AtBreak (commaSeparated (exprGroups (v :: vs))) := by
    rw [exprGroups_eq]
    exact stands_commaSeparated (List.cons_ne_nil _ _) (by simpa using hv)
  have list := separate_closes (t := .mark .in) rfl rfl atBreak_space
    (separate_space.mpr (groups.parens us hn h))
  simpa [Expr.tokens, spacedNot, spaced] using he _ atBlank_space (separate_space.mpr list)

theorem Stands.isTruth {value negated : Bool} (he : Stands AtBlank e.tokens) :
    Stands AtBreak (Expr.isTruth e value negated).tokens := by
  intro us hb h
  have truth : Separate (.mark (if value then .true else .false) :: us) := by
    cases value <;> exact separate_closes rfl rfl hb h
  have test : Separate (leadingNot negated ++ .mark (if value then .true else .false) :: us) := by
    cases negated with
    | false => exact truth
    | true => exact separate_closes rfl rfl atBreak_space (separate_space.mpr truth)
  have is := separate_closes (t := .mark .is) rfl rfl atBreak_space (separate_space.mpr test)
  simpa [Expr.tokens, spaced] using he _ atBlank_space (separate_space.mpr is)

theorem Stands.ifElse {condition result otherwise : Expr} (hc : Stands AtBlank condition.tokens)
    (hr : Stands AtBlank result.tokens) (ho : Stands AtBlank otherwise.tokens) :
    Stands AtBreak (Expr.case none [⟨condition, result⟩] (some otherwise)).tokens := by
  intro us hb h
  have last := separate_closes (t := .mark .end) rfl rfl hb h
  have else_ := separate_closes (t := .mark .else) rfl rfl atBreak_space
    (separate_space.mpr (ho _ atBlank_space (separate_space.mpr last)))
  have then_ := separate_closes (t := .mark .then) rfl rfl atBreak_space
    (separate_space.mpr (hr _ atBlank_space (separate_space.mpr else_)))
  have when_ := separate_closes (t := .mark .when) rfl rfl atBreak_space
    (separate_space.mpr (hc _ atBlank_space (separate_space.mpr then_)))
  have case_ := separate_closes (t := .mark .case) rfl rfl atBreak_space
    (separate_space.mpr when_)
  simpa [Expr.tokens, branchTokens, spaced] using case_

/-! ### Parts of queries -/

theorem itemGroups_eq (is : List SelectItem) : itemGroups is = is.map SelectItem.tokens := by
  induction is with
  | nil => rfl
  | cons i is ih => rw [itemGroups, ih, List.map_cons]

theorem orderGroups_eq (os : List OrderItem) : orderGroups os = os.map OrderItem.tokens := by
  induction os with
  | nil => rfl
  | cons o os ih => rw [orderGroups, ih, List.map_cons]

theorem sourceGroups_eq (fs : List FromItem) : sourceGroups fs = fs.map FromItem.tokens := by
  induction fs with
  | nil => rfl
  | cons f fs ih => rw [sourceGroups, ih, List.map_cons]

theorem cteGroups_eq (cs : List Cte) : cteGroups cs = cs.map Cte.tokens := by
  induction cs with
  | nil => rfl
  | cons c cs ih => rw [cteGroups, ih, List.map_cons]

theorem separate_alias (label : Option String) (hb : AtBreak us) (h : Separate us) :
    AtBreak (aliasTokens label ++ us) ∧ Separate (aliasTokens label ++ us) := by
  cases label with
  | none => exact ⟨hb, h⟩
  | some name =>
      have own : Separate (.ident name :: us) := separate_closes rfl rfl hb h
      have as_ := separate_closes (t := .mark .as) rfl rfl atBreak_space (separate_space.mpr own)
      exact ⟨atBreak_space, separate_space.mpr as_⟩

theorem Stands.item (h : Stands AtBreak e.tokens) : Stands AtBreak (e.item).tokens := by
  simpa [SelectItem.tokens, Expr.item, aliasTokens] using h

/-- Raw SQL may be an item that has a name. -/
theorem Stands.as (h : Stands AtBlank e.tokens) (name : String) :
    Stands AtBreak (e.as name).tokens := by
  intro us hb separate
  have label := separate_alias (some name) hb separate
  simpa [SelectItem.tokens, Expr.as, aliasTokens] using h _ atBlank_space label.2

theorem Stands.named (table : TableRef) : Stands AtBreak (Source.named table).tokens := by
  intro us hb h
  obtain ⟨after, label⟩ := separate_alias table.label hb h
  exact separate_closes (by rfl) (by rfl) after label

theorem Stands.join {j : Join} {table : TableRef} (hs : j.source = .named table)
    (hc : ∀ e ∈ j.condition, Stands AtBreak e.tokens) : Stands AtBreak j.tokens := by
  obtain ⟨kind, source, condition⟩ := j
  obtain rfl := hs
  have joined : ∀ vs, AtBreak vs → Separate vs →
      Separate (kind.tokens ++ spaced .join ++ (Source.named table).tokens ++ vs) := by
    intro vs hb h
    have join := separate_closes (t := .mark .join) rfl rfl atBreak_space
      (separate_space.mpr (Stands.named table vs hb h))
    have space := separate_space.mpr join
    rw [List.append_assoc, List.append_assoc]
    cases kind with
    | full =>
        exact separate_closes rfl rfl atBreak_space
          (separate_space.mpr (separate_closes rfl rfl atBreak_space space))
    | _ => exact separate_closes rfl rfl atBreak_space space
  intro us hb h
  cases condition with
  | none => simpa [Join.tokens] using joined us hb h
  | some e =>
      have on_ := separate_closes (t := .mark .on) rfl rfl atBreak_space
        (separate_space.mpr (hc e rfl us hb h))
      simpa [Join.tokens, spaced] using joined _ atBreak_space (separate_space.mpr on_)

theorem Stands.fromItem {f : FromItem} {table : TableRef} (hs : f.source = .named table)
    (hj : ∀ j ∈ f.joins, Stands AtBreak j.tokens) : Stands AtBreak f.tokens := by
  obtain ⟨source, joins⟩ := f
  obtain rfl := hs
  have joined : ∀ us, AtBreak us → Separate us →
      AtBreak (joinTokens joins ++ us) ∧ Separate (joinTokens joins ++ us) := by
    intro us hb h
    induction joins with
    | nil => exact ⟨hb, h⟩
    | cons j joins ih =>
        obtain ⟨own, others⟩ := List.forall_mem_cons.mp hj
        obtain ⟨after, rest⟩ := ih others
        simp only [joinTokens, List.cons_append, List.append_assoc]
        exact ⟨(atBreak_of_blank atBlank_newline), separate_newline.mpr (own _ after rest)⟩
  intro us hb h
  obtain ⟨after, rest⟩ := joined us hb h
  simpa [FromItem.tokens] using Stands.named table _ after rest

theorem Stands.word {m : Mark} (h : Stands AtBreak ts) (hm : closes (.mark m) = true) :
    Stands AtBreak (ts ++ [.mark .space, .mark m]) := by
  intro us hb separate
  have word : Separate (.mark m :: us) := separate_closes hm rfl hb separate
  simpa using h _ atBreak_space (separate_space.mpr word)

theorem Stands.orderItem {o : OrderItem} (h : Stands AtBreak o.expr.tokens) :
    Stands AtBreak o.tokens := by
  obtain ⟨e, direction, nulls⟩ := o
  have direct : ∀ d : Direction, closes (.mark d.mark) = true := by
    intro d
    cases d <;> rfl
  have place : ∀ n : NullsPlace, closes (.mark n.mark) = true := by
    intro n
    cases n <;> rfl
  cases direction with
  | none =>
      cases nulls with
      | none => simpa [OrderItem.tokens] using h
      | some n => simpa [OrderItem.tokens] using h.word (place n)
  | some d =>
      cases nulls with
      | none => simpa [OrderItem.tokens] using h.word (direct d)
      | some n => simpa [OrderItem.tokens] using (h.word (direct d)).word (place n)

theorem Stands.cte {c : Cte} (hc : c.columns = none) (hq : Stands AtBlank c.query.tokens) :
    Stands AtBreak c.tokens := by
  obtain ⟨name, columns, query, _⟩ := c
  obtain rfl := hc
  intro us hb h
  have inner : Separate (query.tokens ++ .mark .newline :: .mark .rightParen :: us) :=
    hq _ atBlank_newline (by simpa using h)
  have as_ : Separate (.mark .as :: .mark .space :: .mark .leftParen :: .mark .newline ::
      (query.tokens ++ .mark .newline :: .mark .rightParen :: us)) :=
    separate_closes rfl rfl atBreak_space (by simpa using inner)
  have own : Separate (.ident name :: .mark .space :: .mark .as :: .mark .space ::
      .mark .leftParen :: .mark .newline ::
      (query.tokens ++ .mark .newline :: .mark .rightParen :: us)) :=
    separate_closes rfl rfl atBreak_space (by simpa using as_)
  simpa [Cte.tokens, spaced, Tree.parens] using own

/-! ### Queries -/

/-- A clause that is a line with groups, and no line without them. -/
def listTokens (m : Mark) (groups : List (List Token)) : List Token :=
  if groups.isEmpty then [] else lineStart m ++ commaSeparated groups

def whereTokens : Option Expr → List Token
  | some e => lineStart .where ++ e.tokens
  | none => []

def rowTokens : Option RowRange → List Token
  | some r => .mark .newline :: r.tokens
  | none => []

def itemTokens (groups : List (List Token)) : List Token :=
  if groups.isEmpty then []
  else [.mark .newline, .indent 1] ++ separated [.mark .comma, .mark .newline, .indent 1] groups

def withTokens (groups : List (List Token)) : List Token :=
  if groups.isEmpty then []
  else [.mark .with, .mark .space] ++ separated [.mark .comma, .mark .newline] groups
    ++ [.mark .newline]

/-- Whether a query is a SELECT without DISTINCT and HAVING, and none of what it defines is
recursive. -/
structure Query.IsPlain (q : Query) : Prop where
  setOperation : q.setOperation = none
  having : q.having = none
  distinct : q.distinct = false
  recursive : ∀ c ∈ q.ctes, c.isRecursive = false

theorem Query.tokens_eq {q : Query} (h : q.IsPlain) :
    q.tokens = withTokens (q.ctes.map Cte.tokens) ++ .mark .select ::
      (itemTokens (q.items.map SelectItem.tokens)
        ++ (listTokens .from (q.sources.map FromItem.tokens) ++ (whereTokens q.condition
          ++ (listTokens .groupBy (q.groupBy.map Expr.tokens)
            ++ (listTokens .orderBy (q.orderBy.map OrderItem.tokens) ++ rowTokens q.rows))))) := by
  obtain ⟨setOperation, having, distinct, recursive⟩ := h
  obtain ⟨ctes, items, _, sources, condition, groupBy, _, orderBy, rows, _⟩ := q
  have plain : ctes.any Cte.isRecursive = false := by simpa using recursive
  simp only at setOperation having distinct
  subst setOperation having distinct
  have unfolded : Query.tokens
      ⟨ctes, items, false, sources, condition, groupBy, none, orderBy, rows, none⟩ =
      (if ctes.isEmpty then []
        else .mark .with
          :: (if ctes.any Cte.isRecursive then [.mark .space, .mark .recursive] else [])
          ++ [.mark .space]
          ++ separated [.mark .comma, .mark .newline] (cteGroups ctes) ++ [.mark .newline])
      ++ (.mark .select :: []
        ++ (if items.isEmpty then []
          else [.mark .newline, .indent 1]
            ++ separated [.mark .comma, .mark .newline, .indent 1] (itemGroups items))
        ++ (if sources.isEmpty then []
          else lineStart .from ++ commaSeparated (sourceGroups sources))
        ++ whereTokens condition
        ++ (if groupBy.isEmpty then []
          else lineStart .groupBy ++ commaSeparated (exprGroups groupBy))
        ++ [])
      ++ (if orderBy.isEmpty then []
        else lineStart .orderBy ++ commaSeparated (orderGroups orderBy))
      ++ rowTokens rows := by
    cases condition <;> cases rows <;> rfl
  rw [unfolded]
  simp only [plain, cteGroups_eq, itemGroups_eq, sourceGroups_eq, exprGroups_eq, orderGroups_eq,
    Bool.false_eq_true, if_false, List.append_nil, List.append_assoc, List.cons_append,
    List.nil_append, withTokens, itemTokens, listTokens, List.isEmpty_map]

variable {m : Mark}

/-- Whether tokens are some lines of a query, or none. -/
def AreLines (ts : List Token) : Prop :=
  ∀ us, AtBlank us ∧ Separate us → AtBlank (ts ++ us) ∧ Separate (ts ++ us)

theorem AreLines.append (ht : AreLines ts) (hu : AreLines us) : AreLines (ts ++ us) := by
  intro vs h
  rw [List.append_assoc]
  exact ht _ (hu vs h)

theorem areLines_nil : AreLines [] := fun _ h => h

theorem areLines_newline (h : Stands AtBlank ts) : AreLines (.mark .newline :: ts) := by
  rintro us ⟨blank, separate⟩
  exact ⟨atBlank_newline, separate_newline.mpr (h us blank separate)⟩

theorem Stands.afterWord (hm : closes (.mark m) = true) (h : Stands next ts) :
    Stands next (.mark m :: .mark .space :: ts) :=
  fun us hn separate =>
    separate_closes hm rfl atBreak_space (separate_space.mpr (h us hn separate))

theorem areLines_list (hm : closes (.mark m) = true)
    (hg : ∀ group ∈ groups, Stands AtBreak group) : AreLines (listTokens m groups) := by
  unfold listTokens
  split
  · exact areLines_nil
  · next nonempty =>
    have inner := stands_commaSeparated (by simpa using nonempty) hg
    exact areLines_newline (inner.before_blank.afterWord hm)

theorem areLines_where {condition : Option Expr}
    (hc : ∀ e ∈ condition, Stands AtBlank e.tokens) : AreLines (whereTokens condition) := by
  cases condition with
  | none => exact areLines_nil
  | some e => exact areLines_newline ((hc e rfl).afterWord rfl)

theorem stands_int (v : Int) : Stands AtBreak [.int v] :=
  stands_token rfl (show (Token.int v).Sound from trivial)

theorem areLines_rows (rows : Option RowRange) : AreLines (rowTokens rows) := by
  have count : ∀ {m : Mark} (n : UInt64), closes (.mark m) = true →
      Stands AtBlank [.mark m, .mark .space, .int (Output.rowCount n)] :=
    fun n hm => (stands_int (Output.rowCount n)).before_blank.afterWord hm
  match rows with
  | none => exact areLines_nil
  | some ⟨none, none⟩ => exact areLines_newline .nil
  | some ⟨some n, none⟩ => exact areLines_newline (count n rfl)
  | some ⟨none, some k⟩ => exact areLines_newline (count k rfl)
  | some ⟨some n, some k⟩ =>
      refine areLines_newline fun us blank separate => ?_
      exact count n rfl _ atBlank_space (separate_space.mpr (count k rfl us blank separate))

theorem areLines_items (hg : ∀ group ∈ groups, Stands AtBreak group) :
    AreLines (itemTokens groups) := by
  unfold itemTokens
  split
  · exact areLines_nil
  · next nonempty =>
    have inner := stands_separated [.mark .comma, .mark .newline, .indent 1]
      (fun us => ⟨by rintro _ ⟨⟩; rfl, fun h => by simpa using h⟩) (by simpa using nonempty) hg
    exact areLines_newline fun us blank separate =>
      separate_indent.mpr (inner us (atBreak_of_blank blank) separate)

theorem Stands.with (hg : ∀ group ∈ groups, Stands AtBreak group) :
    Stands next (withTokens groups) := by
  unfold withTokens
  split
  · exact .nil
  · next nonempty =>
    intro us hb h
    have inner := stands_separated [.mark .comma, .mark .newline]
      (fun us => ⟨by rintro _ ⟨⟩; rfl, fun h => by simpa using h⟩) (by simpa using nonempty) hg _
      (atBreak_of_blank atBlank_newline) (separate_newline.mpr h)
    have word := separate_closes (t := .mark .with) rfl rfl atBreak_space
      (separate_space.mpr inner)
    simpa using word

/-- The tokens of a query stay separate if those of its parts do. Raw SQL may stand in its
condition, since a line of its own comes next. -/
theorem Stands.query {q : Query} (plain : q.IsPlain) (ctes : ∀ c ∈ q.ctes, Stands AtBreak c.tokens)
    (items : ∀ i ∈ q.items, Stands AtBreak i.tokens)
    (sources : ∀ f ∈ q.sources, Stands AtBreak f.tokens)
    (condition : ∀ e ∈ q.condition, Stands AtBlank e.tokens)
    (groupBy : ∀ e ∈ q.groupBy, Stands AtBreak e.tokens)
    (orderBy : ∀ o ∈ q.orderBy, Stands AtBreak o.tokens) : Stands AtBlank q.tokens := by
  have lines := (areLines_items (List.forall_mem_map.mpr items)).append
    ((areLines_list (m := .from) rfl (List.forall_mem_map.mpr sources)).append
      ((areLines_where condition).append
        ((areLines_list (m := .groupBy) rfl (List.forall_mem_map.mpr groupBy)).append
          ((areLines_list (m := .orderBy) rfl (List.forall_mem_map.mpr orderBy)).append
            (areLines_rows q.rows)))))
  have defined : Stands (fun _ => True) (withTokens (q.ctes.map Cte.tokens)) :=
    Stands.with (List.forall_mem_map.mpr ctes)
  intro us blank separate
  obtain ⟨after, rest⟩ := lines us ⟨blank, separate⟩
  rw [Query.tokens_eq plain, List.append_assoc]
  exact defined _ trivial (separate_closes rfl rfl (atBreak_of_blank after) rest)

end ReportSql.Tree
