import ReportSql.Proofs.ReadOperands
import ReportSql.Proofs.ReadSources

/-!
Reading selects: their items, the clauses after them and the keys that rows are grouped by.
-/
namespace ReportSql.Sql.Grammar

open Parse
open Text (isCapital)

variable {g : Nesting} {ts us rest more : List Token} {x y : Expr} {q : Query} {k w : String}
  {groups : List (List Token)} {xs : List Expr} {S : List Symbol} {W : List String}
  {o : Option Expr} {m n : Nat}

/-! ### Clauses -/

/-- A clause of items after some words, or no clause where there are no items. -/
def clauseTokens (words : List String) (groups : List (List Token)) : List Token :=
  if groups.isEmpty then [] else wordTokens words ++ commaJoined groups

theorem unbracketed_clauseTokens {words : List String}
    (h : ∀ ts ∈ groups, Token.symbol .leftBracket ∉ ts) :
    Token.symbol .leftBracket ∉ clauseTokens words groups := by
  unfold clauseTokens
  split
  · exact List.not_mem_nil
  · exact List.not_mem_append unbracketed_wordTokens (unbracketed_commaJoined h)

/-- A clause stands before what may follow it. -/
theorem before_clause (words : List String) (h : Before S W rest) (hw : w ∈ W)
    (hc : isCapital w = true) (hb : ∀ ts ∈ groups, Token.symbol .leftBracket ∉ ts) :
    Before S W (clauseTokens (w :: words) groups ++ rest) := by
  have bracket := @unbracketed_clauseTokens groups (w :: words) hb
  unfold clauseTokens at bracket ⊢
  split
  · exact h
  · next nonempty =>
    simp only [if_neg nonempty, wordTokens, List.map_cons, List.cons_append, List.mem_cons,
      not_or] at bracket
    exact before_word hw hc (List.not_mem_append bracket.2 h.unbracketed)

theorem before_option (h : Before S W rest) (hw : w ∈ W) (hc : isCapital w = true)
    (ho : ReadsOption g [.word w false] ts o) : Before S W (ts ++ rest) := by
  cases ho with
  | none => exact h
  | some own => exact before_word hw hc (List.not_mem_append own.unbracketed h.unbracketed)

/-- A clause of one expression. -/
theorem optionalExpr_reads (ho : ReadsOption g [.word w false] ts o) (hc : isCapital w = true)
    (h : Before S W rest) (hS : S ⊆ [.comma, .rightParen]) (hW : W ⊆ endWords) (hw : w ∉ W) :
    optionalExpr g w (ts ++ rest) = .ok (o, rest) := by
  cases ho with
  | none =>
      have other : keyword w rest = .ok (false, rest) := h.keyword hw
      simp only [List.nil_append, optionalExpr, run_bind, other, run_ite, Bool.false_eq_true,
        if_false, run_pure]
  | @some us x own =>
      have found : keyword w (.word w false :: (us ++ rest)) = .ok (true, _) := keyword_self hc
      have read := own.expr rest (h.mono hS hW)
      simp only [List.cons_append, List.nil_append, optionalExpr, run_bind, found, run_ite, if_true,
        read, run_pure]

/-! ### Select lists -/

/-- Tokens are read as an item of a select list, which may be a star. -/
inductive ReadsSelectItem (g : Nesting) : List Token → SelectItem → Prop where
  | star : ReadsSelectItem g [.symbol .star] (.wildcard [])
  | expr {ts : List Token} {x : Expr} (label : Option (String × Bool)) : ReadsItem g ts x →
      (∀ names, x ≠ .wildcard names) →
      (∀ s, x = .name [⟨s, .bare⟩] → (Text.lower s == "from") = false) →
      ReadsSelectItem g (ts ++ aliasTokens label) (.expr x (aliasIdent label))

/-- What an item of a select list is followed by. -/
abbrev AfterItem (rest : List Token) : Prop :=
  Before [.comma, .rightParen] ("FROM" :: clauseWords) rest

variable {item : SelectItem} {items : List SelectItem} {label : Option (String × Bool)}

theorem ReadsSelectItem.unbracketed (h : ReadsSelectItem g ts item) :
    Token.symbol .leftBracket ∉ ts := by
  cases h with
  | star => simp
  | expr label own _ _ => exact List.not_mem_append own.unbracketed unbracketed_aliasTokens

theorem ends_aliasTokens (h : AfterItem rest) : Ends (aliasTokens label ++ rest) := by
  cases label with
  | none => exact h.mono (List.Subset.refl _) (by decide)
  | some l => exact before_word (by decide) (by decide) (by simpa using h.unbracketed)

theorem ReadsSelectItem.reads (h : ReadsSelectItem g ts item) :
    ReadsBefore [.comma, .rightParen] ("FROM" :: clauseWords) (selectItem g) ts item := by
  intro rest hr
  cases h with
  | star => rfl
  | @expr ts x label own plain other =>
      have ends := @ends_aliasTokens rest label hr
      have wildcard := (own.opens (Ends.follows ends)).leadingWildcard
      have read := own.expr _ ends
      have named := @optionalAlias_reads rest label _ _ endsSelectItem hr (by decide) (by decide)
      simp only [List.append_assoc, selectItem, run_bind, wildcard, read]
      split
      · next s => simp only [other s rfl, Bool.false_eq_true, if_false, run_bind, named, run_pure]
      · simp only [run_bind, named, run_pure]

/-- An item does not start with a word that tells something else from it. -/
theorem ReadsSelectItem.keyword (h : ReadsSelectItem g ts item) (hr : AfterItem rest)
    (hk : k ∈ openingWords) : Parse.keyword k (ts ++ rest) = .ok (false, ts ++ rest) := by
  cases h with
  | star => exact keywords_symbol
  | @expr ts x label own _ _ =>
      rw [List.append_assoc]
      exact (own.opens (Ends.follows (ends_aliasTokens hr))).keyword hk

theorem keyword_items (h : List.Forall₂ (ReadsSelectItem g) groups items) (nonempty : groups ≠ [])
    (hr : AfterItem rest) (hk : k ∈ openingWords) :
    Parse.keyword k (commaJoined groups ++ rest) = .ok (false, commaJoined groups ++ rest) := by
  cases h with
  | nil => exact absurd rfl nonempty
  | @cons ts item groups items own others =>
      cases groups with
      | nil => exact own.keyword hr hk
      | cons us groups =>
          have bracket := unbracketed_commaJoined (unbracketed_groups others
            ReadsSelectItem.unbracketed)
          have goesOn : AfterItem (.symbol .comma :: (commaJoined (us :: groups) ++ rest)) :=
            before_symbol (by decide) (by simp [bracket, hr.unbracketed])
          simpa [commaJoined] using own.keyword goesOn hk

theorem ReadsItem.nonempty (h : ReadsItem g ts x) : ts ≠ [] := by
  obtain ⟨t, more, start, -⟩ := (h.opens before_nil).head
  rw [List.append_nil] at start
  rw [start]
  exact List.cons_ne_nil _ _

theorem ReadsSelectItem.nonempty (h : ReadsSelectItem g ts item) : ts ≠ [] := by
  cases h with
  | star => exact List.cons_ne_nil _ _
  | expr label own _ _ => exact List.append_ne_nil_of_left_ne_nil own.nonempty _

theorem commaJoined_items_nonempty (h : List.Forall₂ (ReadsSelectItem g) groups items)
    (nonempty : groups ≠ []) : commaJoined groups ≠ [] := by
  cases h with
  | nil => exact absurd rfl nonempty
  | @cons ts item groups items own _ =>
      cases groups with
      | nil => exact own.nonempty
      | cons us groups => exact List.append_ne_nil_of_left_ne_nil own.nonempty _

/-- Tokens that do not start with a keyword. -/
theorem keywords_of_head {ks : List String} (nonempty : ts ≠ [])
    (h : ∀ t ∈ ts.head?, t.keyword? ≠ some k) :
    keywords (k :: ks) (ts ++ rest) = .ok (false, ts ++ rest) := by
  cases ts with
  | nil => exact absurd rfl nonempty
  | cons t ts => exact keywords_of_ne (h t rfl)

/-! ### Groups -/

/-- The words that start sets of groups. -/
def groupWords : List String := ["GROUPING", "CUBE", "ROLLUP"]

/-- Tokens are read as a key that rows are grouped by, which is no set of groups. -/
structure ReadsKey (g : Nesting) (ts : List Token) (x : Expr) : Prop where
  item : ReadsItem g ts x
  plain : ∀ k ∈ groupWords, ∀ t ∈ ts.head?, t.keyword? ≠ some k

/-- No expression is empty parentheses. -/
def NothingEmpty (g : Nesting) : Prop :=
  ∀ rest y more, g.expr (.symbol .leftParen :: .symbol .rightParen :: rest) ≠ .ok (y, more)

theorem ReadsKey.reads (h : ReadsKey g ts x) (empty : NothingEmpty g) :
    ReadsBefore [.comma, .rightParen] endWords (groupByExpr g) ts x := by
  intro rest hr
  have read := h.item.expr rest hr
  have other : ∀ k ∈ groupWords, ∀ ks, keywords (k :: ks) (ts ++ rest) = .ok (false, ts ++ rest) :=
    fun k hk ks => keywords_of_head h.item.nonempty (h.plain k hk)
  simp only [groupByExpr, run_bind, keyword, other _ (by decide : "GROUPING" ∈ groupWords),
    other _ (by decide : "CUBE" ∈ groupWords), other _ (by decide : "ROLLUP" ∈ groupWords), run_ite,
    Bool.false_eq_true, if_false, run_ahead]
  generalize ts ++ rest = input at read
  split
  · exact absurd read (empty _ _ _)
  · exact read

variable {keys : List Expr}

theorem groupBy_reads (h : List.Forall₂ (ReadsKey g) groups keys) (empty : NothingEmpty g)
    (hr : Before [.rightParen] W rest) (hW : W ⊆ endWords) (hG : "GROUP" ∉ W) :
    groupBy g (clauseTokens ["GROUP", "BY"] groups ++ rest) = .ok ((false, keys), rest) := by
  have after : Before [.comma, .rightParen] endWords rest := hr.mono (by decide) hW
  cases h with
  | nil =>
      have other : keywords ["GROUP", "BY"] rest = .ok (false, rest) := hr.keywords hG
      simp only [clauseTokens, List.isEmpty_nil, if_true, List.nil_append, groupBy, run_bind, other,
        run_ite, Bool.false_eq_true, if_false, run_pure]
  | @cons us y groups keys own others =>
      have all := List.Forall₂.cons own others
      have found : ∀ ts, keywords ["GROUP", "BY"] (.word "GROUP" false :: .word "BY" false :: ts) =
          .ok (true, ts) := fun ts => keywords_pair (by decide) (by decide)
      have items := all.imp fun _ _ key => key.item
      have opens := opens_items items (List.cons_ne_nil _ _) (Ends.follows after)
      have quantifier := opens.keyword (k := "ALL") (by decide)
      have read := commaSeparated_of_reads (all.imp fun _ _ key => key.reads empty)
        (List.cons_ne_nil _ _) (unbracketed_items items) (by decide) after (hr.accept (by decide))
      simp only [clauseTokens, List.isEmpty_cons, Bool.false_eq_true, if_false, wordTokens,
        List.map_cons, List.map_nil, List.cons_append, List.nil_append, groupBy, run_bind, found,
        run_ite, if_true, quantifier, read, run_pure]

/-! ### Selects -/

/-- What a select is followed by, which stands in parentheses beside a set operator. -/
abbrev AfterSelect (rest : List Token) : Prop :=
  Before [.rightParen] ["ORDER", "LIMIT", "OFFSET"] rest

/-- The parts of a select. -/
structure SelectParts where
  distinct : Bool
  items : List SelectItem
  sources : List Source
  condition : Option Expr
  keys : List Expr
  having : Option Expr

/-- The select of some parts. -/
def SelectParts.select (s : SelectParts) : Select where
  distinct := if s.distinct then .rows else .unmarked
  distinctKeys := []
  top := []
  items := s.items
  into := none
  sources := s.sources
  views := []
  condition := s.condition
  groupAll := false
  groupBy := s.keys
  sorting := []
  having := s.having
  windows := []
  qualify := none
  windowsFirst := false

/-- The tokens of the parts of a select. -/
structure SelectTokens where
  items : List (List Token)
  sources : List (List Token)
  condition : List Token
  keys : List (List Token)
  having : List Token

/-- The clauses after the select list. -/
def SelectTokens.clauses (t : SelectTokens) : List Token :=
  clauseTokens ["FROM"] t.sources ++
    (t.condition ++ (clauseTokens ["GROUP", "BY"] t.keys ++ t.having))

def SelectTokens.all (t : SelectTokens) (distinct : Bool) : List Token :=
  .word "SELECT" false :: (distinctTokens distinct ++ (commaJoined t.items ++ t.clauses))

/-- Tokens are read as the parts of a select. -/
structure ReadsParts (g : Nesting) (t : SelectTokens) (s : SelectParts) : Prop where
  items : List.Forall₂ (ReadsSelectItem g) t.items s.items
  nonempty : t.items ≠ []
  top : ∀ u ∈ (commaJoined t.items).head?, u.keyword? ≠ some "TOP"
  sources : List.Forall₂ (ReadsSource g) t.sources s.sources
  condition : ReadsOption g [.word "WHERE" false] t.condition s.condition
  keys : List.Forall₂ (ReadsKey g) t.keys s.keys
  having : ReadsOption g [.word "HAVING" false] t.having s.having
  empty : NothingEmpty g

variable {t : SelectTokens} {s : SelectParts}

theorem afterHaving (h : ReadsParts g t s) (hr : AfterSelect rest) :
    Before [.rightParen] ["HAVING", "ORDER", "LIMIT", "OFFSET"] (t.having ++ rest) :=
  before_option (hr.mono (List.Subset.refl _) (by decide)) (by decide) (by decide) h.having

theorem afterKeys (h : ReadsParts g t s) (hr : AfterSelect rest) :
    Before [.rightParen] ["GROUP", "HAVING", "ORDER", "LIMIT", "OFFSET"]
      (clauseTokens ["GROUP", "BY"] t.keys ++ (t.having ++ rest)) :=
  before_clause _ ((afterHaving h hr).mono (List.Subset.refl _) (by decide)) (by decide) (by decide)
    (unbracketed_items (h.keys.imp fun _ _ key => key.item))

theorem afterCondition (h : ReadsParts g t s) (hr : AfterSelect rest) :
    Before [.rightParen] clauseWords
      (t.condition ++ (clauseTokens ["GROUP", "BY"] t.keys ++ (t.having ++ rest))) :=
  before_option ((afterKeys h hr).mono (List.Subset.refl _) (by decide)) (by decide) (by decide)
    h.condition

theorem afterItems (h : ReadsParts g t s) (hr : AfterSelect rest) :
    Before [.rightParen] ("FROM" :: clauseWords) (t.clauses ++ rest) := by
  have after := (afterCondition h hr).mono (List.Subset.refl _)
    (List.subset_cons_self "FROM" clauseWords)
  simpa [SelectTokens.clauses] using before_clause [] after (by decide) (by decide)
    (unbracketed_groups h.sources ReadsSource.unbracketed)

theorem distinct_reads {distinct : Bool} (h : ∀ k ∈ openingWords, keyword k ts = .ok (false, ts)) :
    Grammar.distinct g (distinctTokens distinct ++ ts) =
      .ok ((if distinct then .rows else .unmarked, []), ts) := by
  have all := h "ALL" (by decide)
  cases distinct with
  | false =>
      have other := h "DISTINCT" (by decide)
      simp only [distinctTokens, Bool.false_eq_true, if_false, List.nil_append, Grammar.distinct,
        run_bind, all, other, run_ite, run_pure]
  | true =>
      have keys := h "ON" (by decide)
      have none_ : keyword "ALL" (.word "DISTINCT" false :: ts) = .ok (false, _) :=
        keywords_other (by decide) (by decide)
      have found : keyword "DISTINCT" (.word "DISTINCT" false :: ts) = .ok (true, ts) :=
        keyword_self (by decide)
      simp only [distinctTokens, if_true, List.cons_append, List.nil_append, Grammar.distinct,
        run_bind, none_, found, run_ite, Bool.false_eq_true, if_false, keys, run_pure]

theorem top_before (nonempty : ts ≠ []) (h : ∀ t ∈ ts.head?, t.keyword? ≠ some "TOP") :
    top g (ts ++ rest) = .ok ([], ts ++ rest) := by
  have other : keyword "TOP" (ts ++ rest) = .ok (false, ts ++ rest) := keywords_of_head nonempty h
  simp only [top, run_bind, other, run_ite, Bool.false_eq_true, if_false, run_pure]

theorem sources_read {sources : List Source} (h : List.Forall₂ (ReadsSource g) groups sources)
    (hr : Before [.rightParen] clauseWords rest) :
    ∃ found us, keyword "FROM" (clauseTokens ["FROM"] groups ++ rest) = .ok (found, us) ∧
      (if found then commaSeparated (source g) else pure []) us = .ok (sources, rest) := by
  have after : AfterJoins rest := hr.mono (by decide) (List.Subset.refl _)
  cases h with
  | nil => exact ⟨false, rest, hr.keyword (by decide), rfl⟩
  | @cons us y groups sources own others =>
      have all := List.Forall₂.cons own others
      have read := commaSeparated_of_reads (all.imp fun _ _ s => s.reads) (List.cons_ne_nil _ _)
        (unbracketed_groups all ReadsSource.unbracketed) (by decide) after (hr.accept (by decide))
      exact ⟨true, _, keyword_self (by decide), read⟩

theorem views_before (h : Before [.rightParen] clauseWords rest) :
    many (lateralView g) rest = .ok ([], rest) := by
  have view : keywords ["LATERAL", "VIEW"] rest = .ok (false, rest) := h.keywords (by decide)
  refine many_of_gives (.stop ?_)
  simp only [lateralView, run_bind, view, run_ite, Bool.false_eq_true, if_false, run_pure]

/-- What may follow a key that rows are grouped by. -/
abbrev AfterKeys (rest : List Token) : Prop :=
  Before [.rightParen] ["HAVING", "ORDER", "LIMIT", "OFFSET"] rest

theorem sortingClause_before (h : AfterKeys rest)
    (hk : k ∉ ["HAVING", "ORDER", "LIMIT", "OFFSET"]) :
    sortingClause g k rest = .ok ([], rest) := by
  have other : keywords [k, "BY"] rest = .ok (false, rest) := h.keywords hk
  simp only [sortingClause, run_bind, other, run_ite, Bool.false_eq_true, if_false, run_pure]

theorem ReadsParts.select (h : ReadsParts g t s) (hr : AfterSelect rest) :
    Grammar.select g (t.all s.distinct ++ rest) = .ok (s.select, rest) := by
  have after := afterItems h hr
  have afterItem : AfterItem (t.clauses ++ rest) := after.mono (by decide) (List.Subset.refl _)
  have word : ∀ ts, expectKeyword "SELECT" (.word "SELECT" false :: ts) = .ok ((), ts) :=
    fun ts => expectKeyword_self (by decide)
  have distinct := @distinct_reads g (commaJoined t.items ++ (t.clauses ++ rest)) s.distinct
    fun k hk => keyword_items h.items h.nonempty afterItem hk
  have top := @top_before g _ (t.clauses ++ rest)
    (commaJoined_items_nonempty h.items h.nonempty) h.top
  have items := commaSeparated_of_reads (h.items.imp fun _ _ own => own.reads) h.nonempty
    (unbracketed_groups h.items ReadsSelectItem.unbracketed) (by decide) afterItem
    (after.accept (by decide))
  have into : selectInto (t.clauses ++ rest) = .ok (none, t.clauses ++ rest) := by
    have other : keyword "INTO" (t.clauses ++ rest) = .ok (false, _) := after.keyword (by decide)
    simp only [selectInto, run_bind, other, run_ite, Bool.false_eq_true, if_false, run_pure]
  obtain ⟨found, us, start, sources⟩ := sources_read h.sources (afterCondition h hr)
  have views := @views_before g _ (afterCondition h hr)
  have condition := optionalExpr_reads h.condition (by decide) (afterKeys h hr) (by decide)
    (by decide) (by decide)
  have keys := groupBy_reads h.keys h.empty (afterHaving h hr) (by decide) (by decide)
  have clustered := @sortingClause_before g _ "CLUSTER" (afterHaving h hr) (by decide)
  have distributed := @sortingClause_before g _ "DISTRIBUTE" (afterHaving h hr) (by decide)
  have sorted := @sortingClause_before g _ "SORT" (afterHaving h hr) (by decide)
  have having := optionalExpr_reads h.having (by decide) hr (by decide) (by decide) (by decide)
  have windows : windowClause g rest = .ok ([], rest) := by
    have other : keyword "WINDOW" rest = .ok (false, rest) := hr.keyword (by decide)
    simp only [windowClause, run_bind, other, run_ite, Bool.false_eq_true, if_false, run_pure]
  have qualify : optionalExpr g "QUALIFY" rest = .ok (none, rest) :=
    optionalExpr_reads .none (by decide) hr (by decide) (by decide) (by decide)
  have clauses : t.clauses ++ rest = clauseTokens ["FROM"] t.sources ++
      (t.condition ++ (clauseTokens ["GROUP", "BY"] t.keys ++ (t.having ++ rest))) := by
    simp only [SelectTokens.clauses, List.append_assoc]
  rw [← clauses] at start
  cases found <;>
    simp only [Bool.false_eq_true, if_false, if_true, run_pure, Except.ok.injEq, Prod.mk.injEq]
      at sources <;>
    simp only [Grammar.select, SelectTokens.all, List.cons_append, List.append_assoc, run_bind,
      word, distinct, top, items, into, start, sources, run_ite, if_true, Bool.false_eq_true,
      if_false, run_pure, views, condition, keys, clustered, distributed, sorted, having, windows,
      qualify, Option.isSome_none, Bool.and_false] <;>
    rfl

end ReportSql.Sql.Grammar
