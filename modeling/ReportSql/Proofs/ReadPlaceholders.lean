import ReportSql.Proofs.Leaves
import ReportSql.Proofs.RereadParts
import ReportSql.Proofs.ShownPlaceholders

/-!
Placeholders of texts that are read back. The text of a tree shows the placeholders that the tree
which it is read as refers to, and the text of that tree shows them again: none is lost, made up or
overlooked. A text in which the mark of sentinels stands may be read as more.
-/
namespace ReportSql.Sql.Placeholder

open Text (Segment foundValues segments segmentsAfter)

variable {s sql n : String} {cs : List Char}

/-- Whether the mark of sentinels stands nowhere in a text. -/
def Unmarked (s : String) : Prop := ¬ sentinelMark.toList <:+: s.toList

instance : Decidable (Unmarked s) := inferInstanceAs (Decidable (¬ _))

theorem sentinelAt?_eq_none (h : ¬ sentinelMark.toList <:+: cs) : sentinelAt? cs = none := by
  unfold sentinelAt? nameBetween
  rw [if_neg]
  intro opening
  exact h ((List.suffix_cons _ _).isInfix.trans (List.isPrefixOf_iff_prefix.mp opening).isInfix)

theorem segments_unmarked (h : ¬ sentinelMark.toList <:+: cs) :
    segments sentinelAt? cs = cs.map .plain := by
  induction cs with
  | nil => rfl
  | cons c cs ih =>
      have more : ¬ sentinelMark.toList <:+: cs := fun inside =>
        h (inside.trans (List.suffix_cons _ _).isInfix)
      have rest : segmentsAfter sentinelAt? 0 cs = cs.map .plain := ih more
      simp only [segments, segmentsAfter, sentinelAt?_eq_none h, rest, List.map_cons]

theorem mentions_unmarked (h : Unmarked sql) : mentions sql n = false := by
  have plain : foundValues (sql.toList.map (Segment.plain : Char → Segment String Char)) = [] :=
    Output.foundValues_plain _
  rw [mentions, segments_unmarked h, plain]
  rfl

theorem unmask_unmarked (h : Unmarked s) : unmask s = s := by
  rw [unmask, unmaskChars, segments_unmarked h]
  simp [List.flatMap_map]

theorem names_congr {t : String} (h : ∀ n, n ∈ names s ↔ n ∈ names t) : names s = names t := by
  have ascending : ∀ text, (names text).Pairwise (· < ·) := fun _ => Text.sortedSet_ascending _
  have nodup : ∀ text, (names text).Nodup := fun text => (ascending text).imp String.ne_of_lt
  exact ((List.perm_ext_iff_of_nodup (nodup s) (nodup t)).mpr h).eq_of_pairwise
    (fun _ _ _ _ below above => absurd below (String.lt_asymm above)) (ascending s) (ascending t)

end ReportSql.Sql.Placeholder

namespace ReportSql.Output

open Sql.Placeholder (Unmarked names sentinelMark sentinelName?)
open Text (foundValues)

variable {n s : String} {t : Token} {ts us : List Token} {groups : List (List Token)}

theorem mem_segments : n ∈ foundValues t.segments ↔ t = .param n := by
  cases t with
  | param name => simp [Token.segments, foundValues, eq_comm]
  | _ => simp [Token.segments, foundValues_plain]

/-- A text of legible tokens shows the placeholders that are among them. -/
theorem mem_names_legible (h : Legible ts) : n ∈ names (sqlText ts) ↔ .param n ∈ ts := by
  rw [names, Text.mem_sortedSet, split_sqlText h]
  clear h
  induction ts with
  | nil => simp [foundValues]
  | cons t ts ih =>
      rw [List.flatMap_cons, foundValues_append, List.mem_append, mem_segments, ih, List.mem_cons,
        eq_comm]

/-- The text of a token stands in that of all. -/
theorem unmarked_token (h : Unmarked (sqlText ts)) (ht : t ∈ ts) : Unmarked t.render := by
  intro marked
  obtain ⟨before, after, rfl⟩ := List.append_of_mem ht
  refine h (marked.trans ?_)
  simp only [sqlText, List.map_append, List.map_cons, String.join_append, String.join_cons,
    String.toList_append]
  exact ⟨_, _, by rw [List.append_assoc]⟩

end ReportSql.Output

namespace ReportSql.Tree

open Output (Token leaves)
open Sql.Placeholder (Unmarked)

variable {n : String} {t : Token} {e : Expr} {q : Query}

/-! ### References -/

/-- Whether a parameter is mentioned in an expression or in the queries inside it. -/
def Expr.RefersTo (n : String) (e : Expr) : Prop :=
  e.has (.mentions n) ∨ ∃ b ∈ e.queries, b.has (.mentions n)

theorem refersTo_children :
    e.RefersTo n ↔ e.has (.mentions n) ∨ ∃ r ∈ e.children, r.references n = true := by
  simp only [Expr.RefersTo, references_iff, e.queries_eq, Expr.children, List.mem_flatMap]
  grind

theorem references_children :
    q.references n = true ↔ q.has (.mentions n) ∨ ∃ r ∈ q.children, r.references n = true := by
  simp only [references_iff, q.queries_eq, List.mem_cons, List.mem_flatMap]
  grind

/-- What an expression refers to by itself, in its parts and in its query. -/
theorem refersTo_iff : e.RefersTo n ↔ (LeafTest.mentions n).holds e = true ∨
    (∃ x ∈ e.parts, x.RefersTo n) ∨ ∃ q ∈ e.query?, q.references n = true := by
  simp only [refersTo_children, has_iff (e := e), e.children_eq, List.mem_append,
    Option.mem_toList, List.mem_flatMap, Option.mem_def]
  grind

/-- What a query refers to in its expressions, in the queries in its clauses and in its raw
sources. -/
theorem references_eq : q.references n = true ↔ (∃ e ∈ q.exprs, e.RefersTo n) ∨
    (∃ r ∈ q.operands, r.references n = true) ∨
      ∃ sql ∈ q.allSources.filterMap Source.raw?, Sql.Placeholder.mentions sql n = true := by
  have test : ∀ sql, (LeafTest.mentions n).raw sql = Sql.Placeholder.mentions sql n := fun _ => rfl
  simp only [references_children (q := q), refersTo_children, Query.has, Query.children,
    Query.operands, List.mem_append, List.mem_flatMap, test]
  grind

theorem refersTo_paren : (Expr.paren e).RefersTo n ↔ e.RefersTo n := by
  simp [refersTo_iff (e := .paren e), LeafTest.holds, Expr.parts, Expr.query?]

/-! ### Leaves that are read -/

/-- Whether a character can be part of raw SQL that is read back: a number, a star or a date. -/
def isRawChar (c : Char) : Bool := c.isDigit || ".*+-' DATE".toList.contains c

theorem unmarked_of_rawChars {s : String} (h : ∀ c ∈ s.toList, isRawChar c = true) : Unmarked s :=
  fun marked => absurd (h '_' (marked.subset (by decide))) (by decide)

theorem rawChars_digits {cs : List Char} (h : ∀ c ∈ cs, c.isDigit = true) :
    ∀ c ∈ cs, isRawChar c = true :=
  fun c hc => Bool.or_eq_true_iff.mpr (.inl (h c hc))

theorem rawChars_numeral {s : String} (h : Sql.isNumeral s = true) :
    ∀ c ∈ s.toList, isRawChar c = true := by
  obtain ⟨whole, point, places, cut, -, first, last, dot⟩ := Sql.isNumeral_parts h
  rw [cut, List.forall_mem_append, List.forall_mem_append]
  refine ⟨⟨rawChars_digits first, ?_⟩, rawChars_digits last⟩
  rcases dot with ⟨rfl, -⟩ | rfl
  · exact List.forall_mem_nil _
  · exact List.forall_mem_singleton.mpr (by decide)

theorem rawChars_padded (width k : Nat) :
    ∀ c ∈ (Date.padded width k).toList, isRawChar c = true := by
  rw [Date.padded, String.toList_append, String.toList_ofList, List.forall_mem_append]
  refine ⟨fun c hc => ?_, rawChars_numeral (Output.isNumeral_nat k)⟩
  obtain ⟨-, rfl⟩ := List.mem_replicate.mp hc
  decide

theorem rawChars_date (d : Date) : ∀ c ∈ d.text.toList, isRawChar c = true := by
  have mark : ∀ c ∈ "-".toList, isRawChar c = true := List.all_eq_true.mp (by decide)
  have year : ∀ c ∈ (Date.yearText d.civil.year).toList, isRawChar c = true := by
    unfold Date.yearText
    split
    · exact rawChars_padded 4 _
    · rw [String.toList_append, List.forall_mem_append]
      refine ⟨?_, rawChars_padded 4 _⟩
      split
      · exact mark
      · exact List.all_eq_true.mp (by decide)
  simp only [Date.text, String.toList_append, List.forall_mem_append]
  exact ⟨⟨⟨⟨year, mark⟩, rawChars_padded 2 _⟩, mark⟩, rawChars_padded 2 _⟩

theorem mem_doubleQuotes {quote previous c : Char} {cs : List Char}
    (h : c ∈ Sql.doubleQuotes quote previous cs) : c ∈ cs := by
  fun_induction Sql.doubleQuotes quote previous cs <;> grind

/-- The text of a date that is kept as raw SQL. -/
theorem rawChars_dateLiteral (d : Date) :
    ∀ c ∈ (Sql.Expr.typed ⟨"DATE", .date⟩ d.text).render.toList, isRawChar c = true := by
  have text : (Sql.Expr.typed ⟨"DATE", .date⟩ d.text).render =
      "DATE" ++ " '" ++ Sql.escapeQuotes '\'' d.text ++ "'" := rfl
  have inner : ∀ c ∈ (Sql.escapeQuotes '\'' d.text).toList, isRawChar c = true := by
    rw [Sql.escapeQuotes, String.toList_ofList]
    exact fun c hc => rawChars_date d c (mem_doubleQuotes hc)
  rw [text]
  simp only [String.toList_append, List.forall_mem_append]
  exact ⟨⟨⟨List.all_eq_true.mp (by decide), List.all_eq_true.mp (by decide)⟩, inner⟩,
    List.all_eq_true.mp (by decide)⟩

/-- A text literal without the mark stands for no placeholder. -/
theorem sentinelName?_unmarked {s : String} (h : Unmarked (Output.textLiteral s)) :
    Sql.Placeholder.sentinelName? s = none := by
  unfold Sql.Placeholder.sentinelName?
  refine if_neg fun opening => h ?_
  obtain ⟨rest, cut⟩ := List.isPrefixOf_iff_prefix.mp opening
  have mark : Output.doubled '\'' Sql.Placeholder.sentinelMark.toList =
      Sql.Placeholder.sentinelMark.toList := by decide
  have body : Output.doubled '\'' s.toList =
      Sql.Placeholder.sentinelMark.toList ++ Output.doubled '\'' rest := by
    rw [← cut]
    exact List.flatMap_append.trans (congrArg (· ++ _) mark)
  rw [Output.textLiteral, Output.quoted, String.toList_ofList, body]
  exact ⟨['\''], Output.doubled '\'' rest ++ ['\''], by simp⟩

theorem own_param : .param n ∈ leaves e.ownTokens ↔ e = .param n := by
  cases e with
  | literal value =>
      cases value <;> simp [Expr.ownTokens, Literal.token, leaves, Output.Token.isLeaf]
  | _ => simp [Expr.ownTokens, leaves, Output.Token.isLeaf, eq_comm]

theorem holds_mentions (raw : ∀ sql, e = .raw sql → Unmarked sql) :
    (LeafTest.mentions n).holds e = true ↔ e = .param n := by
  cases e with
  | param name => simp [LeafTest.mentions, LeafTest.holds]
  | raw sql =>
      simp [LeafTest.mentions, LeafTest.holds,
        Sql.Placeholder.mentions_unmarked (raw sql rfl)]
  | _ => simp [LeafTest.holds]

theorem ofNumber_cases (digits : String) :
    (∃ k, ofValue (.number digits false) = .literal (.int k)) ∨
      ofValue (.number digits false) = .raw digits := by
  simp only [ofValue]
  split
  · exact .inl ⟨_, rfl⟩
  · exact .inr rfl

/-- The raw SQL that an expression is read as is a number, a star or a date. -/
theorem reread_raw (placed : e.IsPlaced) {sql : String} (h : e.reread = .raw sql) :
    ∀ c ∈ sql.toList, isRawChar c = true := by
  have number : ∀ {digits : String}, (∀ c ∈ digits.toList, isRawChar c = true) →
      ofValue (.number digits false) = .raw sql → ∀ c ∈ sql.toList, isRawChar c = true := by
    intro digits chars read
    rcases ofNumber_cases digits with ⟨k, int⟩ | raw
    · rw [int] at read
      cases read
    · rw [raw] at read
      exact Expr.raw.inj read ▸ chars
  cases e with
  | literal value =>
      have readable : value.isReadable = true := placed.resolve_right (by simp)
      cases value with
      | int k =>
          obtain ⟨k, rfl⟩ := Int.eq_ofNat_of_zero_le (of_decide_eq_true readable)
          exact number (rawChars_numeral (Output.isNumeral_nat k)) h
      | float x => cases readable
      | text s =>
          simp only [Expr.reread, Literal.reread, ofValue] at h
          split at h <;> cases h
      | date d =>
          simp only [Expr.reread, Literal.reread, ofTyped, if_true] at h
          cases read : Date.read? (Sql.escapeQuotes '\'' d.text) with
          | some d => simp [read] at h
          | none =>
              simp only [read, Option.map_none, Option.getD_none, Expr.raw.injEq] at h
              exact h ▸ rawChars_dateLiteral d
      | boolean b => cases h
      | null => cases h
  | raw own =>
      refine number ?_ h
      rcases placed with readable | star | star
      · exact rawChars_numeral readable
      · cases star
      · cases star
        exact List.all_eq_true.mp (by decide)
  | inList x values negated => cases values <;> cases h
  | _ => cases h

/-- An expression is read as a placeholder only if it is one. -/
theorem reread_param (h : ∀ t ∈ leaves e.ownTokens, Unmarked t.render) :
    e.reread = .param n ↔ e = .param n := by
  have number : ∀ {digits}, ofValue (.number digits false) ≠ .param n := by
    intro digits read
    rcases ofNumber_cases digits with ⟨k, int⟩ | raw
    · rw [int] at read
      cases read
    · rw [raw] at read
      cases read
  constructor
  case mpr =>
    rintro rfl
    rfl
  intro read
  cases e with
  | literal value =>
      cases value with
      | int k => exact absurd read number
      | float x => exact absurd read number
      | text s =>
          have unmarked : Unmarked (Output.textLiteral s) :=
            h (.text s) (by simp [Expr.ownTokens, Literal.token, leaves, Output.Token.isLeaf])
          simp [Expr.reread, Literal.reread, ofValue, sentinelName?_unmarked unmarked] at read
      | date d =>
          simp only [Expr.reread, Literal.reread, ofTyped, if_true] at read
          cases day : Date.read? (Sql.escapeQuotes '\'' d.text) <;> simp [day] at read
      | boolean b => cases read
      | null => cases read
  | param name => exact read
  | raw sql => exact absurd read number
  | inList x values negated => cases values <;> cases read
  | _ => cases read

/-! ### Placeholders that are kept -/

/-- Whether an expression shows a placeholder when it refers to it, and so does what it is read
as. -/
def Expr.Keeps (n : String) (e : Expr) : Prop :=
  e.IsPlaced → (∀ t ∈ leaves e.tokens, Unmarked t.render) →
    (.param n ∈ leaves e.tokens ↔ e.reread.RefersTo n) ∧
      (.param n ∈ leaves e.reread.tokens ↔ e.reread.RefersTo n)

/-- Whether a query shows a placeholder when it refers to it, and so does what it is read as. -/
def Query.Keeps (n : String) (q : Query) : Prop :=
  q.isReadable = true → (∀ t ∈ leaves q.tokens, Unmarked t.render) →
    (.param n ∈ leaves q.tokens ↔ q.reread.references n = true) ∧
      (.param n ∈ leaves q.reread.tokens ↔ q.reread.references n = true)

theorem testsNothing_cases (h : e.testsNothing = true) : ∃ x negated, e = .inList x [] negated := by
  cases e with
  | inList x values negated => exact ⟨x, negated, by rw [List.isEmpty_iff.mp h]⟩
  | _ => cases h

theorem Expr.keeps_step (own : ∀ x ∈ e.parts, x.Keeps n) (queries : ∀ q ∈ e.query?, q.Keeps n) :
    e.Keeps n := by
  intro placed unmarked
  cases tests : e.testsNothing with
  | true =>
      -- The operand is not written and not read.
      obtain ⟨x, negated, rfl⟩ := testsNothing_cases tests
      have read : (Expr.inList x [] negated).reread = .literal (.boolean negated) := rfl
      rw [read, refersTo_iff]
      constructor <;>
        simp [Expr.tokens, Literal.token, leaves, Output.Token.isLeaf, LeafTest.holds, Expr.parts,
          Expr.query?]
  | false =>
      have parts : ∀ x ∈ e.parts, _ := fun x hx => own x hx (placed.parts tests x hx)
        fun t ht => unmarked t ((mem_leaves_expr tests).mpr (.inr (.inl ⟨x, hx, ht⟩)))
      have inner : ∀ q ∈ e.query?, _ := fun q hq => queries q hq (placed.query? q hq)
        fun t ht => unmarked t ((mem_leaves_expr tests).mpr (.inr (.inr ⟨q, hq, ht⟩)))
      have alone : e.reread = .param n ↔ e = .param n := reread_param fun t ht =>
        unmarked t ((mem_leaves_expr tests).mpr (.inl ht))
      have refers : e.reread.RefersTo n ↔ e = .param n ∨
          (∃ x ∈ e.parts, x.reread.RefersTo n) ∨
            ∃ q ∈ e.query?, q.reread.references n = true := by
        have unmarked : ∀ sql, e.reread = .raw sql → Unmarked sql := fun _ raw =>
          unmarked_of_rawChars (reread_raw placed raw)
        rw [refersTo_iff, holds_mentions unmarked, alone,
          exists_part_reread (fun _ => refersTo_paren) tests, query?_reread tests]
        simp
      constructor
      · rw [refers, mem_leaves_expr tests, own_param]
        exact or_congr_right (or_congr
          (exists_congr fun x => and_congr_right fun hx => (parts x hx).1)
          (exists_congr fun q => and_congr_right fun hq => (inner q hq).1))
      · rw [refers, mem_leaves_expr (testsNothing_reread tests), own_param, alone,
          exists_part_reread (fun x => by simp [Expr.tokens, leaves_parens]) tests,
          query?_reread tests]
        simp only [Option.mem_def, Option.map_eq_some_iff, exists_exists_and_eq_and]
        exact or_congr_right (or_congr
          (exists_congr fun x => and_congr_right fun hx => (parts x hx).2)
          (exists_congr fun q => and_congr_right fun hq => (inner q hq).2))

theorem Query.keeps_step (own : ∀ e ∈ q.exprs, e.Keeps n) (operands : ∀ r ∈ q.operands, r.Keeps n) :
    q.Keeps n := by
  intro readable unmarked
  have exprs : ∀ e ∈ q.written.exprs, _ := fun e he =>
    own e (exprs_written he) (exprs_placed readable e he) fun t ht =>
      unmarked t (mem_leaves_query.mpr (.inl ⟨e, he, ht⟩))
  have queries : ∀ r ∈ q.written.operands, _ := fun r hr =>
    operands r (operands_written hr) (operands_readable readable r hr) fun t ht =>
      unmarked t (mem_leaves_query.mpr (.inr (.inl ⟨r, hr, ht⟩)))
  have refers : q.reread.references n = true ↔ (∃ e ∈ q.written.exprs, e.reread.RefersTo n) ∨
      ∃ r ∈ q.written.operands, r.reread.references n = true := by
    rw [references_eq, exprs_reread, operands_reread, raw_reread readable]
    simp
  constructor
  · rw [refers, mem_leaves_query, raw_written readable]
    simp only [List.not_mem_nil, false_and, exists_false, or_false]
    exact or_congr (exists_congr fun e => and_congr_right fun he => (exprs e he).1)
      (exists_congr fun r => and_congr_right fun hr => (queries r hr).1)
  · rw [refers, mem_leaves_query, written_reread, exprs_reread, operands_reread,
      raw_reread readable]
    simp only [List.mem_map, exists_exists_and_eq_and, List.not_mem_nil, false_and, exists_false,
      or_false]
    exact or_congr (exists_congr fun e => and_congr_right fun he => (exprs e he).2)
      (exists_congr fun r => and_congr_right fun hr => (queries r hr).2)

theorem keepsSteps (n : String) : TreeSteps (Expr.Keeps n) (Query.Keeps n) where
  expr _ := Expr.keeps_step
  query _ := Query.keeps_step

/-! ### Texts that are read -/

theorem unmarked_leaves (h : Unmarked q.sql) : ∀ t ∈ leaves q.tokens, Unmarked t.render :=
  fun _ ht => Output.unmarked_token h (List.mem_filter.mp ht).1

/-- What the text of a query is read as refers to the placeholders of the text. -/
theorem references_read (h : q.isReadable = true) (hd : q.depth ≤ 48) (unmarked : Unmarked q.sql) :
    ∃ r, Query.read q.sql = .ok r ∧
      ∀ n, r.references n = true ↔ n ∈ Sql.Placeholder.names q.sql := by
  refine ⟨q.reread, queryText_read h hd, fun n => ?_⟩
  have kept := ((keepsSteps n).queries q h (unmarked_leaves unmarked)).1
  rw [Query.sql, Output.mem_names_legible (neatSteps.queries h).legible, ← kept,
    Output.mem_leaves_param]

/-- Where what the text of a query is read as can be read back again, its text shows the
placeholders of the first text. -/
theorem names_read {r : Query} (h : q.isReadable = true) (hd : q.depth ≤ 48)
    (unmarked : Unmarked q.sql) (read : Query.read q.sql = .ok r) (again : r.isReadable = true)
    (clean : Unmarked r.sql) :
    Sql.Placeholder.names (Sql.Placeholder.unmask r.sql) = Sql.Placeholder.names q.sql := by
  obtain rfl : q.reread = r := Except.ok.inj ((queryText_read h hd).symm.trans read)
  rw [Sql.Placeholder.unmask_unmarked clean]
  refine Sql.Placeholder.names_congr fun n => ?_
  have kept := (keepsSteps n).queries q h (unmarked_leaves unmarked)
  rw [Query.sql, Query.sql, Output.mem_names_legible (neatSteps.queries again).legible,
    Output.mem_names_legible (neatSteps.queries h).legible]
  calc Output.Token.param n ∈ q.reread.tokens
    _ ↔ q.reread.references n = true := Output.mem_leaves_param.symm.trans kept.2
    _ ↔ .param n ∈ q.tokens := kept.1.symm.trans Output.mem_leaves_param

end ReportSql.Tree
