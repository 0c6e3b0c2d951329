import ReportSql.Proofs.FoundRelations
import ReportSql.Proofs.ReadPlaceholders
import ReportSql.Proofs.Readings

/-!
Queries without other queries inside than those that they define by a name. The tree that the text
of such a query is read as is of the same kind and reads nothing in raw SQL, so that the readings of
its SELECTs tell all that a check of them looks at.
-/
namespace ReportSql.Tree

open Normalize (ReadsRaw)
open Text (foldCase)

variable {e : Expr} {q b : Query} {table : String}

/-- Whether the only queries inside a query are those that it defines. -/
structure Query.IsBlock (q : Query) : Prop where
  single : q.setOperation = none
  sources : ∀ s ∈ q.allSources, s.query? = none
  exprs : ∀ e ∈ q.exprs, e.children = []

/-- Whether a query has no queries inside but those that it defines, and these have none. -/
structure Query.IsFlat (q : Query) : Prop where
  own : q.IsBlock
  ctes : ∀ c ∈ q.ctes, c.query.ctes = [] ∧ c.query.IsBlock

theorem children_block (h : q.IsBlock) : q.children = q.ctes.map Cte.query := by
  have sources : q.allSources.filterMap Source.query? = [] :=
    List.filterMap_eq_nil_iff.mpr h.sources
  have exprs : q.exprs.flatMap Expr.children = [] := List.flatMap_eq_nil_iff.mpr h.exprs
  simp [Query.children, h.single, sources, exprs]

theorem queries_flat (h : q.IsFlat) : q.queries = q :: q.ctes.map Cte.query := by
  rw [q.queries_eq, children_block h.own, List.flatMap_map]
  have alone : ∀ c ∈ q.ctes, c.query.queries = [c.query] := by
    intro c hc
    obtain ⟨none, block⟩ := h.ctes c hc
    rw [c.query.queries_eq, children_block block, none]
    rfl
  rw [List.flatMap_congr alone, List.map_eq_flatMap]

/-- The readings of a flat query are those of all queries inside it. -/
theorem mem_readings (h : q.IsFlat) {r : Reading} :
    r ∈ q.readings ↔ ∃ b ∈ q.queries, b.reading = r := by
  rw [queries_flat h, Query.readings, List.mem_map]
  refine exists_congr fun b => and_congr_left fun _ => ?_
  rw [List.mem_append, List.mem_singleton, List.mem_cons, or_comm]

/-! ### What a flat query is read as -/

/-- No queries are read where there are none. -/
theorem children_reread (h : e.children = []) : e.reread.children = [] := by
  induction e using Expr.induct with
  | step e ih =>
      cases tests : e.testsNothing with
      | true =>
          obtain ⟨x, negated, rfl⟩ := testsNothing_cases tests
          rfl
      | false =>
          rw [Expr.children_eq, List.append_eq_nil_iff, List.flatMap_eq_nil_iff] at h ⊢
          obtain ⟨own, parts⟩ := h
          refine ⟨by rw [query?_reread tests, Option.toList_eq_nil_iff.mp own]; rfl, ?_⟩
          by_contra inside
          push Not at inside
          obtain ⟨x, hx, some⟩ :=
            (exists_part_reread (fun x => by rw [children_paren]) tests).mp inside
          exact some (ih x hx (parts x hx))

theorem Query.IsBlock.reread (h : q.IsBlock) : q.reread.IsBlock := by
  have written : q.written = q := written_eq h.single
  refine ⟨?_, ?_, ?_⟩
  · rw [Query.reread_eq, Query.bodyReread, h.single]
    rfl
  · rw [allSources_reread, written, List.forall_mem_map]
    intro s hs
    rw [query?_sourceReread, h.sources s hs]
    rfl
  · rw [exprs_reread, written, List.forall_mem_map]
    exact fun e he => children_reread (h.exprs e he)

theorem ctes_reread (q : Query) :
    q.reread.ctes.map Cte.query = q.ctes.map fun c => c.query.reread := by
  rw [Query.reread_eq]
  exact ctesReread_queries _ _

theorem Query.IsFlat.reread (h : q.IsFlat) : q.reread.IsFlat := by
  refine ⟨h.own.reread, fun c hc => ?_⟩
  have defined : c.query ∈ q.ctes.map fun c => c.query.reread :=
    ctes_reread q ▸ List.mem_map_of_mem hc
  obtain ⟨d, hd, same⟩ := List.mem_map.mp defined
  obtain ⟨none, block⟩ := h.ctes d hd
  have empty : d.query.reread.ctes = [] := by
    rw [← List.map_eq_nil_iff (f := Cte.query), ctes_reread, none, List.map_nil]
  exact same ▸ ⟨empty, block.reread⟩

theorem queries_reread (h : q.IsFlat) : q.reread.queries = q.queries.map Query.reread := by
  rw [queries_flat h.reread, ctes_reread, queries_flat h, List.map_cons, List.map_map]
  rfl

/-! ### Raw SQL -/

theorem foldCase_rawChar {c : Char} (h : isRawChar c = true) : foldCase c ≠ 'o' := by
  rcases Bool.or_eq_true_iff.mp h with digit | listed
  · have plain : Sql.Placeholder.isNamePart c = true := by
      simp only [Sql.Placeholder.isNamePart, Char.isAlphanum, digit, Bool.or_true, Bool.true_or]
    exact @Sql.ascii_induction (fun c => c.isDigit = true → foldCase c ≠ 'o') (by decide +kernel) c
      (Sql.plainPart_lt plain) digit
  · have none : (".*+-' DATE".toList.all fun d => foldCase d != 'o') = true := by decide +kernel
    exact bne_iff_ne.mp (List.all_eq_true.mp none c (List.contains_iff_mem.mp listed))

/-- The raw SQL that is read in a text has no room for FROM or JOIN. -/
theorem rawReads_rawChars {sql : String} (h : ∀ c ∈ sql.toList, isRawChar c = true) :
    rawReads table sql = false := by
  by_contra reads
  obtain ⟨m, split, mention⟩ := rawReads_iff.mp (Bool.not_eq_false _ ▸ reads)
  have letter : ∀ word : List Char, 'o' ∈ word.map foldCase → IsWritten word m.keyword → False := by
    intro word inside written
    rw [IsWritten] at written
    obtain ⟨c, hc, same⟩ := List.mem_map.mp (written ▸ inside)
    have own : c ∈ sql.toList := by simp [split, Mention.text, hc]
    exact foldCase_rawChar (h c own) same
  rcases mention.keyword with written | written
  · exact letter _ (by decide +kernel) written
  · exact letter _ (by decide +kernel) written

/-- An expression is read without raw SQL that reads a relation. -/
theorem reread_reads_none (placed : e.IsPlaced) : ¬e.reread.has (.ofRaw (rawReads table)) := by
  induction e using Expr.induct with
  | step e ih =>
      cases tests : e.testsNothing with
      | true =>
          obtain ⟨x, negated, rfl⟩ := testsNothing_cases tests
          exact (by decide : ¬false = true)
      | false =>
          have paren : ∀ x : Expr, (Expr.paren x).has (.ofRaw (rawReads table)) ↔
              x.has (.ofRaw (rawReads table)) := fun x => by
            simp [has_iff (e := .paren x), LeafTest.holds, Expr.parts]
          rw [has_iff, exists_part_reread paren tests]
          rintro (own | ⟨x, hx, some⟩)
          · cases read : e.reread with
            | raw sql =>
                rw [read] at own
                have none : rawReads table sql = false := rawReads_rawChars (reread_raw placed read)
                exact absurd (none.symm.trans own) (by decide)
            | _ =>
                rw [read] at own
                cases own
          · exact ih x hx (placed.parts tests x hx) some

/-- A query is read without raw SQL that reads a relation. -/
theorem readsRaw_reread (readable : q.isReadable = true) : ¬ReadsRaw table q.reread := by
  intro raw
  rcases exists_rawFragment.mp raw with ⟨e, he, own⟩ | ⟨sql, source, -⟩
  · rw [exprs_reread] at he
    obtain ⟨x, hx, rfl⟩ := List.mem_map.mp he
    exact reread_reads_none (exprs_placed readable x hx) own
  · rw [raw_reread readable] at source
    cases source

theorem not_readsRaw_flat (h : q.IsFlat) (readable : q.isReadable = true) :
    ∀ b ∈ q.reread.queries, ¬ReadsRaw table b := by
  rw [queries_reread h, List.forall_mem_map, queries_flat h, List.forall_mem_cons]
  refine ⟨readsRaw_reread readable, List.forall_mem_map.mpr fun c hc => readsRaw_reread ?_⟩
  have written : q.written = q := written_eq h.own.single
  refine operands_readable readable c.query ?_
  rw [written]
  exact List.mem_append_left _ (List.mem_append_left _ (List.mem_map_of_mem hc))

end ReportSql.Tree
