import ReportSql.Proofs.ChangedConditions
import ReportSql.Proofs.KeptParts

/-!
The relations that a statement reads. A relation that the tree of the statement has is found there;
in raw SQL it is found where its name follows FROM or JOIN, as a whole word that at most its schema
stands before. The relations of a list after the first one, those in quotes and those that a
database qualifies are not found in raw SQL, and neither is a raw relation itself.
-/
namespace ReportSql.Tree

open Text (foldCase isBlank isWordChar sameIgnoringAsciiCase)
open Sql (Node)

variable {table s rest : List Char} {before last : Option Char}

/-! ### Words in a text -/

/-- Whether characters are those of a word, where case is ignored. -/
def IsWritten (word s : List Char) : Prop := s.map foldCase = word.map foldCase

/-- Whether characters are a schema with a period, or nothing. -/
def IsOwner (s : List Char) : Prop :=
  s = [] ∨ ∃ word, s = word ++ ['.'] ∧ word ≠ [] ∧ ∀ c ∈ word, isWordChar c = true

theorem getLast?_or_cons (c : Char) (s : List Char) :
    s.getLast?.or (some c) = (c :: s).getLast?.or before := by
  rw [List.getLast?_cons]
  cases s.getLast? <;> rfl

theorem dropIgnoringCase_eq_some {word : List Char} :
    dropIgnoringCase before word s = some (last, rest) ↔
      ∃ front, s = front ++ rest ∧ IsWritten word front ∧ last = front.getLast?.or before := by
  induction word generalizing before s with
  | nil =>
      simp only [dropIgnoringCase, Option.some.injEq, Prod.mk.injEq, IsWritten, List.map_nil,
        List.map_eq_nil_iff]
      constructor
      · rintro ⟨rfl, rfl⟩
        exact ⟨[], rfl, rfl, rfl⟩
      · rintro ⟨_, rfl, rfl, rfl⟩
        exact ⟨rfl, rfl⟩
  | cons p word ih =>
      cases s with
      | nil =>
          simp only [dropIgnoringCase, reduceCtorEq, false_iff]
          rintro ⟨front, empty, written, -⟩
          obtain ⟨rfl, -⟩ := List.append_eq_nil_iff.mp empty.symm
          cases written
      | cons c s =>
          simp only [dropIgnoringCase, beq_iff_eq]
          constructor
          · split
            · next same =>
              intro h
              obtain ⟨front, rfl, written, rfl⟩ := ih.mp h
              refine ⟨c :: front, rfl, ?_, getLast?_or_cons c front⟩
              rw [IsWritten, List.map_cons, List.map_cons, written, same]
            · intro h
              cases h
          · rintro ⟨front, split, written, rfl⟩
            cases front with
            | nil => cases written
            | cons d front =>
                obtain ⟨rfl, rfl⟩ := List.cons.inj split
                obtain ⟨first, later⟩ := List.cons.inj written
                rw [if_pos first.symm]
                exact ih.mpr ⟨front, rfl, later, (getLast?_or_cons _ front).symm⟩

theorem namesTable_iff : namesTable table before s = true ↔
    ∃ name rest, s = name ++ rest ∧ IsWritten table name ∧
      isWordEdge (name.getLast?.or before) rest.head? = true := by
  unfold namesTable
  constructor
  · split
    · next last rest found =>
      intro edge
      obtain ⟨name, same, written, rfl⟩ := dropIgnoringCase_eq_some.mp found
      exact ⟨name, rest, same, written, edge⟩
    · intro edge
      cases edge
  · rintro ⟨name, rest, same, written, edge⟩
    rw [dropIgnoringCase_eq_some.mpr ⟨name, same, written, rfl⟩]
    exact edge

theorem isWordChar_period : isWordChar '.' = false := by decide +kernel

theorem namesTableQualified_iff : namesTableQualified table before s = true ↔
    ∃ owner name rest, s = owner ++ (name ++ rest) ∧ IsOwner owner ∧ IsWritten table name ∧
      isWordEdge ((owner ++ name).getLast?.or before) rest.head? = true := by
  have word_last {word : List Char} {name : List Char} :
      ((word ++ ['.']) ++ name).getLast?.or before = name.getLast?.or (some '.') := by
    rw [List.getLast?_append, List.getLast?_append, List.getLast?_singleton]
    cases name.getLast? <;> rfl
  simp only [namesTableQualified, Bool.or_eq_true]
  constructor
  · rintro (own | qualified)
    · obtain ⟨name, rest, same, written, edge⟩ := namesTable_iff.mp own
      exact ⟨[], name, rest, same, .inl rfl, written, edge⟩
    · split at qualified
      · next rest dropped =>
        simp only [Bool.and_eq_true, Bool.not_eq_true', List.isEmpty_eq_false_iff] at qualified
        obtain ⟨name, rest, rfl, written, edge⟩ := namesTable_iff.mp qualified.2
        refine ⟨s.takeWhile isWordChar ++ ['.'], name, rest, ?_, .inr ⟨_, rfl, qualified.1, ?_⟩,
          written, word_last ▸ edge⟩
        · rw [List.append_assoc]
          exact (List.takeWhile_append_dropWhile.symm.trans (congrArg _ dropped))
        · exact List.all_eq_true.mp List.all_takeWhile
      · cases qualified
  · rintro ⟨owner, name, rest, rfl, rfl | ⟨word, rfl, nonempty, chars⟩, written, edge⟩
    · exact .inl (namesTable_iff.mpr ⟨name, rest, rfl, written, edge⟩)
    · right
      have split : (word ++ ['.']) ++ (name ++ rest) = word ++ '.' :: (name ++ rest) := by simp
      rw [split, List.takeWhile_append_of_pos chars, List.dropWhile_append_of_pos chars,
        List.takeWhile_cons_of_neg (by simp [isWordChar_period]),
        List.dropWhile_cons_of_neg (by simp [isWordChar_period]), List.append_nil]
      simp only [Bool.and_eq_true, Bool.not_eq_true', List.isEmpty_eq_false_iff]
      exact ⟨nonempty, namesTable_iff.mpr ⟨name, rest, rfl, written, word_last ▸ edge⟩⟩

/-! ### Relations in raw SQL -/

/-- A text in the parts around a relation that it names. -/
structure Mention where
  before : List Char
  keyword : List Char
  blanks : List Char
  owner : List Char
  name : List Char
  after : List Char

def Mention.text (m : Mention) : List Char :=
  m.before ++ (m.keyword ++ (m.blanks ++ (m.owner ++ (m.name ++ m.after))))

/-- Whether the parts of a text are those around a relation, whose name follows FROM or JOIN as a
whole word. -/
structure Mention.IsOf (table : List Char) (m : Mention) : Prop where
  starts : isWordEdge m.before.getLast? m.keyword.head? = true
  keyword : IsWritten "from".toList m.keyword ∨ IsWritten "join".toList m.keyword
  apart : m.blanks ≠ []
  blanks : ∀ c ∈ m.blanks, isBlank c = true
  owner : IsOwner m.owner
  name : IsWritten table m.name
  ends : isWordEdge (m.blanks ++ (m.owner ++ m.name)).getLast? m.after.head? = true

theorem namesTableAfterBlanks_iff : namesTableAfterBlanks table s = true ↔
    ∃ blanks owner name rest, s = blanks ++ (owner ++ (name ++ rest)) ∧ blanks ≠ [] ∧
      (∀ c ∈ blanks, isBlank c = true) ∧ IsOwner owner ∧ IsWritten table name ∧
      isWordEdge (blanks ++ (owner ++ name)).getLast? rest.head? = true := by
  induction s with
  | nil =>
      simp only [namesTableAfterBlanks, Bool.false_eq_true, false_iff]
      rintro ⟨blanks, owner, name, rest, empty, apart, -⟩
      exact apart (List.append_eq_nil_iff.mp empty.symm).1
  | cons c s ih =>
      simp only [namesTableAfterBlanks, Bool.and_eq_true, Bool.or_eq_true]
      constructor
      · rintro ⟨blank, here | later⟩
        · obtain ⟨owner, name, rest, rfl, owned, written, edge⟩ := namesTableQualified_iff.mp here
          refine ⟨[c], owner, name, rest, rfl, List.cons_ne_nil _ _, ?_, owned, written, ?_⟩
          · exact List.forall_mem_singleton.mpr blank
          · rw [List.getLast?_append]
            exact edge
        · obtain ⟨blanks, owner, name, rest, rfl, apart, all, owned, written, edge⟩ := ih.mp later
          refine ⟨c :: blanks, owner, name, rest, rfl, List.cons_ne_nil _ _,
            List.forall_mem_cons.mpr ⟨blank, all⟩, owned, written, ?_⟩
          obtain ⟨b, blanks, rfl⟩ := List.exists_cons_of_ne_nil apart
          exact edge
      · rintro ⟨blanks, owner, name, rest, split, apart, all, owned, written, edge⟩
        obtain ⟨b, blanks, rfl⟩ := List.exists_cons_of_ne_nil apart
        obtain ⟨rfl, rfl⟩ := List.cons.inj split
        obtain ⟨blank, all⟩ := List.forall_mem_cons.mp all
        refine ⟨blank, ?_⟩
        cases blanks with
        | nil =>
            rw [List.getLast?_append] at edge
            exact .inl (namesTableQualified_iff.mpr
              ⟨owner, name, rest, rfl, owned, written, edge⟩)
        | cons d blanks =>
            exact .inr (ih.mpr ⟨d :: blanks, owner, name, rest, rfl, List.cons_ne_nil _ _, all,
              owned, written, edge⟩)

theorem readsAfter_iff {keyword : List Char} : readsAfter keyword table s = true ↔
    ∃ word rest, s = word ++ rest ∧ IsWritten keyword word ∧
      namesTableAfterBlanks table rest = true := by
  unfold readsAfter
  constructor
  · split
    · next rest found =>
      intro named
      obtain ⟨word, same, written, -⟩ := dropIgnoringCase_eq_some.mp found
      exact ⟨word, rest, same, written, named⟩
    · intro named
      cases named
  · rintro ⟨word, rest, same, written, named⟩
    rw [dropIgnoringCase_eq_some.mpr ⟨word, same, written, rfl⟩]
    exact named

theorem readsFrom_iff : readsFrom table before s = true ↔
    ∃ front rest, s = front ++ rest ∧ isWordEdge (front.getLast?.or before) rest.head? = true ∧
      (readsAfter "from".toList table rest = true ∨
        readsAfter "join".toList table rest = true) := by
  induction s generalizing before with
  | nil =>
      simp only [readsFrom, Bool.false_eq_true, false_iff]
      rintro ⟨front, rest, empty, -, found⟩
      obtain ⟨-, rfl⟩ := List.append_eq_nil_iff.mp empty.symm
      rcases found with found | found <;> cases found
  | cons c s ih =>
      simp only [readsFrom, Bool.or_eq_true, Bool.and_eq_true]
      constructor
      · rintro (⟨edge, found⟩ | later)
        · exact ⟨[], c :: s, rfl, edge, found⟩
        · obtain ⟨front, rest, rfl, edge, found⟩ := ih.mp later
          exact ⟨c :: front, rest, rfl, getLast?_or_cons c front ▸ edge, found⟩
      · rintro ⟨front, rest, split, edge, found⟩
        cases front with
        | nil =>
            obtain rfl : c :: s = rest := split
            exact .inl ⟨edge, found⟩
        | cons d front =>
            obtain ⟨rfl, rfl⟩ := List.cons.inj split
            exact .inr (ih.mpr ⟨front, rest, rfl, getLast?_or_cons _ front ▸ edge, found⟩)

theorem keyword_nonempty (h : IsWritten "from".toList s ∨ IsWritten "join".toList s) : s ≠ [] := by
  rintro rfl
  rcases h with written | written <;> cases written

/-- Raw SQL is taken to read a relation just where the text names it after FROM or JOIN. -/
theorem rawReads_iff {table sql : String} : rawReads table sql = true ↔
    ∃ m : Mention, sql.toList = m.text ∧ m.IsOf table.toList := by
  unfold rawReads
  rw [readsFrom_iff]
  simp only [readsAfter_iff, Option.or_none]
  constructor
  · rintro ⟨before, rest, split, edge, found⟩
    obtain ⟨keyword, after, rfl, written, named⟩ : ∃ keyword after, rest = keyword ++ after ∧
        (IsWritten "from".toList keyword ∨ IsWritten "join".toList keyword) ∧
        namesTableAfterBlanks table.toList after = true := by
      rcases found with ⟨word, after, same, written, named⟩ | ⟨word, after, same, written, named⟩
      · exact ⟨word, after, same, .inl written, named⟩
      · exact ⟨word, after, same, .inr written, named⟩
    obtain ⟨blanks, owner, name, rest, rfl, apart, all, owned, spelled, ends⟩ :=
      namesTableAfterBlanks_iff.mp named
    rw [List.head?_append_of_ne_nil _ (keyword_nonempty written)] at edge
    exact ⟨⟨before, keyword, blanks, owner, name, rest⟩, split,
      ⟨edge, written, apart, all, owned, spelled, ends⟩⟩
  · rintro ⟨⟨before, keyword, blanks, owner, name, rest⟩, split, mention⟩
    have named := namesTableAfterBlanks_iff.mpr ⟨blanks, owner, name, rest, rfl, mention.apart,
      mention.blanks, mention.owner, mention.name, mention.ends⟩
    refine ⟨before, _, split, ?_, ?_⟩
    · rw [List.head?_append_of_ne_nil _ (keyword_nonempty mention.keyword)]
      exact mention.starts
    · rcases mention.keyword with written | written
      · exact .inl ⟨keyword, _, rfl, written, named⟩
      · exact .inr ⟨keyword, _, rfl, written, named⟩

/-! ### Relations of a statement -/

/-- The relation that a construct names, as the tree has its name. -/
def relationName? : Sql.Table → Option String
  | .named name _ _ _ _ _ => name.getLast?.map foldedName
  | _ => none

/-- The raw SQL of a part. -/
def Place.raw? : Place → Option String
  | .expr (.raw sql) | .source (.raw sql) => some sql
  | _ => none

variable {q : Query} {p : Place} {t : Sql.Table} {n : Node} {relation : String}

theorem reads_of_named {ref : TableRef} (h : (Place.source (.named ref)).IsIn q)
    (same : sameIgnoringAsciiCase ref.table relation = true) : q.reads relation = true := by
  obtain ⟨b, hb, hs⟩ := h
  have listed : ref ∈ b.namedTables := List.mem_filterMap.mpr ⟨_, hs, rfl⟩
  have nonempty := List.ne_nil_of_mem (Normalize.binding_mem_qualifiersFor listed same)
  refine List.any_eq_true.mpr ⟨b, hb, ?_⟩
  simp [nonempty]

theorem reads_of_raw {sql : String} (h : p.IsIn q) (raw : p.raw? = some sql)
    (found : rawReads relation sql = true) : q.reads relation = true := by
  have reads {b : Query} (hb : b ∈ q.queries) (hf : sql ∈ b.rawFragments) :
      q.reads relation = true := by
    refine List.any_eq_true.mpr ⟨b, hb, ?_⟩
    rw [Bool.or_eq_true]
    exact .inr (List.any_eq_true.mpr ⟨sql, hf, found⟩)
  cases p with
  | query b => cases raw
  | expr e =>
      obtain ⟨b, hb, x, hx, he⟩ := h
      cases e with
      | raw own =>
          cases raw
          refine reads hb (List.mem_append_right _ ?_)
          exact List.mem_filterMap.mpr ⟨_, List.mem_flatMap.mpr ⟨x, hx, he⟩, rfl⟩
      | _ => cases raw
  | source s =>
      obtain ⟨b, hb, hs⟩ := h
      cases s with
      | raw own =>
          cases raw
          exact reads hb (List.mem_append_left _ (List.mem_filterMap.mpr ⟨_, hs, rfl⟩))
      | _ => cases raw

theorem raw?_of_rawPlace? (h : rawPlace? n = some p) : ∃ sql, p.raw? = some sql := by
  cases n with
  | expr x =>
      cases h
      exact ⟨_, rfl⟩
  | table t =>
      cases h
      exact ⟨_, rfl⟩
  | _ => cases h

theorem table_of_ref {name : List Sql.Ident} {label : Option String} {ref : TableRef}
    (h : tableRef? name label = some ref) (named : name.getLast?.map foldedName = some relation) :
    ref.table = relation := by
  cases name with
  | nil => cases h
  | cons first rest =>
      cases rest with
      | nil =>
          cases h
          cases named
          rfl
      | cons second rest =>
          cases rest with
          | nil =>
              cases h
              cases named
              rfl
          | cons _ _ => cases h

/-- A relation by name becomes a source with this name, or raw SQL. -/
theorem table_named {s : Source} (h : tableOfSyntax t = .ok s)
    (named : relationName? t = some relation) :
    (∃ ref, s = .named ref ∧ ref.table = relation) ∨ s = .raw t.render := by
  cases t with
  | named name isCall arguments ordinality label hints =>
      simp only [tableOfSyntax] at h
      split at h
      · exact .inr (Except.ok.inj h).symm
      · split at h
        · next ref found =>
          exact .inl ⟨ref, (Except.ok.inj h).symm, table_of_ref found named⟩
        · exact .inr (Except.ok.inj h).symm
  | _ => cases named

/-- Whether a statement hides a relation from its tree: the relation stands in raw SQL that does not
name it after FROM or JOIN, or in a clause that the tree has no room for. -/
def IsHidden (s : Sql.Query) (q : Query) (t : Sql.Table) (relation : String) : Prop :=
  ∃ m r, (Node.query s).Within m ∧ m.Within (.table t) ∧ Becomes m r ∧ r.IsIn q ∧
    ((∃ sql, r.raw? = some sql ∧ rawReads relation sql = false) ∨
      ∃ clause ∈ unread m, clause.Within (.table t))

theorem reads_or_hidden {s : Sql.Query} {name : String} (h : Query.ofSyntax s = .ok q)
    (inside : (Node.query s).Within (.table t)) (named : relationName? t = some name)
    (same : sameIgnoringAsciiCase name relation = true) :
    q.reads relation = true ∨ IsHidden s q t relation := by
  have raw {m : Node} {r : Place} {sql : String} (outer : (Node.query s).Within m)
      (inner : m.Within (.table t)) (hr : (Place.query q).Within r) (own : Becomes m r)
      (kept : r.raw? = some sql) : q.reads relation = true ∨ IsHidden s q t relation := by
    have found := isIn_of_within hr
    cases reads : rawReads relation sql with
    | true => exact .inl (reads_of_raw found kept reads)
    | false => exact .inr ⟨m, r, outer, inner, own, found, .inl ⟨sql, kept, reads⟩⟩
  rcases Becomes.within (.query h (covers_refl q)) inside with
    ⟨r, hr, own⟩ | ⟨m, r, outer, hr, own, inner, lost⟩ | ⟨_, literal⟩
  · cases own with
    | table converted =>
      rcases table_named converted named with ⟨ref, rfl, rfl⟩ | rfl
      · exact .inl (reads_of_named (isIn_of_within hr) same)
      · exact raw inside .refl hr (.table converted) rfl
  · rcases lost with kept | clause
    · obtain ⟨sql, kept⟩ := raw?_of_rawPlace? kept
      exact raw outer inner hr own kept
    · exact .inr ⟨m, r, outer, inner, own, isIn_of_within hr, .inr clause⟩
  · cases literal

/-- A query that is read from a text reads each relation that the text names, at any depth, with or
without a schema, but for those that its tree does not show. -/
theorem read_finds_relations {text : String} (h : Query.read text = .ok q) :
    ∃ s, statements? text = some [.query s] ∧
      ∀ t name relation, (Node.query s).Within (.table t) → relationName? t = some name →
        sameIgnoringAsciiCase name relation = true →
        q.reads relation = true ∨ IsHidden s q t relation := by
  obtain ⟨s, found, own⟩ := query_of_read h
  exact ⟨s, found, fun _ _ _ inside named same => reads_or_hidden own inside named same⟩

/-- Whether a text is read as a query that is taken not to read a relation. -/
def overlooks (relation text : String) : Bool :=
  (Query.read text).toOption.any fun q => !q.reads relation

/-- A raw relation is not found by its own name, nor one that follows another in raw SQL. -/
theorem raw_sales_overlooked :
    overlooks "sales" "SELECT total FROM sales AS s (a, b)" = true ∧
    overlooks "sales" "SELECT total FROM LATERAL (SELECT total FROM items, sales) AS t" = true := by
  decide +kernel

end ReportSql.Tree
