import Mathlib.Data.List.Basic
import ReportSql.Catalog.Restaurant
import ReportSql.Gate.Basic
import ReportSql.Proofs.SyntaxParts

/-!
What the gate promises of a statement that it accepts. It is one SELECT, and nothing inside of it,
at any depth, changes data, locks rows or makes a table. The functions that its expressions call
and the relations that it reads by name are allowed by the policy. A function in a FROM list is
looked up as a relation, and a TABLE command is not looked up at all.
-/
namespace ReportSql.Gate

open Sql (Alias Argument Body CallForm Expr Ident Node Piece Query Select Statement Visit)

variable {p : Policy} {text : String} {a : Accepted}

/-! ### The walk -/

/-- The names of the common table expressions that a walk has passed. -/
def definedNames (visits : List Visit) : List String :=
  visits.flatMap fun
    | .query q => cteNames q
    | _ => []

/-- Whether a policy allows what a walk meets after the given names were defined. -/
def Allows (p : Policy) (ctes : List String) : Visit → Prop
  | .query q => q.locks = [] ∧ selectsInto q.body = false
  | .relation name => p.allowsRelation (name.map fun i => Text.lower i.value) ctes = true
  | .call name => ∀ i, name.getLast? = some i → p.forbidsFunction i.value = false
  | .change _ => False

theorem checkVisit_ok {ctes names : List String} {v : Visit}
    (ok : checkVisit p ctes v = .ok names) :
    Allows p ctes v ∧ names = ctes ++ definedNames [v] := by
  cases v with
  | query q =>
      simp only [checkVisit] at ok
      split at ok
      · cases ok
      · next unlocked =>
        split at ok
        · cases ok
        · next noInto =>
          cases ok
          simp only [Bool.not_eq_true', Bool.not_eq_false, List.isEmpty_iff] at unlocked
          exact ⟨⟨unlocked, by simpa using noInto⟩, by simp [definedNames]⟩
  | relation name =>
      simp only [checkVisit] at ok
      split at ok
      · next allowed =>
        cases ok
        exact ⟨allowed, by simp [definedNames]⟩
      · cases ok
  | call name =>
      simp only [checkVisit] at ok
      split at ok
      · next i last =>
        split at ok
        · cases ok
        · next allowed =>
          cases ok
          refine ⟨fun j hj => ?_, by simp [definedNames]⟩
          obtain rfl : i = j := Option.some.inj (last.symm.trans hj)
          simpa using allowed
      · next last =>
        cases ok
        exact ⟨fun j hj => absurd (last.symm.trans hj) nofun, by simp [definedNames]⟩
  | change keyword => cases ok

/-- A walk that ends has allowed all that it met, each after the names defined before. -/
theorem foldlM_allows {ctes names : List String} {before after : List Visit} {v : Visit}
    (ok : (before ++ v :: after).foldlM (checkVisit p) ctes = .ok names) :
    Allows p (ctes ++ definedNames before) v := by
  induction before generalizing ctes with
  | nil =>
      simp only [List.nil_append, List.foldlM_cons] at ok
      cases step : checkVisit p ctes v with
      | error refusal => rw [step] at ok; cases ok
      | ok defined => simpa [definedNames] using (checkVisit_ok step).1
  | cons u before ih =>
      simp only [List.cons_append, List.foldlM_cons] at ok
      cases step : checkVisit p ctes u with
      | error refusal => rw [step] at ok; cases ok
      | ok defined =>
          rw [step] at ok
          obtain ⟨-, rfl⟩ := checkVisit_ok step
          simpa [definedNames] using ih ok

theorem checkVisits_allows {visits before after : List Visit} {v : Visit}
    (ok : checkVisits p visits = .ok ()) (h : visits = before ++ v :: after) :
    Allows p (definedNames before) v := by
  subst h
  unfold checkVisits at ok
  cases run : (before ++ v :: after).foldlM (checkVisit p) [] with
  | error refusal => rw [run] at ok; cases ok
  | ok names => simpa using foldlM_allows run

/-! ### Acceptance -/

theorem checkStatement_ok {s : Statement} {q : Query} (ok : checkStatement p s = .ok q) :
    s = .query q ∧ checkVisits p q.visits = .ok () ∧ isSelect q = true := by
  unfold checkStatement at ok
  cases walk : checkVisits p s.visits with
  | error refusal => rw [walk] at ok; cases ok
  | ok u =>
      rw [walk] at ok
      cases s with
      | command keyword => cases ok
      | query r =>
          simp only [bind, Except.bind] at ok
          split at ok
          · next select =>
            cases ok
            exact ⟨rfl, walk, select⟩
          · cases ok

/-- What is accepted is one statement, with the trimmed text. -/
theorem check_inv (ok : check p text = .ok a) : ∃ s q,
    Sql.statements? (Sql.Placeholder.mask text) = some [s] ∧ checkStatement p s = .ok q ∧
      a = ⟨trimText text, hasLimit q.visits, q⟩ := by
  unfold check at ok
  by_cases blank : (Text.trim text).isEmpty = true
  · rw [if_pos blank] at ok
    cases ok
  · rw [if_neg blank] at ok
    split at ok
    · cases ok
    · cases ok
    · next s read =>
      cases statement : checkStatement p s with
      | error refusal => rw [statement] at ok; cases ok
      | ok q =>
          rw [statement] at ok
          cases ok
          exact ⟨s, q, read, statement, rfl⟩
    · cases ok

theorem check_ok (ok : check p text = .ok a) :
    Sql.statements? (Sql.Placeholder.mask text) = some [.query a.query] ∧
      checkVisits p a.query.visits = .ok () ∧ isSelect a.query = true ∧
      a.hasLimit = hasLimit a.query.visits := by
  obtain ⟨s, q, read, statement, rfl⟩ := check_inv ok
  obtain ⟨rfl, walk, select⟩ := checkStatement_ok statement
  exact ⟨read, walk, select, rfl⟩

/-- All that a walk meets inside an accepted statement is allowed, after some of the names that the
statement defines. -/
theorem accepted_allows (ok : check p text = .ok a) {n : Node} {v : Visit}
    (within : Node.Within (.query a.query) n) (own : v ∈ n.own) :
    ∃ before after, a.query.visits = before ++ v :: after ∧ Allows p (definedNames before) v := by
  have met : v ∈ a.query.visits := Node.mem_visits.mpr ⟨n, within, own⟩
  obtain ⟨before, after, split⟩ := List.append_of_mem met
  exact ⟨before, after, split, checkVisits_allows (check_ok ok).2.1 split⟩

/-! ### One SELECT that only reads -/

/-- A query that is a SELECT, in parentheses or not. -/
inductive Selects : Query → Prop where
  | select {q : Query} {s : Select} : q.body = .select s → Selects q
  | parens {q inner : Query} : q.body = .query inner → Selects inner → Selects q

theorem selects_of_isSelect {q : Query} (h : isSelect q = true) : Selects q := by
  fun_induction isSelect q with
  | case1 => exact .select rfl
  | case2 _ _ _ _ _ _ _ _ _ _ ih => exact .parens rfl (ih h)
  | case3 => cases h

/-- Whether a construct itself neither changes data, locks rows nor makes a table. -/
def OnlyReads : Node → Prop
  | .query q => q.locks = []
  | .select s => s.into = none
  | .body (.change _ _) => False
  | _ => True

/-- What the check of a query says of the parts that belong to no other query. -/
def Checked : Node → Prop
  | .query q => q.locks = [] ∧ selectsInto q.body = false
  | .body b => selectsInto b = false
  | .select s => s.into = none
  | _ => True

/-- A part that is no query is as well checked as the construct around it. A body or a SELECT is
part of the query that was checked, since every query in parentheses is checked by itself. -/
theorem checked_part {n m : Node} (checked : Checked n) (part : m ∈ n.parts)
    (query : ∀ q, m = .query q → q.locks = [] ∧ selectsInto q.body = false) : Checked m := by
  by_cases inner : m.isInner = true
  · rcases Node.part_inner part inner with ⟨q, rfl⟩ | ⟨b, rfl⟩
    · obtain rfl := Sql.query_inner part inner
      exact checked.2
    · rcases Sql.body_inner part inner with
        ⟨s, rfl, rfl⟩ | ⟨left, op, quantifier, right, rfl, rfl | rfl⟩
      · simpa [Checked, selectsInto] using checked
      · exact (Bool.or_eq_false_iff.mp checked).1
      · exact (Bool.or_eq_false_iff.mp checked).2
  · cases m with
    | query q => exact query q rfl
    | expr _ | table _ => trivial
    | body _ | select _ => exact absurd rfl inner

theorem accepted_checked (ok : check p text = .ok a) {n : Node}
    (within : Node.Within (.query a.query) n) : Checked n := by
  have query (q : Query) (within : Node.Within (.query a.query) (.query q)) :
      q.locks = [] ∧ selectsInto q.body = false := by
    obtain ⟨_, _, -, allowed⟩ := accepted_allows ok within (List.mem_singleton.mpr rfl)
    exact allowed
  induction within with
  | refl => exact query a.query .refl
  | tail before part ih =>
      refine checked_part ih part ?_
      rintro q rfl
      exact query q (.tail before part)

theorem accepted_onlyReads (ok : check p text = .ok a) {n : Node}
    (within : Node.Within (.query a.query) n) : OnlyReads n := by
  have checked := accepted_checked ok within
  cases n with
  | query q => exact checked.1
  | select s => exact checked
  | expr _ | table _ => trivial
  | body b =>
      cases b with
      | change keyword written =>
          obtain ⟨_, _, -, allowed⟩ := accepted_allows ok within (List.mem_singleton.mpr rfl)
          exact allowed
      | _ => trivial

/-- An accepted text is one statement, a SELECT in parentheses or not, and nothing inside of it
does anything but read. It is known to be limited exactly if some query inside of it is. -/
theorem accepted_reads (ok : check p text = .ok a) :
    Sql.statements? (Sql.Placeholder.mask text) = some [.query a.query] ∧ Selects a.query ∧
      (∀ n, Node.Within (.query a.query) n → OnlyReads n) ∧
      (a.hasLimit = true ↔ ∃ q, Node.Within (.query a.query) (.query q) ∧
        (q.limit.isSome = true ∨ q.fetch.isSome = true)) := by
  obtain ⟨read, -, select, limit⟩ := check_ok ok
  refine ⟨read, selects_of_isSelect select, fun n => accepted_onlyReads ok, ?_⟩
  rw [limit, hasLimit, List.any_eq_true]
  constructor
  · rintro ⟨v, met, limited⟩
    obtain ⟨n, within, own⟩ := (Node.mem_visits (n := .query a.query)).mp met
    cases v with
    | query q =>
        obtain rfl := Node.query_mem_own.mp own
        exact ⟨q, within, Bool.or_eq_true_iff.mp limited⟩
    | relation _ | call _ | change _ => cases limited
  · rintro ⟨q, within, limited⟩
    exact ⟨.query q, Node.mem_visits.mpr ⟨_, within, Node.query_mem_own.mpr rfl⟩,
      Bool.or_eq_true_iff.mpr limited⟩

theorem exists_accepted (p : Policy) (text : String) {f : Accepted → Bool}
    (h : (check p text).toOption.any f = true) :
    ∃ a, check p text = .ok a ∧ f a = true := by
  cases run : check p text with
  | error refusal =>
      rw [run] at h
      cases h
  | ok a =>
      rw [run] at h
      exact ⟨a, rfl, h⟩

/-- A statement in parentheses passes, with a limit in what it defines. -/
theorem accepted_reads_of_recent :
    ∃ a, check .default "WITH recent AS (SELECT id FROM sales LIMIT 5) (SELECT id FROM recent)"
        = .ok a ∧
      Selects a.query ∧ (∀ n, Node.Within (.query a.query) n → OnlyReads n) ∧
      a.hasLimit = true ∧ ∃ q, Node.Within (.query a.query) (.query q) ∧
        (q.limit.isSome = true ∨ q.fetch.isSome = true) := by
  obtain ⟨a, ok, limited⟩ := exists_accepted .default
    "WITH recent AS (SELECT id FROM sales LIMIT 5) (SELECT id FROM recent)"
    (f := Accepted.hasLimit) (by decide +kernel)
  obtain ⟨-, selects, reads, limit⟩ := accepted_reads ok
  exact ⟨a, ok, selects, reads, limited, limit.mp limited⟩

/-! ### Calls and relations -/

/-- No expression inside an accepted statement calls a forbidden function. -/
theorem accepted_calls (ok : check p text = .ok a) {name : List Ident} {inBraces : Bool}
    {form : CallForm} {arguments : List Argument} {clauses within window : List Piece}
    {filter : Option Expr} {nulls : Option String}
    (inside : Node.Within (.query a.query)
      (.expr (.call name inBraces form arguments clauses within filter nulls window)))
    {i : Ident} (last : name.getLast? = some i) : p.forbidsFunction i.value = false := by
  obtain ⟨_, _, -, allowed⟩ := accepted_allows ok inside (List.mem_singleton.mpr rfl)
  exact allowed i last

/-- Constructs at one depth of a construct. -/
def partsAt : Nat → Node → List Node
  | 0, n => [n]
  | depth + 1, n => n.parts.flatMap (partsAt depth)

theorem within_of_mem_partsAt {depth : Nat} {n m : Node} (h : m ∈ partsAt depth n) :
    Node.Within n m := by
  induction depth generalizing n with
  | zero =>
      obtain rfl := List.mem_singleton.mp h
      exact .refl
  | succ depth ih =>
      obtain ⟨part, hp, hm⟩ := List.mem_flatMap.mp h
      exact .head hp (ih hm)

/-- Whether a node is a call in a FROM list that a policy forbids. -/
def isForbiddenCall (p : Policy) : Node → Bool
  | .table (.named [i] true _ _ _ _) => p.forbidsFunction i.value
  | _ => false

/-- A call in a FROM list passes for a relation: statements pass that put the server to sleep. -/
theorem accepted_tableCall :
    ∃ a i arguments ordinality label hints,
      check .default "SELECT * FROM pg_sleep(10)" = .ok a ∧
      Node.Within (.query a.query) (.table (.named [i] true arguments ordinality label hints)) ∧
      Policy.default.forbidsFunction i.value = true := by
  obtain ⟨a, ok, met⟩ := exists_accepted .default "SELECT * FROM pg_sleep(10)"
    (f := fun a => (partsAt 3 (.query a.query)).any (isForbiddenCall .default))
    (by decide +kernel)
  obtain ⟨n, hn, forbidden⟩ := List.any_eq_true.mp met
  unfold isForbiddenCall at forbidden
  split at forbidden
  · exact ⟨a, _, _, _, _, _, ok, within_of_mem_partsAt hn, forbidden⟩
  · cases forbidden

theorem allowsRelation_restrictTo {schema : Catalog.Schema} {path ctes : List String}
    {table : String}
    (allowed : (p.restrictTo schema).allowsRelation (path ++ [table]) ctes = true) :
    ((∃ t ∈ schema.tables, t.name = table) ∧ ∀ s, path.getLast? = some s → s ∈ p.allowedSchemas) ∨
      path = [] ∧ table ∈ ctes := by
  have known : (p.restrictTo schema).allowsTable table = true →
      ∃ t ∈ schema.tables, t.name = table := by
    simp [Policy.allowsTable, Policy.restrictTo]
  rcases List.eq_nil_or_concat' path with rfl | ⟨path, s, rfl⟩
  · simp only [Policy.allowsRelation, List.nil_append, List.reverse_singleton, Bool.or_eq_true,
      List.contains_iff_mem] at allowed
    rcases allowed with defined | allowed
    · exact .inr ⟨rfl, defined⟩
    · exact .inl ⟨known allowed, nofun⟩
  · simp only [Policy.allowsRelation, List.reverse_append, List.reverse_singleton,
      List.singleton_append, Bool.and_eq_true, List.contains_iff_mem] at allowed
    refine .inl ⟨known allowed.2, fun t last => ?_⟩
    obtain rfl : s = t := by simpa using last
    exact allowed.1

/-- A relation that is read by its name inside an accepted statement is a table of the schema that
the policy is restricted to, or its name is given in some WITH that is written before. -/
theorem accepted_relations {schema : Catalog.Schema} (ok : check (p.restrictTo schema) text = .ok a)
    {name : List Ident} {isCall : Bool} {arguments : List Argument} {ordinality : Bool}
    {label : Option Alias} {hints : List Expr}
    (inside : Node.Within (.query a.query)
      (.table (.named name isCall arguments ordinality label hints))) :
    ∃ path i, name = path ++ [i] ∧
      (((∃ t ∈ schema.tables, t.name = Text.lower i.value) ∧
          ∀ s, path.getLast? = some s → Text.lower s.value ∈ p.allowedSchemas) ∨
        path = [] ∧ ∃ before after, a.query.visits = before ++ .relation name :: after ∧
          Text.lower i.value ∈ definedNames before) := by
  obtain ⟨before, after, visits, allowed⟩ :=
    accepted_allows ok inside (List.mem_singleton.mpr rfl)
  rcases List.eq_nil_or_concat' name with rfl | ⟨path, i, rfl⟩
  · cases allowed
  · refine ⟨path, i, rfl, ?_⟩
    simp only [Allows, List.map_append, List.map_singleton] at allowed
    rcases allowsRelation_restrictTo allowed with ⟨listed, schemas⟩ | ⟨bare, defined⟩
    · refine .inl ⟨listed, fun s last => schemas _ ?_⟩
      rw [List.getLast?_map, last]
      rfl
    · exact .inr ⟨List.map_eq_nil_iff.mp bare, before, after, visits, defined⟩

/-- A TABLE command is not looked at: statements pass that read any relation at all. -/
theorem accepted_tableCommand :
    ∃ a, check (Policy.default.restrictTo Catalog.restaurant.schema)
        "SELECT * FROM (TABLE pg_catalog.pg_user) AS t" = .ok a ∧
      Node.Within (.query a.query) (.body (.table "TABLE pg_catalog.pg_user")) ∧
      definedNames a.query.visits = [] := by
  obtain ⟨a, ok, met⟩ := exists_accepted
    (Policy.default.restrictTo Catalog.restaurant.schema)
    "SELECT * FROM (TABLE pg_catalog.pg_user) AS t"
    (f := fun a => (definedNames a.query.visits).isEmpty && (partsAt 5 (.query a.query)).any fun
      | .body (.table written) => written == "TABLE pg_catalog.pg_user"
      | _ => false)
    (by decide +kernel)
  obtain ⟨undefined, met⟩ := Bool.and_eq_true_iff.mp met
  obtain ⟨n, hn, commanded⟩ := List.any_eq_true.mp met
  split at commanded
  · next written =>
    obtain rfl := eq_of_beq commanded
    exact ⟨a, ok, within_of_mem_partsAt hn, List.isEmpty_iff.mp undefined⟩
  · cases commanded

/-- Whether a node is a plain name in a FROM list that is no table of a schema. -/
def isUnlisted (schema : Catalog.Schema) : Node → Bool
  | .table (.named [i] false [] false _ []) => schema.tables.all fun t => t.name != i.value
  | _ => false

/-- A name that is given in a WITH passes outside of its query too. -/
theorem accepted_definedElsewhere :
    ∃ a i label, check (Policy.default.restrictTo Catalog.restaurant.schema)
        "SELECT (WITH users AS (SELECT 1) SELECT 1), name FROM users" = .ok a ∧
      a.query.ctes = [] ∧
      Node.Within (.query a.query) (.table (.named [i] false [] false label [])) ∧
      ¬∃ t ∈ Catalog.restaurant.schema.tables, t.name = i.value := by
  obtain ⟨a, ok, met⟩ := exists_accepted
    (Policy.default.restrictTo Catalog.restaurant.schema)
    "SELECT (WITH users AS (SELECT 1) SELECT 1), name FROM users"
    (f := fun a => a.query.ctes.isEmpty &&
      (partsAt 3 (.query a.query)).any (isUnlisted Catalog.restaurant.schema))
    (by decide +kernel)
  obtain ⟨undefined, met⟩ := Bool.and_eq_true_iff.mp met
  obtain ⟨n, hn, unlisted⟩ := List.any_eq_true.mp met
  unfold isUnlisted at unlisted
  split at unlisted
  · refine ⟨a, _, _, ok, List.isEmpty_iff.mp undefined, within_of_mem_partsAt hn, ?_⟩
    simpa using unlisted
  · cases unlisted

end ReportSql.Gate
