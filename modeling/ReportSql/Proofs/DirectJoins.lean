import ReportSql.Proofs.JoinTrees
import ReportSql.Proofs.ShortestPaths
import ReportSql.Report.Trend

/-!
Tables that a declared join is between. A trend takes the keys of the first join that is declared
between two tables, in either direction; the search for paths takes the same join, since a walk of
one join is the shortest there is between two tables and of these the one declared first is taken.
-/
namespace ReportSql.Join

open Catalog (Edge Schema)
open ReportSql.Tree (Expr)

variable {edges : List Edge} {a b base k l : String} {e f : Edge} {s : Schema} {i : Nat}
  {tables : List String} {steps : List Step}

/-! ### The first join between two tables -/

/-- Whether a join is the one declared first between two tables, in either direction. -/
structure FirstJoin (edges : List Edge) (a b : String) (e : Edge) : Prop where
  joins : Joins e a b
  first : ∃ before after, edges = before ++ e :: after ∧ ∀ f ∈ before, ¬ Joins f a b

theorem exists_firstJoin (he : e ∈ edges) (joins : Joins e a b) : ∃ f, FirstJoin edges a b f := by
  induction edges with
  | nil => cases he
  | cons f edges ih =>
      by_cases own : Joins f a b
      · exact ⟨f, own, [], edges, rfl, nofun⟩
      · have later : e ∈ edges := by
          cases List.mem_cons.mp he with
          | inl same => exact absurd (same ▸ joins) own
          | inr later => exact later
        obtain ⟨g, joins, before, after, split, earlier⟩ := ih later
        exact ⟨g, joins, f :: before, after, by rw [split, List.cons_append],
          List.forall_mem_cons.mpr ⟨own, earlier⟩⟩

/-- The first join has a place, and every join between the tables has that place or a later one. -/
theorem FirstJoin.place (h : FirstJoin edges a b e) : ∃ i, edges[i]? = some e ∧
    ∀ (j : Nat) f, edges[j]? = some f → Joins f a b → i ≤ j := by
  obtain ⟨-, before, after, rfl, earlier⟩ := h
  refine ⟨before.length, by simp, ?_⟩
  intro j f declared joins
  by_contra less
  have inside : j < before.length := Nat.lt_of_not_le less
  rw [List.getElem?_append_left inside] at declared
  exact earlier f (List.mem_of_getElem? declared) joins

/-! ### Paths of one join -/

theorem walk_single : Walk edges a [i] tables b ↔
    tables = [a, b] ∧ ∃ e, edges[i]? = some e ∧ Joins e a b := by
  constructor
  · intro walk
    generalize places : [i] = ps at walk
    cases walk with
    | start => cases places
    | @next before _ _ _ j e walk declared joins =>
        have split : [] ++ [i] = before ++ [j] := places
        obtain ⟨none, own⟩ := List.append_inj' split rfl
        obtain rfl := List.singleton_injective own
        subst none
        generalize places : [] = ps at walk
        cases walk with
        | start => exact ⟨rfl, e, declared, joins⟩
        | next => simp at places
  · intro ⟨own, e, declared, joins⟩
    rw [own]
    have empty : Walk edges a [] [a] a := .start
    exact empty.next declared joins

/-- No walk between two tables is empty. -/
theorem Walk.nonempty {places : List Nat} (distinct : a ≠ b) (walk : Walk edges a places tables b) :
    1 ≤ places.length := by
  cases walk with
  | start => exact absurd rfl distinct
  | next => simp

theorem FirstJoin.firstWalk (h : FirstJoin edges a b e) (distinct : a ≠ b) :
    ∃ i, edges[i]? = some e ∧ FirstWalk edges a b [i] [a, b] := by
  obtain ⟨i, declared, least⟩ := h.place
  refine ⟨i, declared, walk_single.mpr ⟨rfl, e, declared, h.joins⟩, by simpa using distinct,
    fun _ _ walk => walk.nonempty distinct, ?_⟩
  intro ps ts walk long
  obtain ⟨j, rfl⟩ := List.length_eq_one_iff.mp long.symm
  obtain ⟨-, f, own, joins⟩ := walk_single.mp walk
  cases (least j f own joins).lt_or_eq with
  | inl less => exact le_of_lt (List.cons_lt_cons_iff.mpr (.inl less))
  | inr same => rw [same]

/-- The path between two tables is a single join just where it is the first one between them. -/
theorem path_eq_single (distinct : a ≠ b) : path s a b = .ok [e] ↔
    Declared s a ∧ Declared s b ∧ FirstJoin s.edges a b e := by
  have found : ∀ f, Declared s a → Declared s b → FirstJoin s.edges a b f →
      path s a b = .ok [f] := by
    intro f known declared first
    obtain ⟨i, own, walk⟩ := first.firstWalk distinct
    exact path_eq_firstWalk.mpr ⟨known, declared, [i], [a, b], walk, by simp [own]⟩
  constructor
  · intro own
    obtain ⟨known, declared, places, ts, walk, same⟩ := path_eq_firstWalk.mp own
    obtain ⟨i, rfl⟩ : ∃ i, places = [i] :=
      List.length_eq_one_iff.mp (by simpa using congrArg List.length same)
    obtain ⟨-, f, there, joins⟩ := walk_single.mp walk.walk
    -- there is a first join between the tables, and the path is that one
    obtain ⟨g, first⟩ := exists_firstJoin (List.mem_of_getElem? there) joins
    have other := found g known declared first
    obtain rfl : e = g := by simpa using own.symm.trans other
    exact ⟨known, declared, first⟩
  · intro ⟨known, declared, first⟩
    exact found e known declared first

/-! ### Keys -/

/-- Whether a join compares a key of one table with a key of another. -/
def Matches (e : Edge) (a k b l : String) : Prop :=
  (e.leftTable = a ∧ e.leftKey = k ∧ e.rightTable = b ∧ e.rightKey = l) ∨
    (e.rightTable = a ∧ e.rightKey = k ∧ e.leftTable = b ∧ e.leftKey = l)

/-- A join that is between two tables compares a key of each. -/
theorem joins_iff_matches : Joins e a b ↔ ∃ k l, Matches e a k b l := by
  constructor
  · intro joins
    cases joins with
    | inl sides => exact ⟨_, _, .inl ⟨sides.1, rfl, sides.2, rfl⟩⟩
    | inr sides => exact ⟨_, _, .inr ⟨sides.1, rfl, sides.2, rfl⟩⟩
  · intro ⟨k, l, own⟩
    exact own.imp (fun sides => ⟨sides.1, sides.2.2.1⟩) fun sides => ⟨sides.1, sides.2.2.1⟩

theorem Matches.condition (h : Matches e a k b l) :
    e.condition = (Expr.colOf a k).eq (Expr.colOf b l) ∨
      e.condition = (Expr.colOf b l).eq (Expr.colOf a k) := by
  cases h with
  | inl own =>
      obtain ⟨rfl, rfl, rfl, rfl⟩ := own
      exact .inl rfl
  | inr own =>
      obtain ⟨rfl, rfl, rfl, rfl⟩ := own
      exact .inr rfl

/-! ### Steps -/

/-- Each join that is made brings in one of its tables. -/
theorem Grows.step_mem (h : Grows base edges steps) (he : e ∈ edges) :
    ∃ old new, Joins e old new ∧ ⟨new, e.kind, e.condition⟩ ∈ steps := by
  induction h with
  | base => cases he
  | @join edges steps f old new _ joins _ _ ih =>
      cases List.mem_append.mp he with
      | inl known =>
          obtain ⟨old, new, joins, made⟩ := ih known
          exact ⟨old, new, joins, List.mem_append_left _ made⟩
      | inr last =>
          obtain rfl := List.mem_singleton.mp last
          exact ⟨old, new, joins, List.mem_append_right _ (List.mem_singleton_self _)⟩

/-- A required table that a join is declared between it and the base is brought in by the first such
join, and by no other. -/
theorem resolve_direct {required : List String} (own : path s base b = .ok [e])
    (distinct : base ≠ b) (run : resolve s base required = .ok steps) (hb : b ∈ required) :
    ⟨b, e.kind, e.condition⟩ ∈ steps ∧
      ∀ step ∈ steps, step.table = b → step = ⟨b, e.kind, e.condition⟩ := by
  obtain ⟨made, tree⟩ := tree_of_resolve run
  obtain ⟨-, -, first⟩ := (path_eq_single distinct).mp own
  have he : e ∈ made := (tree.paths e).mpr ⟨b, hb, [e], own, List.mem_singleton_self _⟩
  obtain ⟨old, new, joins, step⟩ := tree.grows.step_mem he
  have fresh := (List.nodup_cons.mp tree.grows.tables_nodup).1
  -- the base is there from the start, so that the join brings in the other table
  obtain rfl : new = b := by
    cases joins_same joins first.joins with
    | inl sides => exact sides.2
    | inr sides => exact absurd (List.mem_map.mpr ⟨_, step, sides.2⟩) fresh
  refine ⟨step, fun other ho same => ?_⟩
  exact List.inj_on_of_nodup_map tree.tables_once ho step same

end ReportSql.Join

namespace ReportSql.Report.Trend

open Catalog (Edge Schema)
open Join (Declared FirstJoin Joins Matches joins_iff_matches path path_eq_single resolve
  resolve_direct)
open ReportSql.Tree (Expr)

variable {schema : Schema} {a b k l : String} {e : Edge}

/-! ### The keys of a trend -/

/-- The keys of a join that is between two tables. -/
def pairOf? (a b : String) (e : Edge) : Option (String × String) :=
  if e.leftTable == a && e.rightTable == b then some (e.leftKey, e.rightKey)
  else if e.rightTable == a && e.leftTable == b then some (e.rightKey, e.leftKey)
  else none

theorem keyPair?_eq : keyPair? schema a b = schema.edges.findSome? (pairOf? a b) := rfl

theorem pairOf?_eq_none : pairOf? a b e = none ↔ ¬ Joins e a b := by
  unfold pairOf? Joins
  grind

theorem pairOf?_eq_some (distinct : a ≠ b) : pairOf? a b e = some (k, l) ↔ Matches e a k b l := by
  unfold pairOf? Matches
  grind

/-- The keys are those of the first join between two tables. -/
theorem keyPair?_eq_some (distinct : a ≠ b) : keyPair? schema a b = some (k, l) ↔
    ∃ e, FirstJoin schema.edges a b e ∧ Matches e a k b l := by
  simp only [keyPair?_eq, List.findSome?_eq_some_iff, pairOf?_eq_some distinct, pairOf?_eq_none]
  constructor
  · intro ⟨before, e, after, split, own, earlier⟩
    exact ⟨e, ⟨joins_iff_matches.mpr ⟨k, l, own⟩, before, after, split, earlier⟩, own⟩
  · intro ⟨e, ⟨_, before, after, split, earlier⟩, own⟩
    exact ⟨before, e, after, split, own, earlier⟩

/-- Two declared tables have a pair of keys for a trend just where the path between them is a single
join, and the pair is that of this join. So reports on the usual path, which join a table by the path
to it, compare the same columns. -/
theorem keyPair?_of_path (schema : Schema) (a b : String) (ha : Declared schema a)
    (hb : Declared schema b) (distinct : a ≠ b) :
    ((keyPair? schema a b).isSome ↔ ∃ es, path schema a b = .ok es ∧ es.length = 1) ∧
    (∀ e k l, path schema a b = .ok [e] →
      (keyPair? schema a b = some (k, l) ↔ Matches e a k b l)) ∧
    ∀ k l required steps, keyPair? schema a b = some (k, l) → b ∈ required →
      resolve schema a required = .ok steps →
      ∃ step ∈ steps, step.table = b ∧ (∀ other ∈ steps, other.table = b → other = step) ∧
        (step.condition = (Expr.colOf a k).eq (Expr.colOf b l) ∨
          step.condition = (Expr.colOf b l).eq (Expr.colOf a k)) := by
  have single : ∀ e, path schema a b = .ok [e] ↔ FirstJoin schema.edges a b e := fun e => by
    simp [path_eq_single distinct, ha, hb]
  refine ⟨?_, ?_, ?_⟩
  · constructor
    · intro some
      obtain ⟨⟨k, l⟩, own⟩ := Option.isSome_iff_exists.mp some
      obtain ⟨e, first, -⟩ := (keyPair?_eq_some distinct).mp own
      exact ⟨[e], (single e).mpr first, rfl⟩
    · intro ⟨es, own, one⟩
      obtain ⟨e, rfl⟩ := List.length_eq_one_iff.mp one
      have first := (single e).mp own
      obtain ⟨k, l, keys⟩ := joins_iff_matches.mp first.joins
      exact Option.isSome_iff_exists.mpr ⟨_, (keyPair?_eq_some distinct).mpr ⟨e, first, keys⟩⟩
  · intro e k l own
    rw [keyPair?_eq_some distinct]
    constructor
    · intro ⟨f, first, keys⟩
      obtain rfl : e = f := by simpa using own.symm.trans ((single f).mpr first)
      exact keys
    · exact fun keys => ⟨e, (single e).mp own, keys⟩
  · intro k l required steps pair hb run
    obtain ⟨e, first, keys⟩ := (keyPair?_eq_some distinct).mp pair
    obtain ⟨made, only⟩ := resolve_direct ((single e).mpr first) distinct run hb
    exact ⟨_, made, rfl, only, keys.condition⟩

/-- Orders and stores with three joins between them, the first of which is declared from the stores. -/
def parallel : Schema where
  tables := ["regions", "orders", "stores"].map fun name =>
    ⟨name, .dimension, "id", none, none, none, none, none⟩
  edges := [
    ⟨"stores", "region", "regions", "id", .left⟩,
    ⟨"stores", "last_order", "orders", "id", .left⟩,
    ⟨"orders", "store", "stores", "id", .inner⟩,
    ⟨"orders", "returned_to", "stores", "id", .inner⟩]
  completed := none
  faultless := by decide

theorem parallel_keys : Declared parallel "orders" ∧ Declared parallel "stores" ∧
    keyPair? parallel "orders" "stores" = some ("id", "last_order") ∧
    ∃ es, path parallel "orders" "stores" = .ok es ∧ es.length = 1 := by
  have ha : Declared parallel "orders" := by decide
  have hb : Declared parallel "stores" := by decide
  have pair : keyPair? parallel "orders" "stores" = some ("id", "last_order") := by decide
  obtain ⟨single, -, -⟩ := keyPair?_of_path parallel "orders" "stores" ha hb (by decide)
  exact ⟨ha, hb, pair, single.mp (by rw [pair]; rfl)⟩

end ReportSql.Report.Trend
