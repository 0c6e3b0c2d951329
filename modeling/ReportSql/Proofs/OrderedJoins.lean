import ReportSql.Proofs.JoinTrees

/-!
The order that joins are put into. Rounds through the joins that are left make each join that refers
to a table that is there, so that a round leaves fewer of them over or none of them can ever be made.
In the end the tables are those that the joins connect with the base, whatever order the joins were
listed in, and a join is left over just where it is between other tables.
-/
namespace ReportSql.Join

open Catalog (Edge)

variable {edges done remaining left : List Edge} {base a b table : String} {e : Edge}
  {present : List String} {steps : List Step} {p : Progress}

/-! ### One round -/

/-- Whether both tables of a join are among some tables. -/
def Within (tables : List String) (e : Edge) : Prop :=
  e.leftTable ∈ tables ∧ e.rightTable ∈ tables

/-- Whether neither table of a join is among some tables. -/
def Apart (tables : List String) (e : Edge) : Prop :=
  e.leftTable ∉ tables ∧ e.rightTable ∉ tables

/-- A join is passed over for the next round, is implied, or brings in a table. -/
theorem take_cases (p : Progress) (e : Edge) :
    (Apart p.present e ∧ p.take e = { p with stuck := p.stuck ++ [e] }) ∨
      (Within p.present e ∧ p.take e = { p with moved := true }) ∨
      ∃ old new, Joins e old new ∧ old ∈ p.present ∧ new ∉ p.present ∧ p.take e = p.add new e := by
  by_cases there : e.leftTable ∈ p.present
  · by_cases other : e.rightTable ∈ p.present
    · refine .inr (.inl ⟨⟨there, other⟩, ?_⟩)
      simp [Progress.take, there, other]
    · exact .inr (.inr ⟨_, _, .inl ⟨rfl, rfl⟩, there, other,
        Grows.take_new (.inl ⟨rfl, rfl⟩) there other⟩)
  · by_cases other : e.rightTable ∈ p.present
    · exact .inr (.inr ⟨_, _, .inr ⟨rfl, rfl⟩, other, there,
        Grows.take_new (.inr ⟨rfl, rfl⟩) other there⟩)
    · refine .inl ⟨⟨there, other⟩, ?_⟩
      simp [Progress.take, there, other]

theorem Within.mono {tables more : List String} (h : Within tables e)
    (grown : ∀ table ∈ tables, table ∈ more) : Within more e :=
  ⟨grown _ h.1, grown _ h.2⟩

/-- What a search for an order keeps: the tables that are there are the base and those that the
steps bring in, and the steps make some of the listed joins. -/
structure Sound (base : String) (edges : List Edge) (present : List String) (steps : List Step) :
    Prop where
  tables : ∀ table, table ∈ present ↔ table ∈ base :: steps.map Step.table
  grows : ∃ made, Grows base made steps ∧ ∀ e ∈ made, e ∈ edges

theorem sound_start (base : String) (edges : List Edge) : Sound base edges [base] [] :=
  ⟨fun _ => Iff.rfl, [], .base, nofun⟩

/-- A join that refers to a table that is there brings in the other one. -/
theorem Sound.add (h : Sound base edges p.present p.steps) (he : e ∈ edges) (joins : Joins e a b)
    (there : a ∈ p.present) (fresh : b ∉ p.present) :
    Sound base edges (p.add b e).present (p.add b e).steps := by
  obtain ⟨made, grows, listed⟩ := h.grows
  constructor
  · intro table
    simp only [Progress.add, List.mem_cons, h.tables, List.map_append, List.map_cons, List.map_nil,
      List.mem_append, List.not_mem_nil, or_false]
    rw [or_comm, or_assoc]
  · refine ⟨made ++ [e], ?_, List.forall_mem_append.mpr ⟨listed, List.forall_mem_singleton.mpr he⟩⟩
    apply grows.join joins
    · exact (h.tables a).mp there
    · exact fun old => fresh ((h.tables b).mpr old)

/-- How far a round has come that started from some tables and steps and has gone through some of
the joins that were left. -/
structure Round (base : String) (edges : List Edge) (present : List String) (steps : List Step)
    (done : List Edge) (p : Progress) : Prop where
  sound : Sound base edges p.present p.steps
  kept : ∀ table ∈ present, table ∈ p.present
  stuck : p.stuck.Sublist done
  /-- A join that is passed has both of its tables. -/
  passed : ∀ e ∈ done, e ∈ p.stuck ∨ Within p.present e
  fewer : p.moved = true → p.stuck.length < done.length
  /-- As long as no join is made, all joins that were looked at are between other tables. -/
  still : p.moved = false → p.present = present ∧ p.steps = steps ∧ p.stuck = done ∧
    ∀ e ∈ done, Apart present e

theorem round_start (h : Sound base edges present steps) :
    Round base edges present steps [] ⟨present, steps, [], false⟩ where
  sound := h
  kept _ there := there
  stuck := .refl _
  passed := nofun
  fewer := nofun
  still _ := ⟨rfl, rfl, rfl, nofun⟩

namespace Round

/-- A join that is made or implied leaves fewer over. -/
theorem move {q : Progress} (h : Round base edges present steps done p)
    (sound : Sound base edges q.present q.steps) (kept : ∀ table ∈ p.present, table ∈ q.present)
    (within : Within q.present e) (stuck : q.stuck = p.stuck) (moved : q.moved = true) :
    Round base edges present steps (done ++ [e]) q := by
  constructor
  · exact sound
  · intro table there
    exact kept table (h.kept table there)
  · rw [stuck]
    exact h.stuck.trans (List.sublist_append_left _ _)
  · rw [stuck]
    refine List.forall_mem_append.mpr ⟨fun f hf => ?_, List.forall_mem_singleton.mpr (.inr within)⟩
    exact (h.passed f hf).imp_right fun old => old.mono kept
  · intro _
    rw [stuck, List.length_append, List.length_singleton]
    exact Nat.lt_succ_of_le h.stuck.length_le
  · intro none
    rw [moved] at none
    cases none

/-- A join between other tables is left for the next round. -/
theorem leave (h : Round base edges present steps done p) (apart : Apart p.present e) :
    Round base edges present steps (done ++ [e]) { p with stuck := p.stuck ++ [e] } := by
  constructor
  · exact h.sound
  · exact h.kept
  · exact h.stuck.append (.refl _)
  · refine List.forall_mem_append.mpr ⟨fun f hf => ?_, List.forall_mem_singleton.mpr (.inl (by simp))⟩
    exact (h.passed f hf).imp_left (List.mem_append_left _)
  · intro moved
    simpa using h.fewer moved
  · intro none
    obtain ⟨same, made, all, others⟩ := h.still none
    rw [same] at apart
    exact ⟨same, made, by rw [all], List.forall_mem_append.mpr
      ⟨others, List.forall_mem_singleton.mpr apart⟩⟩

/-- One more join of the round. -/
theorem take (h : Round base edges present steps done p) (he : e ∈ edges) :
    Round base edges present steps (done ++ [e]) (p.take e) := by
  rcases take_cases p e with ⟨apart, own⟩ | ⟨within, own⟩ | ⟨old, new, joins, there, fresh, own⟩
  · rw [own]
    exact h.leave apart
  · rw [own]
    exact h.move h.sound (fun _ old => old) within rfl rfl
  · rw [own]
    have kept : ∀ table ∈ p.present, table ∈ (p.add new e).present := fun _ =>
      List.mem_cons_of_mem _
    refine h.move (h.sound.add he joins there fresh) kept ?_ rfl rfl
    cases joins with
    | inl sides => exact ⟨sides.1 ▸ kept _ there, sides.2 ▸ List.mem_cons_self⟩
    | inr sides => exact ⟨sides.2 ▸ List.mem_cons_self, sides.1 ▸ kept _ there⟩

theorem run (h : Round base edges present steps done p) (listed : ∀ e ∈ remaining, e ∈ edges) :
    Round base edges present steps (done ++ remaining) (remaining.foldl Progress.take p) := by
  induction remaining generalizing done p with
  | nil => simpa using h
  | cons e remaining ih =>
      obtain ⟨own, others⟩ := List.forall_mem_cons.mp listed
      have next := ih (h.take own) others
      rwa [List.append_assoc, List.singleton_append] at next

end Round

/-! ### All rounds -/

/-- The steps that the rounds end with, and the joins that are left over then. There is another
round as long as joins are left and the last round made one of them or found it implied. -/
inductive RoundsEnd : List String → List Step → List Edge → List Step → List Edge → Prop
  | none {present : List String} {steps : List Step} : RoundsEnd present steps [] steps []
  | still {present : List String} {steps : List Step} {remaining : List Edge} {p : Progress}
      (left : remaining ≠ []) (round : remaining.foldl Progress.take ⟨present, steps, [], false⟩ = p)
      (moved : p.moved = false) : RoundsEnd present steps remaining p.steps p.stuck
  | again {present : List String} {steps made : List Step} {remaining left : List Edge}
      {p : Progress} (some : remaining ≠ [])
      (round : remaining.foldl Progress.take ⟨present, steps, [], false⟩ = p)
      (moved : p.moved = true) (rest : RoundsEnd p.present p.steps p.stuck made left) :
      RoundsEnd present steps remaining made left

/-- What steps and the joins that are left over have to be: the steps make listed joins, and each
listed join has both of its tables or is left over and has none of them. -/
structure Exhausts (base : String) (edges : List Edge) (steps : List Step) (left : List Edge) :
    Prop where
  grows : ∃ made, Grows base made steps ∧ ∀ e ∈ made, e ∈ edges
  listed : ∀ e ∈ left, e ∈ edges
  passed : ∀ e ∈ edges, e ∈ left ∨ Within (base :: steps.map Step.table) e
  apart : ∀ e ∈ left, Apart (base :: steps.map Step.table) e

theorem exhausts_of_sound (h : Sound base edges present steps) (listed : ∀ e ∈ left, e ∈ edges)
    (passed : ∀ e ∈ edges, e ∈ left ∨ Within present e) (apart : ∀ e ∈ left, Apart present e) :
    Exhausts base edges steps left where
  grows := h.grows
  listed := listed
  passed e he := (passed e he).imp_right fun own => own.mono fun table => (h.tables table).mp
  apart e he := ⟨fun own => (apart e he).1 ((h.tables _).mpr own),
    fun own => (apart e he).2 ((h.tables _).mpr own)⟩

/-- As many rounds as there are joins left are enough. -/
theorem rounds_end {n : Nat} (sound : Sound base edges present steps)
    (listed : ∀ e ∈ remaining, e ∈ edges)
    (passed : ∀ e ∈ edges, e ∈ remaining ∨ Within present e) (enough : remaining.length ≤ n) :
    ∃ made left, rounds n present steps remaining = (made, left) ∧
      RoundsEnd present steps remaining made left ∧ Exhausts base edges made left := by
  induction n generalizing present steps remaining with
  | zero =>
      obtain rfl : remaining = [] := List.eq_nil_of_length_eq_zero (Nat.le_zero.mp enough)
      exact ⟨steps, [], rfl, .none, exhausts_of_sound sound nofun passed nofun⟩
  | succ n ih =>
      by_cases empty : remaining = []
      · subst empty
        exact ⟨steps, [], rfl, .none, exhausts_of_sound sound nofun passed nofun⟩
      · obtain ⟨p, run⟩ : ∃ p, remaining.foldl Progress.take ⟨present, steps, [], false⟩ = p :=
          ⟨_, rfl⟩
        have round : Round base edges present steps remaining p := by
          rw [← run]
          exact (round_start sound).run listed
        have next : rounds (n + 1) present steps remaining =
            if p.moved then rounds n p.present p.steps p.stuck else (p.steps, p.stuck) := by
          rw [rounds, run]
          exact empty
        cases moved : p.moved with
        | false =>
            obtain ⟨same, -, all, others⟩ := round.still moved
            rw [moved] at next
            refine ⟨p.steps, p.stuck, next, .still empty run moved, ?_⟩
            rw [all]
            rw [← same] at passed others
            exact exhausts_of_sound round.sound listed passed others
        | true =>
            have fewer := round.fewer moved
            have through : ∀ e ∈ edges, e ∈ p.stuck ∨ Within p.present e := by
              intro e he
              cases passed e he with
              | inl own => exact round.passed e own
              | inr own => exact .inr (own.mono round.kept)
            obtain ⟨made, left, own, rest, exhausts⟩ := ih round.sound
              (fun e he => listed e (round.stuck.subset he)) through (by omega)
            rw [moved] at next
            exact ⟨made, left, next.trans own, .again empty run moved rest, exhausts⟩

/-! ### The tables that are connected with the base -/

namespace Exhausts

/-- The tables that are there in the end are those that the listed joins connect with the base. -/
theorem tables (h : Exhausts base edges steps left) :
    table ∈ base :: steps.map Step.table ↔ Connected edges base table := by
  constructor
  · obtain ⟨made, grows, listed⟩ := h.grows
    exact fun there => connected_mono listed (grows.connected there)
  · intro connected
    induction connected with
    | refl => exact List.mem_cons_self
    | tail _ step ih =>
        obtain ⟨e, he, joins⟩ := step
        cases h.passed e he with
        | inl own =>
            -- a join that is left over has no table that is there
            have apart := h.apart e own
            cases joins with
            | inl sides => exact absurd (sides.1 ▸ ih) apart.1
            | inr sides => exact absurd (sides.1 ▸ ih) apart.2
        | inr within =>
            cases joins with
            | inl sides => exact sides.2 ▸ within.2
            | inr sides => exact sides.2 ▸ within.1

/-- A listed join is left over just where its tables are not connected with the base. -/
theorem mem_left (h : Exhausts base edges steps left) (he : e ∈ edges) : e ∈ left ↔
    ¬ (Connected edges base e.leftTable ∧ Connected edges base e.rightTable) := by
  rw [← h.tables, ← h.tables]
  constructor
  · intro own both
    exact (h.apart e own).1 both.1
  · intro other
    exact (h.passed e he).resolve_right other

/-- The tables of the joins that are left over are those of listed joins that are not connected with
the base. -/
theorem mem_left_tables (h : Exhausts base edges steps left) :
    table ∈ left.flatMap (fun e => [e.leftTable, e.rightTable]) ↔
      ∃ e ∈ edges, (table = e.leftTable ∨ table = e.rightTable) ∧ ¬ Connected edges base table := by
  simp only [List.mem_flatMap, List.mem_cons, List.not_mem_nil, or_false]
  constructor
  · intro ⟨e, he, side⟩
    refine ⟨e, h.listed e he, side, ?_⟩
    rw [← h.tables]
    cases side with
    | inl same => exact same ▸ (h.apart e he).1
    | inr same => exact same ▸ (h.apart e he).2
  · intro ⟨e, he, side, other⟩
    refine ⟨e, (h.mem_left he).mpr fun both => other ?_, side⟩
    cases side with
    | inl same => exact same ▸ both.1
    | inr same => exact same ▸ both.2

end Exhausts

/-! ### The order -/

/-- Whether steps join all tables that some joins connect with a base, each of them once and by one
of these joins with the base or a table that was joined before. -/
structure JoinsComponent (base : String) (edges : List Edge) (steps : List Step) : Prop where
  grows : ∃ made, Grows base made steps ∧ ∀ e ∈ made, e ∈ edges
  tables : ∀ table, table ∈ steps.map Step.table ↔ table ≠ base ∧ Connected edges base table
  once : (steps.map Step.table).Nodup

theorem Exhausts.joinsComponent (h : Exhausts base edges steps left) :
    JoinsComponent base edges steps := by
  obtain ⟨made, grows, listed⟩ := h.grows
  have distinct := List.nodup_cons.mp grows.tables_nodup
  refine ⟨⟨made, grows, listed⟩, fun table => ?_, distinct.2⟩
  rw [← h.tables, List.mem_cons]
  constructor
  · intro there
    refine ⟨?_, .inr there⟩
    intro same
    exact distinct.1 (same ▸ there)
  · intro ⟨other, there⟩
    exact there.resolve_left other

/-- What the rounds through all listed joins end with. -/
theorem order_eq (base : String) (edges : List Edge) : ∃ steps left,
    RoundsEnd [base] [] edges steps left ∧ Exhausts base edges steps left ∧
      (left = [] → order base edges = .ok steps) ∧
      (left ≠ [] → order base edges = .error (.stuck
        (Text.sortedSet (left.flatMap fun e => [e.leftTable, e.rightTable])))) := by
  obtain ⟨steps, left, run, ends, exhausts⟩ := rounds_end (sound_start base edges)
    (fun _ own => own) (fun _ own => .inl own) (Nat.le_refl _)
  refine ⟨steps, left, ends, exhausts, ?_, ?_⟩
  · intro none
    rw [order, run, none]
  · intro some
    rw [order, run]
    cases left with
    | nil => exact absurd rfl some
    | cons _ _ => rfl

/-- Putting joins in order ends, however they are listed. It succeeds just where every listed join is
connected with the base by the listed joins, and then joins the tables that are; otherwise it names
the tables of the other joins, in ascending order and each of them once. -/
theorem order_joins_component (base : String) (edges : List Edge) :
    (∃ steps left, RoundsEnd [base] [] edges steps left ∧
      (left = [] ↔ order base edges = .ok steps)) ∧
    ((∃ steps, order base edges = .ok steps) ↔
      ∀ e ∈ edges, Connected edges base e.leftTable ∧ Connected edges base e.rightTable) ∧
    (∀ steps, order base edges = .ok steps → JoinsComponent base edges steps) ∧
    ∀ fault, order base edges = .error fault → ∃ tables, fault = .stuck tables ∧
      tables.Pairwise (· < ·) ∧ ∀ table, table ∈ tables ↔
        ∃ e ∈ edges, (table = e.leftTable ∨ table = e.rightTable) ∧
          ¬ Connected edges base table := by
  obtain ⟨steps, left, ends, exhausts, ordered, stuck⟩ := order_eq base edges
  by_cases none : left = []
  · have ordered := ordered none
    refine ⟨⟨steps, left, ends, iff_of_true none ordered⟩, ?_, ?_, ?_⟩
    · refine iff_of_true ⟨steps, ordered⟩ fun e he => ?_
      have passed := mt (exhausts.mem_left he).mpr (none ▸ List.not_mem_nil)
      exact not_not.mp passed
    · intro others own
      obtain rfl := Except.ok.inj (ordered.symm.trans own)
      exact exhausts.joinsComponent
    · intro fault own
      rw [ordered] at own
      cases own
  · have stuck := stuck none
    have refused : ∀ others, order base edges ≠ .ok others := by
      intro others own
      rw [stuck] at own
      cases own
    refine ⟨⟨steps, left, ends, iff_of_false none (refused steps)⟩, ?_, ?_, ?_⟩
    · refine iff_of_false (fun ⟨others, own⟩ => refused others own) fun all => ?_
      obtain ⟨e, he⟩ := List.exists_mem_of_ne_nil left none
      have listed := exhausts.listed e he
      exact (exhausts.mem_left listed).mp he (all e listed)
    · intro others own
      exact absurd own (refused others)
    · intro fault own
      obtain rfl := Except.error.inj (stuck.symm.trans own)
      refine ⟨_, rfl, Text.sortedSet_ascending _, fun table => ?_⟩
      rw [Text.mem_sortedSet, exhausts.mem_left_tables]

/-- Joins of which the first two wait for the third: the second is of a table with itself, and the
last is the first one again. -/
def tangled : List Edge := [
  ⟨"items", "product_id", "products", "id", .inner⟩,
  ⟨"items", "parent_id", "items", "id", .left⟩,
  ⟨"items", "sale_id", "sales", "id", .inner⟩,
  ⟨"items", "product_id", "products", "id", .inner⟩]

theorem tangled_ordered : (∃ steps, order "sales" tangled = .ok steps ∧
      steps.map Step.table = ["items", "products"] ∧ JoinsComponent "sales" tangled steps) ∧
    ∃ fault tables, order "stores" tangled = .error fault ∧ fault = .stuck tables ∧
      tables.Pairwise (· < ·) := by
  have joined : ((order "sales" tangled).toOption.map fun steps => steps.map Step.table) =
      some ["items", "products"] := by decide
  have refused : (order "stores" tangled).toOption.isNone = true := by decide
  constructor
  · cases own : order "sales" tangled with
    | error fault =>
        rw [own] at joined
        cases joined
    | ok steps =>
        rw [own] at joined
        obtain ⟨-, -, component, -⟩ := order_joins_component "sales" tangled
        exact ⟨steps, rfl, Option.some.inj joined, component steps own⟩
  · cases own : order "stores" tangled with
    | ok steps =>
        rw [own] at refused
        cases refused
    | error fault =>
        obtain ⟨-, -, -, named⟩ := order_joins_component "stores" tangled
        obtain ⟨tables, same, ascending, -⟩ := named fault own
        exact ⟨fault, tables, rfl, same, ascending⟩

end ReportSql.Join
