import Mathlib.Data.List.Nodup
import Mathlib.Data.List.Perm.Subperm
import Mathlib.Logic.Relation
import ReportSql.Join.Path

/-!
The search for paths between tables. It grows a tree of trails from its start and stops when no
declared join leads out of it, so that it has one trail to each table that the declared joins
connect with the start, and none to any other.
-/
namespace ReportSql.Join

open Catalog (Edge Schema)

variable {edges more : List Edge} {start a b c d table : String} {t u : Trail} {e : Edge}
  {reached known waiting done : List Trail} {s : Schema}

/-! ### Connected tables -/

/-- Whether a declared join is between two tables, in either order. -/
def Joins (e : Edge) (a b : String) : Prop :=
  (e.leftTable = a ∧ e.rightTable = b) ∨ (e.rightTable = a ∧ e.leftTable = b)

theorem joins_same (h : Joins e a b) (other : Joins e c d) :
    (a = c ∧ b = d) ∨ (a = d ∧ b = c) := by
  rcases h with ⟨rfl, rfl⟩ | ⟨rfl, rfl⟩ <;> rcases other with ⟨rfl, rfl⟩ | ⟨rfl, rfl⟩ <;> simp

theorem otherEnd?_eq_some : otherEnd? a e = some b ↔ Joins e a b := by
  unfold otherEnd? Joins
  split
  · next left =>
    have left : e.leftTable = a := by simpa using left
    rw [Option.some.injEq]
    refine ⟨fun right => .inl ⟨left, right⟩, ?_⟩
    rintro (⟨-, right⟩ | ⟨right, other⟩)
    · exact right
    · rw [right, ← left, other]
  · next left =>
    have left : e.leftTable ≠ a := by simpa using left
    split
    · next right => simp_all
    · next right => simp_all

/-- Whether a sequence of some joins leads from one table to another. -/
def Connected (edges : List Edge) : String → String → Prop :=
  Relation.ReflTransGen fun a b => ∃ e ∈ edges, Joins e a b

theorem connected_mono (within : ∀ e ∈ edges, e ∈ more) (h : Connected edges a b) :
    Connected more a b :=
  h.lift id fun _ _ ⟨e, he, joins⟩ => ⟨e, within e he, joins⟩

/-! ### Trees of trails -/

/-- What a search has reached: its start, and tables that a declared join leads to from one that
was reached before, none of them twice. -/
inductive SearchTree (edges : List Edge) (start : String) : List Trail → Prop
  | start : SearchTree edges start [⟨start, []⟩]
  | extend {reached : List Trail} {current : Trail} {e : Edge} {table : String}
      (tree : SearchTree edges start reached) (known : current ∈ reached) (declared : e ∈ edges)
      (joins : Joins e current.table table) (fresh : table ∉ reached.map Trail.table) :
      SearchTree edges start (reached ++ [⟨table, current.edges ++ [e]⟩])

/-- Whether no declared join leads from some trails to a table that is not reached. -/
def Closed (edges : List Edge) (done reached : List Trail) : Prop :=
  ∀ t ∈ done, ∀ e ∈ edges, ∀ b, Joins e t.table b → b ∈ reached.map Trail.table

namespace SearchTree

theorem start_mem (tree : SearchTree edges start reached) : ⟨start, []⟩ ∈ reached := by
  induction tree with
  | start => exact List.mem_singleton_self _
  | extend _ _ _ _ _ ih => exact List.mem_append_left _ ih

theorem tables_nodup (tree : SearchTree edges start reached) :
    (reached.map Trail.table).Nodup := by
  induction tree with
  | start => exact List.nodup_singleton _
  | extend _ _ _ _ fresh ih =>
      rw [List.map_append, List.nodup_append]
      refine ⟨ih, List.nodup_singleton _, ?_⟩
      rintro a ha _ (_ | _) rfl
      · exact fresh ha
      · contradiction

/-- There is one trail to a table. -/
theorem eq_of_table (tree : SearchTree edges start reached) (ht : t ∈ reached) (hu : u ∈ reached)
    (same : t.table = u.table) : t = u :=
  List.inj_on_of_nodup_map tree.tables_nodup ht hu same

/-- A trail is that of the start, or goes on from another one by a declared join. -/
theorem cases_mem (tree : SearchTree edges start reached) (ht : t ∈ reached) :
    t = ⟨start, []⟩ ∨ ∃ u ∈ reached, ∃ e ∈ edges, Joins e u.table t.table ∧
      t.edges = u.edges ++ [e] := by
  induction tree with
  | start => exact .inl (List.mem_singleton.mp ht)
  | @extend reached current e table _ known declared joins _ ih =>
      rcases List.mem_append.mp ht with old | new
      · refine (ih old).imp_right ?_
        rintro ⟨u, hu, rest⟩
        exact ⟨u, List.mem_append_left _ hu, rest⟩
      · obtain rfl := List.mem_singleton.mp new
        exact .inr ⟨current, List.mem_append_left _ known, e, declared, joins, rfl⟩

/-- What holds of the start and goes from each trail to those that continue it holds of all. -/
theorem induct {motive : Trail → Prop} (tree : SearchTree edges start reached)
    (first : motive ⟨start, []⟩)
    (step : ∀ t u : Trail, t ∈ reached → u ∈ reached → ∀ e ∈ edges, Joins e u.table t.table →
      t.edges = u.edges ++ [e] → motive u → motive t) : ∀ t ∈ reached, motive t := by
  have sized : ∀ n, ∀ t ∈ reached, t.edges.length = n → motive t := by
    intro n
    induction n with
    | zero =>
        intro t ht size
        rcases tree.cases_mem ht with rfl | ⟨u, _, e, _, _, edges⟩
        · exact first
        · simp [edges] at size
    | succ n ih =>
        intro t ht size
        rcases tree.cases_mem ht with rfl | ⟨u, hu, e, he, joins, edges⟩
        · exact first
        · exact step t u ht hu e he joins edges (ih u hu (by simpa [edges] using size))
  exact fun t ht => sized _ t ht rfl

theorem connected (tree : SearchTree edges start reached) :
    ∀ t ∈ reached, Connected edges start t.table :=
  tree.induct .refl fun _ _ _ _ e he joins _ known => known.tail ⟨e, he, joins⟩

theorem edges_declared (tree : SearchTree edges start reached) :
    ∀ t ∈ reached, ∀ e ∈ t.edges, e ∈ edges := by
  refine tree.induct nofun fun t u _ _ e he _ own known => ?_
  rw [own]
  exact List.forall_mem_append.mpr ⟨known, List.forall_mem_singleton.mpr he⟩

/-- Where no join leads out of it, all that is connected with the start is reached. -/
theorem complete (tree : SearchTree edges start reached) (closed : Closed edges reached reached)
    (h : Connected edges start table) : table ∈ reached.map Trail.table := by
  induction h with
  | refl => exact List.mem_map.mpr ⟨_, tree.start_mem, rfl⟩
  | tail _ step ih =>
      obtain ⟨t, ht, rfl⟩ := List.mem_map.mp ih
      obtain ⟨e, he, joins⟩ := step
      exact closed t ht e he _ joins

/-! ### One trail followed -/

theorem isReached_iff : isReached known table = true ↔ table ∈ known.map Trail.table := by
  simp [isReached]

/-- The trails that go on from one by some declared joins make the tree grow, and lead to all
tables that these joins lead to. -/
theorem extensions (tree : SearchTree edges start reached) (ht : t ∈ reached)
    (same : ∀ table, table ∈ known.map Trail.table ↔ table ∈ reached.map Trail.table)
    (declared : ∀ e ∈ more, e ∈ edges) :
    SearchTree edges start (reached ++ Join.extensions known t more) ∧
      ∀ e ∈ more, ∀ b, Joins e t.table b →
        b ∈ (reached ++ Join.extensions known t more).map Trail.table := by
  induction more generalizing reached known with
  | nil => exact ⟨by simpa [Join.extensions] using tree, nofun⟩
  | cons e more ih =>
      obtain ⟨own, others⟩ := List.forall_mem_cons.mp declared
      unfold Join.extensions
      split
      · next table other =>
        have joins := otherEnd?_eq_some.mp other
        have only : ∀ b, Joins e t.table b → b = table := fun b hb =>
          Option.some.inj ((otherEnd?_eq_some.mpr hb).symm.trans other)
        split
        · next old =>
          obtain ⟨grown, all⟩ := ih tree ht same others
          refine ⟨grown, List.forall_mem_cons.mpr ⟨fun b hb => ?_, all⟩⟩
          rw [only b hb, List.map_append]
          exact List.mem_append_left _ ((same table).mp (isReached_iff.mp old))
        · next new =>
          have fresh : table ∉ reached.map Trail.table := fun old =>
            new (isReached_iff.mpr ((same table).mpr old))
          have both : ∀ b, b ∈ (Trail.mk table (t.edges ++ [e]) :: known).map Trail.table ↔
              b ∈ (reached ++ [Trail.mk table (t.edges ++ [e])]).map Trail.table := fun b => by
            simp only [List.map_append, List.map_cons, List.mem_cons, List.mem_append, same b]
            simp [or_comm]
          obtain ⟨grown, all⟩ :=
            ih (tree.extend ht own joins fresh) (List.mem_append_left _ ht) both others
          simp only [List.append_assoc, List.singleton_append] at grown all
          refine ⟨grown, List.forall_mem_cons.mpr ⟨fun b hb => ?_, all⟩⟩
          rw [only b hb]
          exact List.mem_map.mpr ⟨_, List.mem_append_right _ List.mem_cons_self, rfl⟩
      · next none =>
        obtain ⟨grown, all⟩ := ih tree ht same others
        refine ⟨grown, List.forall_mem_cons.mpr ⟨fun b hb => ?_, all⟩⟩
        rw [otherEnd?_eq_some.mpr hb] at none
        cases none

end SearchTree

/-! ### The search -/

/-- What holds of a search that is through with some of what it has reached, and goes from one trail
that it follows to the next, holds with nothing left to follow if the rounds are enough for the
trails there can be. -/
theorem follow_induct {motive : List Trail → List Trail → Prop} {bound n : Nat}
    (bounded : ∀ done reached, motive done reached → reached.length ≤ bound)
    (step : ∀ done current waiting, motive done (done ++ current :: waiting) →
      motive (done ++ [current]) (done ++ current :: waiting ++
        extensions (done ++ current :: waiting) current edges))
    (first : motive done (done ++ waiting)) (enough : bound ≤ done.length + n) :
    ∃ reached, follow edges n waiting (done ++ waiting) = reached ∧ motive reached reached := by
  induction n generalizing done waiting with
  | zero =>
      have size := bounded _ _ first
      rw [List.length_append] at size
      obtain rfl : waiting = [] := List.eq_nil_of_length_eq_zero (by omega)
      rw [List.append_nil] at first
      exact ⟨done, by simp [follow], first⟩
  | succ n ih =>
      cases waiting with
      | nil =>
          rw [List.append_nil] at first
          exact ⟨done, by simp [follow], first⟩
      | cons current waiting =>
          have next := step done current waiting first
          -- what was reached is still what is done and what waits, in this order
          have moved : done ++ current :: waiting ++
              extensions (done ++ current :: waiting) current edges =
              (done ++ [current]) ++
                (waiting ++ extensions (done ++ current :: waiting) current edges) := by
            simp
          rw [moved] at next
          rw [follow, moved]
          exact ih next (by simp only [List.length_append, List.length_singleton]; omega)

/-- A search that is through with all it has reached ends with a closed tree. -/
theorem follow_closed {bound n : Nat}
    (bounded : ∀ reached, SearchTree edges start reached → reached.length ≤ bound)
    (tree : SearchTree edges start (done ++ waiting))
    (closed : Closed edges done (done ++ waiting)) (enough : bound ≤ done.length + n) :
    ∃ reached, follow edges n waiting (done ++ waiting) = reached ∧
      SearchTree edges start reached ∧ Closed edges reached reached := by
  refine follow_induct (motive := fun done reached =>
    SearchTree edges start reached ∧ Closed edges done reached)
    (fun _ reached through => bounded reached through.1) ?_ ⟨tree, closed⟩ enough
  rintro done current waiting ⟨tree, closed⟩
  obtain ⟨grown, all⟩ := tree.extensions (List.mem_append_right _ List.mem_cons_self)
    (fun _ => Iff.rfl) fun _ he => he
  refine ⟨grown, List.forall_mem_append.mpr ⟨fun t ht e he b hb => ?_, ?_⟩⟩
  · rw [List.map_append]
    exact List.mem_append_left _ (closed t ht e he b hb)
  · exact List.forall_mem_singleton.mpr all

/-! ### Schemas -/

/-- Whether a schema has a table of some name. -/
def Declared (s : Schema) (table : String) : Prop := table ∈ s.tables.map Catalog.Table.name

instance : Decidable (Declared s table) := inferInstanceAs (Decidable (table ∈ _))

theorem isNone_table? : (s.table? table).isNone = true ↔ ¬ Declared s table := by
  simp [Schema.table?, Declared]

/-- The joins of a schema are between its tables. -/
theorem edge_declared (s : Schema) (he : e ∈ s.edges) :
    Declared s e.leftTable ∧ Declared s e.rightTable := by
  have faultless := s.faultless
  simp only [Catalog.schemaFault?, Option.orElse_eq_orElse, Option.orElse_eq_or,
    Option.or_eq_none_iff, List.findSome?_eq_none_iff] at faultless
  have own := faultless.2.2.1 e he
  simp only [Catalog.edgeFault?] at own
  split at own
  · next both => simpa [Declared] using both
  · cases own

theorem joins_declared (s : Schema) (he : e ∈ s.edges) (h : Joins e a b) : Declared s b := by
  obtain ⟨left, right⟩ := edge_declared s he
  rcases h with ⟨-, rfl⟩ | ⟨-, rfl⟩
  · exact right
  · exact left

theorem tree_declared (s : Schema) (hs : Declared s start)
    (tree : SearchTree s.edges start reached) : ∀ t ∈ reached, Declared s t.table :=
  tree.induct hs fun _ _ _ _ _ he joins _ _ => joins_declared s he joins

theorem tree_bounded (s : Schema) (hs : Declared s start)
    (tree : SearchTree s.edges start reached) : reached.length ≤ s.tables.length := by
  have within : reached.map Trail.table ⊆ s.tables.map Catalog.Table.name := by
    intro table own
    obtain ⟨t, ht, rfl⟩ := List.mem_map.mp own
    exact tree_declared s hs tree t ht
  simpa using (tree.tables_nodup.subperm within).length_le

theorem trails_closed (s : Schema) (hs : Declared s start) :
    SearchTree s.edges start (trails s start) ∧
      Closed s.edges (trails s start) (trails s start) := by
  have first : SearchTree s.edges start ([] ++ [⟨start, []⟩]) := .start
  obtain ⟨reached, found, both⟩ := follow_closed (n := s.tables.length)
    (fun _ => tree_bounded s hs) first nofun (by simp)
  rw [List.nil_append] at found
  rwa [trails, found]

/-! ### Paths -/

/-- A path is the trail of its target in the tree of its start. -/
theorem path_eq_ok {target : String} : path s start target = .ok more ↔
    Declared s start ∧ Declared s target ∧ ⟨target, more⟩ ∈ trails s start := by
  unfold path
  split
  · next unknown => simp [isNone_table?.mp unknown]
  · next known =>
    rw [isNone_table?, not_not] at known
    split
    · next unknown => simp [isNone_table?.mp unknown]
    · next declared =>
      rw [isNone_table?, not_not] at declared
      have tree := (trails_closed s known).1
      simp only [known, declared, true_and]
      split
      · next trail found =>
        have own := List.mem_of_find?_eq_some found
        have goal : trail.table = target := by simpa using List.find?_some found
        rw [Except.ok.injEq]
        constructor
        · rintro rfl
          rwa [← goal]
        · intro other
          exact congrArg Trail.edges (tree.eq_of_table own other goal)
      · next missing =>
        simp only [List.find?_eq_none, beq_iff_eq] at missing
        exact ⟨nofun, fun own => absurd rfl (missing _ own)⟩

/-- There is a path to a table if and only if both are declared and connected. -/
theorem exists_path {target : String} : (∃ es, path s start target = .ok es) ↔
    Declared s start ∧ Declared s target ∧ Connected s.edges start target := by
  simp only [path_eq_ok]
  constructor
  · rintro ⟨es, known, declared, own⟩
    exact ⟨known, declared, (trails_closed s known).1.connected _ own⟩
  · rintro ⟨known, declared, connected⟩
    obtain ⟨tree, closed⟩ := trails_closed s known
    obtain ⟨t, ht, rfl⟩ := List.mem_map.mp (tree.complete closed connected)
    exact ⟨t.edges, known, declared, ht⟩

end ReportSql.Join
