import ReportSql.Proofs.ListedPlaces
import ReportSql.Proofs.Replacing

/-!
Which nodes a replacement reaches. It is made at the outermost nodes that it is for, and counts
them; the rest of the expression, and the queries inside it, stay as they were.
-/
namespace ReportSql.Tree

/-! ### Nodes and their addresses -/

/-- The node at an address. Queries inside an expression are not entered. -/
def Expr.at? : Expr → Address → Option Expr
  | e, [] => some e
  | e, i :: a => e.parts[i]?.bind fun x => x.at? a

/-- Whether a node of some kind stands at an address, with none of that kind above it. -/
structure Expr.IsOutermost (p : Expr → Bool) (e : Expr) (a : Address) : Prop where
  own : ∃ x, e.at? a = some x ∧ p x = true
  above : ∀ b, b <+: a → b ≠ a → ∀ x, e.at? b = some x → p x = false

/-- Whether no node of some kind stands at an address, nor above it. -/
def Expr.IsClear (p : Expr → Bool) (e : Expr) (a : Address) : Prop :=
  ∀ b, b <+: a → ∀ x, e.at? b = some x → p x = false

/-- Whether two nodes differ in what the expressions directly inside them are, and in nothing
else. -/
def Expr.SameHead (x y : Expr) : Prop :=
  x.mapParts (fun _ => .star none) = y.mapParts fun _ => .star none

/-- The replacement of just the nodes of some kind. -/
def replacementOf (p : Expr → Bool) (r : Expr → Expr) (x : Expr) : Option Expr :=
  if p x then some (r x) else none

variable {p : Expr → Bool} {r : Expr → Expr} {f : Expr → Option Expr} {e x : Expr} {a : Address}
  {i : Nat}

theorem at?_cons (h : e.parts[i]? = some x) : e.at? (i :: a) = x.at? a := by
  rw [Expr.at?, h]
  rfl

theorem at?_cons_some (h : e.at? (i :: a) = some x) :
    ∃ y, e.parts[i]? = some y ∧ y.at? a = some x :=
  Option.bind_eq_some_iff.mp h

theorem isOutermost_nil : e.IsOutermost p [] ↔ p e = true := by
  constructor
  · rintro ⟨⟨x, own, kind⟩, -⟩
    cases own
    exact kind
  · intro kind
    refine ⟨⟨e, rfl, kind⟩, fun b prior other => ?_⟩
    exact absurd (List.prefix_nil.mp prior) other

theorem isOutermost_cons :
    e.IsOutermost p (i :: a) ↔ p e = false ∧ ∃ y, e.parts[i]? = some y ∧ y.IsOutermost p a := by
  constructor
  · rintro ⟨⟨x, own, kind⟩, above⟩
    obtain ⟨y, part, inside⟩ := at?_cons_some own
    refine ⟨above [] List.nil_prefix (List.cons_ne_nil i a).symm e rfl, y, part, ⟨x, inside, kind⟩,
      fun b prior other z hz => ?_⟩
    apply above (i :: b) ((List.prefix_cons_inj i).mpr prior)
    · exact fun same => other (List.cons.inj same).2
    · rwa [at?_cons part]
  · rintro ⟨outside, y, part, ⟨x, inside, kind⟩, above⟩
    refine ⟨⟨x, by rwa [at?_cons part], kind⟩, fun b prior other z hz => ?_⟩
    obtain rfl | ⟨b, rfl, inner⟩ := List.prefix_cons_iff.mp prior
    · cases hz
      exact outside
    · rw [at?_cons part] at hz
      exact above b inner (fun same => other (congrArg (i :: ·) same)) z hz

theorem isClear_nil : e.IsClear p [] ↔ p e = false := by
  constructor
  · exact fun clear => clear [] List.nil_prefix e rfl
  · intro kind b prior x hx
    obtain rfl := List.prefix_nil.mp prior
    cases hx
    exact kind

theorem isClear_cons (h : e.IsClear p (i :: a)) (part : e.parts[i]? = some x) :
    p e = false ∧ x.IsClear p a := by
  refine ⟨h [] List.nil_prefix e rfl, fun b prior y hy => ?_⟩
  apply h (i :: b) ((List.prefix_cons_inj i).mpr prior)
  rwa [at?_cons part]

/-! ### What becomes of a node -/

theorem replacementOf_eq_none : replacementOf p r x = none ↔ p x = false := by
  simp [replacementOf]

theorem replacementOf_eq_some (h : p x = true) : replacementOf p r x = some (r x) := if_pos h

theorem mapParts_mapParts {g h : Expr → Expr} (e : Expr) :
    (e.mapParts g).mapParts h = e.mapParts (h ∘ g) := by
  cases e with
  | case o bs e => simp [Expr.mapParts, Function.comp_def]
  | _ => simp [Expr.mapParts]

theorem part_swap (h : f e = none) (part : e.parts[i]? = some x) :
    (e.swap f).parts[i]? = some (x.swap f) := by
  rw [swap_of_none h, parts_mapParts, List.getElem?_map, part]
  rfl

/-- An outermost node is replaced, by what it was. -/
theorem swap_outermost (h : e.IsOutermost p a) (own : e.at? a = some x) :
    (e.swap (replacementOf p r)).at? a = some (r x) := by
  induction a generalizing e with
  | nil =>
      cases own
      exact congrArg some (swap_of_some (replacementOf_eq_some (isOutermost_nil.mp h)))
  | cons i a ih =>
      obtain ⟨outside, y, part, inside⟩ := isOutermost_cons.mp h
      rw [at?_cons part] at own
      rw [at?_cons (part_swap (replacementOf_eq_none.mpr outside) part)]
      exact ih inside own

/-- A node that is neither replaced nor inside one that is stays, but for what is inside it. -/
theorem swap_clear (h : e.IsClear p a) (own : e.at? a = some x) :
    ∃ y, (e.swap (replacementOf p r)).at? a = some y ∧ y.SameHead x := by
  induction a generalizing e with
  | nil =>
      cases own
      refine ⟨_, rfl, ?_⟩
      rw [swap_of_none (replacementOf_eq_none.mpr (isClear_nil.mp h)), Expr.SameHead,
        mapParts_mapParts]
      rfl
  | cons i a ih =>
      obtain ⟨y, part, inside⟩ := at?_cons_some own
      obtain ⟨outside, clear⟩ := isClear_cons h part
      rw [at?_cons (part_swap (replacementOf_eq_none.mpr outside) part)]
      exact ih clear inside

/-! ### How many are replaced -/

theorem replace_counts (p : Expr → Bool) (r : Expr → Expr) (e : Expr) : ∃ found : List Expr,
    ListsOnce (fun a x => e.at? a = some x ∧ e.IsOutermost p a) found ∧
      (e.replace (replacementOf p r)).2 = found.length := by
  induction e using Expr.induct with
  | step e ih =>
      cases kind : p e with
      | true =>
          refine ⟨[e], ⟨[([], e)], by simp, rfl, fun a x => ?_⟩,
            replace_snd_some (replacementOf_eq_some kind)⟩
          cases a with
          | nil => simp [Expr.at?, isOutermost_nil, kind, eq_comm]
          | cons i a => simp [isOutermost_cons, kind]
      | false =>
          choose! found listed counted using ih
          refine ⟨e.parts.flatMap found, (listsOnce_parts listed).congr fun a x => ?_, ?_⟩
          · cases a with
            | nil => simp [isOutermost_nil, kind]
            | cons i a =>
                constructor
                · rintro ⟨_, _, y, ⟨rfl, rfl⟩, part, own, outermost⟩
                  exact ⟨(at?_cons part).trans own,
                    isOutermost_cons.mpr ⟨kind, y, part, outermost⟩⟩
                · rintro ⟨own, outermost⟩
                  obtain ⟨-, y, part, inside⟩ := isOutermost_cons.mp outermost
                  exact ⟨i, a, y, rfl, part, (at?_cons part).symm.trans own, inside⟩
          · rw [replace_snd_none (replacementOf_eq_none.mpr kind), List.length_flatMap,
              List.map_congr_left counted]

theorem replace_none_iff (p : Expr → Bool) (r : Expr → Expr) (e : Expr) :
    (e.replace (replacementOf p r)).2 = 0 ↔ e.any p = false := by
  induction e using Expr.induct with
  | step e ih =>
      rw [e.any_eq]
      cases kind : p e with
      | true => simp [replace_snd_some (replacementOf_eq_some kind)]
      | false =>
          rw [replace_snd_none (replacementOf_eq_none.mpr kind), List.sum_eq_zero_iff_forall_eq_nat,
            List.forall_mem_map, Bool.false_or, List.any_eq_false]
          refine forall₂_congr fun x hx => ?_
          rw [ih x hx, Bool.not_eq_true]

/-- A replacement for nodes of some kind takes the place of just the outermost of them, whatever
there is inside them. Each of them is replaced by what it was, a node that is not inside one of them
keeps its head, and they are counted, so that nothing is counted just where there is none. -/
theorem replace_outermost (p : Expr → Bool) (r : Expr → Expr) (e : Expr) :
    (∀ a x, e.at? a = some x → e.IsOutermost p a →
      (e.replace (replacementOf p r)).1.at? a = some (r x)) ∧
    (∀ a x, e.at? a = some x → e.IsClear p a →
      ∃ y, (e.replace (replacementOf p r)).1.at? a = some y ∧ y.SameHead x) ∧
    (∃ found : List Expr,
      ListsOnce (fun a x => e.at? a = some x ∧ e.IsOutermost p a) found ∧
        (e.replace (replacementOf p r)).2 = found.length) ∧
    ((e.replace (replacementOf p r)).2 = 0 ↔ e.any p = false) :=
  ⟨fun _ _ own outermost => swap_outermost outermost own,
    fun _ _ own clear => swap_clear clear own, replace_counts p r e, replace_none_iff p r e⟩

/-- Whether an expression stands in parentheses. -/
def Expr.isGrouped : Expr → Bool
  | .paren _ => true
  | _ => false

/-- A parameter in two pairs of parentheses, beside one in none. -/
def groupedTwice : Expr := .binary (.paren (.paren (.param "from"))) .and (.param "to")

theorem replace_outermost_grouped :
    groupedTwice.IsOutermost Expr.isGrouped [0] ∧
      (groupedTwice.replace (replacementOf Expr.isGrouped (.unary .not))).1.at? [0] =
        some (.unary .not (.paren (.paren (.param "from")))) := by
  have outermost : groupedTwice.IsOutermost Expr.isGrouped [0] :=
    isOutermost_cons.mpr ⟨rfl, .paren (.paren (.param "from")), rfl, isOutermost_nil.mpr rfl⟩
  exact ⟨outermost,
    (replace_outermost Expr.isGrouped (.unary .not) groupedTwice).1 [0] _ rfl outermost⟩

end ReportSql.Tree
