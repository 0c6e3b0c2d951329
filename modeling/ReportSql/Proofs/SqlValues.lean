import Mathlib.Algebra.BigOperators.Group.List.Basic
import Mathlib.Algebra.Order.Ring.Rat
import ReportSql.Proofs.JoinedRows
import ReportSql.Proofs.LikeReports
import ReportSql.Proofs.Moments

/-!
Values of expressions, as far as the conditions on dates and the sums of reports need them: numbers,
dates, points in time and lengths of time in days, with NULL and three-valued truth. An expression
may have no value, where an operation does not fit its operands or divides by zero; what else an
expression can be made of is left to the scope it is evaluated in.
-/
namespace ReportSql.Values

open Rows (Truth)
open Tree

inductive Value where
  | null
  | boolean (b : Bool)
  | number (q : ℚ)
  | text (s : String)
  | date (d : Date)
  | moment (t : Moment)
  | interval (days : Int)
  deriving DecidableEq

/-- What an expression is evaluated in. -/
structure Scope where
  column : Option String → String → Value
  param : String → Value
  /-- How the type of the numbers rounds a quotient. -/
  quotient : ℚ → ℚ → ℚ
  /-- The values of the expressions that are given no meaning here. -/
  other : Expr → Option Value

/-! ### Operations -/

/-- A point in time; a date stands for its start. -/
def Value.moment? : Value → Option Moment
  | .date d => some (.startOf d)
  | .moment t => some t
  | _ => none

def Value.truth? : Value → Option Truth
  | .boolean b => some (some b)
  | .null => some none
  | _ => none

def ofTruth : Truth → Value
  | some b => .boolean b
  | none => .null

def compares {α : Type} [LT α] [DecidableEq α] [DecidableLT α] (x y : α) : BinaryOp → Option Bool
  | .eq => some (x = y)
  | .ne => some (x ≠ y)
  | .lt => some (x < y)
  | .gt => some (y < x)
  | .ltEq => some (¬ y < x)
  | .gtEq => some (¬ x < y)
  | _ => none

/-- Texts are only compared for equality, since their order depends on the database. -/
def comparison (op : BinaryOp) : Value → Value → Option Value
  | .null, _ | _, .null => some .null
  | .number x, .number y => (compares x y op).map .boolean
  | .text x, .text y =>
    match op with
    | .eq => some (.boolean (x = y))
    | .ne => some (.boolean (x ≠ y))
    | _ => none
  | a, b => a.moment?.bind fun t => b.moment?.bind fun u => (compares t u op).map .boolean

def arithmetic (quotient : ℚ → ℚ → ℚ) (op : BinaryOp) : Value → Value → Option Value
  | .null, _ | _, .null => some .null
  | .number x, .number y =>
    match op with
    | .plus => some (.number (x + y))
    | .minus => some (.number (x - y))
    | .times => some (.number (x * y))
    | .divide => if y = 0 then none else some (.number (quotient x y))
    | _ => none
  | a, .interval days =>
    match op, a.moment? with
    | .plus, some t => some (.moment (t.addDays days))
    | .minus, some t => some (.moment (t.addDays (-days)))
    | _, _ => none
  | _, _ => none

def logic (f : Truth → Truth → Truth) (a b : Value) : Option Value :=
  a.truth?.bind fun p => b.truth?.map fun q => ofTruth (f p q)

def operation? (quotient : ℚ → ℚ → ℚ) (op : BinaryOp) : Option (Value → Value → Option Value) :=
  match op with
  | .and => some (logic .and)
  | .or => some (logic .or)
  | .eq | .ne | .lt | .gt | .ltEq | .gtEq => some (comparison op)
  | .plus | .minus | .times | .divide => some (arithmetic quotient op)
  | _ => none

def toDate : Value → Option Value
  | .null => some .null
  | .date d => some (.date d)
  | .moment t => some (.date t.day)
  | _ => none

def toMoment : Value → Option Value
  | .null => some .null
  | v => v.moment?.map .moment

def conversion? (type : String) : Option (Value → Option Value) :=
  match type with
  | "date" => some toDate
  | "timestamp" => some toMoment
  | _ => none

/-- The start of the day, week or month of a point in time. -/
def truncate? (unit : String) (t : Moment) : Option Moment :=
  match unit with
  | "day" => some (.startOf t.day)
  | "week" => some (.startOf t.day.weekStart)
  | "month" => some (.startOf t.day.monthStart)
  | _ => none

def truncated : Value → Value → Option Value
  | .text _, .null => some .null
  | .text unit, v => (v.moment?.bind (truncate? unit)).map .moment
  | _, _ => none

def function? (name : String) : Option (List Value → Option Value) :=
  match name with
  | "DATE" => some fun
    | [v] => toDate v
    | _ => none
  | "DATE_TRUNC" => some fun
    | [unit, v] => truncated unit v
    | _ => none
  | _ => none

def literal? : Literal → Option Value
  | .int n => some (.number n)
  | .text s => some (.text s)
  | .boolean b => some (.boolean b)
  | .date d => some (.date d)
  | .null => some .null
  | .float _ => none

/-! ### Expressions -/

mutual

def Scope.value (s : Scope) : Expr → Option Value
  | .column table name => some (s.column table name)
  | e@(.literal l) => literal? l <|> s.other e
  | .param name => some (s.param name)
  | .paren e => s.value e
  | e@(.binary a op b) =>
    match operation? s.quotient op with
    | some f => (s.value a).bind fun x => (s.value b).bind fun y => f x y
    | none => s.other e
  | .unary .not e => ((s.value e).bind Value.truth?).map fun t => ofTruth t.not
  | e@(.call name arguments _) =>
    match function? name with
    | some f => (s.values arguments).bind f
    | none => s.other e
  | .case none branches otherwise =>
    s.branch branches (match otherwise with | some e => s.value e | none => some .null)
  | .inList operand values negated =>
    (s.value operand).bind fun v => (s.equalsAny v values).map fun t =>
      ofTruth (if negated then t.not else t)
  | .isTruth operand value negated =>
    ((s.value operand).bind Value.truth?).map fun t => .boolean ((t == some value) != negated)
  | e@(.cast operand type) =>
    match conversion? type with
    | some f => (s.value operand).bind f
    | none => s.other e
  | e@(.interval text) =>
    match intervalDays? text with
    | some days => some (.interval days)
    | none => s.other e
  | e => s.other e
termination_by structural x => x

def Scope.values (s : Scope) : List Expr → Option (List Value)
  | [] => some []
  | e :: rest => (s.value e).bind fun v => (s.values rest).map (v :: ·)
termination_by structural x => x

/-- The result of the first branch whose condition is true. The others are not evaluated. -/
def Scope.branch (s : Scope) : List Branch → Option Value → Option Value
  | [], otherwise => otherwise
  | ⟨condition, result⟩ :: rest, otherwise =>
    ((s.value condition).bind Value.truth?).bind fun t =>
      if t = some true then s.value result else s.branch rest otherwise
termination_by structural x => x

/-- Whether a value is one of some others: the OR of the comparisons with them. -/
def Scope.equalsAny (s : Scope) (v : Value) : List Expr → Option Truth
  | [] => some (some false)
  | e :: rest =>
    (s.value e).bind fun w => ((comparison .eq v w).bind Value.truth?).bind fun t =>
      (s.equalsAny v rest).map t.or
termination_by structural x => x

end

variable {s : Scope} {e a b c : Expr} {t u : Moment} {v w : Value} {P Q : Prop}
  {fs gs : List Expr}

/-! ### Values of constructs -/

theorem value_colOf {table name : String} :
    s.value (.colOf table name) = some (s.column (some table) name) := rfl

theorem value_interval_days (n : Nat) :
    s.value (.interval (toString n ++ " days")) = some (.interval n) := by
  have unfolded : s.value (.interval (toString n ++ " days")) =
      match intervalDays? (toString n ++ " days") with
      | some days => some (.interval days)
      | none => s.other (.interval (toString n ++ " days")) := rfl
  rw [unfolded, intervalDays?_days]

theorem value_binary {op : BinaryOp} {f : Value → Value → Option Value}
    (meant : operation? s.quotient op = some f) (ha : s.value a = some v) (hb : s.value b = some w) :
    s.value (.binary a op b) = f v w := by
  have unfolded : s.value (.binary a op b) =
      match operation? s.quotient op with
      | some f => (s.value a).bind fun x => (s.value b).bind fun y => f x y
      | none => s.other (.binary a op b) := rfl
  rw [unfolded, meant, ha, hb]
  rfl

/-- Days are added to a point in time. -/
theorem value_add {days : Int} (ha : s.value a = some v) (hv : v.moment? = some t)
    (hb : s.value b = some (.interval days)) :
    s.value (a.add b) = some (.moment (t.addDays days)) := by
  refine (value_binary rfl ha hb).trans ?_
  cases v <;> simp_all [arithmetic, Value.moment?]

theorem value_sub {days : Int} (ha : s.value a = some v) (hv : v.moment? = some t)
    (hb : s.value b = some (.interval days)) :
    s.value (a.sub b) = some (.moment (t.addDays (-days))) := by
  refine (value_binary rfl ha hb).trans ?_
  cases v <;> simp_all [arithmetic, Value.moment?]

theorem value_difference {x y : ℚ} (ha : s.value a = some (.number x))
    (hb : s.value b = some (.number y)) : s.value (a.sub b) = some (.number (x - y)) :=
  (value_binary rfl ha hb).trans rfl

/-- There is no quotient by zero. -/
theorem value_quotient {x y : ℚ} (ha : s.value a = some (.number x))
    (hb : s.value b = some (.number y)) :
    s.value (a.div b) = if y = 0 then none else some (.number (s.quotient x y)) :=
  (value_binary rfl ha hb).trans rfl

theorem value_date_call (ha : s.value a = some (.moment t)) :
    s.value (.callOf "DATE" [a]) = some (.date t.day) := by
  have unfolded : s.value (.callOf "DATE" [a]) =
      ((s.value a).bind fun v => some [v]).bind fun
        | [v] => toDate v
        | _ => none := rfl
  rw [unfolded, ha]
  rfl

theorem value_truncate {unit : String} (ha : s.value a = some (.moment t))
    (hu : truncate? unit t = some u) : s.value (.truncate unit a) = some (.moment u) := by
  have unfolded : s.value (.truncate unit a) =
      ((s.value a).bind fun v => some [v]).bind fun
        | [v] => truncated (.text unit) v
        | _ => none := by
    have arguments : s.value (.truncate unit a) =
        (((s.value a).bind fun v => some [v]).map (.text unit :: ·)).bind fun
          | [unit, v] => truncated unit v
          | _ => none := rfl
    rw [arguments]
    cases s.value a <;> rfl
  rw [unfolded, ha]
  simp [truncated, Value.moment?, hu]

/-! ### Conditions -/

namespace Scope

def IsTrue (s : Scope) (e : Expr) : Prop := s.value e = some (.boolean true)

instance : Decidable (s.IsTrue e) := inferInstanceAs (Decidable (s.value e = _))

/-- Whether a condition is known, and true just where a proposition is. -/
def Decides (s : Scope) (e : Expr) (P : Prop) : Prop :=
  ∃ b, s.value e = some (.boolean b) ∧ (b = true ↔ P)

theorem Decides.isTrue (h : s.Decides e P) : s.IsTrue e ↔ P := by
  obtain ⟨b, own, means⟩ := h
  rw [IsTrue, own, ← means]
  simp

theorem Decides.paren (h : s.Decides e P) : s.Decides (.paren e) P := h

theorem Decides.congr (h : s.Decides e P) (same : P ↔ Q) : s.Decides e Q := by
  obtain ⟨b, own, means⟩ := h
  exact ⟨b, own, means.trans same⟩

theorem Decides.and (ha : s.Decides a P) (hb : s.Decides b Q) : s.Decides (a.and b) (P ∧ Q) := by
  obtain ⟨p, own, means⟩ := ha
  obtain ⟨q, other, too⟩ := hb
  refine ⟨p && q, (value_binary rfl own other).trans ?_, by rw [Bool.and_eq_true, means, too]⟩
  cases p <;> cases q <;> rfl

theorem Decides.or (ha : s.Decides a P) (hb : s.Decides b Q) : s.Decides (a.or b) (P ∨ Q) := by
  obtain ⟨p, own, means⟩ := ha
  obtain ⟨q, other, too⟩ := hb
  refine ⟨p || q, (value_binary rfl own other).trans ?_, by rw [Bool.or_eq_true, means, too]⟩
  cases p <;> cases q <;> rfl

theorem comparison_moments {op : BinaryOp} (hv : v.moment? = some t) (hw : w.moment? = some u) :
    comparison op v w = (compares t u op).map .boolean := by
  cases v <;> cases w <;> simp_all [comparison, Value.moment?]

theorem decides_ge (ha : s.value a = some v) (hv : v.moment? = some t) (hb : s.value b = some w)
    (hw : w.moment? = some u) : s.Decides (a.ge b) (u ≤ t) :=
  ⟨_, (value_binary rfl ha hb).trans (comparison_moments hv hw), by simp [Moment.not_lt]⟩

theorem decides_lt (ha : s.value a = some v) (hv : v.moment? = some t) (hb : s.value b = some w)
    (hw : w.moment? = some u) : s.Decides (a.lt b) (t < u) :=
  ⟨_, (value_binary rfl ha hb).trans (comparison_moments hv hw), by simp⟩

theorem decides_zero {x : ℚ} (ha : s.value a = some (.number x)) :
    s.Decides (a.eq (.int 0)) (x = 0) := by
  have zero : s.value (.int 0) = some (.number 0) := rfl
  have compared : s.value (a.eq (.int 0)) = some (.boolean (decide (x = 0))) :=
    (value_binary rfl ha zero).trans rfl
  exact ⟨_, compared, decide_eq_true_iff⟩

/-- A point in time is the start of one of two dates. -/
theorem decides_isOneOf {x y : Date} (ha : s.value a = some v) (hv : v.moment? = some t)
    (hb : s.value b = some (.date x)) (hc : s.value c = some (.date y)) :
    s.Decides (a.isOneOf [b, c]) (t = .startOf x ∨ t = .startOf y) := by
  have each : ∀ d, comparison .eq v (.date d) = (compares t (.startOf d) .eq).map .boolean :=
    fun d => comparison_moments hv rfl
  have unfolded : s.value (a.isOneOf [b, c]) = (s.value a).bind fun v =>
      (s.equalsAny v [b, c]).map ofTruth := rfl
  refine ⟨decide (t = .startOf x) || decide (t = .startOf y), ?_, by simp⟩
  rw [unfolded, ha]
  simp only [equalsAny, hb, hc, each, compares, Option.map_some, Option.bind_some,
    Value.truth?]
  cases decide (t = .startOf x) <;> cases decide (t = .startOf y) <;> rfl

theorem value_ifElse [Decidable P] (h : s.Decides c P) :
    s.value (.ifElse c a b) = if P then s.value a else s.value b := by
  obtain ⟨condition, own, means⟩ := h
  have unfolded : s.value (.ifElse c a b) = ((s.value c).bind Value.truth?).bind fun t =>
      if t = some true then s.value a else s.value b := rfl
  rw [unfolded, own]
  simp [Value.truth?, means]

/-! ### Conjunctions -/

theorem truth?_eq_true : v.truth? = some (some true) ↔ v = .boolean true := by
  cases v <;> simp [Value.truth?]

theorem logic_and_eq_true : logic .and v w = some (.boolean true) ↔
    v = .boolean true ∧ w = .boolean true := by
  rw [← truth?_eq_true, ← truth?_eq_true, logic]
  cases v.truth? with
  | none => simp
  | some p =>
      cases w.truth? with
      | none => simp
      | some q =>
          have known : ofTruth (p.and q) = .boolean true ↔ p.and q = some true := by
            cases p.and q <;> simp [ofTruth]
          simp [known, Truth.and_eq_true]

/-- Whatever the conditions are, their conjunction is true only where both are. -/
theorem isTrue_and : s.IsTrue (a.and b) ↔ s.IsTrue a ∧ s.IsTrue b := by
  have unfolded : s.value (a.and b) = (s.value a).bind fun x => (s.value b).bind fun y =>
      logic .and x y := rfl
  rw [IsTrue, IsTrue, IsTrue, unfolded]
  cases s.value a with
  | none => simp
  | some v =>
      cases s.value b with
      | none => simp
      | some w => simp [logic_and_eq_true]

/-- Whether some conditions are known, and all of them true just where a proposition is. -/
def DecideAll (s : Scope) (fs : List Expr) (P : Prop) : Prop :=
  (∀ f ∈ fs, ∃ b, s.value f = some (.boolean b)) ∧ ((∀ f ∈ fs, s.IsTrue f) ↔ P)

theorem decideAll_nil : s.DecideAll [] True := by
  simp [DecideAll]

theorem Decides.all (h : s.Decides e P) : s.DecideAll [e] P := by
  have known : ∃ b, s.value e = some (.boolean b) := h.imp fun _ => And.left
  simp only [DecideAll, List.forall_mem_singleton]
  exact ⟨known, h.isTrue⟩

theorem DecideAll.append (hf : s.DecideAll fs P) (hg : s.DecideAll gs Q) :
    s.DecideAll (fs ++ gs) (P ∧ Q) := by
  simp only [DecideAll, List.forall_mem_append]
  exact ⟨⟨hf.1, hg.1⟩, and_congr hf.2 hg.2⟩

theorem DecideAll.congr (h : s.DecideAll fs P) (same : P ↔ Q) : s.DecideAll fs Q :=
  ⟨h.1, h.2.trans same⟩

/-- Whether a row passes a WHERE clause. -/
def Holds (s : Scope) (condition : Option Expr) : Prop := ∀ e ∈ condition, s.IsTrue e

instance {condition : Option Expr} : Decidable (s.Holds condition) :=
  inferInstanceAs (Decidable (∀ e ∈ condition, s.IsTrue e))

theorem holds_filterCondition : s.Holds (filterCondition fs) ↔ ∀ f ∈ fs, s.IsTrue f := by
  have onto : ∀ condition, s.Holds (fs.foldl withFilter condition) ↔
      s.Holds condition ∧ ∀ f ∈ fs, s.IsTrue f := by
    induction fs with
    | nil => simp
    | cons f fs ih =>
        intro condition
        have next : s.Holds (withFilter condition f) ↔ s.Holds condition ∧ s.IsTrue f := by
          cases condition <;> simp [withFilter, Holds, isTrue_and]
        rw [List.foldl_cons, ih, next, List.forall_mem_cons, and_assoc]
  simpa [filterCondition, Holds] using onto none

end Scope

/-! ### Groups of rows -/

/-- The sum of some values. NULLs are passed over, and the sum of no others is NULL. -/
def total : List Value → Option Value
  | [] => some .null
  | v :: rest =>
    (total rest).bind fun sum =>
      match v, sum with
      | .null, sum => some sum
      | .number x, .null => some (.number x)
      | .number x, .number y => some (.number (x + y))
      | _, _ => none

theorem total_numbers {q : ℚ} {qs : List ℚ} :
    total ((q :: qs).map .number) = some (.number (q :: qs).sum) := by
  induction qs generalizing q with
  | nil => simp [total]
  | cons r qs ih =>
      rw [List.map_cons, total, ih]
      simp

/-- The value of an expression over a group of rows: a sum, or what the rows are grouped by and have
in common. -/
def grouped (rows : List Scope) : Expr → Option Value
  | .call "SUM" [e] false => (rows.mapM fun row : Scope => row.value e).bind total
  | e => rows.head?.bind fun row => row.value e

theorem grouped_sum {α : Type} {items : List α} {row : α → Scope} {amount : α → ℚ}
    (nonempty : items ≠ []) (own : ∀ i ∈ items, (row i).value e = some (.number (amount i))) :
    grouped (items.map row) e.sum = some (.number (items.map amount).sum) := by
  have values : ((items.map row).mapM fun row : Scope => row.value e) =
      some ((items.map amount).map .number) := by
    clear nonempty
    induction items with
    | nil => rfl
    | cons i items ih =>
        obtain ⟨first, rest⟩ := List.forall_mem_cons.mp own
        rw [List.map_cons, List.mapM_cons, first, ih rest]
        rfl
  have unfolded : grouped (items.map row) e.sum =
      ((items.map row).mapM fun row : Scope => row.value e).bind total := rfl
  rw [unfolded, values]
  cases items with
  | nil => exact absurd rfl nonempty
  | cons i items => exact total_numbers

/-- The row that a query gives for a group of rows, with the names of its columns. -/
def output (rows : List Scope) (q : Query) : List (Option String × Option Value) :=
  q.items.map fun i => (i.label, grouped rows i.expr)

end ReportSql.Values
