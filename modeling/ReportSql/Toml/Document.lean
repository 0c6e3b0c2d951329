import ReportSql.Toml.Value

/-!
Tables under construction. A document is built statement by statement: an assignment adds to the
table of the last header, and a table may be defined only once.
-/

namespace ReportSql.Toml

/-- How a table came to be. -/
inductive Origin where
  /-- by its own header, or as the document -/
  | header
  /-- by a longer header -/
  | implied
  /-- by a dotted key -/
  | dotted
  deriving DecidableEq, Repr

mutual

inductive Node where
  | value (value : Value)
  | table (table : Table)
  /-- An array of tables; the last one can still grow. -/
  | tables (before : List Table) (last : Table)

structure Table where
  origin : Origin
  slots : List Slot

structure Slot where
  key : String
  node : Node

end

def Table.empty (origin : Origin) : Table := ⟨origin, []⟩

def Table.find? (t : Table) (key : String) : Option Node :=
  (t.slots.find? fun s => s.key == key).map Slot.node

/-- Replaces the node of a key, or adds one. -/
def setSlot (key : String) (node : Node) : List Slot → List Slot
  | [] => [⟨key, node⟩]
  | s :: rest => if s.key == key then ⟨key, node⟩ :: rest else s :: setSlot key node rest

def Table.set (t : Table) (key : String) (node : Node) : Table :=
  { t with slots := setSlot key node t.slots }

/-! ### Values -/

mutual

def Node.toValue : Node → Value
  | .value v => v
  | .table t => t.toValue
  | .tables before last => .array (tableValues before ++ [last.toValue])

def Table.toValue : Table → Value
  | ⟨_, slots⟩ => .table (slotEntries slots)

def tableValues : List Table → List Value
  | [] => []
  | t :: rest => t.toValue :: tableValues rest

def slotEntries : List Slot → List Entry
  | [] => []
  | ⟨key, node⟩ :: rest => ⟨key, node.toValue⟩ :: slotEntries rest

end

/-! ### Statements -/

inductive Statement where
  | assign (path : List String) (key : String) (value : Value)
  | header (path : List String) (key : String)
  | tablesHeader (path : List String) (key : String)

/-- Changes the table that a path leads to. Tables on the way are made where they are missing; a
dotted key passes through no table with a header. -/
def Table.at? (dotted : Bool) (change : Table → Option Table) : List String → Table → Option Table
  | [], t => change t
  | key :: path, t =>
    match t.find? key with
    | none => do
      let inner ← Table.at? dotted change path (.empty (if dotted then .dotted else .implied))
      return t.set key (.table inner)
    | some (.table inner) =>
      if dotted && inner.origin = .header then none
      else do
        let inner ← Table.at? dotted change path inner
        return t.set key (.table inner)
    | some (.tables before last) => do
      let last ← Table.at? dotted change path last
      return t.set key (.tables before last)
    | some (.value _) => none

/-- Adds a value with a new key. Only a dotted key reaches a table of dotted keys. -/
def Table.assign? (path : List String) (key : String) (value : Value) (t : Table) :
    Option Table :=
  let add (t : Table) : Option Table :=
    if (t.origin == .dotted) == path.isEmpty || (t.find? key).isSome then none
    else some (t.set key (.value value))
  Table.at? true add path t

/-- The table of a new header; one that was only implied so far may get its header. -/
def Table.define? (key : String) (t : Table) : Option Table :=
  match t.find? key with
  | none => some (t.set key (.table (.empty .header)))
  | some (.table ⟨.implied, slots⟩) => some (t.set key (.table ⟨.header, slots⟩))
  | some _ => none

/-- A further table of an array of tables. -/
def Table.append? (key : String) (t : Table) : Option Table :=
  match t.find? key with
  | none => some (t.set key (.tables [] (.empty .header)))
  | some (.tables before last) => some (t.set key (.tables (before ++ [last]) (.empty .header)))
  | some _ => none

/-- A document and the path of its last header. -/
structure Document where
  root : Table
  current : List String

def Document.empty : Document := ⟨.empty .header, []⟩

def Document.add? (d : Document) : Statement → Option Document
  | .assign path key value =>
    (Table.at? false (Table.assign? path key value) d.current d.root).map fun root =>
      { d with root }
  | .header path key =>
    (Table.at? false (Table.define? key) path d.root).map fun root => ⟨root, path ++ [key]⟩
  | .tablesHeader path key =>
    (Table.at? false (Table.append? key) path d.root).map fun root => ⟨root, path ++ [key]⟩

/-- The table of the assignments between the braces of an inline table. -/
def inlineTable? (assignments : List (List String × String × Value)) : Option Value :=
  (assignments.foldlM (fun t (path, key, value) => Table.assign? path key value t)
    (Table.empty .header)).map Table.toValue

end ReportSql.Toml
