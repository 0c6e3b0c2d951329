import ReportSql.Catalog.Schema
import ReportSql.Text.Casing

/-!
Policies: which relations a statement may read and which functions it may not call. Names are
compared in lower case.
-/

namespace ReportSql.Gate

/-- Something a statement may not do. -/
inductive Operation where
  | insert
  | update
  | delete
  | merge
  | create
  | alter
  | drop
  | truncate
  | grant
  | revoke
  | copy
  /-- A SELECT that makes a table. -/
  | selectInto
  | lockingRead
  | function (name : String)
  /-- Any other statement, by its keyword. -/
  | command (keyword : String)
  deriving DecidableEq, Repr

namespace Operation

/-- What a statement that starts with a keyword does. -/
def ofKeyword (keyword : String) : Operation :=
  match Text.asciiUpper keyword with
  | "INSERT" => .insert
  | "UPDATE" => .update
  | "DELETE" => .delete
  | "MERGE" => .merge
  | "CREATE" => .create
  | "ALTER" => .alter
  | "DROP" => .drop
  | "TRUNCATE" => .truncate
  | "GRANT" => .grant
  | "REVOKE" => .revoke
  | "COPY" => .copy
  | other => .command other

def text : Operation → String
  | insert => "INSERT"
  | update => "UPDATE"
  | delete => "DELETE"
  | merge => "MERGE"
  | create => "CREATE"
  | alter => "ALTER"
  | drop => "DROP"
  | truncate => "TRUNCATE"
  | grant => "GRANT"
  | revoke => "REVOKE"
  | copy => "COPY"
  | selectInto => "SELECT INTO"
  | lockingRead => "locking read"
  | function name => "function " ++ name
  | command keyword => "command " ++ keyword

end Operation

structure Policy where
  /-- The schemas that a qualified name may give. -/
  allowedSchemas : List String
  forbiddenFunctions : List String
  /-- If these are given, a relation is one of them or is defined by the statement itself. -/
  knownTables : Option (List String)
  deriving DecidableEq, Repr

/-- Functions with effects besides their value. -/
def effectfulFunctions : List String := [
  "dblink", "dblink_exec", "lo_export", "lo_import", "nextval", "pg_advisory_lock",
  "pg_cancel_backend", "pg_ls_dir", "pg_read_binary_file", "pg_read_file", "pg_reload_conf",
  "pg_sleep", "pg_terminate_backend", "set_config", "setval"]

namespace Policy

def default : Policy where
  allowedSchemas := ["public"]
  forbiddenFunctions := effectfulFunctions
  knownTables := none

def allowSchemas (p : Policy) (schemas : List String) : Policy :=
  { p with allowedSchemas := schemas.map Text.lower }

def forbidFunctions (p : Policy) (functions : List String) : Policy :=
  { p with forbiddenFunctions := functions.map Text.lower }

/-- Allows only the tables of a schema. -/
def restrictTo (p : Policy) (schema : Catalog.Schema) : Policy :=
  { p with knownTables := some (schema.tables.map Catalog.Table.name) }

def forbidsFunction (p : Policy) (name : String) : Bool :=
  p.forbiddenFunctions.contains (Text.lower name)

def allowsTable (p : Policy) (table : String) : Bool :=
  match p.knownTables with
  | some known => known.contains table
  | none => true

/-- Whether a relation may be read, given by its name in lower case, the table last, and the names
that the statement defines. -/
def allowsRelation (p : Policy) (parts ctes : List String) : Bool :=
  match parts.reverse with
  | [] => false
  | [table] => ctes.contains table || p.allowsTable table
  | table :: schema :: _ => p.allowedSchemas.contains schema && p.allowsTable table

end Policy

end ReportSql.Gate
