import ReportSql.Catalog.Basic
import ReportSql.Join.Path
import ReportSql.Plan.Basic

/-!
Why a plan cannot be made into a report.
-/

namespace ReportSql.Report

inductive TrendFault where
  | noAnchor (table : String)
  | notASum (metric : String)
  | notJoined (table line : String)
  deriving DecidableEq, Repr

def TrendFault.reason : TrendFault → String
  | .noAnchor table => table ++ " has no anchor table"
  | .notASum metric => "metric " ++ metric ++ " is not a plain SUM"
  | .notJoined table line => table ++ " is not directly joined to " ++ line

inductive Fault where
  | lookup (fault : Catalog.LookupFault)
  | plan (fault : Plan.Fault)
  | join (fault : Join.Fault)
  | missingDateColumn (table : String)
  | missingScopeColumn (table : String)
  | unsupportedTrend (fault : TrendFault)
  deriving DecidableEq, Repr

def Fault.message : Fault → String
  | .lookup fault => fault.message
  | .plan fault => fault.message
  | .join fault => fault.message
  | .missingDateColumn table => "no date column configured for base table '" ++ table ++ "'"
  | .missingScopeColumn table => "table '" ++ table ++ "' has no tenant scoping column"
  | .unsupportedTrend fault => "trend query not supported: " ++ fault.reason

def lookup {α : Type} (e : Except Catalog.LookupFault α) : Except Fault α := e.mapError .lookup

end ReportSql.Report
