import ReportSql.Gateway
import ReportSql.Plan.Json
import ReportSql.Proofs.AcceptedStatements
import ReportSql.Proofs.AsciiCase
import ReportSql.Proofs.BannedColumns
import ReportSql.Proofs.BoundPlaceholders
import ReportSql.Proofs.BoundValues
import ReportSql.Proofs.ByteSlices
import ReportSql.Proofs.CanceledLines
import ReportSql.Proofs.CheckedReports
import ReportSql.Proofs.ComparedNames
import ReportSql.Proofs.CompletedRows
import ReportSql.Proofs.DimensionNames
import ReportSql.Proofs.DirectJoins
import ReportSql.Proofs.EnclosedTexts
import ReportSql.Proofs.FoundRelations
import ReportSql.Proofs.JoinTrees
import ReportSql.Proofs.JoinedColumns
import ReportSql.Proofs.LastWeek
import ReportSql.Proofs.LoneExpressions
import ReportSql.Proofs.MetricTexts
import ReportSql.Proofs.NamedOutputs
import ReportSql.Proofs.NormalizedChecks
import ReportSql.Proofs.OrderedJoins
import ReportSql.Proofs.ReadPlaceholders
import ReportSql.Proofs.RefusedPlans
import ReportSql.Proofs.RegroupedConditions
import ReportSql.Proofs.ReplacedNodes
import ReportSql.Proofs.ReportedDays
import ReportSql.Proofs.ShortestPaths
import ReportSql.Proofs.StepsInOrder
import ReportSql.Proofs.TrendConditions
import ReportSql.Proofs.TrendWeeks
import ReportSql.Proofs.TrimmedTexts
import ReportSql.Settings.Json
import ReportSql.Settings.Toml
