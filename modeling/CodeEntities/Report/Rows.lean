import CodeEntities.Outline.Summary
import CodeEntities.Parsing.Session
import CodeEntities.Report.Table

namespace CodeEntities

namespace EntitySummary

def row (s : EntitySummary) : List String := [
  s.kind.name, s.name, toString s.startLine ++ "-" ++ toString s.endLine,
  if s.isExported then "yes" else ""]

end EntitySummary

def grammarStatus (grammar : Option Grammar) : String := (grammar.map (·.describe)).getD "-"

namespace Language

def row (l : Language) (grammar : Option Grammar) : List String := [
  l.name, Text.join ", " l.extensions, l.grammarPackage.getD "-", grammarStatus grammar]

end Language

namespace Table

def ofEntities (summaries : List EntitySummary) : Table where
  header := ["Kind", "Name", "Lines", "Exported"]
  rows := summaries.map (·.row)

def ofLanguages (rows : List (List String)) : Table where
  header := ["Language", "Extensions", "Grammar", "Status"]
  rows := rows

def ofStatistics (figures : List (String × String)) : Table where
  header := ["Metric", "Value"]
  rows := figures.map fun (metric, value) => [metric, value]

end Table

end CodeEntities
