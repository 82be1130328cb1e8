import DeviceScript.Reporting.JUnit
import DeviceScript.Reporting.Json
import DeviceScript.Reporting.Plain

/-! Reports in any form. -/

namespace DeviceScript

/-- The report on finished runs. Style matters to the plain form only. -/
def ReportFormat.render (f : ReportFormat) (style : PlainReport.Style) (rs : List FinishedRun)
    (st : RunStats) : Text :=
  match f with
  | plain => PlainReport.render style rs st
  | json => JsonReport.render rs st
  | junit => JUnitReport.render rs

end DeviceScript
