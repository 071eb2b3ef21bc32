/-
What operations report besides their results: messages of some severity from the part of the
library that they concern.
-/
import AuditTrail.Text.Basic

namespace AuditTrail

/-- How serious a report is. -/
inductive Severity where
  | debug
  | info
  | warning
  | error
  | critical
  deriving DecidableEq, Repr, Inhabited

namespace Severity

/-- The name of a severity. -/
def label : Severity → Text
  | .debug => "DEBUG".toList
  | .info => "INFO".toList
  | .warning => "WARNING".toList
  | .error => "ERROR".toList
  | .critical => "CRITICAL".toList

/-- The number of a severity, by which severities are compared. -/
def rank : Severity → Nat
  | .debug => 10
  | .info => 20
  | .warning => 30
  | .error => 40
  | .critical => 50

end Severity

/-- The part of the library that a report concerns. -/
inductive LogSource where
  | audit
  | config
  deriving DecidableEq, Repr, Inhabited

/-- The name of a source of reports. -/
def LogSource.label : LogSource → Text
  | .audit => "auditrecord.audit".toList
  | .config => "auditrecord.config".toList

/-- A report. -/
structure LogEntry where
  severity : Severity
  source : LogSource
  message : Text
  deriving DecidableEq, Repr

end AuditTrail
