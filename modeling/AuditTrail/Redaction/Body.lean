/-
Request bodies that may carry credentials. A body sent to an endpoint of account or user
administration is replaced as a whole if it mentions a password.
-/
import AuditTrail.Text.Basic

namespace AuditTrail.Redaction

/-- What stands for a body after redaction. -/
def bodyPlaceholder : Text := "__SENSITIVE__".toList

/-- The word whose presence makes a body sensitive. -/
def sensitiveWord : Text := "password".toList

/-- The roots of the security plugin's endpoints. -/
def securityRoots : List Text :=
  ["/_opendistro/_security/api/".toList, "/_plugins/_security/api/".toList]

/-- The beginnings of the names of the endpoints that administer accounts. -/
def accountEndpoints : List Text :=
  ["account".toList, "internalusers".toList, "user".toList]

/-- Whether a path leads to an endpoint that administers accounts. The path must be one line. -/
def isSensitivePath (path : Text) : Bool :=
  securityRoots.any fun root =>
    match Text.after? root path with
    | none => false
    | some rest =>
      accountEndpoints.any fun name =>
        match Text.after? name rest with
        | none => false
        | some tail => tail.all (· != '\n')

/-- Whether a body mentions a password. -/
def mentionsPassword (body : Text) : Bool := body.hasPiece sensitiveWord

/-- The body of a request, or the placeholder in its place. -/
def redactBody (path : Option Text) (body : Text) : Text :=
  if path.any isSensitivePath && mentionsPassword body then bodyPlaceholder else body

end AuditTrail.Redaction
