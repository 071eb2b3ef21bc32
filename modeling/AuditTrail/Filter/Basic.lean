/-
The filter of an audited event: whether the authorization header is dropped, whether request
bodies are recorded, and the wildcard patterns of the headers to drop and the parameters to mask.
-/
import AuditTrail.Text.Glob
import AuditTrail.Text.Lower

namespace AuditTrail

/-- What may be recorded of a request. -/
structure Filter where
  excludeSensitiveHeaders : Bool
  logRequestBody : Bool
  ignoreHeaders : List Text
  ignoreUrlParams : List Text
  deriving DecidableEq, Repr

namespace Filter

/-- The filter that holds where nothing is configured. -/
def standard : Filter := ⟨true, true, [], []⟩

/-- Whether a header is dropped: letter case does not matter. -/
def excludesHeader (f : Filter) (name : Text) : Bool :=
  let lowered := Text.lower name
  f.ignoreHeaders.any fun pattern => Glob.covers (Text.lower pattern) lowered

/-- Whether the value of a parameter is masked: letter case matters. -/
def excludesUrlParam (f : Filter) (name : Text) : Bool :=
  f.ignoreUrlParams.any fun pattern => Glob.covers pattern name

end Filter

end AuditTrail
