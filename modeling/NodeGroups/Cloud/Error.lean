/-!
# Errors of the cloud

What a cloud reports for a call that it does not carry out. Retries and authentication are over
by then: an error that arrives here is final.
-/

namespace NodeGroups

/-- Why the cloud did not carry out a call, with its own description. -/
inductive CloudError
  /-- The scale set or an instance does not exist. -/
  | notFound (detail : String)
  /-- The call conflicts with an operation that is already under way. -/
  | conflict (detail : String)
  /-- The cloud refuses the request. -/
  | rejected (detail : String)
  /-- The cloud cannot serve the request now. -/
  | unavailable (detail : String)
  deriving DecidableEq, Repr

def CloudError.message : CloudError → String
  | notFound detail => "resource not found: " ++ detail
  | conflict detail => "conflicting operation: " ++ detail
  | rejected detail => "request rejected: " ++ detail
  | unavailable detail => "service unavailable: " ++ detail

end NodeGroups
