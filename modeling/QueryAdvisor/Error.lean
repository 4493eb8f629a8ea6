/-!
# Why an analysis fails

An analysis fails for one of four causes: an argument it cannot work with, a run that took
longer than its budget, information that could not be taken from the query model, or a
configuration text that could not be read. Only the third is one an advisor may step over:
with the policy to degrade, the advisor notes it and goes on without the part of the query it
concerns.
-/

namespace QueryAdvisor

/-- Why an analysis fails. -/
inductive AdviceError where
  | invalidArgument (detail : String)
  | timeoutExceeded (elapsedMs budgetMs : Nat)
  | extraction (detail : String)
  | configuration (detail : String)
deriving DecidableEq, Repr

namespace AdviceError

/-- The words of a failure. -/
def message : AdviceError → String
  | .invalidArgument d => "Invalid argument: " ++ d
  | .timeoutExceeded e b => "Analysis took " ++ toString e ++ "ms, exceeding the " ++ toString b ++ "ms budget"
  | .extraction d => "Extraction failed: " ++ d
  | .configuration d => "Configuration error: " ++ d

/-- The name of the cause. -/
def kind : AdviceError → String
  | .invalidArgument _ => "InvalidArgument"
  | .timeoutExceeded _ _ => "TimeoutExceeded"
  | .extraction _ => "Extraction"
  | .configuration _ => "Configuration"

/-- Whether an advisor may step over the failure. -/
def isRecoverable : AdviceError → Bool
  | .extraction _ => true
  | _ => false

end AdviceError

end QueryAdvisor
