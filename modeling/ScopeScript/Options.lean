/-!
# Options

How scripts are scanned and run. Options are plain values that are handed to a
scanner or a machine; where they come from is the business of
`ScopeScript.Settings`.
-/

namespace ScopeScript

/-- How scripts are scanned and run. -/
structure Options where
  /-- Keep a trace of scanning and running. -/
  debug : Bool := false
  /-- Run the bodies of functions that scripts declare. -/
  invokeFunctions : Bool := false
  /-- How many calls may be under way at once, at least one. -/
  maxCallDepth : Nat := 256
deriving DecidableEq, Repr

end ScopeScript
