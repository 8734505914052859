/-!
# Errors of the proxy

## Main definitions

* `RZError`: the errors that the proxy reports
-/

namespace RzProxy

/-- The errors that the proxy reports. -/
inductive RZError
  | validation (msg : String)
  | roomzinUnreachable (addr : String)
  | timeout
  | internal (msg : String)
  | network (msg : String)
  deriving DecidableEq

end RzProxy
