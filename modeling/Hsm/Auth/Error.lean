import Hsm.Lib.Clock

/-! Errors of authentication and the clocks its components read. -/

namespace Hsm.Auth

inductive AuthError where
  | invalidCertificate (reason : String)
  | permissionDenied (reason : String)
  | namespaceAccessDenied (name : String)
  | invalidSession (reason : String)
  | sessionExpired
  | rateLimitExceeded (reason : String)
  | rateLimited
  | unauthorized (reason : String)
  | internal (reason : String)
  deriving DecidableEq, Repr

structure Clocks where
  steady : Instant
  system : Int
  deriving DecidableEq, Repr

def Clocks.since (now : Clocks) (earlier : Instant) : Span := max 0 (now.steady - earlier)

end Hsm.Auth
