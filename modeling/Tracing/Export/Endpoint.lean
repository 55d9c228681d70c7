import Tracing.Error
import Tracing.Export.Delivery
import Tracing.Export.Url

/-!
# The endpoint of the collector

Payloads are posted to an address that must be an absolute URL over HTTP.
-/

namespace Tracing

/-- The address of a collector. -/
def readEndpoint (endpoint : String) : Except TracerError Url :=
  match Url.read endpoint.toList with
  | .error e => .error (.invalidConfig ("trace endpoint `" ++ endpoint ++ "`: " ++ e.message))
  | .ok url =>
    if url.scheme = "http" ∨ url.scheme = "https" then .ok url
    else .error (.invalidConfig ("unsupported trace endpoint scheme `" ++ url.scheme ++ "`"))

/-- The first line of the request for a payload. -/
def requestLine (url : Url) : String := "POST " ++ url.target ++ " HTTP/1.1"

end Tracing
