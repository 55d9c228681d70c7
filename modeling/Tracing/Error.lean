/-!
# Errors

Why a tracer cannot be built or stopped. Recording, sampling and exporting never fail with these: they
drop what they cannot handle and say so in the log.
-/

namespace Tracing

/-- Why a tracer could not be built, or did not stop. -/
inductive TracerError where
  | invalidConfig (reason : String)
  | transport (reason : String)
  /-- There is nothing that could run the flush worker. -/
  | noRuntime
  | shutdownTimeout
deriving DecidableEq, Repr

namespace TracerError

def kind : TracerError → String
  | invalidConfig _ => "InvalidConfig"
  | transport _ => "Transport"
  | noRuntime => "NoRuntime"
  | shutdownTimeout => "ShutdownTimeout"

def message : TracerError → String
  | invalidConfig reason => "Invalid configuration: " ++ reason
  | transport reason => "Failed to build transport: " ++ reason
  | noRuntime => "No tokio runtime available to run the flush worker"
  | shutdownTimeout => "Shutdown timeout exceeded"

end TracerError

end Tracing
