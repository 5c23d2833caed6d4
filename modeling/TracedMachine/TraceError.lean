/-!
# TraceError

Why a request to a profiler is refused or fails.
-/

namespace TracedMachine

/-- Why bytes do not reach where they are written to, or cannot be read. -/
inductive OutputFault where
  /-- There is no more room. -/
  | full
  /-- No more bytes are taken, without a reason. -/
  | stalled
  /-- What was taken cannot be brought to its place. -/
  | flushRefused
  /-- There is no such file or directory. -/
  | notFound
  /-- A directory stands where a file is needed. -/
  | isDirectory
  /-- A file stands where a directory is needed. -/
  | notDirectory
  /-- A name or a path is longer than it can be. -/
  | nameTooLong
  /-- A path holds the character that ends paths. -/
  | nulInName
  /-- Any other reason, in words. -/
  | other (reason : String)
deriving DecidableEq, Repr

/-- The fault in words. -/
def OutputFault.message : OutputFault → String
  | full => "disk full"
  | stalled => "failed to write whole buffer"
  | flushRefused => "flush refused"
  | notFound => "No such file or directory (os error 2)"
  | isDirectory => "Is a directory (os error 21)"
  | notDirectory => "Not a directory (os error 20)"
  | nameTooLong => "File name too long (os error 36)"
  | nulInName => "file name contained an unexpected NUL byte"
  | other reason => reason

/-- Why a request to a profiler is refused or fails. -/
inductive TraceError where
  | alreadyTracing
  | notTracing
  | notCounting
  | bufferTooSmall (size minimum : Nat)
  | output (fault : OutputFault)
deriving DecidableEq, Repr

/-- The error in words. -/
def TraceError.message : TraceError → String
  | alreadyTracing => "method tracing is already active"
  | notTracing => "tracing is not active"
  | notCounting => "instruction counting is not active"
  | bufferTooSmall size minimum =>
    s!"trace buffer of {size} bytes is below the minimum of {minimum}"
  | output fault => s!"trace output failed: {fault.message}"

end TracedMachine
