/-! The ways in which a host function fails. -/
namespace ConsoleHost

inductive HostError where
  /-- A window that does not lie within a memory of `size` bytes. -/
  | outOfBounds (offset len : UInt32) (size : Nat)
  /-- Guest memory is needed before it is published. -/
  | memoryUnavailable
  /-- Reading or writing the console failed, for the reason given. -/
  | io (reason : String)
  deriving DecidableEq, Repr

namespace HostError

def message : HostError → String
  | outOfBounds offset len size =>
    s!"memory window [{offset}, {offset}+{len}) is out of bounds (memory size {size})"
  | memoryUnavailable => "guest memory has not been published to the host yet"
  | io reason => "console i/o failed: " ++ reason

/-- Only a bad window is the guest's own fault. -/
def isGuestFault : HostError → Bool
  | outOfBounds .. => true
  | _ => false

end HostError

/-- The kinds of input and output failure that have a text of their own. -/
inductive IoKind where
  | notFound
  | permissionDenied
  | brokenPipe
  | unexpectedEof
  | invalidData
  | interrupted
  | wouldBlock
  | timedOut
  | other
  deriving DecidableEq, Repr

def IoKind.text : IoKind → String
  | notFound => "entity not found"
  | permissionDenied => "permission denied"
  | brokenPipe => "broken pipe"
  | unexpectedEof => "unexpected end of file"
  | invalidData => "invalid data"
  | interrupted => "operation interrupted"
  | wouldBlock => "operation would block"
  | timedOut => "timed out"
  | other => "other error"

/-- An input or output failure: its kind, and a text that replaces that of the kind. -/
structure IoFailure where
  kind : IoKind
  detail : Option String := none
  deriving DecidableEq, Repr

def IoFailure.text (f : IoFailure) : String := f.detail.getD f.kind.text

def HostError.ofIo (f : IoFailure) : HostError := .io f.text

end ConsoleHost
