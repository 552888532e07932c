import StumpGen.Trace.Event

/-!
# Calls to a tracer

Code that is traced opens spans, gives them remarks, closes them, and marks what happens at once.
All that is left of it for a tracer is the list of these calls, in the order in which they are
made, on whatever way the code is left.

A span stays with the code that opened it.  Work that is started inside it gets a `Context`, and
opens its own spans there.
-/

namespace StumpGen.Trace

/-- Code that opens spans.  It has one span at a time, the last one that it opened. -/
inductive Holder where
  /-- A job, from its input to its output. -/
  | job
  /-- A compilation, in one of its passes. -/
  | pass
  /-- The lowering of a function. -/
  | function
  deriving DecidableEq, Repr, Inhabited

/-- The holders of the spans that some work is done in, the innermost first. -/
abbrev Context := List Holder

/-- A call to a tracer. -/
inductive Call where
  /-- The holder opens a span in a context. -/
  | opening (holder : Holder) (scope : Scope) (name : Text) (context : Context)
  /-- The holder gives its span a keyed remark. -/
  | annotating (holder : Holder) (key value : Text)
  /-- The holder closes its span. -/
  | closing (holder : Holder) (detail : Text)
  /-- Something happens at once in the holder's span. -/
  | point (holder : Holder) (scope : Scope) (name detail : Text)
  deriving DecidableEq, Repr, Inhabited

/-- The call as it is made by work that is done in an outer context. -/
def Call.within (outer : Context) : Call → Call
  | .opening holder scope name context => .opening holder scope name (context ++ outer)
  | .annotating holder key value => .annotating holder key value
  | .closing holder detail => .closing holder detail
  | .point holder scope name detail => .point holder scope name detail

end StumpGen.Trace
