import Stencil.Fault
import Stencil.ScriptError

/-!
# Failures

An evaluation fails with a script error, which says where in the templates
something went wrong, or with a fault that nobody reported: one in the host, or
one that no rule of the evaluator turns into a script error. An evaluation that
took more steps than it was given fails as well, and that is no statement about
the template.
-/

namespace Stencil

/-- How an evaluation fails. -/
inductive Failure where
  | script (e : ScriptError)
  | fault (e : Fault)
  | exhausted
deriving DecidableEq

/-- A fault as a failure. An object may answer with a script error. -/
def Failure.ofFault : Fault → Failure
  | .refused reason => .script { cause := .reported .runtime reason none [] }
  | e => .fault e

/-- What a failure says. -/
def Failure.message : Failure → String
  | .script e => e.message
  | .fault e => e.message
  | .exhausted => ""

end Stencil
