/-!
# What can be wrong with an expression

A fault is what an expression is refused for, when it is read (the first two) or when it is
evaluated (the others).
-/

namespace Orchestration

namespace Expression

/-- What an expression is refused for. -/
inductive Fault where
  | wrongSyntax
  | badEscape
  | invalidOperation
  | undefinedValue
  | unknownFunction
  | unknownFilter
  | unknownTest
  | unknownMethod
  | tooManyArguments
  | missingArgument
deriving DecidableEq, Repr

def Fault.message : Fault → String
  | .wrongSyntax => "syntax error"
  | .badEscape => "bad string escape"
  | .invalidOperation => "invalid operation"
  | .undefinedValue => "undefined value"
  | .unknownFunction => "unknown function"
  | .unknownFilter => "unknown filter"
  | .unknownTest => "unknown test"
  | .unknownMethod => "unknown method"
  | .tooManyArguments => "too many arguments"
  | .missingArgument => "missing argument"

end Expression

end Orchestration
