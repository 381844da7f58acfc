/-!
# Operator spellings

The logical operators may be written `&&`, `||` and `!`. Before an expression is read they are
replaced by `and`, `or` and `not`, each between two spaces. A `!` directly in front of a `=` belongs
to `!=` and stays. Nothing changes inside a quoted text; a backslash there takes the next character
with it, so that an escaped quotation mark does not end the text.
-/

namespace Orchestration

namespace Expression

/-- Where in an expression the rewriting is. -/
inductive Place where
  /-- Outside of quoted texts. -/
  | code
  /-- Inside a text that the given mark ends. -/
  | quoted (mark : Char)
  /-- Right behind a backslash inside a text that the given mark ends. -/
  | escaped (mark : Char)
deriving DecidableEq, Repr

/-- Whether a character opens a quoted text. -/
def isMark (c : Char) : Bool := c = '\'' || c = '"'

/-- Rewrites the operators of what follows a place. -/
def rewriteFrom : Place → List Char → List Char
  | _, [] => []
  | .escaped mark, c :: rest => c :: rewriteFrom (.quoted mark) rest
  | .quoted mark, c :: rest =>
    c :: rewriteFrom (if c = '\\' then .escaped mark else if c = mark then .code else .quoted mark)
      rest
  | .code, '&' :: '&' :: rest => " and ".toList ++ rewriteFrom .code rest
  | .code, '|' :: '|' :: rest => " or ".toList ++ rewriteFrom .code rest
  | .code, '!' :: '=' :: rest => '!' :: '=' :: rewriteFrom .code rest
  | .code, '!' :: rest => " not ".toList ++ rewriteFrom .code rest
  | .code, c :: rest => c :: rewriteFrom (if isMark c then .quoted c else .code) rest

/-- Rewrites the operators of an expression. -/
def rewriteOperators (source : String) : String :=
  String.ofList (rewriteFrom .code source.toList)

end Expression

end Orchestration
