import Orchestration.Config

/-!
# The setup of an engine

What an engine is told when it is set up, and never changes afterwards.
-/

namespace Orchestration

namespace Engine

structure Setup where
  settings : RunnerSettings
  mode : DispatchMode
  /-- The address at which functions that are called directly answer. -/
  callbackUrl : String
  /-- How many sub-workflows may start one another before the engine gives up. The engine sets no
  limit of its own, and this one is beyond what any machine has room for. -/
  nesting : Nat := 1000000000000000000
deriving DecidableEq, Repr, Inhabited

/-- The setup that a configuration asks for. -/
def Setup.ofConfig (c : AppConfig) : Setup :=
  { settings := c.settings, mode := c.dispatchMode, callbackUrl := c.callbackUrl }

end Engine

end Orchestration
