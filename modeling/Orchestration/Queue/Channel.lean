/-!
# Channels

Messages travel on four channels. Notifications are announcements to whoever listens; nobody
consumes them.
-/

namespace Orchestration

inductive Channel where
  | work
  | results
  | deployments
  | notifications
deriving DecidableEq, Repr, Inhabited

namespace Channel

def text : Channel → String
  | .work => "work"
  | .results => "results"
  | .deployments => "deployments"
  | .notifications => "notifications"

def all : List Channel := [.work, .results, .deployments, .notifications]

def ofText? (s : String) : Option Channel := all.find? fun c => c.text = s

theorem mem_all (c : Channel) : c ∈ all := by cases c <;> decide

end Channel

end Orchestration
