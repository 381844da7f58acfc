import Orchestration.Proofs.Collaborators

/-!
# The chains of reachable runs

What the invariant says to whoever looks at the store. A run whose stop conditions name no step but
their own, and say the same whenever they are evaluated, goes through its chain from the first step
to the last, one step at a time: behind a certain step everything is completed or skipped, and
before it nothing has happened yet. So no two of its steps are ever running, and whatever was handed
over for one of its steps was handed over for one attempt after the other.

Nothing is asked of other runs, of the results that arrive, or of the queue, the catalogs and the
functions. Only the store is taken at its word.
-/

namespace Orchestration

namespace Engine

open Chain

theorem ChainStands.eq_of_running {cs : List StepInstance} (h : ChainStands cs)
    (hcs : (cs.map (·.uid)).Nodup) {x y : StepInstance} (hx : x ∈ cs) (hy : y ∈ cs)
    (hxr : x.runStatus = .running) (hyr : y.runStatus = .running) : x = y := by
  obtain ⟨u, hu⟩ := h.stands
  exact List.inj_on_of_nodup_map hcs hx hy
    ((hu.eq_of_running hx hxr).trans (hu.eq_of_running hy hyr).symm)

end Engine

end Orchestration
