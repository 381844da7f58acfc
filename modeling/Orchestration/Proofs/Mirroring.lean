import Orchestration.Proofs.RefusedResults
import Orchestration.Proofs.Serving

/-!
# Records that mirror a stage

What the records of a run look like at each stage of the interpreter, given that the collaborators
take whatever is handed over. While an answer is awaited the chain shows the course and the current
step is running. When the run has ended no step is running.

The engine then makes the same progress as the interpreter: asking for a part
(`ShowsCourse.reaches_ask`), ending (`Knows.reaches_end`), and going on with an answer that has been
written (`ShowsCourse.reaches_take`). Each lemma says of one piece of the engine what the function
of the same name says in the interpreter.
-/

namespace Orchestration

namespace Engine

open Chain

variable {k : Collaborators} {setup : Setup} {R : Rule} {s s' : Scene} {t : Store.Tables}
variable {run : Uid} {c : Course} {before after : List StepInstance} {x y : StepInstance}
variable {r : Except EngineError Unit}

/-! ## Following links -/

theorem step?_of_linked (ht : t.Keyed) {b : StepInstance}
    (hchain : t.chainOf run = before ++ b :: after) (hlinked : Linked (before ++ b :: after)) :
    b.nextStepId.bind t.step? = after.head? := by
  rw [hlinked.next]
  cases after with
  | nil => rfl
  | cons n rest =>
    have hn : n ∈ t.chainOf run := by
      rw [hchain]
      simp
    exact ht.step?_iff.2 ⟨(Store.Tables.mem_chainOf.1 hn).1, rfl⟩

theorem ShowsCourse.finds_nextStep (h : ShowsCourse t run c before x after) (ht : t.Keyed) :
    Finds t (nextStep x) (c.current.stops.map fun stops ↦ if stops then after.head? else
      some x) := by
  have hlink := step?_of_linked ht h.chain h.linked
  rcases h.current.shape_cases with ⟨f, hshape, hp⟩ | ⟨f, text, hshape, hp⟩ |
    ⟨expression, cases, functions, hshape, -, hp⟩
  · rw [nextStep_of_not_loop (by simp [hshape]), Part.stops_of_not_loop (by simp [hp])]
    exact finds_followLink.2 (congrArg Except.ok hlink.symm)
  · have hself := (h.fits.1.loop f text hp).1
    rw [nextStep_of_loop hshape, evaluateStop_eq hself, h.current.stops_eq hshape hself]
    cases c.current.stops with
    | error e => exact finds_bind.2 (.inl ⟨e, finds_ofExcept.2 rfl, rfl⟩)
    | ok stops =>
      refine finds_bind.2 (.inr ⟨stops, finds_ofExcept.2 rfl, ?_⟩)
      cases stops with
      | true => exact finds_followLink.2 (congrArg Except.ok hlink.symm)
      | false => exact finds_pure.2 rfl
  · rw [nextStep_of_not_loop (by simp [hshape]), Part.stops_of_not_loop (by simp [hp])]
    exact finds_followLink.2 (congrArg Except.ok hlink.symm)

/-- A step that has been left looks unfollowed only if the current step comes next and is new. -/
theorem ShowsCourse.next_of_unfollowed (h : ShowsCourse t run c before x after) (ht : t.Keyed)
    {b : StepInstance} (hb : b ∈ before) (hopen : Unfollowed t b) :
    Finds t (nextStep b) (.ok (some x)) ∧ x.runStatus = .new := by
  obtain ⟨first, between, rfl⟩ := List.append_of_mem hb
  have hleft := h.left b hb
  have hassoc : first ++ b :: between ++ x :: after =
      first ++ b :: (between ++ x :: after) := by simp
  have hguided := h.guided b (List.mem_append_left _ hb)
  have hlink := step?_of_linked ht (hassoc ▸ h.chain) (hassoc ▸ h.linked)
  have hcs := ht.nodup_chainOf run
  rw [h.chain] at hcs
  -- What has been left is followed by the step that it names.
  obtain ⟨o, ho⟩ := reads_nextStep b t
  have hnext : o = .ok (between ++ x :: after).head? := by
    rcases finds_nextStep_of_selfGuided hguided ho with ⟨-, hns⟩ | ⟨hr, -⟩ | ⟨-, hns⟩
    · exact absurd hleft.stops hns
    · rw [hr, hlink]
    · exact absurd hleft.stops hns
  rw [hnext] at ho
  have hself : ∀ n ∈ between ++ x :: after, n.uid ≠ b.uid := by
    intro n hn hu
    rw [hassoc, List.map_append, List.map_cons, List.nodup_middle, List.nodup_cons] at hcs
    exact hcs.1 (List.mem_append_right _ (List.mem_map.2 ⟨n, hn, hu⟩))
  cases hopen with
  | failed hfailed => rcases hleft.status with hs | hs <;> simp [hs] at hfailed
  | ended hsucc hn =>
    cases between with
    | nil => cases hn.unique ho
    | cons z rest => cases hn.unique ho
  | misconfigured hsucc e hn he => cases hn.unique ho
  | unlaunched hsucc n hn hnew =>
    have hhead : some n = (between ++ x :: after).head? := Except.ok.inj (hn.unique ho)
    have hnew : n.runStatus = .new :=
      hnew.resolve_left (hself n (List.mem_of_head? hhead.symm))
    cases between with
    | nil =>
      obtain rfl : n = x := Option.some.inj hhead
      exact ⟨ho, hnew⟩
    | cons z rest =>
      obtain rfl : n = z := Option.some.inj hhead
      exact absurd hnew (h.left n (by simp)).ne_new

/-! ## What is mirrored -/

/-- The record of a run shows a stage. The run was started by no other one. -/
structure ShowsRun (q : WorkflowInstance) (stage : Stage) : Prop where
  status : q.runStatus = stage.status
  output : q.outputData = stage.output
  failure : failureText? q.errorMessages = stage.failure?.map Failure.text
  parent : q.parentInstanceUid = none

/-- The functions of what is still to be taken of a course can be called. -/
def Collaborators.ServesCourse (k : Collaborators) (setup : Setup) (c : Course) : Prop :=
  ∀ p ∈ c.current :: c.todo, ∀ f ∈ p.activity.functions, k.Serves setup f

/-- What the steps of a run look like at a stage. -/
def StageShown (k : Collaborators) (setup : Setup) (t : Store.Tables) (run : Uid) : Stage → Prop
  | .waiting c => k.ServesCourse setup c ∧ ∃ before x after, ShowsCourse t run c before x after ∧
      x.runStatus = .running ∧ ∃ f, c.current.function c.done = .ok f
  | .ended status _ _ => status.isTerminal = true ∧ ∀ y ∈ t.chainOf run, y.runStatus ≠ .running

/-- The records know a run that has been made since some identifiers were given out, and the results
that have been handled: each was one of an attempt that is over. -/
structure Knows (issued : List Uid) (run : Uid) (handled : List StepResult) (t : Store.Tables) :
    Prop where
  keyed : t.Keyed
  own : ∀ y ∈ t.steps, y.uid ∉ issued → y.workflowInstanceUid = run
  handled : ∀ m ∈ handled, ∃ y ∈ t.chainOf run, y.uid = m.stepInstanceId ∧
    ∀ n, m.attempt = some n → 1 ≤ n ∧ n ≤ y.runCount

/-- The records mirror a stage. -/
structure Mirrors (k : Collaborators) (setup : Setup) (issued : List Uid) (run : Uid)
    (handled : List StepResult) (t : Store.Tables) (stage : Stage) : Prop where
  knows : Knows issued run handled t
  record : ∃ q, t.run? run = some q ∧ ShowsRun q stage
  shown : StageShown k setup t run stage

/-- The attempt that a run waits for at a stage is the one that was dispatched last. -/
def AwaitsLast (t : Store.Tables) (ds : List Dispatch) (stage : Stage) : Prop :=
  ∀ c, stage = .waiting c →
    ∃ d, ds.getLast? = some d ∧ t.step? d.step.uid = some d.step ∧ d.step.runStatus = .running

/-- From one scene to another the engine makes the progress that the interpreter makes. -/
structure Reaches (k : Collaborators) (setup : Setup) (issued : List Uid) (run : Uid)
    (handled : List StepResult) (s s' : Scene) (progress : Progress) : Prop where
  made : s'.made = s.made
  asked : ∃ ds : List Dispatch, s'.handOvers = s.handOvers ++ ds.map setup.parcelOf ∧
    List.Forall₂ k.Asks ds progress.1 ∧ (∀ d ∈ ds, d.step.workflowInstanceUid = run) ∧
    AwaitsLast s'.tables ds progress.2
  mirrors : Mirrors k setup issued run handled s'.tables progress.2

variable {issued : List Uid} {handled : List StepResult} {q : WorkflowInstance}

/-! ## Changing records -/

theorem Knows.putRun (h : Knows issued run handled t) (q : WorkflowInstance) :
    Knows issued run handled (t.putRun q) := ⟨h.keyed.putRun q, h.own, h.handled⟩

theorem Knows.putStep (h : Knows issued run handled t) (hx : x ∈ t.steps) (hsame : SameStep x y)
    (hcount : x.runCount ≤ y.runCount) : Knows issued run handled (t.putStep y) where
  keyed := h.keyed.putStep hx hsame.run
  own z hz hi := by
    rcases Store.mem_overwrite hz with rfl | ⟨hz, -⟩
    · rw [hsame.run]
      exact h.own x hx (hsame.uid ▸ hi)
    · exact h.own z hz hi
  handled m hm := by
    obtain ⟨z, hz, hu, hn⟩ := h.handled m hm
    rw [h.keyed.chainOf_putStep hx hsame.uid hsame.run]
    by_cases hzu : z.uid = y.uid
    · obtain rfl := h.keyed.eq_of_step (Store.Tables.mem_chainOf.1 hz).1 hx (hzu.trans hsame.uid)
      refine ⟨y, Store.mem_overwrite_self hz hzu, hzu.symm.trans hu, fun n hmn ↦ ?_⟩
      obtain ⟨hpos, hle⟩ := hn n hmn
      exact ⟨hpos, Int.le_trans hle hcount⟩
    · exact ⟨z, Store.mem_overwrite_of_ne hz hzu, hu, hn⟩

theorem Course.Fits.update (h : c.Fits) {p : Part} (hname : p.name = c.current.name)
    (hactivity : p.activity = c.current.activity) (hinput : p.input = c.current.input) :
    ({ c with current := p } : Course).Fits := by
  obtain ⟨hcurrent, hrest⟩ := h
  refine ⟨⟨hinput ▸ hcurrent.input, ?_, ?_⟩, ?_⟩
  · rw [hactivity]
    exact hcurrent.loop
  · rw [hactivity]
    exact hcurrent.choice
  · rw [hname]
    exact hrest

theorem ShowsCourse.mem (h : ShowsCourse t run c before x after) :
    x ∈ t.steps ∧ x.workflowInstanceUid = run := by
  refine Store.Tables.mem_chainOf.1 ?_
  rw [h.chain]
  simp

/-- The current step may change its state, and shows then what has become of the part. -/
theorem ShowsCourse.putStep (h : ShowsCourse t run c before x after) (ht : t.Keyed)
    (hsame : SameStep x y) {p : Part} (hp : Shows y p) (hname : p.name = c.current.name)
    (hactivity : p.activity = c.current.activity) (hinput : p.input = c.current.input)
    (hcounted : 0 ≤ p.answers) :
    ShowsCourse (t.putStep y) run { c with current := p } before y after where
  chain := by
    have hcs := ht.nodup_chainOf run
    rw [ht.chainOf_putStep h.mem.1 hsame.uid hsame.run]
    rw [h.chain] at hcs ⊢
    exact overwrite_middle hcs hsame.uid
  linked := by
    refine h.linked.congr ?_
    simp [hsame.uid, hsame.next]
  done := h.done
  current := hp
  todo := h.todo
  left := h.left
  fresh := h.fresh
  guided z hz := by
    rcases List.mem_append.1 hz with hz | hz
    · exact h.guided z (List.mem_append_left _ hz)
    · rcases List.mem_cons.1 hz with rfl | hz
      · rw [hsame.shape]
        exact h.guided x (by simp)
      · exact h.guided z (by simp [hz])
  counted := hcounted
  fits := h.fits.update hname hactivity hinput

/-! ## Ending -/

theorem ShowsRun.ended (h : ShowsRun q (.waiting c)) (status : RunStatus) (failure : Option Failure)
    (output : Option Json.Object) (time : Instant) :
    ShowsRun (endedRun q status failure output time)
      (.ended status ((finalOutput? status output).getD []) failure) where
  status := rfl
  output := by
    show (finalOutput? status output).getD q.outputData = _
    rw [h.output]
    rfl
  failure := by
    have hnone : q.errorMessages = [] := by
      have hfailure := h.failure
      unfold failureText? at hfailure
      split at hfailure
      · next hempty => exact List.isEmpty_iff.1 hempty
      · cases hfailure
    cases failure with
    | none => exact congrArg failureText? hnone
    | some f =>
      show failureText? (Dict.insert f.step f.reason q.errorMessages) = some f.text
      rw [hnone]
      rfl
  parent := h.parent

theorem Knows.reaches_end (h : Knows issued run handled s.tables)
    (hq : s.tables.run? run = some q) (hshows : ShowsRun q (.waiting c))
    (hidle : ∀ y ∈ s.tables.chainOf run, y.runStatus ≠ .running) {status : RunStatus}
    (hstatus : status.isTerminal = true) {failure : Option Failure} {output : Option Json.Object}
    (hrun : Runs R (setup.terminate run status failure output) s r s') :
    Reaches k setup issued run handled s s'
      ([], .ended status ((finalOutput? status output).getD []) failure) := by
  have hnt : q.runStatus.isTerminal = false := by
    rw [hshows.status]
    rfl
  obtain ⟨time, rfl⟩ := runs_terminate_of_no_parent h.keyed hq hnt hshows.parent hrun
  obtain ⟨-, hqu⟩ := Store.Tables.mem_of_run? hq
  refine ⟨rfl, ⟨[], by simp [Scene.handOvers], .nil, by simp, fun c hc ↦ nomatch hc⟩, ?_⟩
  exact ⟨h.putRun _, ⟨_, h.keyed.run?_putRun hq hqu, hshows.ended _ _ _ _⟩, hstatus, hidle⟩

/-! ## Asking -/

/-- **Launching the current step asks for the part.** A step that has been launched before has a
function to call, as it had then. -/
theorem ShowsCourse.reaches_ask (h : ShowsCourse s.tables run c before x after)
    (hknows : Knows issued run handled s.tables) (hq : s.tables.run? run = some q)
    (hshows : ShowsRun q (.waiting c)) (hk : k.ServesCourse setup c)
    (hagain : x.Fresh ∨ ∃ f, c.current.function c.done = .ok f) {startChild : StartChild}
    (hrun : Runs k.rule (setup.launch startChild x) s r s') {p : Progress} (hask : c.ask = some p) :
    Reaches k setup issued run handled s s' p := by
  have ht := hknows.keyed
  obtain ⟨hmem, hown⟩ := h.mem
  have hx := ht.step?_iff.2 ⟨hmem, rfl⟩
  have hfresh : ∀ {e}, c.current.function c.done = .error e → x.Fresh := by
    intro e he
    refine hagain.resolve_right fun ⟨f, hf⟩ ↦ ?_
    rw [he] at hf
    cases hf
  unfold Course.ask at hask
  rcases h.runs_launch ht hx hown (hk _ List.mem_cons_self) hrun with
    ⟨f, d, hf, hinfo, ⟨hinput, time, name, hd⟩, rfl⟩ | ⟨e, he, hfail⟩
  · rw [hf] at hask
    obtain rfl := Option.some.inj hask
    have hsame : SameStep x d.step := by
      rw [hd]
      exact ⟨rfl, rfl, rfl, rfl, rfl⟩
    have hcount : d.step.runCount = x.runCount := by rw [hd]; rfl
    have hpart : Shows d.step c.current := by
      rw [hd]
      exact ⟨h.current.name, h.current.activity, h.current.input, h.current.output,
        h.current.answers, h.current.retries⟩
    have hstep : (s.tables.putStep d.step).step? d.step.uid = some d.step := by
      rw [hsame.uid]
      exact ht.step?_putStep hx hsame.uid hsame.run
    refine ⟨rfl, ⟨[d], s.handOvers_dispatched setup d, ?_, ?_, ?_⟩, ?_, ⟨q, hq, hshows⟩, ?_⟩
    · refine .cons ⟨hpart.name, hinfo, ?_, hinput.trans h.current.input⟩ .nil
      show d.step.runCount + 1 = _
      rw [hcount, h.current.answers]
    · intro d' hd'
      rw [List.mem_singleton.1 hd', hsame.run, hown]
    · exact fun _ _ ↦ ⟨d, rfl, hstep, by rw [hd]; rfl⟩
    · exact hknows.putStep hmem hsame (Int.le_of_eq hcount.symm)
    · exact ⟨hk, before, d.step, after, h.putStep ht hsame hpart rfl rfl rfl h.counted,
        by rw [hd]; rfl, f, hf⟩
  · rw [he] at hask
    obtain ⟨hvalue, rfl⟩ := Course.fault_eq_some hask
    have hfail := hfail.resolve_right hvalue
    rw [← h.current.name]
    refine hknows.reaches_end hq hshows (fun y hy ↦ ?_) rfl hfail
    rw [h.chain] at hy
    rcases List.mem_append.1 hy with hy | hy
    · exact (h.left y hy).ne_running
    · rcases List.mem_cons.1 hy with rfl | hy
      · exact (hfresh he).ne_running
      · exact (h.fresh y hy).ne_running

/-! ## Going on -/

theorem ShowsCourse.next {n : StepInstance} {rest : List StepInstance}
    (h : ShowsCourse t run c before x (n :: rest))
    (hsucc : x.runStatus = .completed ∨ x.runStatus = .skipped)
    (hstops : c.current.stops = .ok true)
    {p : Part} {todo : List Part} (htodo : c.todo = p :: todo) :
    ShowsCourse t run ⟨c.done ++ [c.current], p, todo⟩ (before ++ [x]) n rest := by
  have hassoc : before ++ x :: n :: rest = before ++ [x] ++ n :: rest := by simp
  have hparts := h.todo
  rw [htodo] at hparts
  cases hparts with
  | cons hn hrest =>
    have hleft : x.Left := by
      refine ⟨hsucc, fun f text hshape ↦ ?_⟩
      rcases h.current.shape_cases with ⟨f', hs, hp⟩ | ⟨f', text', hs, hp⟩ |
        ⟨expression, cases, functions, hs, -, hp⟩
      · rw [hs] at hshape
        cases hshape
      · obtain ⟨rfl, rfl⟩ : f' = f ∧ text' = text := by simpa [hs] using hshape
        rw [h.current.stops_eq hs (h.fits.1.loop _ _ hp).1, hstops]
      · rw [hs] at hshape
        cases hshape
    refine ⟨h.chain.trans hassoc, hassoc ▸ h.linked, ?_, hn, hrest, fun b hb ↦ ?_,
      fun a ha ↦ h.fresh a (List.mem_cons_of_mem _ ha), hassoc ▸ h.guided, ?_, ?_⟩
    · exact List.rel_append h.done (.cons h.current .nil)
    · rcases List.mem_append.1 hb with hb | hb
      · exact h.left b hb
      · exact List.mem_singleton.1 hb ▸ hleft
    · exact Int.le_of_eq ((h.fresh n List.mem_cons_self).2.symm.trans hn.answers)
    · have hfits := h.fits.2
      rw [htodo] at hfits
      show FitInTurn ((c.done ++ [c.current]).map (·.name)) (p :: todo)
      rw [List.map_append]
      exact hfits

/-- Neither what has been left nor what is still to come is running. -/
theorem ShowsCourse.eq_of_running (h : ShowsCourse t run c before x after)
    (hy : y ∈ t.chainOf run) (hrunning : y.runStatus = .running) : y = x := by
  rw [h.chain] at hy
  rcases List.mem_append.1 hy with hy | hy
  · exact absurd hrunning (h.left y hy).ne_running
  · rcases List.mem_cons.1 hy with hyx | hy
    · exact hyx
    · exact absurd hrunning (h.fresh y hy).ne_running

theorem ShowsCourse.idle (h : ShowsCourse t run c before x after) (hx : x.runStatus ≠ .running) :
    ∀ y ∈ t.chainOf run, y.runStatus ≠ .running :=
  fun _ hy hrunning ↦ hx (h.eq_of_running hy hrunning ▸ hrunning)

theorem ShowsRun.waiting (h : ShowsRun q (.waiting c)) (c' : Course) :
    ShowsRun q (.waiting c') := ⟨h.status, h.output, h.failure, h.parent⟩

/-- **Going on from a step that was successful makes the progress of the part.** -/
theorem ShowsCourse.reaches_proceed (h : ShowsCourse s.tables run c before x after)
    (hknows : Knows issued run handled s.tables) (hq : s.tables.run? run = some q)
    (hshows : ShowsRun q (.waiting c)) (hk : k.ServesCourse setup c)
    (hsucc : x.runStatus = .completed ∨ x.runStatus = .skipped)
    (hrun : Runs k.rule (setup.advance x) s r s') {p : Progress} (hproceed : c.proceed = some p) :
    Reaches k setup issued run handled s s' p := by
  have ht := hknows.keyed
  have hown := h.mem.2
  have hnotrunning : x.runStatus ≠ .running := by rcases hsucc with hs | hs <;> simp [hs]
  have hnext := h.finds_nextStep ht
  rw [advance_of_success hsucc] at hrun
  have hrest := Finds.next (finds_attempt.2 ⟨_, hnext, rfl⟩) hrun
  unfold Course.proceed at hproceed
  cases hstops : c.current.stops with
  | error e =>
    rw [hstops] at hrest hnext hproceed
    dsimp only [Except.map, goOn] at hrest hnext
    obtain ⟨hvalue, rfl⟩ := Course.fault_eq_some hproceed
    have hconfiguration := (failsWith_nextStep x hnext).resolve_right hvalue
    rw [if_pos hconfiguration, hown] at hrest
    rw [← h.current.name]
    exact hknows.reaches_end hq hshows (h.idle hnotrunning) rfl hrest
  | ok stops =>
    rw [hstops] at hrest hproceed
    cases stops with
    | false =>
      -- The loop goes on.
      refine h.reaches_ask hknows hq hshows hk (.inr ?_) hrest hproceed
      unfold Part.stops at hstops
      unfold Part.function
      split at hstops
      · next f text hp =>
        rw [hp]
        exact ⟨f, rfl⟩
      · cases hstops
      · cases hstops
    | true =>
      dsimp only [Except.map] at hrest
      rw [if_pos rfl] at hrest
      replace hproceed : c.leave = some p := hproceed
      unfold Course.leave at hproceed
      cases after with
      | nil =>
        have htodo : c.todo = [] := List.forall₂_nil_left_iff.1 h.todo
        have hlast : x.isLast = true := by
          have hlink : x.nextStepId = none := h.linked.next
          simp [StepInstance.isLast, hlink]
        rw [List.head?_nil, goOn, if_pos hlast, hown] at hrest
        rw [htodo] at hproceed
        obtain rfl := Option.some.inj hproceed
        rw [← h.current.output]
        exact hknows.reaches_end hq hshows (h.idle hnotrunning) rfl hrest
      | cons n rest =>
        obtain ⟨next, todo, hn, -, htodo⟩ := List.forall₂_cons_left_iff.1 h.todo
        rw [List.head?_cons, goOn] at hrest
        rw [htodo] at hproceed
        refine (h.next hsucc hstops htodo).reaches_ask hknows hq (hshows.waiting _)
          (fun p' hp' ↦ hk p' ?_) (.inl (h.fresh n List.mem_cons_self)) hrest hproceed
        rw [htodo]
        exact List.mem_cons_of_mem _ hp'

/-! ## Answers -/

/-- A result gives an answer. -/
structure Answer.ToldBy (a : Answer) (m : StepResult) : Prop where
  status : m.runStatus = a.status.toRunStatus
  output : m.outputData = a.output
  reason : m.failureReason = a.reason

theorem writes_decrementRetry {u : Uid} (hx : t.step? u = some x) :
    Writes t (Action.store (.decrementRetry u)) (Store.Tables.withRetryUsed x).1
      (t.putStep (Store.Tables.withRetryUsed x).2) :=
  writes_onStep (c := .decrementRetry u) (g := Store.Tables.withRetryUsed) hx rfl rfl

theorem Collaborators.ServesCourse.update (hk : k.ServesCourse setup c) {p : Part}
    (hp : p.activity = c.current.activity) : k.ServesCourse setup { c with current := p } := by
  intro z hz
  rcases List.mem_cons.1 hz with rfl | hz
  · rw [hp]
    exact hk c.current List.mem_cons_self
  · exact hk z (List.mem_cons_of_mem _ hz)

theorem AnswerStatus.ne_running (status : AnswerStatus) : status.toRunStatus ≠ .running := by
  cases status <;> decide

/-- An answer that is not made up for ends the run with its own status and reason. -/
theorem ShowsCourse.reaches_giveUp {a : Answer}
    (h : ShowsCourse s.tables run (c.answered a) before y after)
    (hknows : Knows issued run handled s.tables) (hq : s.tables.run? run = some q)
    (hshows : ShowsRun q (.waiting c)) (hstatus : y.runStatus = a.status.toRunStatus)
    (hterminal : a.status.toRunStatus.isTerminal = true) (hreason : y.failureReason = a.reason)
    (hrun : Runs k.rule (setup.fail y.workflowInstanceUid y.runStatus y.name (failureReason y)) s
      r s')
    {p : Progress} (hgiven : (c.answered a).giveUp a = some p) :
    Reaches k setup issued run handled s s' p := by
  obtain rfl := Option.some.inj hgiven
  have hend := hknows.reaches_end (k := k) hq hshows
    (h.idle (hstatus ▸ a.status.ne_running)) (hstatus ▸ hterminal) (h.mem.2 ▸ hrun)
  have hnone : finalOutput? y.runStatus none = none := by
    unfold finalOutput?
    split
    · rfl
    · rfl
  have hfailure : Failure.mk y.name (failureReason y) = a.failure (c.answered a).current := by
    rw [failureReason, hreason, hstatus, h.current.name]
    rfl
  rw [hnone, hfailure, hstatus] at hend
  exact hend

/-- An answer that may be made up for has the part taken once more, while it has a retry left. -/
theorem ShowsCourse.reaches_retry {a : Answer}
    (h : ShowsCourse s.tables run (c.answered a) before y after)
    (hknows : Knows issued run handled s.tables) (hq : s.tables.run? run = some q)
    (hshows : ShowsRun q (.waiting c)) (hk : k.ServesCourse setup c)
    (hf : ∃ f, c.current.function c.done = .ok f) (hstatus : y.runStatus = a.status.toRunStatus)
    (hterminal : a.status.toRunStatus.isTerminal = true) (hreason : y.failureReason = a.reason)
    (hrun : Runs k.rule (setup.retry y) s r s') {p : Progress}
    (hnext : (if 0 < c.current.retries then (c.answered a).repeated.ask
      else (c.answered a).giveUp a) = some p) :
    Reaches k setup issued run handled s s' p := by
  have hmem := h.mem.1
  have hy := hknows.keyed.step?_iff.2 ⟨hmem, rfl⟩
  have hretries : y.retryCount = c.current.retries := h.current.retries
  have hrest := (writes_decrementRetry hy).next hrun
  by_cases hleft : y.retryCount ≤ 0
  · rw [Store.Tables.withRetryUsed, if_pos hleft, hknows.keyed.putStep_self hmem] at hrest
    rw [if_neg (by omega)] at hnext
    exact h.reaches_giveUp hknows hq hshows hstatus hterminal hreason hrest hnext
  · rw [Store.Tables.withRetryUsed, if_neg hleft] at hrest
    rw [if_pos (by omega)] at hnext
    set z : StepInstance := { y with retryCount := y.retryCount - 1 }
    have hsame : SameStep y z := ⟨rfl, rfl, rfl, rfl, rfl⟩
    have hz : Shows z (c.answered a).repeated.current :=
      ⟨h.current.name, h.current.activity, h.current.input, h.current.output,
        h.current.answers, by
        show y.retryCount - 1 = c.current.retries - 1
        rw [hretries]⟩
    have hread : Finds (s.tables.putStep z) (readStep y.uid) (.ok z) :=
      finds_readStep (hknows.keyed.step?_putStep hy rfl rfl)
    have hask := (h.putStep hknows.keyed hsame hz rfl rfl rfl h.counted).reaches_ask
      (s := { s with tables := s.tables.putStep z }) (hknows.putStep hmem hsame (Int.le_refl _)) hq
      (hshows.waiting _) (hk.update rfl) (.inr hf) (hread.next hrest) hnext
    exact ⟨hask.made, hask.asked, hask.mirrors⟩

/-- **Going on from an answer that has been written makes the progress of the answer.** -/
theorem ShowsCourse.reaches_take {a : Answer}
    (h : ShowsCourse s.tables run (c.answered a) before y after)
    (hknows : Knows issued run handled s.tables) (hq : s.tables.run? run = some q)
    (hshows : ShowsRun q (.waiting c)) (hk : k.ServesCourse setup c)
    (hf : ∃ f, c.current.function c.done = .ok f) (hstatus : y.runStatus = a.status.toRunStatus)
    (hreason : y.failureReason = a.reason) (hrun : Runs k.rule (setup.advance y) s r s')
    {p : Progress} (htake : c.take a = some p) : Reaches k setup issued run handled s s' p := by
  unfold Course.take at htake
  unfold Setup.advance at hrun
  cases hs : a.status with
  | completed =>
    rw [hs] at htake
    exact h.reaches_proceed hknows hq (hshows.waiting _) (hk.update rfl)
      (.inl (by rw [hstatus, hs]; rfl)) hrun htake
  | skipped =>
    rw [hs] at htake
    exact h.reaches_proceed hknows hq (hshows.waiting _) (hk.update rfl)
      (.inr (by rw [hstatus, hs]; rfl)) hrun htake
  | failed =>
    rw [hs] at htake
    rw [hstatus, hs] at hrun
    exact h.reaches_retry hknows hq hshows hk hf hstatus (by rw [hs]; rfl) hreason hrun htake
  | timedOut =>
    rw [hs] at htake
    rw [hstatus, hs] at hrun
    exact h.reaches_retry hknows hq hshows hk hf hstatus (by rw [hs]; rfl) hreason hrun htake
  | canceled =>
    rw [hs] at htake
    refine h.reaches_giveUp (r := r) hknows hq hshows hstatus (by rw [hs]; rfl) hreason ?_ htake
    rw [hstatus, hs] at hrun ⊢
    exact hrun
  | failedWithTerminalError =>
    rw [hs] at htake
    refine h.reaches_giveUp (r := r) hknows hq hshows hstatus (by rw [hs]; rfl) hreason ?_ htake
    rw [hstatus, hs] at hrun ⊢
    exact hrun

end Engine

end Orchestration
