import Orchestration.Proofs.Beginning
import Orchestration.Proofs.Replaying

/-!
# The engine and the interpreter

The engine makes of a workflow what the interpreter makes of it. Between the two stand the messages:
the engine is told the answers one by one, by whoever has taken the work, and it may be told each of
them again. A session is any such course of events, from the start of a run on (`Session`).

At every point of a session the records mirror the stage that the interpreter has reached with the
answers so far. An answer to the attempt in flight takes both a step further
(`Mirrors.reaches_answer`). A result that has been handled before changes nothing at all
(`Mirrors.again`): its attempt is over, so the store refuses it, and the run is then never found to
have missed what should have followed. So the work that has been asked for, and what has become of
the run, are those of the interpreter (`refines_interpreter`).

This holds as long as a repeated result cannot be taken for an answer to another attempt
(`Unmistakable`). A result need not say which attempt it is for, and one that does not answers
whichever is in flight: where it comes again while its step is repeated, it answers twice, and the
run goes other ways than the interpreter (`not_refined_by_unnamed_repeats`).
-/

namespace Orchestration

namespace Engine

open Chain

variable {k : Collaborators} {setup : Setup} {R : Rule} {s s' : Scene} {t : Store.Tables}
variable {run : Uid} {issued : List Uid} {handled : List StepResult} {stage : Stage}
variable {x : StepInstance} {m : StepResult} {q : WorkflowInstance} {r : Except EngineError Unit}

/-! ## An answer -/

/-- **An answer takes the run to the next stage.** -/
theorem Mirrors.reaches_answer (h : Mirrors k setup issued run handled s.tables stage)
    (hx : s.tables.step? m.stepInstanceId = some x) (hmade : x.uid ∉ issued)
    (hrunning : x.runStatus = .running) (hattempt : ∀ n ∈ m.attempt, n = attemptOf x)
    (hroom : s.HasRoom) {a : Answer} (ha : a.ToldBy m)
    (hrun : Runs k.rule (setup.processResult m) s r s') :
    ∃ c, stage = .waiting c ∧ ∀ p, c.take a = some p →
      Reaches k setup issued run (handled ++ [m]) s s' p := by
  have ht := h.knows.keyed
  obtain ⟨hmem, hxm⟩ := Store.Tables.mem_of_step? hx
  have hown : x.workflowInstanceUid = run := h.knows.own x hmem hmade
  have hchain : x ∈ s.tables.chainOf run := Store.Tables.mem_chainOf.2 ⟨hmem, hown⟩
  cases stage with
  | ended status output failure => exact absurd hrunning (h.shown.2 x hchain)
  | waiting c =>
    refine ⟨c, rfl, fun p htake ↦ ?_⟩
    obtain ⟨hk, before, y, after, hshows, -, hf⟩ := h.shown
    obtain ⟨q, hq, hrecord⟩ := h.record
    obtain rfl : x = y := hshows.eq_of_running hchain hrunning
    have hself : s.tables.step? x.uid = some x := hxm.symm ▸ hx
    have hcount : x.CanCount := by
      have hleast := hshows.counted
      have hmost := hroom x hmem
      rw [← hshows.current.answers] at hleast
      exact ⟨hleast, by omega⟩
    have hrest := (finds_readStep hx).next hrun
    rcases runs_bind.1 hrest with ⟨e, h₁, -⟩ | ⟨applied, s₁, h₁, hrest⟩
    · obtain ⟨_, he, -⟩ := runs_applyResult_accepted ht hself hrunning hcount hattempt h₁
      cases he
    obtain ⟨time, happlied, rfl⟩ :=
      runs_applyResult_accepted ht hself hrunning hcount hattempt h₁
    obtain rfl := Except.ok.inj happlied
    set y := answeredStep x m time with hy
    have hsame : SameStep x y := ⟨rfl, rfl, rfl, rfl, rfl⟩
    have hpart : Shows y (c.answered a).current :=
      ⟨hshows.current.name, hshows.current.activity, hshows.current.input, ha.output, by
        show x.runCount + 1 = c.current.answers + 1
        rw [hshows.current.answers], hshows.current.retries⟩
    have hcounted : 0 ≤ (c.answered a).current.answers := by
      have hle := hshows.counted
      show 0 ≤ c.current.answers + 1
      omega
    have hshows' := hshows.putStep ht hsame hpart rfl rfl rfl hcounted
    have hknows : Knows issued run (handled ++ [m]) (s.tables.putStep y) := by
      have hknows := h.knows.putStep hmem hsame (by show x.runCount ≤ x.runCount + 1; omega)
      refine ⟨hknows.keyed, hknows.own, fun m' hm' ↦ ?_⟩
      rcases List.mem_append.1 hm' with hm' | hm'
      · exact hknows.handled m' hm'
      · rw [List.mem_singleton.1 hm']
        refine ⟨y, Store.Tables.mem_chainOf.2 hshows'.mem, hxm, fun n hn ↦ ?_⟩
        have hn : n = x.runCount + 1 := hattempt n hn
        have hleast := hcount.nonneg
        show 1 ≤ n ∧ n ≤ x.runCount + 1
        omega
    have hread : Finds (s.tables.putStep y) (readRun y.workflowInstanceUid) (.ok q) :=
      finds_readRun (hown.symm ▸ hq)
    have hrest := Finds.next (s := { s with tables := s.tables.putStep y }) hread hrest
    rw [hrecord.status, if_neg (by simp [Stage.status, RunStatus.isTerminal]),
      if_neg (by simp [Stage.status])] at hrest
    have hreach := hshows'.reaches_take (s := { s with tables := s.tables.putStep y })
      (c := c) hknows hq hrecord hk hf ha.status ha.reason hrest htake
    exact ⟨hreach.made, hreach.asked, hreach.mirrors⟩

/-! ## A result that has been handled -/

/-- A repeated result changes nothing where nothing is missing, or where the run has ended and
nobody is to be told. -/
theorem runs_processRepeated_idle (hq : s.tables.run? x.workflowInstanceUid = some q)
    (hidle : repeatsLast x m = true →
      q.runStatus = .running ∧ ¬Unfollowed s.tables x ∨
        q.runStatus.isTerminal = true ∧ q.parentInstanceUid = none)
    (h : Runs R (setup.processRepeated x m) s r s') : s' = s := by
  unfold Setup.processRepeated at h
  by_cases hrepeats : repeatsLast x m = true
  swap
  · rw [if_neg hrepeats] at h
    exact (runs_pure.1 h).2
  rw [if_pos hrepeats] at h
  have hrest := (finds_readRun hq).next h
  rcases hidle hrepeats with ⟨hrunning, hfollowed⟩ | ⟨hended, hparent⟩
  · rw [hrunning] at hrest
    obtain ⟨o, ho⟩ := reads_awaitsFollowUp x s.tables
    rcases o with e | awaits
    · exact (ho.fails hrest).2
    have hrest := Finds.next
      (f := fun awaits ↦ if awaits = true then setup.advance x else pure ()) ho hrest
    cases awaits with
    | false => exact (runs_pure.1 hrest).2
    | true => exact absurd (finds_awaitsFollowUp.1 ho) hfollowed
  · have hreport : ∀ status reason, Runs R (reportToParent q status reason q.outputData) s r s' →
        s' = s := by
      intro status reason hrun
      unfold reportToParent at hrun
      rw [hparent] at hrun
      exact (runs_pure.1 hrun).2
    cases hstatus : q.runStatus with
    | new | deployingFunctions | running | paused | skipped =>
      rw [hstatus] at hended
      cases hended
    | stopped =>
      rw [hstatus] at hrest
      exact (runs_pure.1 hrest).2
    | completed | completedWithErrors | failed | failedWithTerminalError | canceled | timedOut =>
      rw [hstatus] at hrest
      exact hreport _ _ hrest

/-- A result cannot be taken for an answer to another attempt than its own: it says which attempt it
is for, or no attempt of its step is in flight. -/
def Unmistakable (s : Scene) (m : StepResult) : Prop :=
  m.attempt = none → ∀ x, s.tables.step? m.stepInstanceId = some x → x.runStatus ≠ .running

/-- **A result that has been handled before changes nothing**, unless it is mistaken. -/
theorem Mirrors.again (h : Mirrors k setup issued run handled s.tables stage) (hm : m ∈ handled)
    (hunnamed : Unmistakable s m) (hrun : Runs R (setup.processResult m) s r s') : s' = s := by
  have ht := h.knows.keyed
  obtain ⟨y, hy, hyu, hattempt⟩ := h.knows.handled m hm
  obtain ⟨hmem, hown⟩ := Store.Tables.mem_chainOf.1 hy
  obtain ⟨q, hq, hrecord⟩ := h.record
  have hself := ht.step?_iff.2 ⟨hmem, rfl⟩
  have hstep : s.tables.step? m.stepInstanceId = some y := hyu ▸ hself
  have hrefused : y.runStatus ≠ .running ∨ ∃ n, m.attempt = some n ∧ n ≠ y.runCount + 1 := by
    cases hn : m.attempt with
    | none => exact .inl (hunnamed hn y hstep)
    | some n =>
      obtain ⟨-, hle⟩ := hattempt n hn
      exact .inr ⟨n, rfl, by omega⟩
  have hrest := (finds_readStep hstep).next hrun
  rcases runs_bind.1 hrest with ⟨e, h₁, -⟩ | ⟨applied, s₁, h₁, hrest⟩
  · cases (runs_applyResult_refused ht hself hrefused h₁).1
  obtain ⟨happlied, rfl⟩ := runs_applyResult_refused ht hself hrefused h₁
  obtain rfl := Except.ok.inj happlied
  refine runs_processRepeated_idle (hown.symm ▸ hq) (fun hrepeats ↦ ?_) hrest
  -- The result is the last one of a step that has had one.
  have hlast : y.runCount ≠ 0 ∧ y.runStatus ≠ .running := by
    simp only [repeatsLast, Bool.and_eq_true, beq_iff_eq, bne_iff_ne] at hrepeats
    obtain ⟨hpos, -⟩ := hattempt _ hrepeats.1.1
    exact ⟨by omega, hrepeats.2⟩
  cases stage with
  | ended status output failure =>
    refine .inr ⟨?_, hrecord.parent⟩
    rw [hrecord.status]
    exact h.shown.1
  | waiting c =>
    refine .inl ⟨hrecord.status, fun hopen ↦ ?_⟩
    obtain ⟨-, before, z, after, hshows, hrunning, -⟩ := h.shown
    rw [hshows.chain] at hy
    rcases List.mem_append.1 hy with hy | hy
    · obtain ⟨-, hnew⟩ := hshows.next_of_unfollowed ht hy hopen
      rw [hnew] at hrunning
      cases hrunning
    · rcases List.mem_cons.1 hy with rfl | hy
      · exact absurd hrunning hlast.2
      · exact absurd (hshows.fresh y hy).2 hlast.1

/-! ## Sessions -/

variable {workflow : Uid} {input : Json.Object} {definition : WorkflowDefinition}
variable {steps : List StepDefinition} {c : Course} {s₀ : Scene}
variable {answers : List Answer} {results : List StepResult}

/-- What may happen to a run from its start on, while nothing but answers to its work comes in. Some
answers have been given so far, each of them in a result to the attempt in flight of a step that was
made since the start; a result may also leave out which attempt it is for. In between any result
that has been handled may come again, however late, where `mayRepeat` has it so. There is room for
every answer that is counted. -/
inductive Session (k : Collaborators) (setup : Setup) (mayRepeat : Scene → StepResult → Prop)
    (workflow : Uid) (input : Json.Object) (s₀ : Scene) :
    List Answer → List StepResult → Scene → Prop where
  | start {s : Scene} {r : Except EngineError RunSnapshot}
      (run : Runs k.rule (setup.startWorkflow workflow input none none) s₀ r s) :
      Session k setup mayRepeat workflow input s₀ [] [] s
  | answer {answers : List Answer} {results : List StepResult} {s s' : Scene} {a : Answer}
      {m : StepResult} {x : StepInstance} {r : Except EngineError Unit}
      (before : Session k setup mayRepeat workflow input s₀ answers results s)
      (found : s.tables.step? m.stepInstanceId = some x) (made : x.uid ∉ s₀.issued)
      (running : x.runStatus = .running) (current : ∀ n ∈ m.attempt, n = attemptOf x)
      (room : s.HasRoom) (told : a.ToldBy m) (run : Runs k.rule (setup.processResult m) s r s') :
      Session k setup mayRepeat workflow input s₀ (answers ++ [a]) (results ++ [m]) s'
  | again {answers : List Answer} {results : List StepResult} {s s' : Scene} {m : StepResult}
      {r : Except EngineError Unit}
      (before : Session k setup mayRepeat workflow input s₀ answers results s)
      (handled : m ∈ results) (repeatable : mayRepeat s m)
      (run : Runs k.rule (setup.processResult m) s r s') :
      Session k setup mayRepeat workflow input s₀ answers results s'

theorem AwaitsLast.append {ds : List Dispatch} (h : AwaitsLast t ds stage)
    (before : List Dispatch) : AwaitsLast t (before ++ ds) stage := by
  intro c hc
  obtain ⟨d, hd, hstep⟩ := h c hc
  exact ⟨d, by simp [List.getLast?_append, hd], hstep⟩

/-- In a session the records mirror the stage that the interpreter has reached, and the work that
was asked for has been handed over. -/
theorem Session.mirrors (hs₀ : Standing setup (fun _ ↦ False) s₀)
    (hk : k.Offers setup workflow definition steps) (hc : Course.of? input steps = some c)
    (hfits : c.Fits) (h : Session k setup Unmistakable workflow input s₀ answers results s)
    {p : Progress} (hp : interpret c answers = some p) :
    ∃ (new : WorkflowInstance × List StepInstance) (ds : List Dispatch),
      s.made = s₀.made ++ [new] ∧ s.handOvers = s₀.handOvers ++ ds.map setup.parcelOf ∧
      List.Forall₂ k.Asks ds p.1 ∧ (∀ d ∈ ds, d.step.workflowInstanceUid = new.1.uid) ∧
      AwaitsLast s.tables ds p.2 ∧ Mirrors k setup s₀.issued new.1.uid results s.tables p.2 := by
  induction h generalizing p with
  | start hrun =>
    rw [interpret_nil] at hp
    obtain ⟨new, s₁, hmade, hovers, hreach⟩ := reaches_start hs₀ hk hc hfits hrun hp
    obtain ⟨ds, hds, hasks, hrun, hlast⟩ := hreach.asked
    exact ⟨new, ds, hreach.made.trans hmade, hovers ▸ hds, hasks, hrun, hlast, hreach.mirrors⟩
  | @answer answers results s s' a m x r _ hfound hmade hrunning hcurrent hroom htold hrun ih =>
    obtain ⟨q, hq, hnext⟩ := interpret_concat hp
    obtain ⟨new, ds, hnew, hovers, hasks, hown, -, hmirrors⟩ := ih hq
    obtain ⟨c', hstage, hreach⟩ :=
      hmirrors.reaches_answer hfound hmade hrunning hcurrent hroom htold hrun
    obtain ⟨next, htake, rfl⟩ := hnext c' hstage
    have hreach := hreach next htake
    obtain ⟨more, hmore, hmoreAsks, hmoreOwn, hlast⟩ := hreach.asked
    refine ⟨new, ds ++ more, hreach.made.trans hnew, ?_, ?_, ?_, hlast.append ds, hreach.mirrors⟩
    · rw [hmore, hovers, List.map_append, List.append_assoc]
    · exact List.rel_append hasks hmoreAsks
    · intro d hd
      rcases List.mem_append.1 hd with hd | hd
      · exact hown d hd
      · exact hmoreOwn d hd
  | again _ hhandled hunnamed hrun ih =>
    obtain ⟨new, ds, hnew, hovers, hasks, hown, hlast, hmirrors⟩ := ih hp
    obtain rfl := hmirrors.again hhandled hunnamed hrun
    exact ⟨new, ds, hnew, hovers, hasks, hown, hlast, hmirrors⟩

/-- **The engine refines the interpreter.** Let the catalogs offer a workflow that calls functions
only, fit to be taken step by step, and let it be started in any scene that can be reached. After
any session in which some answers have been given, a run has been made; the work that has been
handed over since is what the interpreter asks for with these answers, request by request; and the
record of the run shows what has become of it there. While the interpreter waits, the attempt that
was handed over last is the one in flight. -/
theorem refines_interpreter (hs₀ : Reachable setup anyAnswer s₀)
    (hk : k.Offers setup workflow definition steps) (hc : Course.of? input steps = some c)
    (hfits : c.Fits) (h : Session k setup Unmistakable workflow input s₀ answers results s)
    {p : Progress} (hp : interpret c answers = some p) :
    ∃ (new : WorkflowInstance × List StepInstance) (ds : List Dispatch),
      s.made = s₀.made ++ [new] ∧ s.handOvers = s₀.handOvers ++ ds.map setup.parcelOf ∧
      List.Forall₂ k.Asks ds p.1 ∧ (∀ d ∈ ds, d.step.workflowInstanceUid = new.1.uid) ∧
      AwaitsLast s.tables ds p.2 ∧
      ∃ q, s.tables.run? new.1.uid = some q ∧ ShowsRun q p.2 := by
  have hR : Guiding anyAnswer (fun _ ↦ False) := fun _ _ _ _ hq ↦ hq.elim
  obtain ⟨new, ds, hmade, hovers, hasks, hown, hlast, hmirrors⟩ :=
    h.mirrors (standing_of_reachable hR hs₀) hk hc hfits hp
  exact ⟨new, ds, hmade, hovers, hasks, hown, hlast, hmirrors.record⟩

/-- A step that is repeated once if need be, listed after the one that comes last. -/
def callThenReport : WorkflowDefinition :=
  { uid := .ofNat 1
    name := "call then report"
    steps :=
      [{ uid := .ofNat 3, name := "report", executionOrder := 2, shape := .simple (.ofNat 9) },
        { uid := .ofNat 2
          name := "call"
          executionOrder := 1
          retryCount := 1
          shape := .simple (.ofNat 9) }] }

/-- The course of that workflow at its first step. -/
def callCourse : Course :=
  { current := { name := "call", activity := .call (.ofNat 9), input := [], retries := 1 }
    todo := [{ name := "report", activity := .call (.ofNat 9), input := [], retries := 0 }] }

theorem callCourse_fits : callCourse.Fits := by
  have hcall : ∀ (earlier : List String) (p : Part) (f : Uid), p.activity = .call f → p.input = [] →
      p.Fits earlier := by
    intro earlier p f hp hinput
    refine ⟨?_, fun _ _ hloop ↦ ?_, fun _ _ hchoice ↦ ?_⟩
    · rw [hinput]
      rfl
    · rw [hp] at hloop
      cases hloop
    · rw [hp] at hchoice
      cases hchoice
  exact ⟨hcall _ _ _ rfl rfl, hcall _ _ _ rfl rfl, trivial⟩

/-- The result that gives an answer to an attempt of a step of the first run. -/
def Answer.resultFor (a : Answer) (step : Uid) (attempt : Int) : StepResult :=
  { stepInstanceId := step
    workflowInstanceId := World.nthUid 0
    runStatus := a.status.toRunStatus
    outputData := a.output
    failureReason := a.reason
    attempt := some attempt }

/-- The answers to the three requests of a run of `callThenReport` whose first attempt is late. -/
def reportAnswers : List Answer :=
  [{ status := .timedOut, reason := some "late" },
    { status := .completed },
    { status := .completed, output := [("size", .int 1)] }]

/-- The results that give these answers. -/
def reportResults : List StepResult :=
  [reportAnswers[0].resultFor (World.nthUid 1) 1, reportAnswers[1].resultFor (World.nthUid 1) 2,
    reportAnswers[2].resultFor (World.nthUid 2) 1]

/-- What the interpreter makes of the workflow with these answers. -/
def reportProgress : Progress :=
  ([⟨"call", .ofNat 9, 1, []⟩, ⟨"call", .ofNat 9, 2, []⟩, ⟨"report", .ofNat 9, 1, []⟩],
    .ended .completed [("size", .int 1)] none)

/-- Collaborators that offer `callThenReport`. -/
def reporters : Collaborators := .single deployedFunction callThenReport

theorem reporters_offer :
    reporters.Offers queueSetup (.ofNat 1) callThenReport callThenReport.steps :=
  ⟨rfl, rfl, fun _ _ _ _ ↦ ⟨deployedFunction, rfl, rfl, rfl⟩, by decide⟩

theorem course_callThenReport : Course.of? [] callThenReport.steps = some callCourse := by
  rw [Course.of?, ← sortDefinitions_eq_mergeSort]
  rfl

/-- What becomes of a scene when a result arrives. -/
def withResult (s : Scene) (m : StepResult) : Option (Except EngineError Unit × Scene) :=
  reporters.perform (queueSetup.processResult m).run s

/-- A run of `callThenReport` has been started. -/
def startedScene : Except EngineError RunSnapshot × Scene :=
  (reporters.perform (queueSetup.startWorkflow (.ofNat 1) [] none none).run {}).get
    (by decide +kernel)

def lateScene : Except EngineError Unit × Scene :=
  (withResult startedScene.2 reportResults[0]).get (by decide +kernel)

/-- The engine has been told so once more. -/
def laterScene : Except EngineError Unit × Scene :=
  (withResult lateScene.2 reportResults[0]).get (by decide +kernel)

/-- Its first step has been completed after all. -/
def calledScene : Except EngineError Unit × Scene :=
  (withResult laterScene.2 reportResults[1]).get (by decide +kernel)

/-- Its second step has been completed as well. -/
def reportedScene : Except EngineError Unit × Scene :=
  (withResult calledScene.2 reportResults[2]).get (by decide +kernel)

private theorem Session.withResult {mayRepeat : Scene → StepResult → Prop} {answers : List Answer}
    {results : List StepResult} {s : Scene}
    (h : Session reporters queueSetup mayRepeat (.ofNat 1) [] {} answers results s) (a : Answer)
    (m : StepResult)
    (hstep : (s.tables.step? m.stepInstanceId).any fun x ↦
      x.runStatus = .running ∧ ∀ n ∈ m.attempt, n = attemptOf x)
    (hroom : s.HasRoom) (htold : a.ToldBy m) (hrun : (Engine.withResult s m).isSome) :
    Session reporters queueSetup mayRepeat (.ofNat 1) [] {} (answers ++ [a]) (results ++ [m])
      ((Engine.withResult s m).get hrun).2 := by
  obtain ⟨x, hx, hboth⟩ := (Option.any_eq_true _ _).1 hstep
  obtain ⟨hrunning, hcurrent⟩ := of_decide_eq_true hboth
  exact h.answer hx List.not_mem_nil hrunning hcurrent hroom htold (Collaborators.leads_get _ hrun)

theorem refines_reportedScene :
    (Reachable queueSetup anyAnswer {} ∧
      reporters.Offers queueSetup (.ofNat 1) callThenReport callThenReport.steps ∧
      Course.of? [] callThenReport.steps = some callCourse ∧ callCourse.Fits ∧
      Session reporters queueSetup Unmistakable (.ofNat 1) [] {} reportAnswers reportResults
        reportedScene.2 ∧
      interpret callCourse reportAnswers = some reportProgress) ∧
    ∃ (new : WorkflowInstance × List StepInstance) (ds : List Dispatch),
      reportedScene.2.made = [] ++ [new] ∧
      reportedScene.2.handOvers = [] ++ ds.map queueSetup.parcelOf ∧
      List.Forall₂ reporters.Asks ds reportProgress.1 ∧
      (∀ d ∈ ds, d.step.workflowInstanceUid = new.1.uid) ∧
      AwaitsLast reportedScene.2.tables ds reportProgress.2 ∧
      ∃ q, reportedScene.2.tables.run? new.1.uid = some q ∧ ShowsRun q reportProgress.2 := by
  have hstarted : Session reporters queueSetup Unmistakable (.ofNat 1) [] {} [] [] startedScene.2 :=
    .start (Collaborators.leads_get _ _)
  have hlate := hstarted.withResult reportAnswers[0] reportResults[0] (by decide +kernel)
    (by decide +kernel) ⟨rfl, rfl, rfl⟩ (by decide +kernel)
  -- The first result comes again while the second attempt is in flight.
  have hlater : Session reporters queueSetup Unmistakable (.ofNat 1) [] {} [reportAnswers[0]]
      [reportResults[0]] laterScene.2 :=
    .again hlate (List.mem_singleton_self _) (fun hnone ↦ absurd hnone (Option.some_ne_none _))
      (Collaborators.leads_get _ _)
  have hcalled := hlater.withResult reportAnswers[1] reportResults[1] (by decide +kernel)
    (by decide +kernel) ⟨rfl, rfl, rfl⟩ (by decide +kernel)
  have hreported : Session reporters queueSetup Unmistakable (.ofNat 1) [] {} reportAnswers
      reportResults reportedScene.2 :=
    hcalled.withResult reportAnswers[2] reportResults[2] (by decide +kernel) (by decide +kernel)
      ⟨rfl, rfl, rfl⟩ (by decide +kernel)
  have hprogress : interpret callCourse reportAnswers = some reportProgress := by decide +kernel
  exact ⟨⟨.empty, reporters_offer, course_callThenReport, callCourse_fits, hreported, hprogress⟩,
    refines_interpreter .empty reporters_offer course_callThenReport callCourse_fits hreported
      hprogress⟩

/-! ### Results that name no attempt -/

/-- The result that tells of the late attempt, without saying which one it was. -/
def unnamedResult : StepResult := { reportResults[0] with attempt := none }

def unnamedScene : Except EngineError Unit × Scene :=
  (withResult startedScene.2 unnamedResult).get (by decide +kernel)

/-- It has arrived again, while the second attempt is in flight. -/
def mistakenScene : Except EngineError Unit × Scene :=
  (withResult unnamedScene.2 unnamedResult).get (by decide +kernel)

/-- A result that names no attempt is taken for the answer to a second one: where it comes twice the
run has ended, while the interpreter waits for that attempt. -/
theorem not_refined_by_unnamed_repeats :
    reporters.Offers queueSetup (.ofNat 1) callThenReport callThenReport.steps ∧
    Course.of? [] callThenReport.steps = some callCourse ∧ callCourse.Fits ∧
    Session reporters queueSetup (fun _ _ ↦ True) (.ofNat 1) [] {} [reportAnswers[0]]
      [unnamedResult] mistakenScene.2 ∧
    ∃ p, interpret callCourse [reportAnswers[0]] = some p ∧ p.2.status = .running ∧
      ∀ new q, mistakenScene.2.made = [new] → mistakenScene.2.tables.run? new.1.uid = some q →
        q.runStatus = .timedOut ∧ ¬ShowsRun q p.2 := by
  have hstarted : Session reporters queueSetup (fun _ _ ↦ True) (.ofNat 1) [] {} [] []
      startedScene.2 := .start (Collaborators.leads_get _ _)
  have hunnamed := hstarted.withResult reportAnswers[0] unnamedResult (by decide +kernel)
    (by decide +kernel) ⟨rfl, rfl, rfl⟩ (by decide +kernel)
  have hmistaken : Session reporters queueSetup (fun _ _ ↦ True) (.ofNat 1) [] {} [reportAnswers[0]]
      [unnamedResult] mistakenScene.2 :=
    hunnamed.again (List.mem_singleton_self _) trivial (Collaborators.leads_get _ _)
  have hprogress : interpret callCourse [reportAnswers[0]] = some
      ([⟨"call", .ofNat 9, 1, []⟩, ⟨"call", .ofNat 9, 2, []⟩],
        .waiting ((callCourse.answered reportAnswers[0]).repeated)) := by decide +kernel
  have hended : mistakenScene.2.made.map (fun new ↦
      (mistakenScene.2.tables.run? new.1.uid).map (·.runStatus)) = [some .timedOut] := by
    decide +kernel
  refine ⟨reporters_offer, course_callThenReport, callCourse_fits, hmistaken, _, hprogress, rfl,
    fun new q hmade hq ↦ ?_⟩
  have hstatus : q.runStatus = .timedOut := by simpa [hmade, hq] using hended
  exact ⟨hstatus, fun hshows ↦ nomatch hstatus.symm.trans hshows.status⟩

end Engine

end Orchestration
