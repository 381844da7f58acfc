import Orchestration.Proofs.Tracing

/-!
# Handlings that come too late

As long as only one handling of a result is at work, the stage that it has reached tells what the
records say (`Errand.Underway.tells`). Once it has launched a step of the run, the step that the
result is for is left behind: it is in another attempt, or the step that follows it is no longer
new. Once it has ended the run, the run stays ended.

Another handling that begins then has nothing left to do. It finds the result written, is refused
when it offers it once more, and sees that nothing is to be made up for (`Errand.lingers_seeTo`).
-/

namespace Orchestration

namespace Engine

namespace Errand

variable {e : Errand} {st st' : Stage} {t : Turn} {c : Call} {s s' : Scene} {v : Uid}
variable {x y : StepInstance}

/-! ## What a stage tells -/

/-- The run has come to its end. -/
def Over (e : Errand) (s : Scene) : Prop :=
  ∃ q, s.tables.run? e.run = some q ∧ q.runStatus.isTerminal = true

/-- A step is no longer as it was made. -/
def Touched (v : Uid) (s : Scene) : Prop := ∃ z, s.tables.step? v = some z ∧ z.runStatus ≠ .new

/-- A step is left for another step of the run. -/
structure Leaves (e : Errand) (x : StepInstance) (v : Uid) : Prop where
  leads : LeadsTo x v
  own : v ∈ e.own
  other : v ≠ e.step

/-- What a stage tells about the records if only one handling has been at work. -/
def Tells (e : Errand) (s : Scene) : Stage → Prop
  | .unread | .written | .granted => True
  | .read x | .reread x => s.tables.step? e.step = some x
  | .launched v _ => ∃ x, s.tables.step? e.step = some x ∧
      (x.runStatus = .running ∨ e.Leaves x v ∧ Touched v s)
  | .ended => e.Over s

theorem Over.after (h : e.Over s) (hc : e.Serves c) (answer : c.Answer) :
    e.Over (s.after c answer) := by
  obtain ⟨q, hq, hterm⟩ := h
  obtain ⟨p, hp, hsame | ⟨-, hterm'⟩⟩ := exists_run?_after hc answer hq
  · exact ⟨p, hp, hsame ▸ hterm⟩
  · exact ⟨p, hp, hterm'⟩

theorem Touched.after (h : Touched v s) (hc : e.Spares c) (hv : v ∈ e.own) (answer : c.Answer) :
    Touched v (s.after c answer) := by
  rwa [Touched, step?_of_spares hc answer hv]

theorem Tells.of_spares (h : e.Tells s st) (hc : e.Spares c) (hserves : e.Serves c)
    (answer : c.Answer) : e.Tells (s.after c answer) st := by
  cases st with
  | unread | written | granted => trivial
  | read | reread => exact (step?_of_spares hc answer e.mem).trans h
  | launched v =>
    obtain ⟨x, hx, hwhy⟩ := h
    refine ⟨x, (step?_of_spares hc answer e.mem).trans hx, ?_⟩
    exact hwhy.imp_right fun ⟨hleaves, htouched⟩ ↦
      ⟨hleaves, htouched.after hc hleaves.own answer⟩
  | ended => exact Over.after h hserves answer

theorem Tells.launch (h : e.Tells s st) (hs : e.Ground s) (hv : v ∈ e.own)
    (hmay : st.MayLaunch e.result v) (input : Json.Object) (time : Instant) :
    e.Tells (s.afterStore (.launchStep v input time)) (.launched v false) := by
  have hafter : ∀ w, (s.afterStore (.launchStep v input time)).tables.step? w =
      if w = v then (s.tables.step? v).map (Store.Tables.launched input time)
        else s.tables.step? w :=
    step?_onStep (mild_of_rfl fun _ ↦ ⟨rfl, rfl, rfl⟩)
  have hlaunched : ∀ {z}, s.tables.step? v = some z →
      (s.afterStore (.launchStep v input time)).tables.step? v =
        some (Store.Tables.launched input time z) := by
    intro z hz
    rw [hafter, if_pos rfl, hz, Option.map_some]
  obtain ⟨z, hz⟩ := hs.there v hv
  by_cases hself : v = e.step
  · -- The step itself is launched again.
    exact ⟨_, (congrArg _ hself.symm).trans (hlaunched hz), .inl rfl⟩
  · have hlead : ∃ x, s.tables.step? e.step = some x ∧ LeadsTo x v := by
      cases st with
      | read x => exact ⟨x, h, hmay.2⟩
      | reread x => exact ⟨x, h, hmay⟩
      | granted => exact absurd hmay hself
      | _ => exact hmay.elim
    obtain ⟨x, hx, hleads⟩ := hlead
    refine ⟨x, ?_, .inr ⟨⟨hleads, hv, hself⟩, _, hlaunched hz, nofun⟩⟩
    rw [hafter, if_neg (Ne.symm hself), hx]

/-- A run that is asked to end comes to its end, unless it has ended before. -/
theorem over_of_ground (hs : e.Ground s) {status : RunStatus} (hstatus : status.isTerminal = true) :
    e.Over (s.afterStore (.updateRunStatus e.run status none)) := by
  obtain ⟨q, hq, -⟩ := hs.run
  refine ⟨(Store.Tables.withStatus status none q).2, ?_, ?_⟩
  · refine (run?_onRun_eq (withStatus_uid status none) e.run).trans ?_
    rw [if_pos rfl, hq, Option.map_some]
  · unfold Store.Tables.withStatus
    by_cases hterm : q.runStatus.isTerminal = true
    · simp [hterm]
    · simpa [hterm] using hstatus

/-- A turn keeps what the stages tell, if it is one of the only handling that is at work. -/
theorem Turned.tells (h : e.Turned st t st') (hs : e.Ground t.moment.scene)
    (hserves : e.Serves t.moment.call) (htells : e.Tells t.moment.scene st) :
    e.Tells t.after st' := by
  cases h with
  | spare _ spares => exact htells.of_spares spares hserves _
  | handOver spares =>
    -- Whether the work has been handed over makes no difference.
    have hkept := htells.of_spares spares hserves t.moment.answer
    exact hkept
  | @find st i s x seeks hx =>
    cases st with
    | unread | written => exact hx
    | _ => exact seeks.elim
  | write | grant => trivial
  | refuse refused hanswer => exact (step?_of_refused (hanswer ▸ refused) _).trans htells
  | @exhaust st i s answer may exhausted hanswer =>
    have hsame : (s.tables.onStep e.step Store.Tables.withRetryUsed).2.step? e.step =
        s.tables.step? e.step := step?_onStep_withRetryUsed (hanswer ▸ exhausted) _
    cases st with
    | read | reread => exact hsame.trans htells
    | _ => exact may.elim
  | @select st i s v name answer may =>
    have hsame : v ≠ e.step → (s.afterStore (.setSelectedCase v name)).tables.step? e.step =
        s.tables.step? e.step := fun hv ↦
      (step?_onStep (mild_of_rfl fun _ ↦ ⟨rfl, rfl, rfl⟩) e.step).trans (if_neg (Ne.symm hv))
    cases st with
    | read | reread => exact (hsame may).trans htells
    | granted => trivial
    | _ => exact may.elim
  | launch own may => exact htells.launch hs own may _ _
  | finish terminal => exact over_of_ground hs terminal

variable {α β : Type} {R : Rule} {pool pool' : List (Rest (Except EngineError Unit))}
variable {Q : Stage → Except EngineError Unit → Prop} {log : List Turn} {i : Nat}

/-- The only handling that is at work finds the records as its stage tells. -/
theorem Underway.tells (h : e.Underway Q [] pool s) (hrun : Interleaves R pool s log pool' s')
    (hall : ∀ t ∈ log, t.program = i) : e.Tells s' (e.stageOf i log) := by
  have hboth : e.Underway Q ([] ++ log) pool' s' ∧ e.Tells s' (e.stageOf i ([] ++ log)) := by
    refine hrun.holds (P := fun past pool s ↦ e.Underway Q past pool s ∧
      e.Tells s (e.stageOf i past)) ⟨h, trivial⟩
      fun past pool s t next ht hp hs hadm ⟨h, htells⟩ ↦ ?_
    have hunder := h.turn hp hs hadm
    have hi := hall t ht
    subst hs hi
    obtain ⟨hallowed, -⟩ := h.pursues _ _ hp
    exact ⟨hunder, (hunder.abides.turned.2).tells h.ground (serves_of_allows hallowed) htells⟩
  exact hboth.2

/-! ## Handlings that come too late -/

/-- A program makes only calls of a kind in scenes of a kind, and comes to an end of a kind. -/
def Lingers (φ : Call → Prop) (J : Scene → Prop) (P : α → Prop) : Rest α → Prop
  | .done a => P a
  | .call c next => φ c ∧ ∀ s answer, J s → s.Admits c answer → Lingers φ J P (next answer)

section Lingering

variable {φ : Call → Prop} {J : Scene → Prop} {P : α → Prop} {P' : β → Prop}

theorem Lingers.bind {p : Rest α} {k : α → Rest β} (hp : Lingers φ J P p)
    (hk : ∀ a, P a → Lingers φ J P' (k a)) : Lingers φ J P' (p >>= k) := by
  induction p with
  | done a => exact hk a hp
  | call c next ih => exact ⟨hp.1, fun s answer hs hadm ↦ ih answer (hp.2 s answer hs hadm)⟩

theorem lingers_of_asked {p : Rest α} (h : Asked φ p) : Lingers φ J (fun _ ↦ True) p := by
  induction p with
  | done => trivial
  | call c next ih => exact ⟨h.1, fun _ answer _ _ ↦ ih answer (h.2 answer)⟩

theorem Lingers.andThen {a : Action α} {f : α → Action β} {P : α → Prop}
    (ha : Lingers φ J (fun r ↦ ∀ x, r = .ok x → P x) a.run)
    (hf : ∀ x, P x → Lingers φ J (fun _ ↦ True) (f x).run) :
    Lingers φ J (fun _ ↦ True) (a >>= f).run := by
  refine Lingers.bind (k := ExceptT.bindCont f) ha ?_
  rintro (err | x) hx
  · trivial
  · exact hf x (hx x rfl)

theorem Lingers.store {c : Store.Call} {f : c.Value → Action β} {P' : Except EngineError β → Prop}
    (hc : φ (.store c))
    (herr : ∀ s err, J s → (s.tables.answer c).1 = .error err → P' (.error err))
    (hok : ∀ s v, J s → (s.tables.answer c).1 = .ok v → Lingers φ J P' (f v).run) :
    Lingers φ J P' (Action.store c >>= f).run := by
  refine ⟨hc, fun s answer hs hadm ↦ ?_⟩
  rcases answer with err | v
  · exact herr s err hs hadm.symm
  · exact hok s v hs hadm.symm

end Lingering

/-- The run has been moved on from a step that was found: to another step, or to its end. -/
structure Beyond (e : Errand) (y : StepInstance) (next : Option Uid) (s : Scene) : Prop where
  ground : e.Ground s
  counts : ∃ x, s.tables.step? e.step = some x ∧ y.runCount ≤ x.runCount
  moved : match next with
    | some v => Touched v s
    | none => e.Over s

/-- A call is harmless, or offers a result that the step which was found has had. -/
def InVain (e : Errand) (y : StepInstance) (c : Call) : Prop :=
  c.isHarmless ∨ ∃ update, c = .store (.applyStepResult e.step update) ∧
    update.expectedRunCount < y.runCount

variable {next : Option Uid}

theorem Beyond.after (h : e.Beyond y next s) (hc : e.Serves c) (answer : c.Answer)
    (hkeeps : ∀ v ∈ next, (s.after c answer).tables.step? v = s.tables.step? v) :
    e.Beyond y next (s.after c answer) where
  ground := h.ground.after hc answer
  counts := by
    obtain ⟨x, hx, hle⟩ := h.counts
    obtain ⟨z, hz, hle'⟩ := exists_step?_after hc answer e.mem hx
    exact ⟨z, hz, Int.le_trans hle hle'⟩
  moved := by
    have hmoved := h.moved
    cases next with
    | none => exact hmoved.after hc answer
    | some v =>
      show Touched v _
      rwa [Touched, hkeeps v rfl]

theorem Beyond.refused (h : e.Beyond y next s) {update : Store.StepUpdate}
    (hupdate : update.expectedRunCount < y.runCount) :
    (s.tables.answer (.applyStepResult e.step update)).1 ≠ .ok true := by
  intro hok
  obtain ⟨x, hx, hle⟩ := h.counts
  obtain ⟨z, hz, -, hcount, -⟩ := Store.Tables.answer_accepted hok
  obtain rfl := Option.some.inj (hx.symm.trans hz)
  omega

/-- Whoever asks in vain changes nothing about where the run is, and stays at its stage. -/
theorem Beyond.inVain (h : e.Beyond y next s) (hc : e.InVain y c) {answer : c.Answer}
    (hadm : s.Admits c answer) (hnext : ∀ v ∈ next, e.Leaves y v) :
    e.Beyond y next (s.after c answer) ∧ e.after (.read y) c answer = .read y := by
  rcases hc with hc | ⟨update, rfl, hupdate⟩
  · have hidle : e.Idle (.read y) c := idle_of_isHarmless id hc
    obtain ⟨hallowed, hstays⟩ := hidle
    refine ⟨h.after (serves_of_allows hallowed) answer fun v hv ↦ ?_, hstays answer⟩
    exact step?_of_spares (spares_of_isHarmless hc) answer (hnext v hv).own
  · have hserves : e.Serves (.store (.applyStepResult e.step update)) := trivial
    refine ⟨h.after hserves answer fun v hv ↦ ?_, ?_⟩
    · refine Store.Tables.answer_applyStepResult_elim
        (P := fun t ↦ t.step? v = s.tables.step? v) rfl ?_
      exact (step?_onStep (mild_withResult update) v).trans (if_neg (hnext v hv).other)
    · have hno : answer ≠ .ok true := fun h' ↦ h.refused hupdate (hadm.symm.trans h')
      rcases answer with err | _ | _
      · rfl
      · rfl
      · exact absurd rfl hno

/-! ### What is found then -/

variable {setup : Setup}

theorem lingers_of_harmless {a : Action α} (ha : Harmless a) :
    Lingers (e.InVain y) (e.Beyond y next) (fun _ ↦ True) a.run :=
  lingers_of_asked (Asked.mono (fun _ hc ↦ .inl hc) ha)

/-- A step that was left for another one no longer waits to be left. -/
theorem lingers_awaitsFollowUp (hy : e.Fits y) (hu : y.uid = e.step) (hv : e.Leaves y v) :
    Lingers (e.InVain y) (e.Beyond y (some v)) (fun r ↦ ∀ b, r = .ok b → b = false)
      (awaitsFollowUp y).run := by
  -- The step was not left for itself, so it names the next one, which is no longer new.
  have hlink : y.nextStepId = some v ∧ y.Stops := by
    rcases hv.leads.target with hself | hlink
    · exact absurd (hself.trans hu) hv.other
    · exact hlink
  have hnext : Lingers (e.InVain y) (e.Beyond y (some v))
      (fun r ↦ ∃ z, r = .ok (some z) ∧ z.uid = v ∧ z.runStatus ≠ .new) (nextStep y).run := by
    rw [nextStep_of_stops (hy.guided hu) hlink.2]
    unfold followLink
    rw [hlink.1]
    refine ⟨.inl trivial, fun s answer hs hadm ↦ ?_⟩
    obtain ⟨z, hz, hstatus⟩ := hs.moved
    obtain rfl : answer = .ok (some z) := hadm.trans (congrArg Except.ok hz)
    exact ⟨z, rfl, (Store.Tables.mem_of_step? hz).2, hstatus⟩
  have hattempt : Lingers (e.InVain y) (e.Beyond y (some v))
      (fun r ↦ ∃ z, r = .ok (.ok (some z)) ∧ z.uid = v ∧ z.runStatus ≠ .new)
      (Action.attempt (nextStep y)).run :=
    hnext.bind fun r ⟨z, hz, hfound⟩ ↦ ⟨z, congrArg _ hz, hfound⟩
  have hne : v ≠ y.uid := fun h ↦ hv.other (h.trans hu)
  unfold awaitsFollowUp
  rcases hv.leads.status with hstatus | hstatus
  all_goals
    rw [hstatus]
    refine Lingers.bind (k := ExceptT.bindCont _) hattempt ?_
    rintro _ ⟨z, rfl, rfl, hnew⟩ b hb
    cases hb
    simp [hne, hnew]

theorem lingers_applyResult (hu : y.uid = e.step) (hrepeats : repeatsLast y e.result = true) :
    Lingers (e.InVain y) (e.Beyond y next) (fun r ↦ ∀ o, r = .ok o → o = none)
      (applyResult y e.result).run := by
  -- The result names the attempt that was answered last, and expects one result less.
  have hcount : ∀ expected, expectedRunCount y e.result = some expected →
      expected < y.runCount := by
    intro expected hexpected
    simp only [repeatsLast, Bool.and_eq_true, beq_iff_eq] at hrepeats
    rw [expectedRunCount, hrepeats.1.1] at hexpected
    simp only [Option.ite_none_left_eq_some, Option.some.injEq] at hexpected
    omega
  unfold applyResult
  cases hexpected : expectedRunCount y e.result with
  | none =>
    intro o ho
    cases ho
    rfl
  | some expected =>
    have hlt := hcount expected hexpected
    refine ⟨.inl trivial, fun s time _ _ ↦ ?_⟩
    have hrefused : ∀ s, e.Beyond y next s →
        (s.tables.answer (.applyStepResult y.uid (updateOf e.result time expected))).1 ≠ .ok true :=
      fun s hs ↦ hu ▸ hs.refused hlt
    refine .store (c := .applyStepResult y.uid (updateOf e.result time expected))
      (.inr ⟨_, by rw [hu], hlt⟩) (fun s err _ _ o ho ↦ nomatch ho) fun s taken hs htaken ↦ ?_
    cases taken with
    | false => exact fun o ho ↦ (Except.ok.inj ho).symm
    | true => exact absurd htaken (hrefused s hs)

/-- **Whoever comes too late has nothing left to do.** -/
theorem lingers_seeTo (hy : e.Fits y) (hu : y.uid = e.step)
    (hrepeats : repeatsLast y e.result = true) (hnext : ∀ v ∈ next, e.Leaves y v) :
    Lingers (e.InVain y) (e.Beyond y next) (fun _ ↦ True)
      (applyResult y e.result >>= setup.seeTo y e.result).run := by
  refine (lingers_applyResult hu hrepeats).andThen fun o ho ↦ ?_
  subst ho
  show Lingers _ _ _ (setup.processRepeated y e.result).run
  have hown : y.workflowInstanceUid = e.run := hy.own.2 (hu ▸ e.mem)
  unfold Setup.processRepeated
  rw [if_pos hrepeats, hown]
  have hread : Lingers (e.InVain y) (e.Beyond y next) (fun r ↦ ∀ q, r = .ok q →
      q.runStatus.isTerminal = true ∨ q.runStatus = .running ∧ ∃ v, next = some v)
      (readRun e.run).run := by
    refine ⟨.inl trivial, fun s answer hs hadm ↦ ?_⟩
    obtain ⟨q, hq, hstatus⟩ := hs.ground.run
    obtain rfl : answer = .ok (some q) := hadm.trans (congrArg Except.ok hq)
    intro p hp
    obtain rfl := Except.ok.inj hp
    cases next with
    | some v => exact hstatus.symm.imp_right fun h ↦ ⟨h, v, rfl⟩
    | none =>
      obtain ⟨p, hp, hterm⟩ := hs.moved
      exact .inl (Option.some.inj (hp.symm.trans hq) ▸ hterm)
  refine hread.andThen fun q hq ↦ ?_
  -- The end of the run is reported once more. While the run goes on, the step has been left.
  rcases hq with hterm | ⟨hrunning, v, rfl⟩
  · cases hstatus : q.runStatus with
    | running | paused => rw [hstatus] at hterm; cases hterm
    | stopped => trivial
    | _ => exact lingers_of_harmless (.ite (harmless_reportToParent _ _ _ _) (.pure _))
  · rw [hrunning]
    refine (lingers_awaitsFollowUp hy hu (hnext v rfl)).andThen fun b hb ↦ ?_
    rw [hb]
    trivial

end Errand

end Engine

end Orchestration
