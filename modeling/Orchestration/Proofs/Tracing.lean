import Orchestration.Proofs.Applying
import Orchestration.Proofs.Pursuing

/-!
# What the turns of several handlings tell

Several handlings of one result may be under way at once. How far each of them has come can be told
from its own turns (`Errand.stageOf`), and what it has asked on the way is what is allowed
(`Errand.Abides`). Nothing more is needed to see that each of them on its own launches a step of the
run, is granted a repetition and hands work over once at most (`Errand.Abides.turnsOf_le`).

And nothing more is needed to see why a handling may move the run on at all: it has written the
result, or the first thing that it has read was that the result had been written
(`Errand.Abides.entitled`).
-/

namespace Orchestration

namespace Engine

/-! ## Kinds of turns -/

/-- Whether a turn launches one of some steps. -/
def Turn.launches (own : List Uid) (t : Turn) : Bool :=
  match t.moment with
  | ⟨_, .store (.launchStep v ..), .ok _⟩ => own.contains v
  | _ => false

/-- Whether a turn uses up a repetition of a step. -/
def Turn.grants (u : Uid) (t : Turn) : Bool := t.moment.grants u

def Turn.handsOver (t : Turn) : Bool :=
  match t.moment.call with
  | .publish channel _ => channel == .work
  | .post .. => true
  | _ => false

/-- Whether a turn asks for a status of a run. -/
def Turn.asksEnd (run : Uid) (t : Turn) : Bool :=
  match t.moment.call with
  | .store (.updateRunStatus v ..) => v == run
  | _ => false

/-- Whether a turn has a run leave a step: it launches a step of the run or asks for the end of the
run. -/
def Turn.leaves (own : List Uid) (run : Uid) (t : Turn) : Bool := t.launches own || t.asksEnd run

/-- How often a program takes a turn of a kind. -/
def turnsOf (k : Nat) (w : Turn → Bool) (log : List Turn) : Nat :=
  log.countP fun t ↦ w t && t.program == k

/-- A turn in which a program looks a step up and finds it. -/
abbrev Turn.finding (k : Nat) (s : Scene) (u : Uid) (x : StepInstance) : Turn :=
  ⟨k, s, .store (.getStep u), (.ok (some x) : Except EngineError (Option StepInstance))⟩

/-- The first that a program does is to look a step up, and this is what it finds. -/
def FirstFinds (u : Uid) (k : Nat) (x : StepInstance) (log : List Turn) : Prop :=
  ∃ l₁ s l₂, log = l₁ ++ .finding k s u x :: l₂ ∧ ∀ t ∈ l₁, t.program ≠ k

theorem FirstFinds.concat {u : Uid} {k : Nat} {x : StepInstance} {log : List Turn}
    (h : FirstFinds u k x log) (t : Turn) : FirstFinds u k x (log ++ [t]) := by
  obtain ⟨l₁, s, l₂, rfl, hfirst⟩ := h
  exact ⟨l₁, s, l₂ ++ [t], by simp, hfirst⟩

/-! ## How far along a stage is -/

namespace Errand.Stage

variable {st : Stage} {m : StepResult} {v : Uid}

/-- How far along a stage is. A repetition has been granted from 4 on, a step has been launched or
the run has ended from 5 on, and work has been handed over, or never will be, from 6 on. -/
@[simp]
def rank : Stage → Nat
  | .unread => 0
  | .read _ => 1
  | .written => 2
  | .reread _ => 3
  | .granted => 4
  | .launched _ false => 5
  | .launched _ true => 6
  | .ended => 7

theorem rank_le_find (h : st.Seeks) (x : StepInstance) : st.rank ≤ (st.find x).rank := by
  cases st with
  | unread | written => simp [find]
  | _ => exact h.elim

theorem MayRepeat.ready (h : st.MayRepeat m) : st.Ready m := by
  cases st with
  | read | reread => exact h
  | _ => exact h.elim

theorem MayRepeat.rank_lt (h : st.MayRepeat m) : st.rank < 4 := by
  cases st with
  | read | reread => simp
  | _ => exact h.elim

theorem MayLaunch.rank_lt (h : st.MayLaunch m v) : st.rank < 5 := by
  cases st with
  | read | reread | granted => simp
  | _ => exact h.elim

theorem Ready.rank_lt (h : st.Ready m) : st.rank < 7 := by
  rcases st with _ | _ | _ | _ | _ | ⟨_, _ | _⟩ | _
  case ended => exact h.elim
  all_goals simp

/-- A repetition has been granted, but nothing has been launched. -/
theorem eq_granted (h : 4 ≤ st.rank) (h' : ¬5 ≤ st.rank) : st = .granted := by
  rcases st with _ | _ | _ | _ | _ | ⟨_, _ | _⟩ | _
  case granted => rfl
  all_goals
    simp only [rank] at h h'
    omega

end Errand.Stage

namespace Errand

variable {e : Errand} {st : Stage} {t : Turn} {k : Nat} {log l : List Turn} {x : StepInstance}
variable {α : Type} {R : Rule} {pool pool' : List (Rest (Except EngineError α))} {s s' : Scene}

/-! ## Stages by turns -/

def afterTurn (e : Errand) (st : Stage) (t : Turn) : Stage :=
  e.after st t.moment.call t.moment.answer

/-- The stage that a program has reached by its turns. -/
def stageOf (e : Errand) (k : Nat) (log : List Turn) : Stage :=
  log.foldl (fun st t ↦ if t.program = k then e.afterTurn st t else st) .unread

theorem stageOf_concat_self (log : List Turn) (t : Turn) :
    e.stageOf t.program (log ++ [t]) = e.afterTurn (e.stageOf t.program log) t := by
  rw [stageOf, List.foldl_append, List.foldl_cons, if_pos rfl]
  rfl

theorem stageOf_concat_of_ne (h : t.program ≠ k) (log : List Turn) :
    e.stageOf k (log ++ [t]) = e.stageOf k log := by
  rw [stageOf, List.foldl_append, List.foldl_cons, if_neg h]
  rfl

/-- All turns have been taken on firm ground, with calls that are allowed. -/
inductive Abides (e : Errand) : List Turn → Prop where
  | none : Abides e []
  | turn {log : List Turn} {t : Turn} (before : Abides e log) (ground : e.Ground t.moment.scene)
      (admits : t.moment.scene.Admits t.moment.call t.moment.answer)
      (allowed : e.allows (e.stageOf t.program log) t.moment.call) : Abides e (log ++ [t])

/-- Handlings are under way: each goes on through its stages, on firm ground. -/
structure Underway (e : Errand) (Q : Stage → Except EngineError α → Prop) (log : List Turn)
    (pool : List (Rest (Except EngineError α))) (s : Scene) : Prop where
  ground : e.Ground s
  abides : e.Abides log
  pursues : ∀ k p, pool[k]? = some p → e.Pursues Q (e.stageOf k log) p

theorem Underway.turn {Q : Stage → Except EngineError α → Prop} (h : e.Underway Q log pool s)
    {next : t.moment.call.Answer → Rest (Except EngineError α)}
    (hp : pool[t.program]? = some (.call t.moment.call next)) (hs : t.moment.scene = s)
    (hadm : s.Admits t.moment.call t.moment.answer) :
    e.Underway Q (log ++ [t]) (pool.set t.program (next t.moment.answer)) t.after := by
  subst hs
  obtain ⟨hallowed, hnext⟩ := h.pursues _ _ hp
  refine ⟨h.ground.after (serves_of_allows hallowed) _, h.abides.turn h.ground hadm hallowed, ?_⟩
  intro k p hk
  by_cases hkt : t.program = k
  · subst hkt
    obtain rfl : next t.moment.answer = p := by
      rw [List.getElem?_set_self (List.getElem?_eq_some_iff.1 hp).1] at hk
      exact Option.some.inj hk
    rw [stageOf_concat_self]
    exact hnext _ _ h.ground hadm
  · rw [List.getElem?_set_ne hkt] at hk
    rw [stageOf_concat_of_ne hkt]
    exact h.pursues k p hk

theorem Underway.interleaves {Q : Stage → Except EngineError α → Prop} (h : e.Underway Q l pool s)
    (hrun : Interleaves R pool s log pool' s') : e.Underway Q (l ++ log) pool' s' :=
  hrun.holds (P := e.Underway Q) h fun _ _ _ _ _ _ hp hs hadm h ↦ h.turn hp hs hadm

/-! ## What one turn can do -/

/-- What a turn that is allowed makes of the stage. -/
inductive Turned (e : Errand) : Stage → Turn → Stage → Prop where
  /-- Neither the steps of the run nor its status are touched. -/
  | spare {st : Stage} {t : Turn} (begun : st ≠ .unread) (spares : e.Spares t.moment.call)
      (goes : ¬e.Concludes t.moment.call) (keeps : t.handsOver = false) : Turned e st t st
  | find {st : Stage} {i : Nat} {s : Scene} {x : StepInstance} (seeks : st.Seeks)
      (hx : s.tables.step? e.step = some x) :
      Turned e st (.finding i s e.step x) (st.find x)
  | write {i : Nat} {s : Scene} {x : StepInstance} {update : Store.StepUpdate}
      (hexpected : expectedRunCount x e.result = some update.expectedRunCount)
      (taken : (s.tables.answer (.applyStepResult e.step update)).1 = .ok true) :
      Turned e (.read x) ⟨i, s, .store (.applyStepResult e.step update), (.ok true : Except _ _)⟩
        .written
  | refuse {i : Nat} {s : Scene} {x : StepInstance} {update : Store.StepUpdate}
      {answer : Except EngineError Bool} (refused : answer ≠ .ok true)
      (hanswer : answer = (s.tables.answer (.applyStepResult e.step update)).1) :
      Turned e (.read x) ⟨i, s, .store (.applyStepResult e.step update), answer⟩ (.read x)
  | grant {st : Stage} {i : Nat} {s : Scene} (may : st.MayRepeat e.result) :
      Turned e st ⟨i, s, .store (.decrementRetry e.step), (.ok true : Except _ _)⟩ .granted
  | exhaust {st : Stage} {i : Nat} {s : Scene} {answer : Except EngineError Bool}
      (may : st.MayRepeat e.result) (exhausted : answer ≠ .ok true)
      (hanswer : answer = (s.tables.answer (.decrementRetry e.step)).1) :
      Turned e st ⟨i, s, .store (.decrementRetry e.step), answer⟩ st
  | select {st : Stage} {i : Nat} {s : Scene} {v : Uid} {name : String}
      {answer : Except EngineError Unit} (may : st.MaySelect e.result v) :
      Turned e st ⟨i, s, .store (.setSelectedCase v name), answer⟩ st
  | launch {st : Stage} {i : Nat} {s : Scene} {v : Uid} {input : Json.Object} {time : Instant}
      (own : v ∈ e.own) (may : st.MayLaunch e.result v) :
      Turned e st ⟨i, s, .store (.launchStep v input time), (.ok () : Except _ _)⟩
        (.launched v false)
  | handOver {t : Turn} {v : Uid} (spares : e.Spares t.moment.call)
      (goes : ¬e.Concludes t.moment.call) : Turned e (.launched v false) t (.launched v true)
  | finish {st : Stage} {i : Nat} {s : Scene} {status : RunStatus}
      {answer : Except EngineError Bool} (terminal : status.isTerminal = true)
      (ready : st.Ready e.result) :
      Turned e st ⟨i, s, .store (.updateRunStatus e.run status none), answer⟩ .ended

/-- **A turn that is allowed does one of these things.** -/
theorem turned_of_allowed (hs : e.Ground t.moment.scene)
    (hadm : t.moment.scene.Admits t.moment.call t.moment.answer)
    (hallowed : e.allows st t.moment.call) : e.Turned st t (e.afterTurn st t) := by
  obtain ⟨i, s, c, answer⟩ := t
  obtain ⟨hfirst, hc⟩ := hallowed
  -- Nothing but the first reading is done unread, so whatever else is asked has begun.
  have hbegun : (∀ v, c ≠ .store (.getStep v)) → st ≠ .unread := fun hne hst ↦ hne _ (hfirst hst)
  have hspare : (∀ v, c ≠ .store (.getStep v)) → e.Spares c → ¬e.Concludes c →
      Turn.handsOver ⟨i, s, c, answer⟩ = false → e.after st c answer = st →
        e.Turned st ⟨i, s, c, answer⟩ (e.after st c answer) := by
    intro hne hspares hgoes hkeeps hafter
    rw [hafter]
    exact .spare (hbegun hne) hspares hgoes hkeeps
  show e.Turned st _ (e.after st c answer)
  cases c with
  | store c =>
    have hanswer : answer = (s.tables.answer c).1 := hadm
    cases c with
    | getStep v =>
      by_cases hst : st.Seeks
      · obtain rfl : v = e.step := hc hst
        obtain ⟨x, hx⟩ := hs.there _ e.mem
        obtain rfl : answer = .ok (some x) := hanswer.trans (congrArg Except.ok hx)
        exact .find hst hx
      · have hafter : e.after st (.store (.getStep v)) answer = st := by
          rcases answer with err | _ | x
          · rfl
          · rfl
          · exact Stage.find_of_not_seeks hst
        rw [hafter]
        exact .spare (Stage.ne_unread_of_not_seeks hst) trivial id rfl
    | applyStepResult v update =>
      obtain ⟨rfl, x, rfl, hexpected⟩ := hc
      -- The answer tells whether the result has been written.
      rcases answer with err | _ | _
      · exact .refuse nofun hanswer
      · exact .refuse nofun hanswer
      · exact .write hexpected hanswer.symm
    | decrementRetry v =>
      obtain ⟨rfl, hmay⟩ := hc
      rcases answer with err | _ | _
      · exact .exhaust hmay nofun hanswer
      · exact .exhaust hmay nofun hanswer
      · exact .grant hmay
    | launchStep v input time =>
      show e.Turned st _ (if v ∈ e.own then _ else st)
      split
      · next hv =>
        obtain ⟨x, hx⟩ := hs.there v hv
        obtain rfl : answer = .ok () :=
          hanswer.trans (congrArg Prod.fst (Store.Tables.onStep_of_some hx _))
        exact .launch hv (hc hv)
      · next hv => exact .spare (hbegun nofun) hv id rfl
    | setSelectedCase v name =>
      by_cases hv : v ∈ e.own
      · exact .select (hc hv)
      · exact hspare nofun hv id rfl rfl
    | updateRunStatus v status expected =>
      show e.Turned st _ (if v = e.run then _ else st)
      split
      · next hv =>
        obtain ⟨hterminal, rfl, hready⟩ := hc hv
        subst hv
        exact .finish hterminal hready
      · next hv => exact .spare (hbegun nofun) trivial hv rfl
    | insertRun => exact hspare nofun (fun x hx ↦ (hc.2 x hx).1) id rfl rfl
    | getRun | listSteps | findStep | listTopLevelRuns | setRunStartTime | setRunEndTime
    | recordRunError | setRunOutput => exact hspare nofun trivial id rfl rfl
    | setHeldStep | takeHeldStep | updateStepStatus | setStepStartTime | setStepEndTime
    | deleteRuns => exact hc.elim
  | publish channel payload =>
    cases channel with
    | work =>
      obtain ⟨v, rfl⟩ := hc rfl
      exact .handOver trivial id
    | _ => exact hspare nofun trivial id rfl rfl
  | post =>
    obtain ⟨v, rfl⟩ := hc
    exact .handOver trivial id
  | getFunction | deployFunction | getWorkflow | getStepList | now | newUid | spawn =>
    exact hspare nofun trivial id rfl rfl

/-! ## What can be done once only -/

variable {st' : Stage} {n : Nat} {w : Turn → Bool}

theorem launches_of_spares (h : e.Spares t.moment.call) : t.launches e.own = false := by
  obtain ⟨i, s, c, answer⟩ := t
  cases c with
  | store c =>
    cases c with
    | launchStep v =>
      cases answer with
      | error => rfl
      | ok =>
        exact eq_false_of_ne_true fun hv ↦ h (List.contains_iff_mem.1 hv)
    | _ => rfl
  | _ => rfl

theorem grants_of_spares (h : e.Spares t.moment.call) : t.grants e.step = false := by
  obtain ⟨i, s, c, answer⟩ := t
  cases c with
  | store c =>
    cases c with
    | decrementRetry v =>
      rcases answer with err | _ | _
      · rfl
      · rfl
      · exact beq_eq_false_iff_ne.2 fun hv ↦ h (hv ▸ e.mem)
    | _ => rfl
  | _ => rfl

theorem leaves_of_spares (h : e.Spares t.moment.call) (hgoes : ¬e.Concludes t.moment.call) :
    t.leaves e.own e.run = false := by
  refine Bool.or_eq_false_iff.2 ⟨launches_of_spares h, ?_⟩
  obtain ⟨i, s, c, answer⟩ := t
  cases c with
  | store c =>
    cases c with
    | updateRunStatus => exact beq_eq_false_iff_ne.2 hgoes
    | _ => rfl
  | _ => rfl

theorem Turned.rank_le (h : e.Turned st t st') : st.rank ≤ st'.rank := by
  cases h with
  | spare | refuse | exhaust | select => exact Nat.le_refl _
  | find seeks => exact Stage.rank_le_find seeks _
  | write | handOver => simp
  | grant may => exact Nat.le_of_lt may.rank_lt
  | launch own may => exact Nat.le_of_lt may.rank_lt
  | finish _ ready => exact Nat.le_of_lt ready.rank_lt

/-- Whoever is granted a repetition has not moved the run on before. -/
theorem Turned.grants_once (h : e.Turned st t st') (hw : t.grants e.step = true) :
    st.rank < 4 ∧ 4 ≤ st'.rank := by
  cases h with
  | spare _ spares => cases (grants_of_spares spares).symm.trans hw
  | handOver spares => cases (grants_of_spares spares).symm.trans hw
  | grant may => exact ⟨may.rank_lt, Nat.le_refl _⟩
  | @exhaust _ _ _ answer _ exhausted =>
    rcases answer with err | _ | _
    · cases hw
    · cases hw
    · exact absurd rfl exhausted
  | _ => cases hw

/-- Whoever launches a step of the run has launched none before, and has not ended the run. -/
theorem Turned.launches_once (h : e.Turned st t st') (hw : t.launches e.own = true) :
    st.rank < 5 ∧ 5 ≤ st'.rank := by
  cases h with
  | spare _ spares => cases (launches_of_spares spares).symm.trans hw
  | handOver spares => cases (launches_of_spares spares).symm.trans hw
  | launch _ may => exact ⟨may.rank_lt, Nat.le_refl _⟩
  | _ => cases hw

/-- Whoever hands work over has launched a step, and hands no other work over. -/
theorem Turned.handsOver_once (h : e.Turned st t st') (hw : t.handsOver = true) :
    st.rank < 6 ∧ 6 ≤ st'.rank := by
  cases h with
  | spare _ _ _ keeps => cases keeps.symm.trans hw
  | handOver => simp
  | _ => cases hw

/-- A step of the run has been launched, or the run has been ended, by a turn that does so. -/
theorem Turned.left_iff (h : e.Turned st t st') :
    5 ≤ st'.rank ↔ 5 ≤ st.rank ∨ t.leaves e.own e.run = true := by
  cases h with
  | spare _ spares goes => simp [leaves_of_spares spares goes]
  | handOver spares goes => simp [leaves_of_spares spares goes]
  | find seeks =>
    cases st with
    | unread | written => simp [Stage.find, Turn.leaves, Turn.launches, Turn.asksEnd]
    | _ => exact seeks.elim
  | write | refuse | exhaust | select => simp [Turn.leaves, Turn.launches, Turn.asksEnd]
  | grant may =>
    have hst : ¬5 ≤ st.rank := fun hge ↦ absurd may.rank_lt (by omega)
    exact ⟨fun h ↦ absurd h (by decide), fun h ↦ h.elim (absurd · hst) nofun⟩
  | launch own => simp [Turn.leaves, Turn.launches, own]
  | finish => simp [Turn.leaves, Turn.asksEnd]

/-- A repetition has just been granted, or had been granted before. -/
theorem Turned.granted (h : e.Turned st t .granted) : st = .granted ∨ t.grants e.step = true := by
  generalize hst' : Stage.granted = st' at h
  cases h with
  | spare | exhaust | select => exact .inl rfl
  | find seeks =>
    cases st with
    | unread | written => cases hst'
    | _ => exact seeks.elim
  | grant => exact .inr (beq_self_eq_true e.step)
  | _ => cases hst'

/-! ## What a program has done -/

theorem Abides.turned (h : e.Abides (log ++ [t])) :
    e.Abides log ∧ e.Turned (e.stageOf t.program log) t (e.stageOf t.program (log ++ [t])) := by
  generalize hl : log ++ [t] = l at h
  cases h with
  | none => cases log <;> cases hl
  | turn before ground admits allowed =>
    obtain ⟨rfl, hlast⟩ := List.append_inj' hl rfl
    obtain rfl := List.singleton_inj.1 hlast
    exact ⟨before, stageOf_concat_self (e := e) log t ▸ turned_of_allowed ground admits allowed⟩

/-- **What takes a program past a point is done once**, and not at all if the point is not
reached. -/
theorem Abides.turnsOf_le (h : e.Abides log) (hw : ∀ {st t st'}, e.Turned st t st' → w t = true →
    st.rank < n ∧ n ≤ st'.rank) (k : Nat) :
    turnsOf k w log ≤ if n ≤ (e.stageOf k log).rank then 1 else 0 := by
  induction log using List.reverseRecOn with
  | nil => exact Nat.zero_le _
  | append_singleton log t ih =>
    obtain ⟨hbefore, hturn⟩ := h.turned
    have hcount := ih hbefore
    rw [turnsOf, List.countP_append, List.countP_singleton, ← turnsOf]
    by_cases hk : t.program = k
    · subst hk
      have hle := hturn.rank_le
      by_cases hwt : w t = true
      · -- The turn takes the program past the point, so it has not taken such a turn before.
        obtain ⟨hlt, hge⟩ := hw hturn hwt
        rw [if_neg (by omega)] at hcount
        rw [if_pos (by simp [hwt]), if_pos hge]
        omega
      · rw [if_neg (by simp [hwt])]
        split at hcount
        · rw [if_pos (by omega)]
          exact hcount
        · omega
    · rw [if_neg (by simp [hk]), stageOf_concat_of_ne hk]
      exact hcount

theorem Abides.induction_on (h : e.Abides log) {P : Stage → Prop} {k : Nat}
    (hw : ∀ {st t st'}, e.Turned st t st' → P st' → P st ∨ w t = true) (hnone : ¬P .unread)
    (hlast : P (e.stageOf k log)) : ∃ t ∈ log, t.program = k ∧ w t = true := by
  induction log using List.reverseRecOn with
  | nil => exact absurd hlast hnone
  | append_singleton log t ih =>
    obtain ⟨hbefore, hturn⟩ := h.turned
    have hprev : P (e.stageOf k log) → ∃ t' ∈ log ++ [t], t'.program = k ∧ w t' = true := fun hP ↦
      let ⟨t', ht', hdone⟩ := ih hbefore hP
      ⟨t', List.mem_append_left _ ht', hdone⟩
    by_cases hk : t.program = k
    · subst hk
      rcases hw hturn hlast with hP | hwt
      · exact hprev hP
      · exact ⟨t, by simp, rfl, hwt⟩
    · rw [stageOf_concat_of_ne hk] at hlast
      exact hprev hlast

/-- Whoever has come so far has launched a step of the run or ended the run. -/
theorem Abides.exists_leaves (h : e.Abides log) (hst : 5 ≤ (e.stageOf k log).rank) :
    ∃ t ∈ log, t.program = k ∧ t.leaves e.own e.run = true :=
  h.induction_on (P := fun st ↦ 5 ≤ st.rank) (fun hturn ↦ hturn.left_iff.1) (by simp) hst

theorem Abides.exists_grants (h : e.Abides log) (hst : e.stageOf k log = .granted) :
    ∃ t ∈ log, t.program = k ∧ t.grants e.step = true :=
  h.induction_on (P := (· = .granted)) (fun hturn hst ↦ (hst ▸ hturn).granted) nofun hst

/-- Whoever launches a step of the run or ends the run has come so far. -/
theorem Abides.le_rank (h : e.Abides log) (ht : t ∈ log) (hleaves : t.leaves e.own e.run = true) :
    5 ≤ (e.stageOf t.program log).rank := by
  induction log using List.reverseRecOn with
  | nil => cases ht
  | append_singleton log t' ih =>
    obtain ⟨hbefore, hturn⟩ := h.turned
    rcases List.mem_append.1 ht with hmem | hmem
    · have hst := ih hbefore hmem
      by_cases hk : t'.program = t.program
      · rw [hk] at hturn
        exact hturn.left_iff.2 (.inl hst)
      · rwa [stageOf_concat_of_ne hk]
    · obtain rfl := List.mem_singleton.1 hmem
      exact hturn.left_iff.2 (.inr hleaves)

/-! ## Why a program may do what it does -/

/-- A program has written the result. -/
def Writes (e : Errand) (k : Nat) (log : List Turn) : Prop :=
  0 < turnsOf k (Turn.applies e.step) log

/-- A program has written the result, or has found it written when it began. -/
def Entitled (e : Errand) (k : Nat) (log : List Turn) : Prop :=
  e.Writes k log ∨ ∃ x, FirstFinds e.step k x log ∧ repeatsLast x e.result = true

/-- What a program must have done to be at a stage. -/
def Earns (e : Errand) (k : Nat) (log : List Turn) : Stage → Prop
  | .unread => ∀ t ∈ log, t.program ≠ k
  | .read x => FirstFinds e.step k x log
  | .written | .reread _ => e.Writes k log
  | .granted | .launched .. | .ended => e.Entitled k log

theorem Writes.concat (h : e.Writes k log) (t : Turn) : e.Writes k (log ++ [t]) := by
  rw [Writes, turnsOf, List.countP_append]
  exact Nat.add_pos_left h _

theorem Entitled.concat (h : e.Entitled k log) (t : Turn) : e.Entitled k (log ++ [t]) :=
  h.imp (·.concat t) fun ⟨x, hx, hrepeats⟩ ↦ ⟨x, hx.concat t, hrepeats⟩

theorem Earns.concat (h : e.Earns k log st) (ht : st = .unread → t.program ≠ k) :
    e.Earns k (log ++ [t]) st := by
  cases st with
  | unread =>
    intro t' ht'
    rcases List.mem_append.1 ht' with hmem | hmem
    · exact h t' hmem
    · exact List.mem_singleton.1 hmem ▸ ht rfl
  | read => exact FirstFinds.concat h t
  | written | reread => exact Writes.concat h t
  | granted | launched | ended => exact Entitled.concat h t

theorem Earns.entitled (h : e.Earns k log st) (hst : st.Ready e.result) : e.Entitled k log := by
  cases st with
  | read x => exact .inr ⟨x, h, hst⟩
  | reread => exact .inl h
  | granted | launched => exact h
  | unread | written | ended => exact hst.elim

/-- **Every stage is earned.** -/
theorem Abides.earns (h : e.Abides log) (k : Nat) : e.Earns k log (e.stageOf k log) := by
  induction log using List.reverseRecOn with
  | nil => exact fun t ht ↦ nomatch ht
  | append_singleton log t ih =>
    obtain ⟨hbefore, hturn⟩ := h.turned
    have hearns := ih hbefore
    by_cases hk : t.program = k
    · subst hk
      -- Most turns leave the stage as it is. The others lead from one that has earned them.
      generalize e.stageOf t.program log = st at hearns hturn
      generalize e.stageOf t.program (log ++ [t]) = st' at hturn ⊢
      cases hturn with
      | spare begun => exact hearns.concat fun hst ↦ absurd hst begun
      | @find st i s x seeks =>
        cases st with
        | unread => exact ⟨log, s, [], rfl, hearns⟩
        | written => exact Writes.concat hearns _
        | _ => exact seeks.elim
      | write =>
        show 0 < turnsOf _ _ _
        rw [turnsOf, List.countP_append]
        exact Nat.add_pos_right _ (by simp [Turn.applies])
      | refuse => exact hearns.concat nofun
      | exhaust may => exact hearns.concat fun hst ↦ (hst ▸ may : Stage.MayRepeat _ .unread).elim
      | select may => exact hearns.concat fun hst ↦ (hst ▸ may : Stage.MaySelect _ _ .unread).elim
      | grant may => exact (hearns.entitled may.ready).concat _
      | launch _ may => exact (hearns.entitled may.ready).concat _
      | handOver => exact Entitled.concat hearns _
      | finish _ ready => exact (hearns.entitled ready).concat _
    · rw [stageOf_concat_of_ne hk]
      exact hearns.concat fun _ ↦ hk

theorem Abides.entitled (h : e.Abides log) (hmoved : 4 ≤ (e.stageOf k log).rank) :
    e.Entitled k log := by
  have hearns := h.earns k
  cases hst : e.stageOf k log with
  | granted | launched | ended => rwa [hst] at hearns
  | unread | read | written | reread =>
    rw [hst] at hmoved
    simp at hmoved

end Errand

end Engine

end Orchestration
