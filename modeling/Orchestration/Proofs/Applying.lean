import Mathlib.Data.List.Induction
import Orchestration.Proofs.Collaborators
import Orchestration.Proofs.Naming
import Orchestration.Proofs.Turns

/-!
# Results that are written

However many results and launches of a step are handled at the same time, a result is written onto
the step in one place only, and only if the step is in an attempt and has had as many results as the
result expects. A result that names its attempt expects one less than that. One that names none
expects what the step had had when it was read.

So the number of results that a step has had is the number of results that were written onto it.
Those who are careful of the step never change it, its record is made with none, and each result
that is written is one more (`Tally`). It follows that a result which names an attempt is the one of
that attempt, and that no attempt is written twice (`attempts_applied_once`).
-/

namespace Orchestration

namespace Engine

variable {R : Rule} {setup : Setup} {s s' : Scene} {u : Uid} {past past' log : List Turn}
variable {e : Turn} {i : Nat} {m : StepResult} {b : Bool}

/-! ## Counting results -/

/-- Whoever may have to do with a step: an operation, or a launch of a step apart from any. -/
inductive Party where
  | operation (o : Operation)
  | launch (step : StepInstance)
deriving Repr, Inhabited

def Party.program (setup : Setup) : Party → Rest (Except EngineError Unit)
  | .operation o => (o.action setup).run
  | .launch step => (setup.launchStep step).run

/-- Whether a turn writes a result onto a step. -/
def Turn.applies (u : Uid) (e : Turn) : Bool :=
  match e.moment with
  | ⟨_, .store (.applyStepResult v _), .ok true⟩ => v == u
  | _ => false

/-- How many results are written onto a step. -/
def applied (u : Uid) (log : List Turn) : Nat := log.countP (Turn.applies u)

theorem applied_append (u : Uid) (l l' : List Turn) :
    applied u (l ++ l') = applied u l + applied u l' :=
  List.countP_append

theorem applied_concat (u : Uid) (l : List Turn) (e : Turn) :
    applied u (l ++ [e]) = applied u l + if e.applies u then 1 else 0 := by
  rw [applied_append, applied, applied, List.countP_singleton]

theorem Turn.not_applies_of_careful {c : Call} {answer : c.Answer} (hc : c.careful u b) :
    Turn.applies u ⟨i, s, c, answer⟩ = false := by
  cases c with
  | store c =>
    cases c with
    | applyStepResult => exact hc.elim
    | _ => rfl
  | _ => rfl

theorem Turn.applies_taken {v : Uid} {update : Store.StepUpdate} :
    Turn.applies u ⟨i, s, .store (.applyStepResult v update), (.ok true : Except _ _)⟩ = (v == u) :=
      rfl

theorem Turn.applies_refused {v : Uid} {update : Store.StepUpdate}
    {answer : Except EngineError Bool} (h : answer ≠ .ok true) :
    Turn.applies u ⟨i, s, .store (.applyStepResult v update), answer⟩ = false := by
  rcases answer with e | _ | _
  · rfl
  · rfl
  · exact absurd rfl h

/-! ## How far a result is handled -/

/-- Whoever handles a result has read its step, and the step had had as many results then as had
been written. -/
def HasRead (u : Uid) (i : Nat) (x : StepInstance) (past : List Turn) : Prop :=
  ∃ l₁ r l₂, past = l₁ ++ r :: l₂ ∧ r.program = i ∧ r.moment.call = .store (.getStep u) ∧
    r.applies u = false ∧ x.runCount = applied u l₁

theorem HasRead.concat {x : StepInstance} (h : HasRead u i x past) (e : Turn) :
    HasRead u i x (past ++ [e]) := by
  obtain ⟨l₁, r, l₂, rfl, hr⟩ := h
  exact ⟨l₁, r, l₂ ++ [e], by simp, hr⟩

/-- What is left of a program that handles a result, as long as the result has not been offered to
the store. -/
inductive Handling (setup : Setup) (u : Uid) (i : Nat) (m : StepResult) (past : List Turn) :
    Rest (Except EngineError Unit) → Prop where
  | unread : Handling setup u i m past (setup.processResult m).run
  | read (x : StepInstance) (expected : Int)
      (next : Instant → Except EngineError Bool → Rest (Except EngineError Unit))
      (hx : x.uid = m.stepInstanceId) (hread : m.stepInstanceId = u → HasRead u i x past)
      (hexpected : expectedRunCount x m = some expected)
      (hnext : ∀ time answer, Minds u (fun b _ ↦ b = false) false (next time answer)) :
      Handling setup u i m past (.call .now fun time ↦
        .call (.store (.applyStepResult x.uid (updateOf m time expected))) (next time))
  | offering (x : StepInstance) (expected : Int) (time : Instant)
      (next : Except EngineError Bool → Rest (Except EngineError Unit))
      (hx : x.uid = m.stepInstanceId) (hread : m.stepInstanceId = u → HasRead u i x past)
      (hexpected : expectedRunCount x m = some expected)
      (hnext : ∀ answer, Minds u (fun b _ ↦ b = false) false (next answer)) :
      Handling setup u i m past
        (.call (.store (.applyStepResult x.uid (updateOf m time expected))) next)

/-- A program that has read the step of its result goes on to offer the result to the store, or the
result is refused at once. -/
theorem handling_of_read {x : StepInstance} (hx : x.uid = m.stepInstanceId)
    (hread : m.stepInstanceId = u → HasRead u i x past) :
    Handling setup u i m past (applyResult x m >>= setup.seeTo x m).run ∨
      Careful u (applyResult x m >>= setup.seeTo x m) := by
  have hcareful := habit_careful u
  unfold applyResult
  cases hexp : expectedRunCount x m with
  | none =>
    refine .inr (hcareful.bind (hcareful.pure none) fun applied ↦ ?_)
    exact hcareful.seeTo setup x m applied
  | some expected =>
    refine .inl (.read x expected _ hx hread hexp fun time answer ↦ ?_)
    show Careful u ((Action.ofExcept answer >>= fun ok ↦ if ok then
      announceStep x m.runStatus >>= fun _ ↦ readStep x.uid >>= fun y ↦ pure (some y)
      else pure none) >>= setup.seeTo x m)
    refine hcareful.bind (hcareful.plain (.bind (.ofExcept answer) fun ok ↦ .ite ?_ (.pure none)))
      fun applied ↦ hcareful.seeTo setup x m applied
    exact .bind (harmless_announce _).plain fun _ ↦ .bind
      (harmless_readStep _).plain fun y ↦ .pure _

/-! ## The tally -/

/-- What is left of a party that makes its calls at a place. The flag says whether it has been given
the identifier of the step and has not used it. -/
inductive Tended (setup : Setup) (parties : List Party) (u : Uid) (past : List Turn) (i : Nat) :
    Bool → Rest (Except EngineError Unit) → Prop where
  | careful {b : Bool} {p : Rest (Except EngineError Unit)}
      (h : Minds u (fun b _ ↦ b = false) b p) : Tended setup parties u past i b p
  | handling {p : Rest (Except EngineError Unit)} (m : StepResult)
      (hm : parties[i]? = some (.operation (.result m))) (h : Handling setup u i m past p) :
      Tended setup parties u past i false p

/-- The number of results that a step has had is the number of those that were written onto it. One
program at most has its identifier to use, and before that is used there is no such step. -/
structure Tally (u : Uid) (past : List Turn) (s : Scene) (holder : Option Nat) : Prop where
  count : ∀ x ∈ s.tables.steps, x.uid = u → x.runCount = applied u past
  given : ∀ i ∈ holder, u ∈ s.issued
  unmade : u ∉ s.issued ∨ holder.isSome → applied u past = 0 ∧ ∀ x ∈ s.tables.steps, x.uid ≠ u

theorem Tally.newUid {holder : Option Nat} (h : Tally u past s holder) {v : Uid} (hv : v ∉ s.issued)
    (hpast : applied u past' = applied u past) :
    ∃ holder', (holder' == some i) = ((holder == some i) || v == u) ∧
      (∀ j, j ≠ i → (holder' == some j) = (holder == some j)) ∧
        Tally u past' (s.issue v) holder' := by
  by_cases hvu : v = u
  · -- The identifier is given out for the first time, so nobody has had it.
    subst hvu
    obtain rfl : holder = none := Option.eq_none_iff_forall_not_mem.2 fun j hj ↦ hv (h.given j hj)
    refine ⟨some i, by simp, fun j hj ↦ by simp [Ne.symm hj], ?_, ?_, ?_⟩
    · exact fun x hx hu ↦ hpast ▸ h.count x hx hu
    · exact fun j _ ↦ List.mem_append_right _ List.mem_cons_self
    · exact fun _ ↦ hpast ▸ h.unmade (.inl hv)
  · refine ⟨holder, by simp [hvu], fun j _ ↦ rfl, ?_, ?_, ?_⟩
    · exact fun x hx hu ↦ hpast ▸ h.count x hx hu
    · exact fun j hj ↦ List.mem_append_left _ (h.given j hj)
    · exact fun hno ↦ hpast ▸ h.unmade (hno.imp_left fun hu hmem ↦ hu (List.mem_append_left _ hmem))

theorem Tally.careful {holder : Option Nat} (h : Tally u past s holder) {c : Call}
    {answer : c.Answer} (hc : c.careful u (holder == some i)) (hadm : s.Admits c answer)
    (hpast : applied u past' = applied u past) :
    ∃ holder', (holder' == some i) = c.leaves u (holder == some i) answer ∧
      (∀ j, j ≠ i → (holder' == some j) = (holder == some j)) ∧
      Tally u past' (s.after c answer) holder' := by
  by_cases hnew : c = .newUid
  · subst hnew
    exact h.newUid hadm hpast
  have hissued := c.issued_after answer hnew (s := s)
  by_cases hsame : c.leaves u (holder == some i) answer = (holder == some i)
  · refine ⟨holder, hsame.symm, fun j _ ↦ rfl, fun x hx hu ↦ ?_, fun j hj ↦ ?_, fun hno ↦ ?_⟩
    · rcases c.steps_of_careful hc answer hx hu with ⟨y, hy, hyu, hcount⟩ | ⟨hb, hleft, -⟩
      · rw [← hcount, hpast, h.count y hy hyu]
      · cases (hsame.symm.trans hleft).symm.trans hb
    · exact hissued ▸ h.given j hj
    · rw [hissued] at hno
      obtain ⟨hzero, hnone⟩ := h.unmade hno
      refine ⟨hpast.trans hzero, fun x hx hu ↦ ?_⟩
      rcases c.steps_of_careful hc answer hx hu with ⟨y, hy, hyu, -⟩ | ⟨hb, hleft, -⟩
      · exact hnone y hy hyu
      · cases (hsame.symm.trans hleft).symm.trans hb
  · -- The identifier has been used, and nobody has it any more.
    have hleft : c.leaves u (holder == some i) answer = false :=
      (c.leaves_cases answer hnew u _).resolve_left hsame
    have hholder : holder = some i := by
      rw [hleft] at hsame
      simpa using Ne.symm hsame
    subst hholder
    obtain ⟨hzero, hnone⟩ := h.unmade (.inr rfl)
    refine ⟨none, hleft.symm, fun j hj ↦ by simp [Ne.symm hj], fun x hx hu ↦ ?_,
      nofun, fun hno ↦ ?_⟩
    · rcases c.steps_of_careful hc answer hx hu with ⟨y, hy, hyu, -⟩ | ⟨-, -, hcount⟩
      · exact absurd hyu (hnone y hy)
      · rw [hcount, hpast, hzero]
        rfl
    · rcases hno with hno | hno
      · exact absurd (hissued ▸ h.given i rfl) hno
      · cases hno

theorem mem_of_refused {t : Store.Tables} {v : Uid} {update : Store.StepUpdate} {x : StepInstance}
    (h : (t.answer (.applyStepResult v update)).1 ≠ .ok true)
    (hx : x ∈ (t.answer (.applyStepResult v update)).2.steps) : x ∈ t.steps := by
  cases hbeyond : t.isBeyondCount v update with
  | true =>
    rw [Store.Tables.answer_of_isBeyondCount hbeyond] at hx
    exact hx
  | false =>
  rw [Store.Tables.answer_applyStepResult hbeyond] at h hx
  cases hv : t.step? v with
  | none =>
    rw [Store.Tables.onStep_of_none hv] at hx
    exact hx
  | some y =>
    rw [Store.Tables.onStep_of_some hv] at h hx
    by_cases hno : y.runStatus ≠ .running ∨ y.runCount ≠ update.expectedRunCount
    · rw [Store.Tables.withResult, if_pos hno] at hx
      rcases Store.mem_overwrite hx with rfl | ⟨hx, -⟩
      · exact (Store.Tables.mem_of_step? hv).1
      · exact hx
    · rw [Store.Tables.withResult, if_neg hno] at h
      exact absurd rfl h

/-- A result that the store refuses changes nothing in the tally. -/
theorem Tally.refused {holder : Option Nat} (h : Tally u past s holder) {v : Uid}
    {update : Store.StepUpdate} (hpast : applied u past' = applied u past)
    (hrefused : (s.tables.answer (.applyStepResult v update)).1 ≠ .ok true) :
    Tally u past' (s.afterStore (.applyStepResult v update)) holder where
  count := fun x hx hu ↦ hpast ▸ h.count x (mem_of_refused hrefused hx) hu
  given := h.given
  unmade := fun hfree ↦ ⟨hpast.trans (h.unmade hfree).1,
    fun x hx ↦ (h.unmade hfree).2 x (mem_of_refused hrefused hx)⟩

theorem Tally.taken {holder : Option Nat} (h : Tally u past s holder) {v : Uid}
    {update : Store.StepUpdate} (hpast : applied u past' = applied u past + if v = u then 1 else 0)
    (htaken : (s.tables.answer (.applyStepResult v update)).1 = .ok true) :
    Tally u past' (s.afterStore (.applyStepResult v update)) holder := by
  obtain ⟨y, hy, hrunning, hcount, htables⟩ := Store.Tables.answer_accepted htaken
  obtain ⟨hmem, rfl⟩ := Store.Tables.mem_of_step? hy
  have hwritten : (Store.Tables.withResult update y).2.uid = y.uid ∧
      (Store.Tables.withResult update y).2.runCount = y.runCount + 1 := by
    rw [Store.Tables.withResult, if_neg (by simp [hrunning, hcount])]
    exact ⟨rfl, rfl⟩
  have hsteps : ∀ x ∈ (s.afterStore (.applyStepResult y.uid update)).tables.steps,
      x = (Store.Tables.withResult update y).2 ∨ x ∈ s.tables.steps ∧ x.uid ≠ y.uid := by
    intro x hx
    have hx : x ∈ (s.tables.answer (.applyStepResult y.uid update)).2.steps := hx
    rw [htables] at hx
    exact hwritten.1 ▸ Store.mem_overwrite hx
  refine ⟨fun x hx hu ↦ ?_, h.given, fun hfree ↦ ?_⟩
  · rcases hsteps x hx with rfl | ⟨hx, hne⟩
    · have hyu : y.uid = u := hwritten.1.symm.trans hu
      rw [hwritten.2, hpast, if_pos hyu, h.count y hmem hyu]
      push_cast
      rfl
    · rw [hpast, if_neg fun hyu ↦ hne (hu.trans hyu.symm), h.count x hx hu]
      rfl
  · obtain ⟨hzero, hnone⟩ := h.unmade hfree
    have hyu : y.uid ≠ u := hnone y hmem
    refine ⟨by rw [hpast, if_neg hyu, hzero], fun x hx ↦ ?_⟩
    rcases hsteps x hx with rfl | ⟨hx, -⟩
    · exact hwritten.1 ▸ hyu
    · exact hnone x hx

theorem Tally.offered {holder : Option Nat} (h : Tally u past s holder) {v : Uid}
    {update : Store.StepUpdate} {answer : Except EngineError Bool}
    (hadm : s.Admits (.store (.applyStepResult v update)) answer) :
    Tally u (past ++ [⟨i, s, .store (.applyStepResult v update), answer⟩])
      (s.afterStore (.applyStepResult v update)) holder := by
  have hans : answer = (s.tables.answer (.applyStepResult v update)).1 := hadm
  by_cases htaken : answer = .ok true
  · subst htaken
    refine h.taken ?_ hans.symm
    rw [applied_concat, Turn.applies_taken]
    simp
  · refine h.refused ?_ (hans ▸ htaken)
    rw [applied_concat, Turn.applies_refused htaken]
    rfl

/-! ## Turn by turn -/

variable {parties : List Party} {pool pool' : List (Rest (Except EngineError Unit))}

/-- All parties are tended to, and the tally is right. -/
def Tending (setup : Setup) (parties : List Party) (u : Uid) (past : List Turn)
    (pool : List (Rest (Except EngineError Unit))) (s : Scene) : Prop :=
  ∃ holder : Option Nat, Tally u past s holder ∧
    ∀ i p, pool[i]? = some p → Tended setup parties u past i (holder == some i) p

theorem Handling.concat {p : Rest (Except EngineError Unit)} (h : Handling setup u i m past p)
    (e : Turn) : Handling setup u i m (past ++ [e]) p := by
  cases h with
  | unread => exact .unread
  | read x expected next hx hread hexpected hnext =>
    exact .read x expected next hx (fun hu ↦ (hread hu).concat e) hexpected hnext
  | offering x expected time next hx hread hexpected hnext =>
    exact .offering x expected time next hx (fun hu ↦ (hread hu).concat e) hexpected hnext

theorem Tended.concat {p : Rest (Except EngineError Unit)} (h : Tended setup parties u past i b p)
    (e : Turn) : Tended setup parties u (past ++ [e]) i b p := by
  cases h with
  | careful h => exact .careful h
  | handling m hm h => exact .handling m hm (h.concat e)

theorem tended_set {holder holder' : Option Nat}
    (h : ∀ i p, pool[i]? = some p → Tended setup parties u past i (holder == some i) p)
    (hothers : ∀ j, j ≠ e.program → (holder' == some j) = (holder == some j))
    {p : Rest (Except EngineError Unit)}
    (hp : Tended setup parties u (past ++ [e]) e.program (holder' == some e.program) p) :
    ∀ i k, (pool.set e.program p)[i]? = some k →
      Tended setup parties u (past ++ [e]) i (holder' == some i) k := by
  intro i k hk
  by_cases hi : e.program = i
  · subst hi
    obtain rfl : k = p := by simpa using (List.getElem?_eq_some_iff.1 hk).2.symm
    exact hp
  · rw [List.getElem?_set_ne hi] at hk
    rw [hothers i (Ne.symm hi)]
    exact (h i k hk).concat e

/-- A call that writes no result and after which the records are as before keeps the tally. -/
theorem Tally.congr {holder : Option Nat} (h : Tally u past s holder)
    (hpast : applied u past' = applied u past) : Tally u past' s holder :=
  ⟨hpast ▸ h.count, h.given, hpast ▸ h.unmade⟩

/-- The handling of a result begins with the step, and goes on with what is found. -/
theorem run_processResult (setup : Setup) (m : StepResult) : ∃ next,
    (setup.processResult m).run = .call (.store (.getStep m.stepInstanceId)) next ∧
      next (.ok none) = .done (.error (.stepInstanceNotFound m.stepInstanceId)) ∧
      ∀ x, next (.ok (some x)) = (applyResult x m >>= setup.seeTo x m).run := by
  rw [processResult_eq]
  exact ⟨_, rfl, rfl, fun x ↦ rfl⟩

theorem Handling.turn {holder : Option Nat} (htally : Tally u past s holder)
    (hm : parties[i]? = some (.operation (.result m))) {c : Call}
    {next : c.Answer → Rest (Except EngineError Unit)} {answer : c.Answer}
    (h : Handling setup u i m past (.call c next)) (hadm : s.Admits c answer) :
    Tally u (past ++ [⟨i, s, c, answer⟩]) (s.after c answer) holder ∧
      Tended setup parties u (past ++ [⟨i, s, c, answer⟩]) i false (next answer) := by
  generalize hk : Program.call c next = k at h
  cases h with
  | unread =>
    obtain ⟨next', hrun, hnone, hsome⟩ := run_processResult setup m
    cases hk.trans hrun
    obtain rfl : answer = .ok (s.tables.step? m.stepInstanceId) := hadm
    have hpast : applied u (past ++ [⟨i, s, .store (.getStep m.stepInstanceId),
        (.ok (s.tables.step? m.stepInstanceId) : Except _ _)⟩]) = applied u past :=
          applied_concat ..
    have hafter : s.afterStore (.getStep m.stepInstanceId) = s := afterStore_of_isReading rfl s
    refine ⟨?_, ?_⟩
    · show Tally _ _ (s.afterStore _) _
      rw [hafter]
      exact htally.congr hpast
    cases hstep : s.tables.step? m.stepInstanceId with
    | none =>
      rw [hnone]
      exact .careful rfl
    | some x =>
      obtain ⟨hmem, hx⟩ := Store.Tables.mem_of_step? hstep
      rw [hsome]
      have hread : m.stepInstanceId = u → HasRead u i x
          (past ++ [⟨i, s, .store (.getStep m.stepInstanceId), (.ok (some x) : Except _ _)⟩]) :=
        fun hu ↦ ⟨past, _, [], rfl, rfl, congrArg (fun v ↦ Call.store (.getStep v)) hu, rfl,
          htally.count x hmem (hx.trans hu)⟩
      have hrest : Handling setup u i m _ (applyResult x m >>= setup.seeTo x m).run ∨ _ :=
        handling_of_read hx hread
      rcases hrest with h | h
      · exact .handling m hm h
      · exact .careful h
  | read x expected next hx hread hexpected hnext =>
    cases hk
    exact ⟨htally.congr (applied_concat ..),
      .handling m hm (.offering x expected answer _ hx (fun hu ↦ (hread hu).concat _) hexpected
        (hnext answer))⟩
  | offering x expected time next hx hread hexpected hnext =>
    cases hk
    exact ⟨htally.offered hadm, .careful (hnext answer)⟩

/-- Every turn keeps the tally, and leaves all parties tended to. -/
theorem Tending.turn {next : e.moment.call.Answer → Rest (Except EngineError Unit)}
    (h : Tending setup parties u past pool s)
    (hp : pool[e.program]? = some (.call e.moment.call next)) (hs : e.moment.scene = s)
    (hadm : s.Admits e.moment.call e.moment.answer) :
    Tending setup parties u (past ++ [e]) (pool.set e.program (next e.moment.answer)) e.after := by
  obtain ⟨holder, htally, htended⟩ := h
  obtain ⟨i, t, c, answer⟩ := e
  subst hs
  have hparty := htended i _ hp
  generalize hb : (holder == some i) = b at hparty
  generalize hk : Program.call c next = k at hparty
  cases hparty with
  | careful hminds =>
    subst hk hb
    obtain ⟨hcareful, hrest⟩ := hminds
    have hpast : applied u (past ++ [⟨i, t, c, answer⟩]) = applied u past := by
      rw [applied_concat, Turn.not_applies_of_careful hcareful]
      rfl
    obtain ⟨holder', hself, hothers, htally'⟩ := htally.careful hcareful hadm hpast
    exact ⟨holder', htally', tended_set htended hothers (.careful (hself ▸ hrest answer))⟩
  | handling m hm hhandling =>
    subst hk
    obtain ⟨htally', hrest⟩ := hhandling.turn htally hm hadm
    exact ⟨holder, htally', tended_set htended (fun _ _ ↦ rfl) (hb ▸ hrest)⟩

end Engine

end Orchestration
