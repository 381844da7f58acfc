import Orchestration.Proofs.Effects
import Orchestration.Proofs.Recording

/-!
# The budget of repetitions

A step may be repeated as often as its definition says. One of its repetitions is used up before the
step is launched again (`Moment.grants`), and these are two calls: what lies between them may fail.
The operation that is tried again then uses up another repetition, and the one before has lapsed
(`lapses`).

So the launches of a step do not count the repetitions that were used up, but they do together with
the lapses: `retries_accounted`. The invariant (`Balanced`) is an account of the step, kept by every
deed (`Balanced.after`). It speaks of steps that are no loops, in runs whose stop conditions name no
step but their own and say the same whenever they are evaluated, while no result says that a step is
new: such steps are launched for the first time when the run arrives at them, and after that only
when they have been granted a repetition.
-/

namespace Orchestration

namespace Engine

variable {R : Rule} {setup : Setup} {G : Uid → Prop} {o : Operation} {s₀ s s' : Scene}
variable {log l : List Moment} {past : List Done} {x₀ x : StepInstance} {u : Uid}

/-! ## Counting -/

def launchesOf (u : Uid) (log : List Moment) : Nat := log.countP (·.launches u)

/-- How often a repetition of a step is used up. -/
def grantsOf (u : Uid) (log : List Moment) : Nat := log.countP (·.grants u)

/-- Whether a repetition of a step is used up for nothing. -/
def lapses (u : Uid) (log : List Moment) : Bool := log.any (·.grants u) && !log.any (·.launches u)

/-- How many operations have used up a repetition of a step for nothing. -/
def lapsesOf (u : Uid) (past : List Done) : Nat := past.countP fun d ↦ lapses u d.log

theorem launchesOf_append (log l : List Moment) :
    launchesOf u (log ++ l) = launchesOf u log + launchesOf u l := List.countP_append

theorem grantsOf_append (log l : List Moment) :
    grantsOf u (log ++ l) = grantsOf u log + grantsOf u l := List.countP_append

theorem lapsesOf_concat (past : List Done) (d : Done) :
    lapsesOf u (past ++ [d]) = lapsesOf u past + (lapses u d.log).toNat := by
  rw [lapsesOf, List.countP_append, ← lapsesOf, List.countP_singleton]
  cases lapses u d.log <;> rfl

theorem grantsOf_eq_zero : grantsOf u log = 0 ↔ ∀ m ∈ log, m.grants u = false := by
  simp [grantsOf, List.countP_eq_zero]

theorem launchesOf_eq_zero : launchesOf u log = 0 ↔ ∀ m ∈ log, m.launches u = false := by
  simp [launchesOf, List.countP_eq_zero]

theorem lapses_of_ungranted (h : ∀ m ∈ log, m.grants u = false) : lapses u log = false := by
  have hany : log.any (·.grants u) = false := by
    rw [List.any_eq_false]
    intro m hm
    simp [h m hm]
  rw [lapses, hany, Bool.false_and]

/-- A repetition is not used up for nothing if the step is launched. -/
theorem lapses_of_launched {m : Moment} (hm : m ∈ log) (h : m.launches u = true) :
    lapses u log = false := by
  rw [lapses, List.any_eq_true.2 ⟨m, hm, h⟩]
  simp

/-- Calls that neither grant a step a repetition nor launch it are of no account. -/
theorem counts_append_of_none (h : ∀ m ∈ l, m.grants u = false ∧ m.launches u = false)
    (log : List Moment) : grantsOf u (log ++ l) = grantsOf u log ∧
      launchesOf u (log ++ l) = launchesOf u log ∧ lapses u (log ++ l) = lapses u log := by
  refine ⟨?_, ?_, ?_⟩
  · rw [grantsOf_append, grantsOf_eq_zero.2 fun m hm ↦ (h m hm).1, Nat.add_zero]
  · rw [launchesOf_append, launchesOf_eq_zero.2 fun m hm ↦ (h m hm).2, Nat.add_zero]
  · have hg : l.any (·.grants u) = false := List.any_eq_false.2 fun m hm ↦ by simp [(h m hm).1]
    have hl : l.any (·.launches u) = false := List.any_eq_false.2 fun m hm ↦ by simp [(h m hm).2]
    rw [lapses, lapses, List.any_append, List.any_append, hg, hl, Bool.or_false, Bool.or_false]

/-- Whether an operation is to handle a result which says that its step is new. -/
def Operation.saysNew : Operation → Bool
  | .result m => m.runStatus == .new
  | _ => false

/-! ## The account of a step -/

/-- The account of a step that was made with so many repetitions, after some operations and what the
current one has done so far. -/
structure Balanced (x₀ : StepInstance) (past : List Done) (log : List Moment) (x : StepInstance) :
    Prop where
  same : SameStep x₀ x
  nonneg : 0 ≤ x.retryCount
  retries : x.retryCount + grantsOf x₀.uid (logOf past ++ log) = x₀.retryCount
  /-- A step that has never been launched has not been repeated. -/
  fresh : x.runStatus = .new → grantsOf x₀.uid (logOf past ++ log) = 0
  balance : launchesOf x₀.uid (logOf past ++ log) +
      (lapsesOf x₀.uid past + (lapses x₀.uid log).toNat) =
    grantsOf x₀.uid (logOf past ++ log) + if x.runStatus = .new then 0 else 1

theorem Balanced.of_none {y : StepInstance} (h : Balanced x₀ past log x)
    (hl : ∀ m ∈ l, m.grants x₀.uid = false ∧ m.launches x₀.uid = false) (hsame : SameStep x y)
    (hretry : y.retryCount = x.retryCount) (hnew : y.runStatus = .new ↔ x.runStatus = .new) :
    Balanced x₀ past (log ++ l) y := by
  obtain ⟨hgrants, hlaunches, -⟩ := counts_append_of_none hl (logOf past ++ log)
  obtain ⟨-, -, hlapses⟩ := counts_append_of_none hl log
  rw [List.append_assoc] at hgrants hlaunches
  refine ⟨h.same.trans hsame, hretry ▸ h.nonneg, ?_, ?_, ?_⟩
  · rw [hgrants, hretry]
    exact h.retries
  · rw [hgrants, hnew]
    exact h.fresh
  · rw [hgrants, hlaunches, hlapses]
    simpa only [hnew] using h.balance

private theorem ne_new_of_failed (h : x.runStatus = .failed ∨ x.runStatus = .timedOut) :
    x.runStatus ≠ .new := by
  rcases h with h | h
  · rw [h]
    decide
  · rw [h]
    decide

/-- A launch balances the account: it is the first one, or a repetition has just been granted for
it. -/
theorem Balanced.launch (h : Balanced x₀ past log x) (hG : G x₀.workflowInstanceUid)
    (hloop : ∀ f text, x₀.shape ≠ .doWhile f text) (hwhy : Occasion G log x) (input : Json.Object)
    (time : Instant) : Balanced x₀ past
      (log ++ [⟨s, .store (.launchStep x₀.uid input time), .ok ()⟩])
      (Store.Tables.launched input time x) := by
  set m : Moment := ⟨s, .store (.launchStep x₀.uid input time), .ok ()⟩
  have hm : m.launches x₀.uid = true := beq_self_eq_true x₀.uid
  have hgrants : grantsOf x₀.uid (logOf past ++ (log ++ [m])) =
      grantsOf x₀.uid (logOf past ++ log) := by
    rw [← List.append_assoc, grantsOf_append (logOf past ++ log) [m]]
    exact Nat.add_zero _
  have hlaunches : launchesOf x₀.uid (logOf past ++ (log ++ [m])) =
      launchesOf x₀.uid (logOf past ++ log) + 1 := by
    rw [← List.append_assoc, launchesOf_append (logOf past ++ log) [m]]
    exact congrArg _ (List.countP_singleton.trans (if_pos hm))
  have hafter : lapses x₀.uid (log ++ [m]) = false :=
    lapses_of_launched (List.mem_append_right _ (List.mem_singleton_self m)) hm
  have hbalance := h.balance
  refine ⟨h.same.trans ⟨rfl, rfl, rfl, rfl, rfl⟩, h.nonneg, ?_, fun hno ↦ (nomatch hno), ?_⟩
  · rw [hgrants]
    exact h.retries
  · have hrunning : (Store.Tables.launched input time x).runStatus ≠ .new := fun hno ↦ nomatch hno
    rw [hgrants, hlaunches, hafter, if_neg hrunning]
    rcases hwhy with hnew | ⟨f, text, hshape, -⟩ | ⟨hfailed, ⟨m', hm', hgranted⟩, hfirst⟩
    · -- The run arrives at the step, which has never been repeated.
      have hnew := hnew (h.same.run ▸ hG)
      have hzero := h.fresh hnew
      rw [if_pos hnew, hzero] at hbalance
      rw [hzero]
      simp only [Bool.toNat_false]
      omega
    · exact absurd (h.same.shape.symm.trans hshape) (hloop f text)
    · -- The repetition that has been granted is no longer about to lapse.
      have hbefore : lapses x₀.uid log = true := by
        rw [lapses, List.any_eq_true.2 ⟨m', hm', h.same.uid ▸ hgranted⟩, Bool.true_and,
          List.any_eq_false.2 fun m hm ↦ by simp [h.same.uid ▸ hfirst m hm]]
        rfl
      rw [if_neg (ne_new_of_failed hfailed), hbefore] at hbalance
      simp only [Bool.toNat_false, Bool.toNat_true] at hbalance ⊢
      omega

theorem Balanced.grant (h : Balanced x₀ past log x)
    (hfailed : x.runStatus = .failed ∨ x.runStatus = .timedOut) (hleft : 0 < x.retryCount)
    (hfirst : ∀ m ∈ log, m.grants x₀.uid = false ∧ m.launches x₀.uid = false) :
    Balanced x₀ past (log ++ [⟨s, .store (.decrementRetry x₀.uid), .ok true⟩])
      { x with retryCount := x.retryCount - 1 } := by
  set m : Moment := ⟨s, .store (.decrementRetry x₀.uid), .ok true⟩
  have hm : m.grants x₀.uid = true := beq_self_eq_true x₀.uid
  have hgrants : grantsOf x₀.uid (logOf past ++ (log ++ [m])) =
      grantsOf x₀.uid (logOf past ++ log) + 1 := by
    rw [← List.append_assoc, grantsOf_append (logOf past ++ log) [m]]
    exact congrArg _ (List.countP_singleton.trans (if_pos hm))
  have hlaunches : launchesOf x₀.uid (logOf past ++ (log ++ [m])) =
      launchesOf x₀.uid (logOf past ++ log) := by
    rw [← List.append_assoc, launchesOf_append (logOf past ++ log) [m]]
    exact Nat.add_zero _
  have hbefore : lapses x₀.uid log = false := lapses_of_ungranted fun m hm ↦ (hfirst m hm).1
  have hafter : lapses x₀.uid (log ++ [m]) = true := by
    have hnone : log.any (·.launches x₀.uid) = false :=
      List.any_eq_false.2 fun m hm ↦ by simp [(hfirst m hm).2]
    rw [lapses, List.any_append, List.any_append, hnone]
    simp [hm, m, Moment.launches]
  have hbegun := ne_new_of_failed hfailed
  have hretries := h.retries
  have hbalance := h.balance
  rw [if_neg hbegun, hbefore] at hbalance
  refine ⟨h.same.trans ⟨rfl, rfl, rfl, rfl, rfl⟩, ?_, ?_, fun hnew ↦ absurd hnew hbegun, ?_⟩
  · show 0 ≤ x.retryCount - 1
    omega
  · show x.retryCount - 1 + _ = _
    rw [hgrants]
    push_cast
    omega
  · rw [hgrants, hlaunches, hafter, if_neg hbegun]
    simp only [Bool.toNat_false, Bool.toNat_true] at hbalance ⊢
    omega

/-- **The account of a step stays balanced**, whatever a deed does. -/
theorem Balanced.after (hb : ∀ y, s.tables.step? x₀.uid = some y → Balanced x₀ past log y)
    (haffects : Affects setup G o log s x₀.uid l s') (hknown : x₀.uid ∈ s.issued)
    (hG : G x₀.workflowInstanceUid) (hloop : ∀ f text, x₀.shape ≠ .doWhile f text)
    (ho : o.saysNew = false) :
    ∀ y, s'.tables.step? x₀.uid = some y → Balanced x₀ past (log ++ l) y := by
  intro y hy
  have hspared : Spares x₀.uid l → ∀ m ∈ l, m.grants x₀.uid = false ∧ m.launches x₀.uid = false :=
    fun hl m hm ↦ ⟨(hl m hm).1, (hl m hm).2.2⟩
  cases haffects with
  | not hl h => exact (hb y (h ▸ hy)).of_none (hspared hl) ⟨rfl, rfl, rfl, rfl, rfl⟩ rfl .rfl
  | launch q x input time hx _ hwhy _ hl h =>
    obtain rfl := Option.some.inj (h.symm.trans hy)
    exact hl ▸ (hb x hx).launch hG hloop hwhy input time
  | select x name hl hx h =>
    obtain rfl := Option.some.inj (h.symm.trans hy)
    exact (hb x hx).of_none (hspared hl) ⟨rfl, rfl, rfl, rfl, rfl⟩ rfl .rfl
  | grant x hx hfailed hleft hfirst hl h =>
    obtain rfl := Option.some.inj (h.symm.trans hy)
    exact hl ▸ (hb x hx).grant hfailed hleft hfirst
  | refuse x _ _ _ _ hl h =>
    -- Nothing is used up by asking for a repetition that is not left.
    subst hl h
    exact (hb y hy).of_none (fun m hm ↦ List.mem_singleton.1 hm ▸ ⟨rfl, rfl⟩)
      ⟨rfl, rfl, rfl, rfl, rfl⟩ rfl .rfl
  | record m x time expected hl hm hx hrunning _ h =>
    obtain rfl := Option.some.inj (h.symm.trans hy)
    refine (hb x hx).of_none (hspared hl) ⟨rfl, rfl, rfl, rfl, rfl⟩ rfl ?_
    subst hm
    have hnew : m.runStatus ≠ .new := by simpa [Operation.saysNew] using ho
    exact iff_of_false hnew (by simp [hrunning])
  | made x _ hu h => exact absurd (hu ▸ hknown) h.unknown
  | removed _ h => cases h.symm.trans hy

/-! ## Whole histories -/

/-- What is known of a step after some operations and what the current one has done so far: its
account is balanced, or empty while the step has not been made. -/
structure Accounted (x₀ : StepInstance) (past : List Done) (log : List Moment) (s : Scene) :
    Prop where
  once : MadeOnce s
  unborn : x₀.uid ∉ s.issued → grantsOf x₀.uid (logOf past ++ log) = 0 ∧
    launchesOf x₀.uid (logOf past ++ log) = 0 ∧
      lapsesOf x₀.uid past + (lapses x₀.uid log).toNat = 0
  account : (∃ e ∈ s.made, x₀ ∈ e.2) → ∀ x, s.tables.step? x₀.uid = some x →
    Balanced x₀ past log x

theorem accounted_empty : Accounted x₀ [] [] {} where
  once := ⟨fun _ he ↦ (nomatch he), fun _ he ↦ (nomatch he), fun _ _ hx ↦ nomatch hx⟩
  unborn _ := ⟨rfl, rfl, rfl⟩
  account _ _ hx := nomatch hx

theorem Accounted.after (h : Accounted x₀ past log s) (hs : Sound setup G s)
    (hs' : Sound setup G s') (deed : Deed setup G o s₀ log s l s')
    (hG : G x₀.workflowInstanceUid) (hloop : ∀ f text, x₀.shape ≠ .doWhile f text)
    (ho : o.saysNew = false) : Accounted x₀ past (log ++ l) s' := by
  have haffects := deed.affects hs hs' x₀.uid
  -- Before a step is made, nothing is done about it.
  have hempty : x₀.uid ∉ s.issued → grantsOf x₀.uid (logOf past ++ (log ++ l)) = 0 ∧
      launchesOf x₀.uid (logOf past ++ (log ++ l)) = 0 ∧
        lapsesOf x₀.uid past + (lapses x₀.uid (log ++ l)).toNat = 0 := by
    intro hunknown
    have hspares := haffects.spares_of_unknown hs hunknown
    have hnone : ∀ m ∈ l, m.grants x₀.uid = false ∧ m.launches x₀.uid = false :=
      fun m hm ↦ ⟨(hspares m hm).1, (hspares m hm).2.2⟩
    obtain ⟨hgrants, hlaunches, -⟩ := counts_append_of_none hnone (logOf past ++ log)
    rw [← List.append_assoc, hgrants, hlaunches, (counts_append_of_none hnone log).2.2]
    exact h.unborn hunknown
  refine ⟨deed.madeOnce hs hs' h.once, fun hno ↦ hempty fun hi ↦ hno (deed.issued_subset hi), ?_⟩
  rintro ⟨e, he, hx₀⟩ x hx
  have hold : e ∈ s.made → Balanced x₀ past (log ++ l) x := fun he ↦
    Balanced.after (h.account ⟨e, he, hx₀⟩) haffects (h.once.known e he x₀ hx₀) hG hloop ho x hx
  rcases deed.made hs' with hmade | ⟨e', hmade, hnew⟩
  · exact hold (hmade ▸ he)
  · rw [hmade] at he
    rcases List.mem_append.1 he with he | he
    · exact hold he
    · obtain rfl := List.mem_singleton.1 he
      have hborn := hnew x₀ hx₀
      obtain rfl : x₀ = x := Option.some.inj (hborn.found.symm.trans hx)
      obtain ⟨hgrants, hlaunches, hlapses⟩ := hempty hborn.unknown
      refine ⟨⟨rfl, rfl, rfl, rfl, rfl⟩, hborn.retries, by rw [hgrants]; simp, fun _ ↦ hgrants, ?_⟩
      rw [hgrants, hlaunches, hlapses, if_pos hborn.status]

theorem Accounted.done {d : Done} (h : Accounted x₀ past d.log s) :
    Accounted x₀ (past ++ [d]) [] s := by
  have hlapses : lapsesOf x₀.uid (past ++ [d]) + (lapses x₀.uid []).toNat =
      lapsesOf x₀.uid past + (lapses x₀.uid d.log).toNat := lapsesOf_concat past d
  refine ⟨h.once, ?_, fun hmade x hx ↦ ?_⟩
  · rw [logOf_concat, List.append_nil, hlapses]
    exact h.unborn
  · have hbalanced := h.account hmade x hx
    refine ⟨hbalanced.same, hbalanced.nonneg, ?_, ?_, ?_⟩
    · rw [logOf_concat, List.append_nil]
      exact hbalanced.retries
    · rw [logOf_concat, List.append_nil]
      exact hbalanced.fresh
    · rw [logOf_concat, List.append_nil, hlapses]
      exact hbalanced.balance

/-- A refusal ends what an operation does about a step: until then nothing has been granted, and
none of the repetitions is left. -/
theorem Deeds.refused (h : Deeds setup G o s₀ log s) {before after : List Moment} {m : Moment}
    (hlog : log = before ++ m :: after) (hm : m.refuses u = true) :
    Deeds setup G o s₀ before m.scene ∧
      ∃ x, m.scene.tables.step? u = some x ∧ x.runStatus ≠ .new ∧ x.retryCount ≤ 0 ∧
        lapses u before = false := by
  induction h generalizing after with
  | none _ => simp at hlog
  | @more log l s s' earlier deed hs' ih =>
    rcases split_of_append hlog with ⟨mid, hlog', -⟩ | ⟨mid, hbefore, hsplit⟩
    · exact ih hlog'
    -- The call belongs to the deed, which is then a refusal.
    have hmem : m ∈ l := hsplit ▸ List.mem_append_right _ List.mem_cons_self
    have hspares : ¬Spares u l := fun hl ↦ by simp [(hl m hmem).2.1] at hm
    cases deed.affects earlier.sound hs' u with
    | launch _ _ _ _ _ _ _ _ hl =>
      rw [hl] at hmem
      rw [List.mem_singleton.1 hmem] at hm
      cases hm
    | grant _ _ _ _ _ hl =>
      rw [hl] at hmem
      rw [List.mem_singleton.1 hmem] at hm
      cases hm
    | refuse x hx hfailed hleft hfirst hl =>
      obtain ⟨rfl, htail⟩ : mid = [] ∧ m :: after =
          [⟨s, .store (.decrementRetry u), .ok false⟩] := by
        rw [hl] at hsplit
        cases mid with
        | nil => exact ⟨rfl, hsplit.symm⟩
        | cons m' mid =>
          have hnil := (List.cons.inj hsplit).2
          simp at hnil
      obtain rfl := (List.cons.inj htail).1
      rw [List.append_nil] at hbefore
      subst hbefore
      exact ⟨earlier, x, hx, ne_new_of_failed hfailed, hleft,
        lapses_of_ungranted fun m hm ↦ (hfirst m hm).1⟩
    | not hl | select _ _ hl | record _ _ _ _ hl | made _ hl | removed hl => exact absurd hl hspares

/-- **Repetitions are accounted for.** Take a step that is no loop, in a run whose stop conditions
name no step but their own and say the same whenever they are evaluated, and a history in which no
result says that a step is new; whatever fails on the way. The repetitions that the step has left
and those that have been used up make up its budget. Once it has been launched, its launches and the
lapses are one more than the repetitions used up. And whenever the step is refused a repetition, all
of its budget is used up, and the launches and the lapses so far are one more than the budget. -/
theorem retries_accounted (h : History setup anyAnswer past s)
    (hnew : ∀ d ∈ past, d.operation.saysNew = false)
    {e : WorkflowInstance × List StepInstance} (he : e ∈ s.made) (hx₀ : x₀ ∈ e.2)
    (hguided : ∀ m ∈ s.made, m.1.uid = x₀.workflowInstanceUid →
      ∀ x ∈ m.2, StepInstance.SelfGuided x.shape)
    (hloop : ∀ f text, x₀.shape ≠ .doWhile f text) :
    (∀ x, s.tables.step? x₀.uid = some x →
      x.retryCount + grantsOf x₀.uid (logOf past) = x₀.retryCount ∧
      (x.runStatus ≠ .new → launchesOf x₀.uid (logOf past) + lapsesOf x₀.uid past =
        grantsOf x₀.uid (logOf past) + 1)) ∧
    ∀ earlier d later before m after, past = earlier ++ d :: later → d.log = before ++ m :: after →
      m.refuses x₀.uid = true →
        (grantsOf x₀.uid (logOf earlier ++ before) : Int) = x₀.retryCount ∧
        (launchesOf x₀.uid (logOf earlier ++ before) + lapsesOf x₀.uid earlier : Int) =
          x₀.retryCount + 1 := by
  have hR : Guiding (making fun m ↦ m.1.uid = x₀.workflowInstanceUid →
      ∀ x ∈ m.2, StepInstance.SelfGuided x.shape) (· = x₀.workflowInstanceUid) :=
    fun q steps _ hmade hq ↦ hmade (q, steps) (List.mem_singleton_self _) hq
  have h := h.making_of_made hguided
  have hdeed : ∀ ⦃past o s₀ log s l s'⦄, o.saysNew = false →
      Sound setup (· = x₀.workflowInstanceUid) s → Sound setup (· = x₀.workflowInstanceUid) s' →
      Deed setup (· = x₀.workflowInstanceUid) o s₀ log s l s' →
      Accounted x₀ past log s → Accounted x₀ past (log ++ l) s' :=
    fun _ _ _ _ _ _ _ ho hs hs' deed haccounted ↦ haccounted.after hs hs' deed rfl hloop ho
  have haccounted : ∀ {past s}, History setup (making fun m ↦ m.1.uid = x₀.workflowInstanceUid →
      ∀ x ∈ m.2, StepInstance.SelfGuided x.shape) past s →
      (∀ d ∈ past, d.operation.saysNew = false) → Accounted x₀ past [] s :=
    fun hpast hall ↦ hpast.holds hR (A := fun o ↦ o.saysNew = false) hall
      accounted_empty hdeed fun _ _ _ ↦ Accounted.done
  refine ⟨fun x hx ↦ ?_, fun earlier d later before m after hpast hlog hm ↦ ?_⟩
  · have hbalanced := (haccounted h hnew).account ⟨e, he, hx₀⟩ x hx
    have hretries := hbalanced.retries
    have hbalance := hbalanced.balance
    rw [List.append_nil] at hretries hbalance
    refine ⟨hretries, fun hbegun ↦ ?_⟩
    rwa [if_neg hbegun] at hbalance
  · subst hpast
    obtain ⟨s₁, s₂, hearlier, hlogs, hmade⟩ := h.cut
    have hall : ∀ d ∈ earlier, d.operation.saysNew = false :=
      fun d hd ↦ hnew d (List.mem_append_left _ hd)
    have hd := hnew d (List.mem_append_right _ List.mem_cons_self)
    obtain ⟨hdeeds, x, hx, hbegun, hleft, hlapses⟩ :=
      (deeds_of_logs hR (hearlier.sound hR) hlogs).refused hlog hm
    have hpoint := hdeeds.holds (haccounted hearlier hall) fun _ _ _ _ ↦ hdeed hd
    -- The step that is refused is the one that was made with this budget.
    obtain ⟨e', he', x', hx', hu⟩ := hpoint.once.stored _ x hx
    have hmem : m ∈ d.log := hlog ▸ List.mem_append_right _ List.mem_cons_self
    have hfinal : e' ∈ s.made := hmade (hlogs.made_subset m hmem he')
    obtain rfl := (haccounted h hnew).once.unique e' hfinal x' hx' e he x₀ hx₀ hu
    have hbalanced := hpoint.account ⟨e', he', hx'⟩ x hx
    have hretries := hbalanced.retries
    have hnonneg := hbalanced.nonneg
    have hbalance := hbalanced.balance
    rw [if_neg hbegun, hlapses] at hbalance
    simp only [Bool.toNat_false] at hbalance
    constructor
    · omega
    · omega

/-- Collaborators that know `delegated` and its function. -/
def serving : Collaborators := .single deployedFunction delegated

/-- The first attempt of the only step of `delegated` has failed. -/
def failedAttempt : StepResult :=
  { stepInstanceId := World.nthUid 1
    workflowInstanceId := World.nthUid 0
    runStatus := .failed
    attempt := some 1 }

/-- A run of `delegated` whose step fails while the catalog of functions is out of reach, and then
the same failure is handled again. -/
def lapsedHistory : List Done × Scene :=
  (recordAll queueSetup [(serving, .start (.ofNat 5) [] none none),
    (serving.withoutFunctions, .result failedAttempt), (serving, .result failedAttempt)] [] {}).get
    (by decide +kernel)

/-- The run with its step as they were made. -/
def madeRun : WorkflowInstance × List StepInstance :=
  lapsedHistory.2.made.head (by decide +kernel)

def madeStep : StepInstance := madeRun.2.head (by decide +kernel)

theorem retries_accounted_of_lapse :
    (History queueSetup anyAnswer lapsedHistory.1 lapsedHistory.2 ∧
      (∀ d ∈ lapsedHistory.1, d.operation.saysNew = false) ∧
      madeRun ∈ lapsedHistory.2.made ∧ madeStep ∈ madeRun.2 ∧
      (∀ m ∈ lapsedHistory.2.made, m.1.uid = madeStep.workflowInstanceUid →
        ∀ x ∈ m.2, StepInstance.SelfGuided x.shape) ∧
      ∀ f text, madeStep.shape ≠ .doWhile f text) ∧
    (madeStep.retryCount = 1 ∧ launchesOf madeStep.uid (logOf lapsedHistory.1) = 1 ∧
      lapsesOf madeStep.uid lapsedHistory.1 = 1 ∧
      (lapsedHistory.2.tables.run? madeRun.1.uid).map (·.runStatus) = some .failed) ∧
    (∀ x, lapsedHistory.2.tables.step? madeStep.uid = some x →
      x.retryCount + grantsOf madeStep.uid (logOf lapsedHistory.1) = madeStep.retryCount ∧
      (x.runStatus ≠ .new → launchesOf madeStep.uid (logOf lapsedHistory.1) +
        lapsesOf madeStep.uid lapsedHistory.1 =
          grantsOf madeStep.uid (logOf lapsedHistory.1) + 1)) ∧
    ∀ earlier d later before m after, lapsedHistory.1 = earlier ++ d :: later →
      d.log = before ++ m :: after → m.refuses madeStep.uid = true →
        (grantsOf madeStep.uid (logOf earlier ++ before) : Int) = madeStep.retryCount ∧
        (launchesOf madeStep.uid (logOf earlier ++ before) + lapsesOf madeStep.uid earlier : Int) =
          madeStep.retryCount + 1 := by
  have hhistory : History queueSetup anyAnswer lapsedHistory.1 lapsedHistory.2 := history_get_any _
  have hnew : ∀ d ∈ lapsedHistory.1, d.operation.saysNew = false := by decide +kernel
  have hmade : madeRun ∈ lapsedHistory.2.made := List.head_mem _
  have hstep : madeStep ∈ madeRun.2 := List.head_mem _
  have hguided : ∀ m ∈ lapsedHistory.2.made, m.1.uid = madeStep.workflowInstanceUid →
      ∀ x ∈ m.2, StepInstance.SelfGuided x.shape :=
    fun m hm _ ↦ guided_of_isPlainlyGuided (by decide +kernel) m hm
  have hloop : ∀ f text, madeStep.shape ≠ .doWhile f text := by
    have hshape : madeStep.shape = .simple (.ofNat 9) := by decide +kernel
    exact fun f text h ↦ nomatch hshape.symm.trans h
  exact ⟨⟨hhistory, hnew, hmade, hstep, hguided, hloop⟩, ⟨by decide +kernel, by decide +kernel,
    by decide +kernel, by decide +kernel⟩, retries_accounted hhistory hnew hmade
      hstep hguided hloop⟩

end Engine

end Orchestration
