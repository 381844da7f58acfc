import Orchestration.Proofs.Kinship

/-!
# What is told again from elsewhere

What an operation does depends on the store and on whatever else answers it: the catalogs, the
channels, the clock, and whoever hands out identifiers. These are taken together as one outside
world, which answers by what it has been asked so far (`Outside`). Given the world, there is one
execution from each scene at most (`Outside.perform`), and every execution is one in some world
(`exists_outside`).

Suppose that an operation has been carried out, and that there is another scene which differs in
other runs only, those that the operation has nothing to do with (`Elsewhere`). Then in the same
world it does the same from there: it asks and is answered the same, step by step, and leaves alike
what was alike (`Outside.again`). All that has to be seen for this is that each call that may be
made is confined to the runs that the operation deals with, in both scenes (`Echoes.confined`). A
step that waits for an own run may be looked up although it is one of another run, and only since it
is a step of the run that is named beside it (`Filed`) is it certain where it is to be found.
-/

namespace Orchestration

namespace Engine

variable {α : Type} {R : Rule} {setup : Setup} {o : Operation} {log : List Moment} {W : Uid → Prop}
  {a₀ a b₀ b b' s s' : Scene} {k : Uid}

/-! ## The outside world -/

abbrev Exchange : Type := (c : Call) × c.Answer

def Moment.exchange (m : Moment) : Exchange := ⟨m.call, m.answer⟩

/-- Everybody but the store answers by what has been asked and answered so far. -/
structure Outside where
  reply : List Exchange → (c : Call) → c.Answer

/-- Whether an answer hands out no identifier that has been given out before. -/
def handsOutFresh (s : Scene) : (c : Call) → c.Answer → Bool
  | .newUid, u => !s.issued.contains u
  | _, _ => true

namespace Outside

variable (w : Outside)

/-- The store answers from its records, and everybody else as the world does. -/
def answer (told : List Exchange) (s : Scene) : (c : Call) → c.Answer
  | .store c => (s.tables.answer c).1
  | c => w.reply told c

/-- Carries a program out after some exchanges, as long as the identifiers that are handed out are
new. -/
def perform : List Exchange → Program Call.Answer α → Scene → Option (α × List Moment × Scene)
  | _, .done x, s => some (x, [], s)
  | told, .call c next, s =>
    if handsOutFresh s c (w.answer told s c) then
      (perform (told ++ [⟨c, w.answer told s c⟩]) (next (w.answer told s c))
        (s.after c (w.answer told s c))).map
          fun r ↦ (r.1, ⟨s, c, w.answer told s c⟩ :: r.2.1, r.2.2)
    else none

variable {w}

theorem admits_answer_iff {told : List Exchange} {c : Call} :
    s.Admits c (w.answer told s c) ↔ handsOutFresh s c (w.answer told s c) = true := by
  cases c with
  | store => exact ⟨fun _ ↦ rfl, fun _ ↦ rfl⟩
  | newUid => simp [Scene.Admits, handsOutFresh]
  | _ => exact ⟨fun _ ↦ rfl, fun _ ↦ trivial⟩

theorem logged_of_perform {told : List Exchange} {p : Program Call.Answer α} {x : α}
    (h : w.perform told p s = some (x, log, s')) : Logged anyAnswer p s log x s' := by
  induction p generalizing told s log with
  | done y =>
    cases h
    exact ⟨rfl, rfl, rfl⟩
  | call c next ih =>
    unfold perform at h
    split at h
    · next hfresh =>
      obtain ⟨⟨y, rest, t⟩, hrest, hr⟩ := Option.map_eq_some_iff.1 h
      cases hr
      exact ⟨_, rest, admits_answer_iff.2 hfresh, trivial, rfl, ih _ hrest⟩
    · cases h

theorem perform_congr {w' : Outside} {told : List Exchange} {p : Program Call.Answer α}
    (h : ∀ later c, w'.reply (told ++ later) c = w.reply (told ++ later) c) :
    w'.perform told p s = w.perform told p s := by
  induction p generalizing told s with
  | done y => rfl
  | call c next ih =>
    have hnow : ∀ d, w'.reply told d = w.reply told d := fun d ↦ by simpa using h [] d
    have hanswer : w'.answer told s c = w.answer told s c := by
      cases c with
      | store => rfl
      | _ => exact hnow _
    unfold perform
    rw [hanswer, ih _ fun later d ↦ by simpa using h (_ :: later) d]

end Outside

open Classical in
/-- **Every execution is one in some outside world.** -/
theorem Logged.exists_outside {p : Program Call.Answer α} {x : α} (h : Logged R p s log x s')
    (told : List Exchange) : ∃ w : Outside, w.perform told p s = some (x, log, s') := by
  induction p generalizing told s log with
  | done y =>
    obtain ⟨rfl, rfl, rfl⟩ := h
    exact ⟨⟨fun _ c ↦ willing.answer {} c⟩, rfl⟩
  | call c next ih =>
    obtain ⟨ans, rest, hadm, -, rfl, h⟩ := h
    obtain ⟨w, hw⟩ := ih ans h (told ++ [⟨c, ans⟩])
    -- Another world gives this answer now, and goes on in the same way.
    let w' : Outside :=
      ⟨fun told' d ↦ if h : told' = told ∧ d = c then h.2 ▸ ans else w.reply told' d⟩
    have hans : w'.answer told s c = ans := by
      cases c with
      | store => exact hadm.symm
      | _ => exact dif_pos ⟨rfl, rfl⟩
    have hfresh : handsOutFresh s c (w'.answer told s c) = true :=
      Outside.admits_answer_iff.1 (hans ▸ hadm)
    have hlater : ∀ later d, w'.reply (told ++ [⟨c, ans⟩] ++ later) d =
        w.reply (told ++ [⟨c, ans⟩] ++ later) d :=
      fun later d ↦ dif_neg fun h ↦ by simpa using congrArg List.length h.1
    have hrest : w'.perform (told ++ [⟨c, ans⟩]) (next ans) (s.after c ans) = some (x, rest, s') :=
      (Outside.perform_congr hlater).trans hw
    refine ⟨w', ?_⟩
    unfold Outside.perform
    rw [if_pos hfresh, hans, hrest]
    rfl

/-! ## Scenes that differ elsewhere -/

/-- An operation has led from one scene to another, and there is a third that differs from the first
in some runs only, with which the operation has nothing to do. -/
structure Elsewhere (o : Operation) (W : Uid → Prop) (b₀ b' a₀ : Scene) : Prop where
  inside : o.isStart = false
  grounded : Grounded b₀
  filed : Filed b₀
  grounded' : Grounded a₀
  filed' : Filed a₀
  alike : Alike (fun u ↦ ¬ W u) b₀.tables a₀.tables
  apart : ∀ u, DealsWith o b₀ b' u → ¬ W u
  fresh : ∀ u ∈ b'.issued, u ∉ b₀.issued → u ∉ a₀.issued
  named : ∀ m, o = .result m → ∃ u, HasStep b₀.tables u m.stepInstanceId

/-- One scene is like another, but for the runs in which they differed before. -/
structure Echoes (W : Uid → Prop) (b₀ a₀ b a : Scene) : Prop where
  keyed : a.tables.Keyed
  alike : Alike (fun u ↦ ¬ W u) b.tables a.tables
  kept : Alike W a₀.tables a.tables
  issued : ∀ u, u ∈ a.issued ↔ u ∈ a₀.issued ∨ u ∈ b.issued ∧ u ∉ b₀.issued

namespace Echoes

/-- A step of a run that is alike is found in the other scene, and is the only one of its kind. -/
theorem run_of_step (h : Echoes W b₀ a₀ b a) {run : Uid} (hrun : ¬ W run)
    (hk : HasStep b.tables run k) :
    ∀ y ∈ a.tables.steps, y.uid = k → ¬ W y.workflowInstanceUid := by
  obtain ⟨x, hx, rfl, rfl⟩ := hk
  intro y hy hu
  rwa [h.keyed.eq_of_step hy (h.alike.mem_steps hx hrun) hu]

theorem insertable (h : Echoes W b₀ a₀ b a) (hb : b.tables.Keyed) (ha₀ : Grounded a₀)
    {new : WorkflowInstance} {steps : List StepInstance} (hfounds : Founds o b₀ b new steps)
    (hnew : ¬ W new.uid) (hfresh : ∀ u ∈ b.issued, u ∉ b₀.issued → u ∉ a₀.issued) :
    Insertable a.tables new steps where
  run q hq hu := hfounds.uid.ne_run q (h.alike.symm.mem_runs h.keyed hb hq (hu ▸ hnew)) hu
  distinct := hfounds.distinct
  unused x hx y hy hu := by
    have hused := hfounds.stepUids x hx
    by_cases hW : W y.workflowInstanceUid
    · exact hfresh x.uid hused.known hused.fresh
        (hu ▸ ha₀.stepsIssued y (h.kept.symm.mem_steps hy hW))
    · exact hused.ne_step y (h.alike.symm.mem_steps hy hW) hu
  own := hfounds.own

variable (h : Echoes W b₀ a₀ b a) (helse : Elsewhere o W b₀ b' a₀)
  (hb : Conducted setup o b₀ log b) (hsub : b.issued ⊆ b'.issued)

include h helse hb hsub

theorem run_of_mayRead (hmay : MayRead o b₀ b k) :
    (∀ x ∈ b.tables.steps, x.uid = k → ¬ W x.workflowInstanceUid) ∧
      ∀ y ∈ a.tables.steps, y.uid = k → ¬ W y.workflowInstanceUid := by
  have hb₀ := helse.grounded
  have hground := hb.grounded hb₀
  have hown : ∀ {u}, Owns o b₀ b u → ¬ W u :=
    fun hu ↦ helse.apart _ (.inl (hu.imp_right fun hu ↦ ⟨hu.1, hsub hu.2⟩))
  have hknown : ∀ {run}, ¬ W run → HasStep b.tables run k →
      (∀ x ∈ b.tables.steps, x.uid = k → ¬ W x.workflowInstanceUid) ∧
        ∀ y ∈ a.tables.steps, y.uid = k → ¬ W y.workflowInstanceUid := by
    intro run hrun hk
    refine ⟨fun x hx hu ↦ ?_, h.run_of_step hrun hk⟩
    rwa [(hk.filed hground).2.2 x hx hu]
  cases hmay with
  | own hk =>
    obtain ⟨run, hrun, hk⟩ := hk
    exact hknown (hown hrun) hk
  | named m hm hk =>
    subst hk
    obtain ⟨u, x, hx, hxk, rfl⟩ := helse.named m hm
    have hnames : o.Names b₀.tables x.workflowInstanceUid := by
      rw [hm]
      exact ⟨x, hx, hxk, rfl⟩
    exact hknown (hown (.inl hnames)) ((hb.grows hb₀).hasStep ⟨x, hx, hxk, rfl⟩)
  | parent q p hq hq' hp hk =>
    rcases hb.waits hb₀ helse.inside hq hq' hp hk with ⟨hownp, hstep⟩ | ⟨q₀, hq₀, hsame, hnames⟩
    · exact hknown (hown hownp) hstep
    -- The step may be gone, or be none of the operation's, but it is no step of another run.
    have hp₀ : q₀.parentInstanceUid = some p := hsame.parent.symm.trans hp
    have hk₀ : q₀.parentStepInstanceUid = some k := hsame.parentStep.symm.trans hk
    have hpW : ¬ W p := helse.apart p (.inr ⟨q₀, hq₀, hnames, hp₀, hk₀ ▸ rfl⟩)
    obtain ⟨-, hki, hsteps⟩ := helse.filed q₀ hq₀ p k hp₀ hk₀
    refine ⟨fun x hx hu ↦ (hb.run_of_known hb₀ hki hsteps x hx hu).symm ▸ hpW, fun y hy hu hW ↦ ?_⟩
    have hqa : q₀ ∈ a₀.tables.runs :=
      helse.alike.mem_runs hb₀.keyed helse.grounded'.keyed hq₀ (hown (.inl hnames))
    have hrun := (helse.filed' q₀ hqa p k hp₀ hk₀).2.2 y (h.kept.symm.mem_steps hy hW) hu
    exact hpW (hrun ▸ hW)

/-- **What may be asked is confined to runs that are alike, in both scenes.** -/
theorem confined {c : Store.Call} (hmay : MayAsk o b₀ log b c) :
    Confined (fun u ↦ ¬ W u) b.tables c ∧ Confined (fun u ↦ ¬ W u) a.tables c := by
  have hground := hb.grounded helse.grounded
  have hown : ∀ u, Owns o b₀ b u → ¬ W u :=
    fun u hu ↦ helse.apart u (.inl (hu.imp_right fun hu ↦ ⟨hu.1, hsub hu.2⟩))
  rcases hmay.confined hground with ⟨k, rfl⟩ | hconfined
  · exact h.run_of_mayRead helse hb hsub hmay
  refine ⟨hconfined.mono hown, ?_⟩
  cases c with
  | getStep => exact (h.run_of_mayRead helse hb hsub hmay).2
  | setHeldStep | updateRunStatus => exact hown _ hmay.1
  | setSelectedCase | decrementRetry | applyStepResult =>
    obtain ⟨run, hrun, hk⟩ := hmay
    exact h.run_of_step (hown run hrun) hk
  | launchStep =>
    obtain ⟨run, hrun, hk, -⟩ := hmay
    exact h.run_of_step (hown run hrun) hk
  | insertRun new steps =>
    have hfounds : Founds o b₀ b new steps := hmay
    have hnew := hown new.uid (.inr ⟨hfounds.uid.fresh, hfounds.uid.known⟩)
    exact ⟨hnew, h.insertable hground.keyed helse.grounded' hfounds hnew fun u hu ↦
      helse.fresh u (hsub hu)⟩
  | updateStepStatus | setStepStartTime | setStepEndTime | listTopLevelRuns | deleteRuns =>
    exact hmay.elim
  | _ => exact hown _ hmay

omit helse hb hsub in
theorem afterOther {c : Call} (hc : ∀ c', c ≠ .store c') (ans : c.Answer)
    (hissued : ∀ u, u ∈ (a.after c ans).issued ↔
      u ∈ a₀.issued ∨ u ∈ (b.after c ans).issued ∧ u ∉ b₀.issued) :
    Echoes W b₀ a₀ (b.after c ans) (a.after c ans) where
  keyed := by
    rw [Scene.tables_after_of_ne_store hc]
    exact h.keyed
  alike := by
    rw [Scene.tables_after_of_ne_store hc, Scene.tables_after_of_ne_store hc]
    exact h.alike
  kept := by
    rw [Scene.tables_after_of_ne_store hc]
    exact h.kept
  issued := hissued

/-- **One more call goes the same way.** -/
theorem after {c : Call} {ans : c.Answer} (hproper : Proper setup o b₀ log b c)
    (hadm : b.Admits c ans) (hsub' : (b.after c ans).issued ⊆ b'.issued) :
    a.Admits c ans ∧ Echoes W b₀ a₀ (b.after c ans) (a.after c ans) := by
  cases c with
  | store c =>
    obtain ⟨hconfined, hconfined'⟩ := h.confined helse hb hsub hproper.mayAsk
    obtain ⟨hanswer, halike⟩ :=
      hconfined.agree hconfined' (hb.grounded helse.grounded).keyed h.keyed h.alike
    exact ⟨Eq.trans hadm hanswer.symm, hconfined'.keyed h.keyed, halike,
      h.kept.trans (hconfined'.frame h.keyed fun _ hnot hu ↦ hnot hu), h.issued⟩
  | newUid =>
    have hfresh : ans ∉ b₀.issued := fun hi ↦ hadm ((hb.grows helse.grounded).issued hi)
    have hlast : ans ∈ b'.issued := hsub' (List.mem_append_right _ (List.mem_singleton_self _))
    refine ⟨fun hi ↦ ?_, h.afterOther (by simp) ans fun u ↦ ?_⟩
    · rcases (h.issued ans).1 hi with hi | ⟨hi, -⟩
      · exact helse.fresh ans hlast hfresh hi
      · exact hadm hi
    · show u ∈ a.issued ++ [ans] ↔ u ∈ a₀.issued ∨ u ∈ b.issued ++ [ans] ∧ u ∉ b₀.issued
      rw [List.mem_append, List.mem_append, List.mem_singleton, h.issued u]
      constructor
      · rintro ((hi | ⟨hi, hu⟩) | rfl)
        · exact .inl hi
        · exact .inr ⟨.inl hi, hu⟩
        · exact .inr ⟨.inr rfl, hfresh⟩
      · rintro (hi | ⟨hi | rfl, hu⟩)
        · exact .inl (.inl hi)
        · exact .inl (.inr ⟨hi, hu⟩)
        · exact .inr rfl
  | publish channel payload =>
    refine ⟨trivial, h.afterOther (by simp) ans fun u ↦ ?_⟩
    show u ∈ (a.publish channel payload _).issued ↔
      u ∈ a₀.issued ∨ u ∈ (b.publish channel payload _).issued ∧ u ∉ b₀.issued
    unfold Scene.publish
    split
    · exact h.issued u
    · exact h.issued u
  | getFunction | deployFunction | getWorkflow | getStepList | post | now | spawn =>
    exact ⟨trivial, h.afterOther (by simp) ans h.issued⟩

end Echoes

/-! ## Telling again -/

theorem Scene.issued_subset_after (s : Scene) (c : Call) (ans : c.Answer) :
    s.issued ⊆ (s.after c ans).issued := by
  cases c with
  | newUid => exact List.subset_append_left _ _
  | publish channel payload =>
    show s.issued ⊆ (s.publish channel payload _).issued
    unfold Scene.publish
    split
    · exact List.Subset.refl _
    · exact List.Subset.refl _
  | _ => exact List.Subset.refl _

theorem Logged.issued_subset {p : Program Call.Answer α} {x : α} (h : Logged R p s log x s') :
    s.issued ⊆ s'.issued := by
  induction p generalizing s log with
  | done y => exact h.2.2 ▸ List.Subset.refl _
  | call c next ih =>
    obtain ⟨ans, rest, -, -, -, h⟩ := h
    exact List.Subset.trans (s.issued_subset_after c ans) (ih ans h)

theorem Outside.answer_eq_of_admits {w : Outside} {told : List Exchange} {c : Call}
    (h : a.Admits c (w.answer told b c)) : w.answer told a c = w.answer told b c := by
  cases c with
  | store c => exact Eq.symm h
  | _ => rfl

/-- **What has been carried out goes the same way elsewhere.** -/
theorem Outside.again {w : Outside} {told : List Exchange} {p : Program Call.Answer α} {x : α}
    {rest : List Moment} (hrun : w.perform told p b = some (x, rest, b'))
    (hall : Conducted setup o b₀ (log ++ rest) b') (helse : Elsewhere o W b₀ b' a₀)
    (h : Echoes W b₀ a₀ b a) : ∃ rest' a', w.perform told p a = some (x, rest', a') ∧
      rest'.map (·.exchange) = rest.map (·.exchange) ∧ Echoes W b₀ a₀ b' a' := by
  induction p generalizing told log rest a b with
  | done y =>
    cases hrun
    exact ⟨[], a, rfl, rfl, h⟩
  | call c next ih =>
    unfold perform at hrun
    split at hrun
    · next hfresh =>
      obtain ⟨⟨y, later, t⟩, hlater, hr⟩ := Option.map_eq_some_iff.1 hrun
      cases hr
      obtain ⟨hb, hproper⟩ := hall.proper_at rfl
      have hlogged := logged_of_perform hlater
      have hadm : b.Admits c (w.answer told b c) := admits_answer_iff.2 hfresh
      obtain ⟨hadm', hafter⟩ := h.after helse hb
        (List.Subset.trans (b.issued_subset_after c _) hlogged.issued_subset) hproper hadm
        hlogged.issued_subset
      have hans := answer_eq_of_admits hadm'
      rw [List.append_cons] at hall
      obtain ⟨later', a', hlater', hsame, hechoes⟩ := ih _ hlater hall hafter
      refine ⟨⟨a, c, w.answer told b c⟩ :: later', a', ?_, congrArg (_ :: ·) hsame, hechoes⟩
      have hfresh' : handsOutFresh a c (w.answer told a c) = true :=
        admits_answer_iff.1 (hans.symm ▸ hadm')
      unfold perform
      rw [if_pos hfresh', hans, hlater']
      rfl
    · cases hrun

theorem Elsewhere.echoes (h : Elsewhere o W b₀ b' a₀) : Echoes W b₀ a₀ b₀ a₀ where
  keyed := h.grounded'.keyed
  alike := h.alike
  kept := .refl _
  issued _ := ⟨.inl, fun hu ↦ hu.elim id fun hu ↦ absurd hu.1 hu.2⟩

end Engine

end Orchestration
