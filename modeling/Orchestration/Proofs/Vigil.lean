import Orchestration.Proofs.Releasing
import Orchestration.Proofs.Verdicts

/-!
# A watch from its beginning to its end

A watch sleeps between its phases. `Setup.watchThrough` is all of a watch from one of its phases on,
for as many times as it is woken. The deadline of the wait may pass in the midst of a look as well,
which is given up then after some of its calls (`Action.within`).

Among any other programs that spare the run, such a watch tells that all functions are ready only if
it has seen each of them deployed, and when it has come to its end an outcome has been accepted
once, or none and the run does not wait any more (`vigil_of_interleaves`). The operations of the
engine are such programs (`considerate_operation`). A watch does come to its end if it is woken
after its deadline, and often enough after that (`ended_of_overdue`).
-/

namespace Orchestration

namespace Engine

open Relation (ReflTransGen)

variable {α : Type} {R : Rule} {N : Scene → Scene → Prop} {setup : Setup} {u : Uid} {s s' : Scene}
variable {l l₁ l₂ : List Moment} {functions : List Uid}

/-! ## Giving up in the midst -/

theorem Accompanied.of_cut {n : Nat} {p : Rest α} {b : α}
    (h : Accompanied R N (p.cut n) s l (some b) s') : Accompanied R N p s l b s' := by
  induction p generalizing n s l with
  | done a =>
    rw [Program.cut] at h
    obtain ⟨rfl, hb, hrest⟩ := h
    exact ⟨rfl, Option.some.inj hb, hrest⟩
  | call c next ih =>
    cases n with
    | zero =>
      obtain ⟨-, hb, -⟩ := h
      cases hb
    | succ n =>
      obtain ⟨t, answer, rest, hbefore, hadm, hR, rfl, h⟩ := h
      exact ⟨t, answer, rest, hbefore, hadm, hR, rfl, ih answer h⟩

theorem Asked.cut {φ : Call → Prop} {p : Rest α} (h : Asked φ p) (n : Nat) : Asked φ (p.cut n) := by
  induction p generalizing n with
  | done a =>
    rw [Program.cut]
    trivial
  | call c next ih =>
    cases n with
    | zero => trivial
    | succ n => exact ⟨h.1, fun answer ↦ ih answer (h.2 answer) n⟩

theorem Asks.within {φ : Call → Prop} {a : Action α} (h : Asks φ a) (n : Nat) :
    Asks φ (Action.within n a) :=
  Asked.bind (Asked.cut h n) fun _ ↦ trivial

/-- An action that is given up in the midst has been carried out if it has an outcome. -/
theorem amid_within {n : Nat} {a : Action α}
    {r : Except EngineError (Option (Except EngineError α))}
    (h : Amid R N (Action.within n a) s l r s') :
    ∃ found, r = .ok found ∧ ∀ o, found = some o → Amid R N a s l o s' := by
  obtain ⟨found, hcut, rfl⟩ := amid_lift h
  exact ⟨found, rfl, fun o ho ↦ Accompanied.of_cut (ho ▸ hcut)⟩

/-! ## Wakings -/

namespace Setup

variable (setup : Setup)

theorem lookUntil_eq (run : Uid) (functions : List Uid) (time deadline : Nat) :
    setup.lookUntil run functions time deadline =
      Action.attempt (look run functions) >>= setup.conclude run time deadline := rfl

theorem wake_of_patient (run : Uid) (time : Nat) (phase : Phase) :
    setup.wake run { time } phase = setup.watch run time phase := by
  cases phase with
  | begin | wait | report => rfl

end Setup

/-- A phase goes as one that is not given up in the midst of a look, or it begins with a part of a
look and reports then that the wait has taken too long. -/
theorem amid_wake {w : Waking} {phase : Phase} {r : Except EngineError Next}
    (h : Amid R N (setup.wake u w phase) s l r s') :
    Amid R N (setup.watch u w.time phase) s l r s' ∨
      ∃ l₁ l₂ t, l = l₁ ++ l₂ ∧ (∀ m ∈ l₁, m.call.looksAfter u) ∧
        Amid R N (setup.watch u w.time
          (.report (setup.tooLate u) 1 setup.settings.deploymentPollInterval)) t l₂ r s' := by
  obtain ⟨time, patience⟩ := w
  cases patience with
  | none =>
    rw [setup.wake_of_patient] at h
    exact .inl h
  | some n =>
    have hlook : ∀ {functions deadline},
        Amid R N (setup.lookWithin u functions ⟨time, some n⟩ deadline) s l r s' →
          Amid R N (setup.lookUntil u functions time deadline) s l r s' ∨
            ∃ l₁ l₂ t, l = l₁ ++ l₂ ∧ (∀ m ∈ l₁, m.call.looksAfter u) ∧
              Amid R N (setup.reportFirst (setup.tooLate u) time) t l₂ r s' := by
      intro functions deadline h
      rcases amid_bind h with ⟨e, h₁, -⟩ | ⟨l₁, l₂, found, t, rfl, h₁, h⟩
      · obtain ⟨_, he, -⟩ := amid_within h₁
        cases he
      obtain ⟨_, hfound, hlook⟩ := amid_within h₁
      obtain rfl := Except.ok.inj hfound
      cases found with
      | none => exact .inr ⟨l₁, l₂, t, rfl, ((looksAfter_look u functions).within n).amid h₁, h⟩
      | some o =>
        rw [setup.lookUntil_eq]
        exact .inl ((hlook o rfl).attempt.bind h)
    cases phase with
    | begin functions => exact hlook h
    | wait functions nextLook deadline =>
      have h : Amid R N (if nextLook ≤ time then setup.lookWithin u functions
          ⟨time, some n⟩ deadline else setup.reportFirst (setup.tooLate u) time) s l r s' := h
      show Amid R N (if nextLook ≤ time then setup.lookUntil u functions time deadline
          else setup.reportFirst (setup.tooLate u) time) s l r s' ∨ _
      split
      · next hlate => exact hlook (by rwa [if_pos hlate] at h)
      · next hlate => exact .inl (by rwa [if_neg hlate] at h)
    | report outcome attempt pause => exact .inl h

/-! ## A whole watch -/

/-- What comes of a watch over a run that makes these calls: it tells the truth, it changes no
status but to end the wait of its run, and it has come to its end as it should or has done nothing
that others can see. -/
structure Vigil (u : Uid) (waits : Uid → Prop) (l : List Moment) (ended : Bool)
    (s : Scene) : Prop where
  truthful : Truthful u waits l
  respectful : ∀ m ∈ l, m.KeepsStatuses ∨ m.EndsWait u
  discharged : ended = true → Discharged u l s
  discreet : ended = false → Discreet l

theorem Truthful.append {waits waits' : Uid → Prop} (h₁ : Truthful u waits l₁)
    (hseen : ∀ f, waits f → waits' f ∨ SeesDeployed l₁ f) (h₂ : Truthful u waits' l₂) :
    Truthful u waits (l₁ ++ l₂) := by
  intro before m after hlog outcome htext
  have hlater : ∀ between, l₂ = between ++ m :: after → outcome.workflowInstanceId = u ∧
      (outcome.ready = true → ∀ f, waits f → SeesDeployed (l₁ ++ between) f) := by
    intro between hlog
    obtain ⟨hrun, htells⟩ := h₂ between m after hlog outcome htext
    refine ⟨hrun, fun hready f hf ↦ ?_⟩
    rcases hseen f hf with hf | hf
    · exact (htells hready f hf).append_left l₁
    · exact hf.append_right between
  rcases List.append_eq_append_iff.1 hlog with ⟨between, rfl, hrest⟩ | ⟨rest, rfl, hrest⟩
  · exact hlater between hrest
  · cases rest with
    | nil =>
      have hnow := hlater [] hrest.symm
      rwa [List.append_nil, List.append_nil] at hnow
    | cons m' rest =>
      obtain ⟨rfl, -⟩ := List.cons.inj hrest
      exact h₁ before m rest rfl outcome htext

theorem Vigil.after {waits : Uid → Prop} {wake : Nat} {phase : Phase} {ended : Bool}
    (h : Vigil u phase.awaits l₂ ended s) (htends : Tends u waits l₁ (.ok (.sleep wake phase)))
    (hdiscreet : Discreet l₁) : Vigil u waits (l₁ ++ l₂) ended s where
  truthful := htends.tells.append (htends.next wake phase rfl).2 h.truthful
  respectful :=
    fun m hm ↦ (List.mem_append.1 hm).elim (fun hm ↦ .inl (hdiscreet.2 m hm)) (h.respectful m)
  discharged := fun hended ↦ (h.discharged hended).after hdiscreet
  discreet := fun hended ↦ hdiscreet.append (h.discreet hended)

/-- A phase of a watch, whether it is given up in the midst of a look or not. -/
theorem watches_wake {w : Waking} {phase : Phase} {r : Except EngineError Next}
    (hphase : phase.isOf u) (h : Amid R (Unharmed u) (setup.wake u w phase) s l r s') :
    Tends u phase.awaits l r ∧ BreaksOff u l s' r ∧ ∀ m ∈ l, m.KeepsStatuses ∨ m.EndsWait u := by
  rcases amid_wake h with h | ⟨l₁, l₂, t, rfl, hlooks, h⟩
  · exact ⟨tends_watch hphase h, breaksOff_watch hphase h,
      fun m hm ↦ Moment.keeps_or_endsWait ((asks_watch setup hphase).amid h m hm)⟩
  · have hreport :
        (Phase.report (setup.tooLate u) 1 setup.settings.deploymentPollInterval).isOf u := rfl
    have hdiscreet : Discreet l₁ := discreet_of_looksAfter hlooks
    have hsilent : ∀ m ∈ l₁, m.offered? .deployments = none := fun m hm ↦
      Moment.offered?_eq_none (Call.isMute_of_looksAfter (hlooks m hm))
    refine ⟨(tends_watch hreport h).after hsilent fun f _ ↦ .inl rfl,
      (breaksOff_watch hreport h).after hdiscreet, fun m hm ↦ ?_⟩
    rcases List.mem_append.1 hm with hm | hm
    · exact .inl (hdiscreet.2 m hm)
    · exact Moment.keeps_or_endsWait ((asks_watch setup hreport).amid h m hm)

theorem vigil_watchThrough {ws : List Waking} {phase : Phase} {r : Except EngineError Bool}
    (hphase : phase.isOf u) (h : Amid R (Unharmed u) (setup.watchThrough u phase ws) s l r s') :
    ∃ ended, r = .ok ended ∧ Vigil u phase.awaits l ended s' := by
  induction ws generalizing phase s l with
  | nil =>
    obtain ⟨rfl, rfl, -⟩ := amid_pure h
    exact ⟨false, rfl, ⟨fun before m after hlog ↦ by simp at hlog, List.forall_mem_nil _, nofun,
      fun _ ↦ ⟨rfl, List.forall_mem_nil _⟩⟩⟩
  | cons w ws ih =>
    rcases amid_bind h with ⟨e, hwake, -⟩ | ⟨l₁, l₂, next, t, rfl, hwake, h⟩
    · cases (watches_wake hphase hwake).2.1
    cases next with
    | finished =>
      obtain ⟨rfl, rfl, hrest⟩ := amid_pure h
      rw [List.append_nil]
      obtain ⟨htends, hbreaks, hrespects⟩ := watches_wake hphase (Accompanied.follow hwake hrest)
      cases hbreaks with
      | finished hdischarged =>
        exact ⟨true, rfl, ⟨htends.tells, hrespects, fun _ ↦ hdischarged, nofun⟩⟩
    | sleep wake phase' =>
      obtain ⟨htends, hbreaks, -⟩ := watches_wake hphase hwake
      cases hbreaks with
      | sleep _ _ hdiscreet =>
        obtain ⟨ended, rfl, hvigil⟩ := ih (htends.next wake phase' rfl).1 h
        exact ⟨ended, rfl, hvigil.after htends hdiscreet⟩

/-! ## Coming to an end -/

/-- How a watch may go on after a time, if its wait has a deadline: it waits on before the deadline,
or it reports for the second time. -/
def Phase.follows (time deadline : Nat) : Phase → Prop
  | .begin _ => False
  | .wait _ _ d => d = deadline ∧ time < deadline
  | .report _ attempt _ => attempt = 2

theorem follows_reportFirst {outcome : DeploymentOutcome} {time deadline wake : Nat} {phase : Phase}
    (h : Amid R N (setup.reportFirst outcome time) s l (.ok (.sleep wake phase)) s') :
    phase.follows time deadline := by
  obtain ⟨-, rfl⟩ := phase_of_reportOutcome h
  exact rfl

theorem follows_lookUntil {time deadline wake : Nat} {phase : Phase}
    (h : Amid R N (setup.lookUntil u functions time deadline) s l (.ok (.sleep wake phase)) s') :
    phase.follows time deadline := by
  rcases amid_bind h with ⟨e, -, he⟩ | ⟨l₁, l₂, found, t, rfl, -, h⟩
  · cases he
  rcases found with e | _ | _ | pending
  · exact follows_reportFirst h
  · exact follows_reportFirst h
  · cases (amid_pure h).2.1
  · dsimp only [Setup.conclude] at h
    split at h
    · exact follows_reportFirst h
    · next hearly =>
      cases (amid_pure h).2.1
      exact ⟨rfl, Nat.lt_of_not_le hearly⟩

theorem follows_wake {w : Waking} {deadline wake : Nat} {phase phase' : Phase}
    (hphase :
      (∃ functions, phase = .begin functions ∧
        deadline = w.time + setup.settings.deploymentTimeout) ∨
      ∃ functions nextLook, phase = .wait functions nextLook deadline)
    (h : Amid R N (setup.wake u w phase) s l (.ok (.sleep wake phase')) s') :
    phase'.follows w.time deadline := by
  rcases amid_wake h with h | ⟨l₁, l₂, t, -, -, h⟩
  · rcases hphase with ⟨functions, rfl, rfl⟩ | ⟨functions, nextLook, rfl⟩
    · exact follows_lookUntil h
    · have h : Amid R N (if nextLook ≤ w.time then setup.lookUntil u functions w.time deadline
          else setup.reportFirst (setup.tooLate u) w.time) s l (.ok (.sleep wake phase')) s' := h
      split at h
      · exact follows_lookUntil h
      · exact follows_reportFirst h
  · exact follows_reportFirst h

theorem amid_watchThrough_cons {w : Waking} {ws : List Waking} {phase : Phase} {ended : Bool}
    (h : Amid R N (setup.watchThrough u phase (w :: ws)) s l (.ok ended) s') :
    ended = true ∨ ∃ l₁ l₂ wake phase' t,
      Amid R N (setup.wake u w phase) s l₁ (.ok (.sleep wake phase')) t ∧
        Amid R N (setup.watchThrough u phase' ws) t l₂ (.ok ended) s' := by
  rcases amid_bind h with ⟨e, -, he⟩ | ⟨l₁, l₂, next, t, rfl, hwake, h⟩
  · cases he
  cases next with
  | finished => exact .inl (Except.ok.inj (amid_pure h).2.1)
  | sleep wake phase' => exact .inr ⟨l₁, l₂, wake, phase', t, hwake, h⟩

theorem ended_of_report {ws : List Waking} {outcome : DeploymentOutcome}
    {attempt pause : Nat} {ended : Bool} (hattempt : attempt ≤ publishAttempts)
    (hoften : publishAttempts < attempt + ws.length)
    (h : Amid R N (setup.watchThrough u (.report outcome attempt pause) ws) s l (.ok ended) s') :
    ended = true := by
  induction ws generalizing attempt pause s l with
  | nil => exact absurd hoften (Nat.not_lt.2 hattempt)
  | cons w ws ih =>
    rcases amid_watchThrough_cons h with hended | ⟨l₁, l₂, wake, phase', t, hwake, h⟩
    · exact hended
    obtain ⟨hmore, rfl⟩ := phase_of_reportOutcome hwake
    refine ih hmore ?_ h
    rw [List.length_cons] at hoften
    omega

/-- A watch with a deadline comes to its end if it is woken after the deadline, and often enough
then. -/
theorem ended_of_follows {ws₁ ws₂ : List Waking} {w : Waking} {time deadline : Nat} {phase : Phase}
    {ended : Bool} (hphase : phase.follows time deadline) (hlate : deadline ≤ w.time)
    (hoften : publishAttempts ≤ ws₂.length + 1)
    (h : Amid R N (setup.watchThrough u phase (ws₁ ++ w :: ws₂)) s l (.ok ended) s') :
    ended = true := by
  have hreport : ∀ {ws outcome pause s l}, ws₂.length ≤ ws.length →
      Amid R N (setup.watchThrough u (.report outcome 2 pause) ws) s l (.ok ended) s' → ended =
        true := by
    intro ws outcome pause s l hlength h
    exact ended_of_report (by decide) (by simp only [publishAttempts] at hoften ⊢; omega) h
  induction ws₁ generalizing phase time s l with
  | nil =>
    cases phase with
    | begin functions => exact hphase.elim
    | report outcome attempt pause =>
      obtain rfl : attempt = 2 := hphase
      exact hreport (by simp) h
    | wait functions nextLook d =>
      obtain ⟨rfl, -⟩ := hphase
      rcases amid_watchThrough_cons h with hended | ⟨l₁, l₂, wake, phase', t, hwake, h⟩
      · exact hended
      have hnext := follows_wake (.inr ⟨functions, nextLook, rfl⟩) hwake
      cases phase' with
      | begin => exact hnext.elim
      | wait => exact absurd hnext.2 (Nat.not_lt.2 hlate)
      | report outcome attempt pause =>
        obtain rfl : attempt = 2 := hnext
        exact hreport (Nat.le_refl _) h
  | cons w' ws₁ ih =>
    cases phase with
    | begin functions => exact hphase.elim
    | report outcome attempt pause =>
      obtain rfl : attempt = 2 := hphase
      exact hreport (by simp; omega) h
    | wait functions nextLook d =>
      obtain ⟨rfl, -⟩ := hphase
      rcases amid_watchThrough_cons h with hended | ⟨l₁, l₂, wake, phase', t, hwake, h⟩
      · exact hended
      · exact ih (follows_wake (.inr ⟨functions, nextLook, rfl⟩) hwake) h

/-- **A watch comes to its end** if it is woken after its deadline, and as often after that as an
outcome is published. -/
theorem ended_of_overdue {ws₁ ws₂ : List Waking} {w w' : Waking} {ended : Bool}
    (hlate : w.time + setup.settings.deploymentTimeout ≤ w'.time)
    (hoften : publishAttempts ≤ ws₂.length + 1)
    (h : Amid R N (setup.watchThrough u (.begin functions) (w :: (ws₁ ++ w' :: ws₂)))
      s l (.ok ended) s') :
    ended = true := by
  rcases amid_watchThrough_cons h with hended | ⟨l₁, l₂, wake, phase, t, hwake, h⟩
  · exact hended
  · exact ended_of_follows (follows_wake (.inl ⟨functions, rfl, rfl⟩) hwake) hlate hoften h

/-! ## Among others -/

/-- **The verdict of a watch is sound and is not lost.** However often and whenever a watch over a
run is woken, whatever the collaborators answer and whatever other programs do meanwhile, as long as
they spare the run: the watch tells that all functions are ready only if it has seen each of them
deployed, and it changes no status but to end the wait of its run. If it has come to its end, an
outcome has been accepted once, or none has and the run does not wait any more. -/
theorem vigil_of_interleaves {ws : List Waking}
    {others pool' : List (Rest (Except EngineError Bool))} {log : List Turn}
    {r : Except EngineError Bool} (hu : u ∈ s.issued)
    (hothers : ∀ k ∈ others, Sparing u (fun _ ↦ True) k)
    (h : Interleaves R ((setup.watchThrough u (.begin functions) ws).run :: others) s log pool' s')
    (hend : pool'[0]? = some (.done r)) :
    ∃ ended, r = .ok ended ∧ Vigil u (· ∈ functions) (ownMoments 0 log) ended s' := by
  have hwatch : Amid R (Unharmed u) (setup.watchThrough u (.begin functions) ws)
      s (ownMoments 0 log) r s' := by
    refine h.unharmed hu rfl (fun j k hj hk ↦ ?_) hend
    obtain ⟨i, rfl⟩ := Nat.exists_eq_succ_of_ne_zero hj
    exact hothers k (List.mem_of_getElem? hk)
  exact vigil_watchThrough (show (Phase.begin functions).isOf u from trivial) hwatch

/-- Collaborators whose function is deployed, while no outcome can be published. -/
def deaf : Collaborators :=
  { Collaborators.delegating deployedFunction with
    publish :=
      fun channel ↦ if channel = .deployments then .error
      (.other .queue "unavailable") else .ok () }

/-- The watch over `waitingRun`, which is woken as often as it has to be, and a stop of the run. -/
def watchAndStop : List (Rest (Except EngineError Bool)) :=
  [(queueSetup.watchThrough waitingRun.uid (.begin [deployedFunction.uid])
    (List.replicate 5 ⟨0, none⟩)).run, ((Operation.stop waitingRun.uid).action queueSetup >>=
    fun _ ↦ pure false).run]

/-- What happens when the stop comes between the writes of the watch. -/
def struggle : List Turn × List (Except EngineError Bool) × Scene :=
  (deaf.interleave 0 (List.replicate 14 0 ++ [1, 1] ++ List.replicate 4 0) watchAndStop
    waitingScene).get (by decide +kernel)

/-- No outcome has been accepted, the watch has ended the wait of the run, and the stop is
refused. -/
theorem vigil_of_struggle :
    (waitingRun.uid ∈ waitingScene.issued ∧
      (∀ k ∈ watchAndStop.tail, Sparing waitingRun.uid (fun _ ↦ True) k) ∧
      Interleaves deaf.rule watchAndStop waitingScene struggle.1
      (struggle.2.1.map .done) struggle.2.2 ∧
      (struggle.2.1.map Program.done : List (Rest _))[0]? = some (.done (.ok true))) ∧
    struggle.2.1 = [.ok true, .error (.runFinished waitingRun.uid .failedWithTerminalError)] ∧
    accepted (ownMoments 0 struggle.1) = [] ∧
    struggle.2.2.statusOf? waitingRun.uid = some .failedWithTerminalError ∧
    ∃ ended, Except.ok true = (.ok ended : Except EngineError Bool) ∧
      Vigil waitingRun.uid (· ∈ [deployedFunction.uid]) (ownMoments 0 struggle.1) ended
        struggle.2.2 := by
  have hu : waitingRun.uid ∈ waitingScene.issued := by decide +kernel
  have hothers : ∀ k ∈ watchAndStop.tail, Sparing waitingRun.uid (fun _ ↦ True) k := by
    intro k hk
    obtain rfl := List.mem_singleton.1 hk
    refine Sparing.andThen (considerate_operation queueSetup (.stop waitingRun.uid)) ?_
    rintro (e | x) - <;> trivial
  have hrun : Interleaves deaf.rule watchAndStop waitingScene struggle.1 (struggle.2.1.map .done)
      struggle.2.2 := Collaborators.interleaves_get _ _
  have hend : (struggle.2.1.map Program.done : List (Rest _))[0]? = some (.done (.ok true)) := by
    have hfirst : struggle.2.1[0]? = some (.ok true) := by decide +kernel
    rw [List.getElem?_map, hfirst]
    rfl
  exact ⟨⟨hu, hothers, hrun, hend⟩, by decide +kernel, by decide +kernel, by decide +kernel,
    vigil_of_interleaves hu hothers hrun hend⟩

end Engine

end Orchestration
