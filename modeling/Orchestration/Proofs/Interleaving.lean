import Orchestration.Proofs.Asking
import Orchestration.Proofs.Recording

/-!
# Interleaved executions

Programs may be carried out at the same time. Every call is carried out at once and as a whole, so
all that can happen is that calls of one come between calls of another. `Interleaves` says so for
any number of programs: whoever has the turn makes one call.

Two programs are looked at from the side of the first. `Alongside` is an execution of an action
together with all that another program does meanwhile, and is taken apart at the places at which the
action is (`alongside_bind`), as an execution without company is. If the calls of the other program
change nothing, the action has been carried out as if it were alone (`Among.alone`).
-/

namespace Orchestration

namespace Engine

variable {α β : Type} {R : Rule}

/-- A program of the engine, as far as it has yet to be carried out. -/
abbrev Rest (α : Type) : Type := Program Call.Answer α

/-! ## Any number of programs -/

deriving instance DecidableEq for Store.Call, Call

/-- A call made by one of several programs, which are counted from zero. -/
structure Turn where
  program : Nat
  moment : Moment

def Turn.asked (e : Turn) : Nat × Call := (e.program, e.moment.call)

/-- Programs are carried out at the same time, each as far as it gets. -/
inductive Interleaves (R : Rule) :
    List (Rest α) → Scene → List Turn → List (Rest α) → Scene → Prop where
  | none (pool : List (Rest α)) (s : Scene) : Interleaves R pool s [] pool s
  | turn {pool pool' : List (Rest α)} {i : Nat} {c : Call} {next : c.Answer → Rest α} {s s' : Scene}
      {answer : c.Answer} {log : List Turn} (hi : pool[i]? = some (.call c next))
      (hadm : s.Admits c answer) (hR : R c answer)
      (others : Interleaves R (pool.set i (next answer)) (s.after c answer) log pool' s') :
      Interleaves R pool s (⟨i, s, c, answer⟩ :: log) pool' s'

theorem Interleaves.weaken {R' : Rule} (hR : ∀ c a, R c a → R' c a) {pool pool' : List (Rest α)}
    {s s' : Scene} {log : List Turn} (h : Interleaves R pool s log pool' s') :
    Interleaves R' pool s log pool' s' := by
  induction h with
  | none => exact .none _ _
  | turn hi hadm hans _ ih => exact .turn hi hadm (hR _ _ hans) ih

/-! ## Two programs -/

/-- The second of two programs makes some calls, and the first makes none. -/
inductive Meanwhile (R : Rule) : Rest β → Scene → List Turn → Rest β → Scene → Prop where
  | none (k : Rest β) (s : Scene) : Meanwhile R k s [] k s
  | call {c : Call} {next : c.Answer → Rest β} {k' : Rest β} {s s' : Scene} {answer : c.Answer}
      {log : List Turn} (hadm : s.Admits c answer) (hR : R c answer)
      (others : Meanwhile R (next answer) (s.after c answer) log k' s') :
      Meanwhile R (.call c next) s (⟨1, s, c, answer⟩ :: log) k' s'

/-- A program is carried out to its end, while a second one makes some of its calls. -/
def Among (R : Rule) :
    Rest α → Rest β → Scene → List Turn → α → Rest β → Scene → Prop
  | .done a, k, s, log, b, k', s' => b = a ∧ Meanwhile R k s log k' s'
  | .call c next, k, s, log, b, k', s' =>
    ∃ before k₁ s₁ answer after, Meanwhile R k s before k₁ s₁ ∧ s₁.Admits c answer ∧ R c answer ∧
      log = before ++ ⟨0, s₁, c, answer⟩ :: after ∧
      Among R (next answer) k₁ (s₁.after c answer) after b k' s'

/-- An action is carried out to its end, while a second program makes some of its calls. -/
def Alongside (R : Rule) (a : Action α) (k : Rest β) (s : Scene) (log : List Turn)
    (r : Except EngineError α) (k' : Rest β) (s' : Scene) : Prop := Among R a.run k s log r k' s'

variable {k k' k₁ : Rest β} {s s' s₁ : Scene} {log log' : List Turn}

theorem Meanwhile.trans (h : Meanwhile R k s log k₁ s₁) (h' : Meanwhile R k₁ s₁ log' k' s') :
    Meanwhile R k s (log ++ log') k' s' := by
  induction h with
  | none => exact h'
  | call hadm hR _ ih => exact .call hadm hR (ih h')

theorem Meanwhile.leads {b : β} (h : Meanwhile R k s log (.done b) s') : Leads R k s b s' := by
  generalize hk : Program.done b = k' at h
  induction h with
  | none =>
    subst hk
    exact ⟨rfl, rfl⟩
  | call hadm hR _ ih => exact ⟨_, hadm, hR, ih hk⟩

theorem Meanwhile.program (h : Meanwhile R k s log k' s') : ∀ e ∈ log, e.program = 1 := by
  induction h with
  | none => exact fun e he ↦ nomatch he
  | call _ _ _ ih =>
    intro e he
    rcases List.mem_cons.1 he with rfl | he
    · rfl
    · exact ih e he

theorem Among.precede {p : Rest α} {a : α} (h : Meanwhile R k s log k₁ s₁)
    (h' : Among R p k₁ s₁ log' a k' s') : Among R p k s (log ++ log') a k' s' := by
  cases p with
  | done b => exact ⟨h'.1, h.trans h'.2⟩
  | call c next =>
    obtain ⟨before, k₂, s₂, answer, after, hbefore, hadm, hR, rfl, hrest⟩ := h'
    exact ⟨log ++ before, k₂, s₂, answer, after, h.trans hbefore, hadm, hR,
      (List.append_assoc ..).symm, hrest⟩

theorem Among.follow {p : Rest α} {a : α} (h : Among R p k s log a k₁ s₁)
    (h' : Meanwhile R k₁ s₁ log' k' s') : Among R p k s (log ++ log') a k' s' := by
  induction p generalizing k s log with
  | done b => exact ⟨h.1, h.2.trans h'⟩
  | call c next ih =>
    obtain ⟨before, k₂, s₂, answer, after, hbefore, hadm, hR, rfl, hrest⟩ := h
    exact ⟨before, k₂, s₂, answer, after ++ log', hbefore, hadm, hR,
      by rw [List.append_assoc, List.cons_append], ih answer hrest⟩

/-- Two programs that are carried out at the same time, seen from the first. -/
theorem Interleaves.among {p : Rest α} {k k' : Rest α} {a : α}
    (h : Interleaves R [p, k] s log [.done a, k'] s') : Among R p k s log a k' s' := by
  generalize hpool : [p, k] = pool at h
  generalize hpool' : [Program.done a, k'] = pool' at h
  induction h generalizing p k with
  | none pool s =>
    subst hpool
    cases hpool'
    exact ⟨rfl, .none _ _⟩
  | @turn _ _ i c next t _ answer rest hi hadm hR _ ih =>
    subst hpool
    match i, hi with
    | 0, hi =>
      obtain rfl : p = .call c next := Option.some.inj hi
      exact ⟨[], k, t, answer, rest, .none _ _, hadm, hR, rfl, ih rfl hpool'⟩
    | 1, hi =>
      obtain rfl : k = .call c next := Option.some.inj hi
      exact Among.precede (.call hadm hR (.none _ _)) (ih rfl hpool')

theorem among_bind {γ : Type} {p : Rest α} {f : α → Rest γ} {b : γ}
    (h : Among R (p >>= f) k s log b k' s') :
    ∃ a k₁ s₁ before after, log = before ++ after ∧ Among R p k s before a k₁ s₁ ∧
      Among R (f a) k₁ s₁ after b k' s' := by
  induction p generalizing k s log with
  | done a => exact ⟨a, k, s, [], log, rfl, ⟨rfl, .none _ _⟩, h⟩
  | call c next ih =>
    obtain ⟨before, k₁, s₁, answer, after, hbefore, hadm, hR, rfl, hrest⟩ := h
    obtain ⟨a, k₂, s₂, l₁, l₂, rfl, h₁, h₂⟩ := ih answer hrest
    exact ⟨a, k₂, s₂, before ++ ⟨0, s₁, c, answer⟩ :: l₁, l₂,
      by rw [List.append_assoc, List.cons_append],
      ⟨before, k₁, s₁, answer, l₁, hbefore, hadm, hR, rfl, h₁⟩, h₂⟩

/-- An action followed by another fails with the first, or goes on with its result. -/
theorem alongside_bind {γ : Type} {a : Action α} {f : α → Action γ} {r : Except EngineError γ}
    (h : Alongside R (a >>= f) k s log r k' s') :
    (∃ e, Alongside R a k s log (.error e) k' s' ∧ r = .error e) ∨
      ∃ x k₁ s₁ before after, log = before ++ after ∧ Alongside R a k s before (.ok x) k₁ s₁ ∧
        Alongside R (f x) k₁ s₁ after r k' s' := by
  obtain ⟨o, k₁, s₁, before, after, rfl, h₁, h₂⟩ := among_bind (f := ExceptT.bindCont f) h
  cases o with
  | error e =>
    obtain ⟨rfl, hmoves⟩ := h₂
    exact .inl ⟨e, Among.follow h₁ hmoves, rfl⟩
  | ok x => exact .inr ⟨x, k₁, s₁, before, after, rfl, h₁, h₂⟩

theorem Among.asks {φ : Call → Prop} {p : Rest α} {a : α} (hp : Asked φ p)
    (h : Among R p k s log a k' s') : ∀ e ∈ log, e.program = 0 → φ e.moment.call := by
  have hmoves : ∀ {k k' : Rest β} {s s' : Scene} {log : List Turn}, Meanwhile R k s log k' s' →
      ∀ e ∈ log, e.program = 0 → φ e.moment.call := fun hm e he hzero ↦
    nomatch hzero.symm.trans (hm.program e he)
  induction p generalizing k s log with
  | done b => exact hmoves h.2
  | call c next ih =>
    obtain ⟨before, k₁, s₁, answer, after, hbefore, -, -, rfl, hrest⟩ := h
    intro e he hzero
    rcases List.mem_append.1 he with he | he
    · exact hmoves hbefore e he hzero
    rcases List.mem_cons.1 he with rfl | he
    · exact hp.1
    · exact ih answer (hp.2 answer) hrest e he hzero

/-! ## Company that changes nothing -/

/-- A program changes no scene of a kind, whatever it is answered there. -/
def Rests (J : Scene → Prop) : Rest β → Prop
  | .done _ => True
  | .call c next => ∀ s answer, J s → s.Admits c answer →
      s.after c answer = s ∧ Rests J (next answer)

variable {J J' : Scene → Prop}

theorem Rests.weaken (hJ : ∀ s, J' s → J s) (h : Rests J k) : Rests J' k := by
  induction k with
  | done b => trivial
  | call c next ih =>
    intro s answer hs hadm
    obtain ⟨hsame, hrest⟩ := h s answer (hJ s hs) hadm
    exact ⟨hsame, ih answer hrest⟩

theorem Rests.meanwhile (hk : Rests J k) (hs : J s) (h : Meanwhile R k s log k' s') :
    s' = s ∧ Rests J k' := by
  induction h with
  | none => exact ⟨rfl, hk⟩
  | call hadm _ _ ih =>
    obtain ⟨hsame, hrest⟩ := hk _ _ hs hadm
    rw [hsame] at ih
    exact ih hrest hs

/-- **Company that changes nothing makes no difference.** An action whose own calls keep the scenes
of the kind in which the other program changes nothing is carried out as if it were alone. -/
theorem Among.alone {φ : Call → Prop} (hkeep : ∀ (s : Scene) (c : Call) (answer : c.Answer), φ c →
      s.Admits c answer → J s → J (s.after c answer))
    {p : Rest α} {a : α} (hp : Asked φ p) (hk : Rests J k) (hs : J s)
    (h : Among R p k s log a k' s') : Leads R p s a s' ∧ J s' ∧ Rests J k' := by
  induction p generalizing k s log with
  | done b =>
    obtain ⟨rfl, hmoves⟩ := h
    obtain ⟨rfl, hk'⟩ := hk.meanwhile hs hmoves
    exact ⟨⟨rfl, rfl⟩, hs, hk'⟩
  | call c next ih =>
    obtain ⟨before, k₁, s₁, answer, after, hbefore, hadm, hR, -, hrest⟩ := h
    obtain ⟨rfl, hk₁⟩ := hk.meanwhile hs hbefore
    obtain ⟨hlead, hend⟩ := ih answer (hp.2 answer) hk₁ (hkeep _ _ _ hp.1 hadm hs) hrest
    exact ⟨⟨answer, hadm, hR, hlead⟩, hend⟩

/-! ## Recorded interleavings -/

/-- The outcomes of programs that have all come to their ends. -/
def outcomes? : List (Rest α) → Option (List α)
  | [] => some []
  | .done a :: rest => (outcomes? rest).map (a :: ·)
  | .call .. :: _ => none

theorem eq_of_outcomes? {pool : List (Rest α)} {rs : List α} (h : outcomes? pool = some rs) :
    pool = rs.map .done := by
  induction pool generalizing rs with
  | nil =>
    cases h
    rfl
  | cons p rest ih =>
    cases p with
    | done a =>
      obtain ⟨rs', hrest, rfl⟩ := Option.map_eq_some_iff.1 h
      rw [ih hrest, List.map_cons]
    | call => cases h

namespace Collaborators

variable (c : Collaborators)

/-- Carries programs out at the same time, in the order of the given turns and after so many calls,
until all of them have come to their ends. -/
def interleave : Nat → List Nat → List (Rest α) → Scene → Option (List Turn × List α × Scene)
  | _, [], pool, s => (outcomes? pool).map fun rs ↦ ([], rs, s)
  | n, i :: turns, pool, s =>
    match pool[i]? with
    | some (.call a next) =>
      if handsOutNew s a then
        (interleave (n + 1) turns (pool.set i (next (c.answerAt (tick n) s a)))
          (s.after a (c.answerAt (tick n) s a))).map
            fun r ↦ (⟨i, s, a, c.answerAt (tick n) s a⟩ :: r.1, r.2)
      else none
    | _ => none

theorem interleaves_of_interleave {n : Nat} {turns : List Nat} {pool : List (Rest α)}
    {s s' : Scene} {log : List Turn} {rs : List α}
    (h : c.interleave n turns pool s = some (log, rs, s')) :
    Interleaves c.rule pool s log (rs.map .done) s' := by
  induction turns generalizing n pool s log with
  | nil =>
    obtain ⟨rs', hrs, heq⟩ := Option.map_eq_some_iff.1 h
    cases heq
    exact eq_of_outcomes? hrs ▸ .none _ _
  | cons i turns ih =>
    unfold interleave at h
    split at h
    · next a next hi =>
      split at h
      · next hnew =>
        obtain ⟨⟨rest, rs', t⟩, hrest, hr⟩ := Option.map_eq_some_iff.1 h
        cases hr
        exact .turn hi (c.admits_answerAt hnew _) (c.rule_answerAt _ s a) (ih hrest)
      · cases h
    · cases h

theorem interleaves_get {n : Nat} {turns : List Nat} {pool : List (Rest α)} {s : Scene}
    (h : (c.interleave n turns pool s).isSome) :
    Interleaves c.rule pool s ((c.interleave n turns pool s).get h).1
      (((c.interleave n turns pool s).get h).2.1.map .done)
        ((c.interleave n turns pool s).get h).2.2 :=
  c.interleaves_of_interleave (Option.some_get h).symm

end Collaborators

end Engine

end Orchestration
