import Mathlib.Logic.Relation
import Orchestration.Proofs.Turns

/-!
# Actions in company

An action that is not the only one at work finds, at each of its calls, what others have made of the
records meanwhile. `Amid R N a s log r s'` is an execution of `a` in such company: between its
calls, and after the last of them, the scene goes through any number of steps of which each is one
that `N` allows. The log has the calls of the action only.

An execution without company is one in any company (`Logs.amid`). And a program among others that
are carried out at the same time is carried out in company, where `N` is what all of the others do
(`Interleaves.accompanied`). So what is shown of `Amid` holds alone and among any number of
programs.
-/

namespace Orchestration

namespace Engine

open Relation (ReflTransGen)

variable {α β : Type} {R : Rule} {N : Scene → Scene → Prop} {s s' t : Scene} {l : List Moment}

/-- A program is carried out to its end while others change the scene as they may. -/
def Accompanied (R : Rule) (N : Scene → Scene → Prop) :
    Rest α → Scene → List Moment → α → Scene → Prop
  | .done a, s, l, b, s' => l = [] ∧ b = a ∧ ReflTransGen N s s'
  | .call c next, s, l, b, s' =>
    ∃ t answer rest, ReflTransGen N s t ∧ t.Admits c answer ∧ R c answer ∧ l =
      ⟨t, c, answer⟩ :: rest ∧ Accompanied R N (next answer) (t.after c answer) rest b s'

/-- An action is carried out to its end while others change the scene as they may. -/
def Amid (R : Rule) (N : Scene → Scene → Prop) (a : Action α) (s : Scene) (l : List Moment)
    (r : Except EngineError α) (s' : Scene) : Prop := Accompanied R N a.run s l r s'

/-! ## Alone and among others -/

theorem Logged.accompanied {p : Rest α} {b : α} (h : Logged R p s l b s') :
    Accompanied R N p s l b s' := by
  induction p generalizing s l with
  | done a =>
    obtain ⟨rfl, rfl, rfl⟩ := h
    exact ⟨rfl, rfl, .refl⟩
  | call c next ih =>
    obtain ⟨answer, rest, hadm, hR, rfl, h⟩ := h
    exact ⟨s, answer, rest, .refl, hadm, hR, rfl, ih answer h⟩

theorem Logs.amid {a : Action α} {r : Except EngineError α} (h : Logs R a s l r s') :
    Amid R N a s l r s' :=
  h.accompanied

theorem Accompanied.precede {p : Rest α} {b : α} (h : N s t) (hp : Accompanied R N p t l b s') :
    Accompanied R N p s l b s' := by
  cases p with
  | done a =>
    obtain ⟨rfl, rfl, hrest⟩ := hp
    exact ⟨rfl, rfl, hrest.head h⟩
  | call c next =>
    obtain ⟨t', answer, rest, hbefore, hp⟩ := hp
    exact ⟨t', answer, rest, hbefore.head h, hp⟩

theorem Accompanied.wait {p : Rest α} {b : α} (h : ReflTransGen N s t)
    (hp : Accompanied R N p t l b s') : Accompanied R N p s l b s' := by
  induction h using ReflTransGen.head_induction_on with
  | refl => exact hp
  | head hstep _ ih => exact ih.precede hstep

theorem Accompanied.follow {p : Rest α} {b : α} (hp : Accompanied R N p s l b t)
    (h : ReflTransGen N t s') : Accompanied R N p s l b s' := by
  induction p generalizing s l with
  | done a =>
    obtain ⟨rfl, rfl, hbefore⟩ := hp
    exact ⟨rfl, rfl, hbefore.trans h⟩
  | call c next ih =>
    obtain ⟨t', answer, rest, hbefore, hadm, hR, rfl, hp⟩ := hp
    exact ⟨t', answer, rest, hbefore, hadm, hR, rfl, ih answer hp⟩

/-- The calls that one of several programs has made. -/
def ownMoments (i : Nat) (log : List Turn) : List Moment :=
  (log.filter (·.program = i)).map Turn.moment

/-- **A program among others is in their company.** The others are of a kind that they keep to as
long as the scenes are of a kind, and so are their steps. -/
theorem Interleaves.accompanied {J : Scene → Prop} {T : Rest α → Prop} {pool pool' : List (Rest α)}
    {log : List Turn} {i : Nat} {p : Rest α} {b : α}
    (hJ : ∀ (s : Scene) (c : Call) (answer : c.Answer), J s → J (s.after c answer))
    (hT : ∀ (s : Scene) (c : Call) next (answer : c.Answer), T (.call c next) → J s →
      s.Admits c answer → N s (s.after c answer) ∧ T (next answer))
    (h : Interleaves R pool s log pool' s') (hi : pool[i]? = some p) (hs : J s)
    (hothers : ∀ j k, j ≠ i → pool[j]? = some k → T k) (hend : pool'[i]? = some (.done b)) :
    Accompanied R N p s (ownMoments i log) b s' := by
  induction h generalizing p with
  | none =>
    obtain rfl := Option.some.inj (hi.symm.trans hend)
    exact ⟨rfl, rfl, .refl⟩
  | @turn pool _ j c next t _ answer log hj hadm hR _ ih =>
    have hlt := (List.getElem?_eq_some_iff.1 hj).1
    by_cases hji : j = i
    · -- The program makes its next call.
      subst hji
      obtain rfl := Option.some.inj (hi.symm.trans hj)
      refine ⟨t, answer, ownMoments j log, .refl, hadm, hR, by simp [ownMoments], ?_⟩
      refine ih (List.getElem?_set_self hlt) (hJ _ _ _ hs) (fun k q hk hq ↦ hothers k q hk ?_) hend
      rwa [List.getElem?_set_ne (Ne.symm hk)] at hq
    · -- One of the others makes a call.
      obtain ⟨hstep, hnext⟩ := hT t c next answer (hothers j _ hji hj) hs hadm
      have hown : ownMoments i (⟨j, t, c, answer⟩ :: log) = ownMoments i log := by
        simp [ownMoments, hji]
      rw [hown]
      refine Accompanied.precede hstep (ih ?_ (hJ _ _ _ hs) (fun k q hk hq ↦ ?_) hend)
      · rwa [List.getElem?_set_ne hji]
      · by_cases hjk : j = k
        · subst hjk
          rw [List.getElem?_set_self hlt] at hq
          exact Option.some.inj hq ▸ hnext
        · exact hothers k q hk (by rwa [List.getElem?_set_ne hjk] at hq)

/-! ## The ways of building an action -/

theorem accompanied_bind {p : Rest α} {k : α → Rest β} {b : β}
    (h : Accompanied R N (p >>= k) s l b s') :
    ∃ l₁ l₂ a t, l = l₁ ++ l₂ ∧ Accompanied R N p s l₁ a t ∧ Accompanied R N (k a) t l₂ b s' := by
  induction p generalizing s l with
  | done a => exact ⟨[], l, a, s, rfl, ⟨rfl, rfl, .refl⟩, h⟩
  | call c next ih =>
    obtain ⟨t, answer, rest, hbefore, hadm, hR, rfl, h⟩ := h
    obtain ⟨l₁, l₂, a, t', rfl, h₁, h₂⟩ := ih answer h
    exact ⟨_ :: l₁, l₂, a, t', rfl, ⟨t, answer, l₁, hbefore, hadm, hR, rfl, h₁⟩, h₂⟩

/-- A program and what goes on with its result are carried out in turn. -/
theorem Accompanied.bind {p : Rest α} {k : α → Rest β} {l₁ l₂ : List Moment} {a : α} {b : β}
    (hp : Accompanied R N p s l₁ a t) (hk : Accompanied R N (k a) t l₂ b s') :
    Accompanied R N (p >>= k) s (l₁ ++ l₂) b s' := by
  induction p generalizing s l₁ with
  | done a' =>
    obtain ⟨rfl, rfl, hbefore⟩ := hp
    exact hk.wait hbefore
  | call c next ih =>
    obtain ⟨t', answer, rest, hbefore, hadm, hR, rfl, hp⟩ := hp
    exact ⟨t', answer, rest ++ l₂, hbefore, hadm, hR, rfl, ih answer hp⟩

/-- An action followed by another fails with the first, or goes on with its result. -/
theorem amid_bind {a : Action α} {f : α → Action β} {r : Except EngineError β}
    (h : Amid R N (a >>= f) s l r s') :
    (∃ e, Amid R N a s l (.error e) s' ∧ r = .error e) ∨
      ∃ l₁ l₂ x t, l = l₁ ++ l₂ ∧ Amid R N a s l₁ (.ok x) t ∧ Amid R N (f x) t l₂ r s' := by
  obtain ⟨l₁, l₂, o, t, rfl, h₁, h₂⟩ := accompanied_bind (k := ExceptT.bindCont f) h
  cases o with
  | error e =>
    obtain ⟨rfl, rfl, hrest⟩ := h₂
    rw [List.append_nil]
    exact .inl ⟨e, h₁.follow hrest, rfl⟩
  | ok x => exact .inr ⟨l₁, l₂, x, t, rfl, h₁, h₂⟩

theorem Amid.bind {a : Action α} {f : α → Action β} {x : α} {r : Except EngineError β}
    {l₁ l₂ : List Moment} (ha : Amid R N a s l₁ (.ok x) t) (hf : Amid R N (f x) t l₂ r s') :
    Amid R N (a >>= f) s (l₁ ++ l₂) r s' :=
  Accompanied.bind (k := ExceptT.bindCont f) ha hf

theorem amid_pure {x : α} {r : Except EngineError α} (h : Amid R N (pure x) s l r s') :
    l = [] ∧ r = .ok x ∧ ReflTransGen N s s' := h

theorem amid_throw {e : EngineError} {r : Except EngineError α} (h : Amid R N (throw e) s l r s') :
    l = [] ∧ r = .error e ∧ ReflTransGen N s s' := h

/-- What a program comes to in company is what the action has for its result that does nothing
else. -/
theorem amid_lift {p : Rest α} {r : Except EngineError α}
    (h : Amid R N (ExceptT.lift p : Action α) s l r s') :
    ∃ x, Accompanied R N p s l x s' ∧ r = .ok x := by
  have h : Accompanied R N (p >>= fun x ↦ .done (Except.ok x)) s l r s' := h
  obtain ⟨l₁, l₂, x, t, rfl, h₁, rfl, rfl, hrest⟩ := accompanied_bind h
  rw [List.append_nil]
  exact ⟨x, h₁.follow hrest, rfl⟩

theorem amid_attempt {a : Action α} {r : Except EngineError (Except EngineError α)}
    (h : Amid R N (Action.attempt a) s l r s') : ∃ o, Amid R N a s l o s' ∧ r = .ok o := amid_lift h

theorem Amid.attempt {a : Action α} {o : Except EngineError α} (h : Amid R N a s l o s') :
    Amid R N (Action.attempt a) s l (.ok o) s' := by
  have hdone : Accompanied R N (.done (Except.ok o) :
      Rest (Except EngineError (Except EngineError α))) s' [] (.ok o) s' := ⟨rfl, rfl, .refl⟩
  rw [← List.append_nil l]
  exact Accompanied.bind (k := fun o ↦ .done (Except.ok o)) h hdone

theorem accompanied_ask {c : Call} {x : c.Answer} (h : Accompanied R N (Program.ask c) s l x s') :
    ∃ t, l = [⟨t, c, x⟩] ∧ ReflTransGen N s t ∧ t.Admits c x ∧ R c x ∧
      ReflTransGen N (t.after c x) s' := by
  obtain ⟨t, answer, rest, hbefore, hadm, hR, rfl, rfl, rfl, hrest⟩ := h
  exact ⟨t, rfl, hbefore, hadm, hR, hrest⟩

theorem amid_store {c : Store.Call} {r : Except EngineError c.Value}
    (h : Amid R N (Action.store c) s l r s') :
    ∃ t, l = [⟨t, .store c, r⟩] ∧ ReflTransGen N s t ∧ r = (t.tables.answer c).1 ∧
      ReflTransGen N (t.afterStore c) s' := by
  obtain ⟨t, rfl, hbefore, hadm, -, hrest⟩ := accompanied_ask (c := .store c) h
  exact ⟨t, rfl, hbefore, hadm, hrest⟩

theorem amid_publish {channel : Channel} {document : Json} {r : Except EngineError Unit}
    (h : Amid R N (Action.publish channel document) s l r s') :
    ∃ t, l = [⟨t, .publish channel document.text, r⟩] ∧ ReflTransGen N s t ∧
      ReflTransGen N (t.publish channel document.text (Except.isOk r)) s' := by
  obtain ⟨t, rfl, hbefore, -, -, hrest⟩ := accompanied_ask (c := .publish channel document.text) h
  exact ⟨t, rfl, hbefore, hrest⟩

theorem amid_getFunction {f : Uid} {r : Except EngineError FunctionInfo}
    (h : Amid R N (Action.getFunction f) s l r s') : ∃ t, l = [⟨t, .getFunction f, r⟩] := by
  obtain ⟨t, rfl, -⟩ := accompanied_ask (c := .getFunction f) h
  exact ⟨t, rfl⟩

theorem amid_now {r : Except EngineError Instant} (h : Amid R N Action.now s l r s') :
    ∃ t time, l = [⟨t, .now, time⟩] ∧ r = .ok time ∧ ReflTransGen N s s' := by
  obtain ⟨time, hnow, rfl⟩ := amid_lift h
  obtain ⟨t, rfl, hbefore, -, -, hrest⟩ := accompanied_ask hnow
  exact ⟨t, time, rfl, rfl, hbefore.trans hrest⟩

theorem Asked.accompanied {φ : Call → Prop} {p : Rest α} {b : α} (hp : Asked φ p)
    (h : Accompanied R N p s l b s') : ∀ m ∈ l, φ m.call := by
  induction p generalizing s l with
  | done a =>
    obtain ⟨rfl, -⟩ := h
    exact fun m hm ↦ nomatch hm
  | call c next ih =>
    obtain ⟨t, answer, rest, -, -, -, rfl, h⟩ := h
    intro m hm
    rcases List.mem_cons.1 hm with rfl | hm
    · exact hp.1
    · exact ih answer (hp.2 answer) h m hm

theorem Asks.amid {φ : Call → Prop} {a : Action α} {r : Except EngineError α} (ha : Asks φ a)
    (h : Amid R N a s l r s') : ∀ m ∈ l, φ m.call := Asked.accompanied ha h

/-- Where an action does what others may do as well, all of an execution is what they may do. -/
theorem Asked.through {φ : Call → Prop} {p : Rest α} {b : α} (hp : Asked φ p)
    (hφ : ∀ (s : Scene) (c : Call) (answer : c.Answer), φ c → N s (s.after c answer))
    (h : Accompanied R N p s l b s') : ReflTransGen N s s' := by
  induction p generalizing s l with
  | done a =>
    obtain ⟨-, -, hrest⟩ := h
    exact hrest
  | call c next ih =>
    obtain ⟨t, answer, rest, hbefore, -, -, rfl, h⟩ := h
    exact (hbefore.tail (hφ t c answer hp.1)).trans (ih answer (hp.2 answer) h)

/-! ## What company keeps -/

theorem kept_of_company {P : Scene → Prop} (hP : ∀ s s', N s s' → P s → P s') (hs : P s)
    (h : ReflTransGen N s s') : P s' := by
  induction h with
  | refl => exact hs
  | tail _ hstep ih => exact hP _ _ hstep ih

end Engine

end Orchestration
