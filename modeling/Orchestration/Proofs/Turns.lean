import Orchestration.Proofs.Interleaving

/-!
# Any number of programs at once

What holds while programs are carried out at the same time is shown turn by turn: whoever has the
turn makes the call that its program begins with, and goes on with the answer (`Interleaves.cons`).
What every turn keeps, given the turns before it, holds in the end (`Interleaves.holds`).

A program that changes no scene of a kind is no company to speak of, however many such programs
there are. The only other program among them is carried out as if it were alone
(`Interleaves.alone`).
-/

namespace Orchestration

namespace Engine

variable {α β : Type} {R : Rule} {pool pool' : List (Rest α)} {s s' : Scene}
variable {past log l₁ l₂ : List Turn} {e : Turn} {i : Nat} {p : Rest α} {a : α}

def Turn.after (e : Turn) : Scene := e.moment.scene.after e.moment.call e.moment.answer

/-- A turn changes nothing that is recorded. -/
def Turn.Still (e : Turn) : Prop := e.after = e.moment.scene

theorem Interleaves.cons (h : Interleaves R pool s (e :: log) pool' s') :
    ∃ next, pool[e.program]? = some (.call e.moment.call next) ∧ e.moment.scene = s ∧
      s.Admits e.moment.call e.moment.answer ∧ R e.moment.call e.moment.answer ∧
      Interleaves R (pool.set e.program (next e.moment.answer)) e.after log pool' s' := by
  cases h with
  | turn hi hadm hR others => exact ⟨_, hi, rfl, hadm, hR, others⟩

theorem Interleaves.split (h : Interleaves R pool s (l₁ ++ l₂) pool' s') :
    ∃ pool₁ s₁, Interleaves R pool s l₁ pool₁ s₁ ∧ Interleaves R pool₁ s₁ l₂ pool' s' := by
  induction l₁ generalizing pool s with
  | nil => exact ⟨pool, s, .none _ _, h⟩
  | cons e l₁ ih =>
    obtain ⟨i, t, c, answer⟩ := e
    obtain ⟨next, hi, rfl, hadm, hR, hrest⟩ := h.cons
    obtain ⟨pool₁, s₁, h₁, h₂⟩ := ih hrest
    exact ⟨pool₁, s₁, .turn hi hadm hR h₁, h₂⟩

theorem Interleaves.length (h : Interleaves R pool s log pool' s') :
    pool'.length = pool.length := by
  induction h with
  | none => rfl
  | turn _ _ _ _ ih => exact ih.trans List.length_set

theorem Interleaves.program_lt (h : Interleaves R pool s log pool' s') :
    ∀ e ∈ log, e.program < pool.length := by
  induction h with
  | none => simp
  | turn hi _ _ _ ih =>
    intro e he
    rcases List.mem_cons.1 he with rfl | he
    · exact (List.getElem?_eq_some_iff.1 hi).1
    · exact List.length_set ▸ ih e he

theorem Interleaves.waits (h : Interleaves R pool s log pool' s') (hi : ∀ e ∈ log, e.program ≠ i) :
    pool'[i]? = pool[i]? := by
  induction h with
  | none => rfl
  | turn _ _ _ _ ih =>
    rw [ih fun e he ↦ hi e (List.mem_cons_of_mem _ he),
      List.getElem?_set_ne (hi _ List.mem_cons_self)]

/-- Every call is answered as the scene allows in which it is made. -/
theorem Interleaves.admits (h : Interleaves R pool s log pool' s') :
    ∀ e ∈ log, e.moment.scene.Admits e.moment.call e.moment.answer := by
  induction h with
  | none => simp
  | turn hi hadm hR others ih =>
    intro e he
    rcases List.mem_cons.1 he with rfl | he
    · exact hadm
    · exact ih e he

/-- What every turn keeps, given the turns before it, holds in the end. -/
theorem Interleaves.holds {P : List Turn → List (Rest α) → Scene → Prop}
    (h : Interleaves R pool s log pool' s') (hbegin : P past pool s)
    (hturn : ∀ ⦃past pool s e next⦄, e ∈ log → pool[e.program]? = some (.call e.moment.call next) →
      e.moment.scene = s → s.Admits e.moment.call e.moment.answer → P past pool s →
        P (past ++ [e]) (pool.set e.program (next e.moment.answer)) e.after) :
    P (past ++ log) pool' s' := by
  induction h generalizing past with
  | none => simpa using hbegin
  | turn hi hadm hR others ih =>
    rw [List.append_cons]
    exact ih (hturn (e := ⟨_, _, _, _⟩) List.mem_cons_self hi rfl hadm hbegin)
      fun _ _ _ _ _ he ↦ hturn (List.mem_cons_of_mem _ he)

/-! ## Company that changes nothing -/

/-- A program changes no scene of a kind, whatever it is answered there, and comes to an end of a
kind. -/
def Yields (J : Scene → Prop) (Q : α → Prop) : Rest α → Prop
  | .done b => Q b
  | .call c next => ∀ s answer, J s → s.Admits c answer →
      s.after c answer = s ∧ Yields J Q (next answer)

variable {J : Scene → Prop} {Q : α → Prop} {Q' : β → Prop}

theorem Yields.mono {Q₁ : α → Prop} (hQ : ∀ a, Q a → Q₁ a) (h : Yields J Q p) : Yields J Q₁ p := by
  induction p with
  | done a => exact hQ a h
  | call c next ih =>
    intro s answer hs hadm
    obtain ⟨hsame, hnext⟩ := h s answer hs hadm
    exact ⟨hsame, ih answer hnext⟩

theorem Yields.bind {k : α → Rest β} (hp : Yields J Q p) (hk : ∀ a, Q a → Yields J Q' (k a)) :
    Yields J Q' (p >>= k) := by
  induction p with
  | done a => exact hk a hp
  | call c next ih =>
    intro s answer hs hadm
    obtain ⟨hsame, hnext⟩ := hp s answer hs hadm
    exact ⟨hsame, ih answer hnext⟩

/-- An action followed by another, where the first is successful if it comes to an end at all. -/
theorem Yields.andThen {a : Action α} {f : α → Action β} {P : α → Prop}
    {Q' : Except EngineError β → Prop} (ha : Yields J (fun r ↦ ∃ x, r = .ok x ∧ P x) a.run)
    (hf : ∀ x, P x → Yields J Q' (f x).run) : Yields J Q' (a >>= f).run := by
  refine Yields.bind (k := ExceptT.bindCont f) ha ?_
  rintro _ ⟨x, rfl, hx⟩
  exact hf x hx

/-- **Company that changes nothing makes no difference**, however much of it there is. The only
program that changes scenes is carried out as if it were alone, as long as it keeps to the scenes in
which the others change nothing. It does so at every turn, and each of the others comes to an end of
its own kind. -/
theorem Interleaves.alone {φ : Call → Prop}
      (hkeep : ∀ (s : Scene) (c : Call) (answer : c.Answer), φ c → s.Admits c answer → J s →
      J (s.after c answer))
    (h : Interleaves R pool s log pool' s') (hi : pool[i]? = some p) (hp : Asked φ p) (hs : J s)
    {Q : Nat → α → Prop} (hothers : ∀ j k, j ≠ i → pool[j]? = some k → Yields J (Q j) k)
    (hend : pool'[i]? = some (.done a)) :
    Leads R p s a s' ∧ (∀ j b, j ≠ i → pool'[j]? = some (.done b) → Q j b) ∧
      ∀ e ∈ log, J e.moment.scene ∧ (e.program ≠ i → e.Still) := by
  induction h generalizing p with
  | none pool s =>
    obtain rfl := Option.some.inj (hi.symm.trans hend)
    exact ⟨⟨rfl, rfl⟩, fun j b hj hb ↦ hothers j _ hj hb, by simp⟩
  | @turn _ _ j c next t _ answer rest hj hadm hR _ ih =>
    by_cases hji : j = i
    · -- The program makes its next call, and the others wait.
      subst hji
      obtain rfl := Option.some.inj (hi.symm.trans hj)
      obtain ⟨hlead, hends, hstill⟩ := ih (p := next answer)
        (by simp [(List.getElem?_eq_some_iff.1 hj).1]) (hp.2 answer) (hkeep _ _ _ hp.1 hadm hs)
        (fun k q hk hq ↦ hothers k q hk (by rwa [List.getElem?_set_ne (Ne.symm hk)] at hq)) hend
      refine ⟨⟨answer, hadm, hR, hlead⟩, hends, fun e he ↦ ?_⟩
      rcases List.mem_cons.1 he with rfl | he
      · exact ⟨hs, fun hne ↦ absurd rfl hne⟩
      · exact hstill e he
    · -- One of the others makes a call, and nothing changes.
      obtain ⟨hsame, hnext⟩ := hothers j _ hji hj t answer hs hadm
      rw [hsame] at ih
      obtain ⟨hlead, hends, hstill⟩ := ih (by rwa [List.getElem?_set_ne hji]) hp hs
        (fun k q hk hq ↦ by
          by_cases hkj : j = k
          · subst hkj
            rw [List.getElem?_set_self (List.getElem?_eq_some_iff.1 hj).1] at hq
            exact Option.some.inj hq ▸ hnext
          · exact hothers k q hk (by rwa [List.getElem?_set_ne hkj] at hq)) hend
      refine ⟨hlead, hends, fun e he ↦ ?_⟩
      rcases List.mem_cons.1 he with rfl | he
      · exact ⟨hs, fun _ ↦ hsame⟩
      · exact hstill e he

end Engine

end Orchestration
