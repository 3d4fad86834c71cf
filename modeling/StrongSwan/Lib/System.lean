import Mathlib.Data.List.Induction

/-!
# Labelled transition systems

A system has initial states and a step relation labelled with events. `Steps M s es t` is a finite
run from `s` to `t` with the events `es`, and `Run M es t` is such a run from an initial state.

* `Steps.trans`, `Steps.of_append`: runs compose and split.
* **`Steps.preserves`**: what every step preserves, a run preserves, when each event satisfies the
  side condition the step lemma asks for.
* `Run.invariant`, `Run.history`: the invariant rule, also for facts about the events so far.
* `ofFun`, `steps_ofFun`: a system given by a step function runs as a fold; `ofOption` for a
  partial one.
* `System.restrict`: only steps that satisfy a condition.
* `Once`: something held of a state on the way of a run.
* `Along`: something holds of every event of a run; **`Along.imp`**, `along_congr`: what an invariant
  makes of it, `Along.run`: the run is one of the restricted system.
-/

namespace LTS

universe u v w

/-- Initial states and labelled steps. -/
structure System (σ : Type u) (ε : Type v) where
  init : σ → Prop
  step : σ → ε → σ → Prop

variable {σ : Type u} {ε : Type v} (M : System σ ε)

/-- A finite run between two states, growing at its end. -/
inductive Steps (s : σ) : List ε → σ → Prop
  | refl : Steps s [] s
  | snoc {es : List ε} {t u : σ} {e : ε} : Steps s es t → M.step t e u → Steps s (es ++ [e]) u

/-- A finite run from an initial state. -/
def Run (es : List ε) (t : σ) : Prop := ∃ s, M.init s ∧ Steps M s es t

variable {M}

theorem Steps.trans {s t u : σ} {es fs : List ε} (h₁ : Steps M s es t) (h₂ : Steps M t fs u) :
    Steps M s (es ++ fs) u := by
  induction h₂ with
  | refl => simpa using h₁
  | snoc _ hstep ih =>
    rw [← List.append_assoc]
    exact ih.snoc hstep

theorem steps_nil {s t : σ} : Steps M s [] t ↔ s = t := by
  constructor
  · intro h
    generalize hes : ([] : List ε) = es at h
    cases h with
    | refl => rfl
    | snoc _ _ => simp at hes
  · rintro rfl
    exact .refl

theorem steps_snoc {s u : σ} {es : List ε} {e : ε} :
    Steps M s (es ++ [e]) u ↔ ∃ t, Steps M s es t ∧ M.step t e u := by
  constructor
  · intro h
    generalize hfs : es ++ [e] = fs at h
    cases h with
    | refl => simp at hfs
    | snoc hrun hstep =>
      obtain ⟨rfl, hlast⟩ := List.append_inj' hfs rfl
      cases hlast
      exact ⟨_, hrun, hstep⟩
  · rintro ⟨t, hrun, hstep⟩
    exact hrun.snoc hstep

theorem steps_singleton {s t : σ} {e : ε} : Steps M s [e] t ↔ M.step s e t := by
  rw [← List.nil_append [e], steps_snoc]
  simp [steps_nil]

theorem Steps.of_append {s u : σ} {es fs : List ε} (h : Steps M s (es ++ fs) u) :
    ∃ t, Steps M s es t ∧ Steps M t fs u := by
  induction fs using List.reverseRecOn generalizing u with
  | nil => exact ⟨u, by simpa using h, .refl⟩
  | append_singleton fs e ih =>
    rw [← List.append_assoc, steps_snoc] at h
    obtain ⟨v, hrun, hstep⟩ := h
    obtain ⟨t, h₁, h₂⟩ := ih hrun
    exact ⟨t, h₁, h₂.snoc hstep⟩

/-- **The invariant rule for runs**, for steps whose events satisfy `C`. -/
theorem Steps.preserves {I : σ → Prop} {C : ε → Prop}
    (hstep : ∀ {s e t}, C e → I s → M.step s e t → I t) {s t : σ} {es : List ε}
    (h : Steps M s es t) (hC : ∀ e ∈ es, C e) (hs : I s) : I t := by
  induction h with
  | refl => exact hs
  | snoc _ hlast ih =>
    have hI := ih fun e he => hC e (List.mem_append_left _ he)
    exact hstep (hC _ (by simp)) hI hlast

/-- **The invariant rule.** -/
theorem Run.invariant {I : σ → Prop} (hinit : ∀ {s}, M.init s → I s)
    (hstep : ∀ {s e t}, I s → M.step s e t → I t) {es : List ε} {t : σ} (h : Run M es t) : I t := by
  obtain ⟨s, hs, hrun⟩ := h
  exact hrun.preserves (C := fun _ => True) (fun _ => hstep) (fun _ _ => trivial) (hinit hs)

theorem Run.history {I : List ε → σ → Prop} (hinit : ∀ {s}, M.init s → I [] s)
    (hstep : ∀ {es s e t}, I es s → M.step s e t → I (es ++ [e]) t) {es : List ε} {t : σ}
    (h : Run M es t) : I es t := by
  obtain ⟨s, hs, hrun⟩ := h
  induction hrun with
  | refl => exact hinit hs
  | snoc _ hlast ih => exact hstep ih hlast

/-! ## The past of a run -/

variable (M) in
/-- The state was once on the way of the run, after some of its events. -/
def Once (P : List ε → σ → Prop) (es : List ε) (t : σ) : Prop :=
  ∃ es₁ es₂ s, es = es₁ ++ es₂ ∧ Run M es₁ s ∧ Steps M s es₂ t ∧ P es₁ s

theorem Once.now {P : List ε → σ → Prop} {es : List ε} {t : σ} (h : Run M es t) (hP : P es t) :
    Once M P es t :=
  ⟨es, [], t, by rw [List.append_nil], h, .refl, hP⟩

theorem Once.snoc {P : List ε → σ → Prop} {es : List ε} {t u : σ} {e : ε} (h : Once M P es t)
    (hstep : M.step t e u) : Once M P (es ++ [e]) u := by
  obtain ⟨es₁, es₂, s, rfl, hrun, hsteps, hP⟩ := h
  exact ⟨es₁, es₂ ++ [e], s, List.append_assoc .., hrun, hsteps.snoc hstep, hP⟩

/-- The system of a step function. -/
def ofFun (init : σ → Prop) (f : σ → ε → σ) : System σ ε where
  init := init
  step s e t := t = f s e

@[simp] theorem init_ofFun {init : σ → Prop} {f : σ → ε → σ} {s : σ} :
    (ofFun init f).init s ↔ init s := Iff.rfl

@[simp] theorem step_ofFun {init : σ → Prop} {f : σ → ε → σ} {s t : σ} {e : ε} :
    (ofFun init f).step s e t ↔ t = f s e := Iff.rfl

theorem steps_ofFun {init : σ → Prop} {f : σ → ε → σ} {s t : σ} {es : List ε} :
    Steps (ofFun init f) s es t ↔ t = es.foldl f s := by
  induction es using List.reverseRecOn generalizing t with
  | nil => simpa [steps_nil] using eq_comm
  | append_singleton es e ih => simp [steps_snoc, ih]

theorem run_ofFun {init : σ → Prop} {f : σ → ε → σ} {t : σ} {es : List ε} :
    Run (ofFun init f) es t ↔ ∃ s, init s ∧ t = es.foldl f s := by
  simp [Run, steps_ofFun]

/-- The system of a step function that is not always defined. -/
def ofOption (init : σ → Prop) (f : σ → ε → Option σ) : System σ ε where
  init := init
  step s e t := f s e = some t

@[simp] theorem step_ofOption {init : σ → Prop} {f : σ → ε → Option σ} {s t : σ} {e : ε} :
    (ofOption init f).step s e t ↔ f s e = some t := Iff.rfl

theorem steps_ofOption {init : σ → Prop} {f : σ → ε → Option σ} {s t : σ} {es : List ε} :
    Steps (ofOption init f) s es t ↔ es.foldlM f s = some t := by
  induction es using List.reverseRecOn generalizing t with
  | nil => simp [steps_nil]
  | append_singleton es e ih => simp [steps_snoc, ih, Option.bind_eq_some_iff]

/-- The steps of a system that satisfy a condition. -/
def System.restrict (M : System σ ε) (C : σ → ε → Prop) : System σ ε where
  init := M.init
  step s e t := C s e ∧ M.step s e t

/-! ## Events where they happen -/

/-- Every event of a run satisfies `P` in the state where it happens. -/
def Along (f : σ → ε → σ) (P : σ → ε → Prop) (s : σ) (es : List ε) : Prop :=
  ∀ before e after, es = before ++ e :: after → P (before.foldl f s) e

section Along

variable {f : σ → ε → σ} {P C : σ → ε → Prop} {I : σ → Prop} {s : σ} {es : List ε}

theorem Along.of_append {es₁ es₂ : List ε} (h : Along f P s (es₁ ++ es₂)) : Along f P s es₁ :=
  fun before e after heq => h before e (after ++ es₂) (by rw [heq, List.append_assoc]; rfl)

theorem along_nil : Along f P s [] := fun before e after heq => by simp at heq

theorem along_snoc {e : ε} : Along f P s (es ++ [e]) ↔ Along f P s es ∧ P (es.foldl f s) e := by
  refine ⟨fun h => ⟨h.of_append, h es e [] rfl⟩, ?_⟩
  rintro ⟨h, he⟩ before e' after heq
  obtain rfl | ⟨after, last, rfl⟩ := List.eq_nil_or_concat after
  · obtain ⟨rfl, hlast⟩ := List.append_inj' heq rfl
    cases hlast
    exact he
  · rw [List.concat_eq_append, ← List.cons_append, ← List.append_assoc] at heq
    exact h before e' after (List.append_inj' heq rfl).1

theorem along_cons {e : ε} : Along f P s (e :: es) ↔ P s e ∧ Along f P (f s e) es := by
  refine ⟨fun h => ⟨h [] e es rfl, fun before e' after heq => h (e :: before) e' after ?_⟩, ?_⟩
  · rw [heq, List.cons_append]
  · rintro ⟨he, hes⟩ before e' after heq
    cases before with
    | nil =>
      cases heq
      exact he
    | cons first before =>
      cases heq
      exact hes before e' after rfl

theorem Along.run {init : σ → Prop} (h : Along f C s es) (hs : init s) :
    Run ((ofFun init f).restrict C) es (es.foldl f s) := by
  refine ⟨s, hs, ?_⟩
  induction es using List.reverseRecOn with
  | nil => exact .refl
  | append_singleton es e ih =>
    obtain ⟨hes, he⟩ := along_snoc.mp h
    rw [List.foldl_append]
    exact (ih hes).snoc ⟨he, rfl⟩

theorem Along.and_mem {Q : ε → Prop} (h : Along f P s es) (hQ : ∀ e ∈ es, Q e) :
    Along f (fun s e => P s e ∧ Q e) s es :=
  fun before e after heq => ⟨h before e after heq, hQ e (by simp [heq])⟩

theorem Along.invariant (hstep : ∀ {s e}, I s → C s e → I (f s e)) (h : Along f C s es) (hs : I s) :
    I (es.foldl f s) := by
  induction es using List.reverseRecOn with
  | nil => exact hs
  | append_singleton es e ih =>
    obtain ⟨hes, he⟩ := along_snoc.mp h
    rw [List.foldl_append, List.foldl_cons, List.foldl_nil]
    exact hstep (ih hes) he

/-- **An invariant adds to what holds of every event.** -/
theorem Along.imp (hstep : ∀ {s e}, I s → C s e → I (f s e)) (himp : ∀ {s e}, I s → C s e → P s e)
    (h : Along f C s es) (hs : I s) : Along f P s es := by
  intro before e after heq
  subst heq
  exact himp (h.of_append.invariant hstep hs) (h before e after rfl)

/-- **What holds of every event if and only if `C` does**, when steps that satisfy `C` keep an
invariant. -/
theorem along_congr (hstep : ∀ {s e}, I s → C s e → I (f s e)) (hiff : ∀ {s e}, I s → (P s e ↔ C s e))
    (hs : I s) : Along f P s es ↔ Along f C s es := by
  refine ⟨fun h => ?_, fun h => h.imp hstep (fun hI hC => (hiff hI).mpr hC) hs⟩
  induction es using List.reverseRecOn with
  | nil => exact along_nil
  | append_singleton es e ih =>
    obtain ⟨hes, he⟩ := along_snoc.mp h
    exact along_snoc.mpr ⟨ih hes, (hiff ((ih hes).invariant hstep hs)).mp he⟩

end Along

end LTS
