import Mathlib

/-!
# Depth-first search without marks

A search goes over the calls a node makes, from left to right, and over the calls of each before
the next one. It does not mark what it visited, so it ends only if there is no endless chain of
calls.

* `Visits`: the nodes in the order of a search.
* `search`: the first result; `collect`: all results.
* `exists_visits`: a search ends if there is no endless chain from its start.
* `acc_of_acyclic`: there is none among finitely many nodes without a cycle.
-/

namespace DepthFirst

variable {α β : Type*} (next : α → List α)

/-- `a` calls `b`. -/
def Called (b a : α) : Prop := b ∈ next a

/-- The nodes visited from some nodes, depth-first and from left to right -/
inductive Visits : List α → List α → Prop
  | nil : Visits [] []
  | cons {a : α} {rest below after : List α} (down : Visits (next a) below)
      (along : Visits rest after) : Visits (a :: rest) (a :: (below ++ after))

/-- The first result of some calls, if all before it return -/
def firstOf (f : α → Option (Option β)) : List α → Option (Option β)
  | [] => some none
  | a :: rest =>
    match f a with
    | some none => firstOf f rest
    | result => result

/-- The results of some calls, if all return -/
def allOf (f : α → Option (List β)) : List α → Option (List β)
  | [] => some []
  | a :: rest => (f a).bind fun own => (allOf f rest).map (own ++ ·)

/-- Search for the first result, with a bound for nested calls -/
def search (here : α → Option β) : ℕ → α → Option (Option β)
  | 0, _ => none
  | fuel + 1, a =>
    match here a with
    | some b => some (some b)
    | none => firstOf (search here fuel) (next a)

/-- Collect all results, with a bound for nested calls. -/
def collect (own : α → List β) : ℕ → α → Option (List β)
  | 0, _ => none
  | fuel + 1, a => (allOf (collect own fuel) (next a)).map (own a ++ ·)

variable {next} {as : List α} {here : α → Option β} {own : α → List β}

/-! ## Searches that end -/

theorem exists_visits (h : ∀ a ∈ as, Acc (Called next) a) : ∃ visited, Visits next as visited := by
  have hone : ∀ a, Acc (Called next) a → ∀ rest after, Visits next rest after →
      ∃ visited, Visits next (a :: rest) visited := by
    intro a hacc
    induction hacc with
    | intro a _ ih =>
      intro rest after hrest
      have hbelow : ∀ nodes : List α, (∀ b ∈ nodes, b ∈ next a) →
          ∃ below, Visits next nodes below := by
        intro nodes hnodes
        induction nodes with
        | nil => exact ⟨[], .nil⟩
        | cons b nodes ihnodes =>
          obtain ⟨after, hafter⟩ := ihnodes fun c hc => hnodes c (List.mem_cons_of_mem _ hc)
          exact ih b (hnodes b List.mem_cons_self) nodes after hafter
      obtain ⟨below, hvisits⟩ := hbelow (next a) fun _ hb => hb
      exact ⟨_, .cons hvisits hrest⟩
  induction as with
  | nil => exact ⟨[], .nil⟩
  | cons a rest ih =>
    obtain ⟨after, hafter⟩ := ih fun b hb => h b (List.mem_cons_of_mem _ hb)
    exact hone a (h a List.mem_cons_self) rest after hafter

/-- More calls may be nested. -/
theorem firstOf_mono {f g : α → Option (Option β)} {result : Option β}
    (h : ∀ a r, f a = some r → g a = some r) (hf : firstOf f as = some result) :
    firstOf g as = some result := by
  induction as with
  | nil => exact hf
  | cons a rest ih =>
    rw [firstOf] at hf ⊢
    cases ha : f a with
    | none =>
      rw [ha] at hf
      simp at hf
    | some r =>
      rw [h a r ha]
      rw [ha] at hf
      cases r with
      | none => exact ih hf
      | some b => exact hf

theorem firstOf_map {γ : Type*} (f : α → Option (Option β)) (g : γ → α) (cs : List γ) :
    firstOf f (cs.map g) = firstOf (fun c => f (g c)) cs := by
  induction cs with
  | nil => rfl
  | cons c cs ih => rw [List.map_cons, firstOf, firstOf, ih]

theorem allOf_map {γ : Type*} (f : α → Option (List β)) (g : γ → α) (cs : List γ) :
    allOf f (cs.map g) = allOf (fun c => f (g c)) cs := by
  induction cs with
  | nil => rfl
  | cons c cs ih => rw [List.map_cons, allOf, allOf, ih]

theorem allOf_mono {f g : α → Option (List β)} {result : List β}
    (h : ∀ a r, f a = some r → g a = some r) (hf : allOf f as = some result) :
    allOf g as = some result := by
  induction as generalizing result with
  | nil => exact hf
  | cons a rest ih =>
    rw [allOf, Option.bind_eq_some_iff] at hf
    obtain ⟨mine, ha, hrest⟩ := hf
    obtain ⟨others, hothers, rfl⟩ := Option.map_eq_some_iff.1 hrest
    rw [allOf, h a mine ha, ih hothers]
    rfl

theorem search_mono {fuel fuel' : ℕ} (hle : fuel ≤ fuel') :
    ∀ a r, search next here fuel a = some r → search next here fuel' a = some r := by
  induction fuel generalizing fuel' with
  | zero =>
    intro a r h
    simp [search] at h
  | succ fuel ih =>
    obtain ⟨fuel', rfl⟩ := Nat.exists_eq_add_of_le' (Nat.le_trans (Nat.le_add_left 1 _) hle)
    intro a r h
    rw [search] at h ⊢
    cases ha : here a with
    | some b => rwa [ha] at h
    | none =>
      rw [ha] at h
      exact firstOf_mono (ih (Nat.le_of_succ_le_succ hle)) h

theorem collect_mono {fuel fuel' : ℕ} (hle : fuel ≤ fuel') :
    ∀ a r, collect next own fuel a = some r → collect next own fuel' a = some r := by
  induction fuel generalizing fuel' with
  | zero =>
    intro a r h
    simp [collect] at h
  | succ fuel ih =>
    obtain ⟨fuel', rfl⟩ := Nat.exists_eq_add_of_le' (Nat.le_trans (Nat.le_add_left 1 _) hle)
    intro a r h
    rw [collect] at h ⊢
    obtain ⟨others, hothers, rfl⟩ := Option.map_eq_some_iff.1 h
    rw [allOf_mono (ih (Nat.le_of_succ_le_succ hle)) hothers]
    rfl

variable {visited : List α}

/-- **A search** has the first result of the nodes it visits. -/
theorem firstOf_visits (h : Visits next as visited) :
    ∃ fuel, firstOf (search next here fuel) as = some (visited.findSome? here) := by
  induction h with
  | nil => exact ⟨0, rfl⟩
  | @cons a rest below after _ _ ihdown ihalong =>
    obtain ⟨fuel, hdown⟩ := ihdown
    obtain ⟨fuel', halong⟩ := ihalong
    refine ⟨max fuel fuel' + 1, ?_⟩
    rw [List.findSome?_cons, firstOf, search]
    cases ha : here a with
    | some b => rfl
    | none =>
      dsimp only
      rw [firstOf_mono (search_mono (le_max_left _ _)) hdown, List.findSome?_append]
      cases below.findSome? here with
      | some b => rfl
      | none => exact firstOf_mono (search_mono ((le_max_right _ _).trans (Nat.le_succ _))) halong

/-- **A collection** has the results of all nodes it visits. -/
theorem allOf_visits (h : Visits next as visited) :
    ∃ fuel, allOf (collect next own fuel) as = some (visited.flatMap own) := by
  induction h with
  | nil => exact ⟨0, rfl⟩
  | @cons a rest below after _ _ ihdown ihalong =>
    obtain ⟨fuel, hdown⟩ := ihdown
    obtain ⟨fuel', halong⟩ := ihalong
    refine ⟨max fuel fuel' + 1, ?_⟩
    rw [allOf, collect, allOf_mono (collect_mono (le_max_left _ _)) hdown,
      allOf_mono (collect_mono ((le_max_right _ _).trans (Nat.le_succ _))) halong]
    simp

theorem search_visits {a : α} (h : Visits next [a] visited) :
    ∃ fuel, search next here fuel a = some (visited.findSome? here) := by
  obtain ⟨fuel, hfirst⟩ : ∃ fuel, firstOf (search next here fuel) [a] = _ := firstOf_visits h
  refine ⟨fuel, ?_⟩
  rw [firstOf] at hfirst
  cases ha : search next here fuel a with
  | none =>
    rw [ha] at hfirst
    simp at hfirst
  | some r =>
    rw [ha] at hfirst
    cases r with
    | none => exact hfirst
    | some b => exact hfirst

theorem collect_visits {a : α} (h : Visits next [a] visited) :
    ∃ fuel, collect next own fuel a = some (visited.flatMap own) := by
  obtain ⟨fuel, hall⟩ : ∃ fuel, allOf (collect next own fuel) [a] = _ := allOf_visits h
  refine ⟨fuel, ?_⟩
  rw [allOf, Option.bind_eq_some_iff] at hall
  obtain ⟨mine, ha, hrest⟩ := hall
  rw [ha, ← hrest]
  simp [allOf]

/-! ## Endless chains -/

theorem allOf_some {f : α → Option (List β)} {result : List β} (h : allOf f as = some result) :
    ∀ a ∈ as, ∃ r, f a = some r := by
  induction as generalizing result with
  | nil => simp
  | cons a rest ih =>
    rw [allOf, Option.bind_eq_some_iff] at h
    obtain ⟨mine, ha, hrest⟩ := h
    obtain ⟨others, hothers, -⟩ := Option.map_eq_some_iff.1 hrest
    intro b hb
    rcases List.mem_cons.1 hb with rfl | hb
    · exact ⟨mine, ha⟩
    · exact ih hothers b hb

theorem acc_of_collect {fuel : ℕ} {a : α} {result : List β}
    (h : collect next own fuel a = some result) : Acc (Called next) a := by
  induction fuel generalizing a result with
  | zero => simp [collect] at h
  | succ fuel ih =>
    rw [collect] at h
    obtain ⟨others, hothers, -⟩ := Option.map_eq_some_iff.1 h
    refine ⟨a, fun b hb => ?_⟩
    obtain ⟨r, hr⟩ := allOf_some hothers b hb
    exact ih hr

theorem not_transGen_of_acc {r : α → α → Prop} {a : α} (h : Acc r a) : ¬Relation.TransGen r a a := by
  have htrans := h.transGen
  clear h
  induction htrans with
  | intro a _ ih => exact fun hcycle => ih a hcycle hcycle

theorem acc_of_acyclic {r : α → α → Prop} {s : Set α} (hs : s.Finite)
    (hr : ∀ a b, r b a → a ∈ s) (hacyclic : ∀ a, ¬Relation.TransGen r a a) (a : α) : Acc r a := by
  have : IsStrictOrder α (Relation.TransGen r) :=
    { irrefl := hacyclic, trans := fun _ _ _ => Relation.TransGen.trans }
  have hwf : s.WellFoundedOn (Relation.TransGen r) := hs.wellFoundedOn
  have hin : ∀ b ∈ s, Acc r b := by
    intro b hb
    refine hwf.induction hb fun b _ ih => ⟨b, fun c hc => ?_⟩
    by_cases hcs : c ∈ s
    · exact ih c hcs (.single hc)
    · exact ⟨c, fun d hd => absurd (hr c d hd) hcs⟩
  by_cases ha : a ∈ s
  · exact hin a ha
  · exact ⟨a, fun b hb => absurd (hr a b hb) ha⟩

end DepthFirst
