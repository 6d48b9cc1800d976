import Hlib.EventBus

namespace Hlib

open Function (update update_self update_of_ne)
open UnorderedMap

namespace EventBus

variable {κ θ γ δ : Type} [DecidableEq θ] {data : δ} {alive alive' : θ → Bool}
  {order kept : List (κ × Subscription θ γ)}
  {pushes : List (κ × Push θ γ δ)}

/-- Queues that are alive in the end were so before. -/
def Outlives (alive' alive : θ → Bool) : Prop := ∀ queue, alive' queue = true → alive queue = true

theorem outlives_expire (alive : θ → Bool) (queue : θ) : Outlives (update alive queue false) alive := by
  intro other h
  by_cases own : other = queue
  · rw [own, update_self] at h
    cases h
  · rwa [update_of_ne own] at h

omit [DecidableEq θ] in
theorem Outlives.trans {alive'' : θ → Bool} (h : Outlives alive'' alive') (h' : Outlives alive' alive) :
    Outlives alive'' alive :=
  fun queue hq => h' queue (h queue hq)

omit [DecidableEq θ] in
theorem Outlives.live (h : Outlives alive' alive) {sub : Subscription θ γ}
    (live : sub.live alive' = true) : sub.live alive = true := by
  unfold Subscription.live at live ⊢
  cases hq : sub.queue with
  | none => rw [hq] at live; cases live
  | some queue =>
    rw [hq] at live
    exact h queue live

theorem visits_outlives (visits : Visits data alive order alive' kept pushes) : Outlives alive' alive := by
  induction visits with
  | done => exact fun _ h => h
  | expire queue _ ih => exact ih.trans (outlives_expire _ queue)
  | push _ _ ih => exact ih
  | erase _ _ ih => exact ih

theorem step_outlives [DecidableEq κ] {s t : State κ θ γ} {label : Label κ θ γ δ} (hs : Step s label t) :
    Outlives t.alive s.alive := by
  cases hs with
  | expire => exact outlives_expire _ _
  | broadcast present same visits => exact visits_outlives visits
  | subscribe | unsubscribe | notify | silent | get => exact fun _ live => live

theorem visits_kept (visits : Visits data alive order alive' kept pushes) : kept.Sublist order := by
  induction visits with
  | done => exact List.Sublist.slnil
  | expire _ _ ih => exact ih
  | push _ _ ih => exact ih.cons_cons _
  | erase _ _ ih => exact ih.cons _

theorem visits_erased (visits : Visits data alive order alive' kept pushes) :
    ∀ entry ∈ order, entry ∈ kept ∨ entry.2.live alive' = false := by
  induction visits with
  | done => exact nofun
  | expire _ _ ih => exact ih
  | push _ _ ih =>
    intro entry he
    rcases List.mem_cons.mp he with rfl | later
    · exact Or.inl List.mem_cons_self
    · exact (ih entry later).imp (List.mem_cons_of_mem _) id
  | erase expired rest ih =>
    intro entry he
    rcases List.mem_cons.mp he with rfl | later
    · right
      by_contra live
      cases expired.symm.trans ((visits_outlives rest).live (eq_true_of_ne_false live))
    · exact ih entry later

/-- Each entry is visited at one moment of the loop, and pushed for if its queue is alive then. -/
structure Pushed (data : δ) (alive alive' : θ → Bool) (entries : List (κ × Subscription θ γ))
    (pushes : List (κ × Push θ γ δ)) (moment : κ → θ → Bool) : Prop where
  before : ∀ name, Outlives (moment name) alive
  after : ∀ name, Outlives alive' (moment name)
  once : (pushes.map Prod.fst).Nodup
  pushed : ∀ name push, (name, push) ∈ pushes ↔
    ∃ sub, (name, sub) ∈ entries ∧ sub.live (moment name) = true ∧ push = sub.bind data

theorem visits_names (visits : Visits data alive order alive' kept pushes) :
    (pushes.map Prod.fst).Sublist (order.map Prod.fst) := by
  induction visits with
  | done => exact List.Sublist.slnil
  | expire _ _ ih => exact ih
  | push _ _ ih => exact ih.cons_cons _
  | erase _ _ ih => exact ih.cons _

variable [DecidableEq κ]

omit [DecidableEq θ] in
theorem pushed_cons {moment : κ → θ → Bool} {name : κ} {sub : Subscription θ γ}
    {more : List (κ × Push θ γ δ)} (outlives : Outlives alive' alive)
    (fresh : name ∉ order.map Prod.fst)
    (rest : Pushed data alive alive' order pushes moment)
    (once : (more.map Prod.fst).Nodup)
    (hm : ∀ n push, (n, push) ∈ more ↔
      (n, push) ∈ pushes ∨ n = name ∧ sub.live alive = true ∧ push = sub.bind data) :
    Pushed data alive alive' ((name, sub) :: order) more (update moment name alive) where
  before := by
    intro n
    by_cases own : n = name
    · rw [own, update_self]
      exact fun _ h => h
    · rw [update_of_ne own]
      exact rest.before n
  after := by
    intro n
    by_cases own : n = name
    · rw [own, update_self]
      exact outlives
    · rw [update_of_ne own]
      exact rest.after n
  once := once
  pushed := by
    intro n push
    rw [hm, rest.pushed]
    by_cases own : n = name
    · subst own
      rw [update_self]
      constructor
      · rintro (⟨_, later, _⟩ | ⟨_, live, bound⟩)
        · exact absurd (List.mem_map.mpr ⟨_, later, rfl⟩) fresh
        · exact ⟨sub, List.mem_cons_self, live, bound⟩
      · rintro ⟨other, hmem, live, bound⟩
        rcases List.mem_cons.mp hmem with first | later
        · cases first
          exact Or.inr ⟨rfl, live, bound⟩
        · exact absurd (List.mem_map.mpr ⟨_, later, rfl⟩) fresh
    · rw [update_of_ne own]
      constructor
      · rintro (⟨other, later, live, bound⟩ | ⟨same, _⟩)
        · exact ⟨other, List.mem_cons_of_mem _ later, live, bound⟩
        · exact absurd same own
      · rintro ⟨other, hmem, live, bound⟩
        rcases List.mem_cons.mp hmem with first | later
        · cases first
          exact absurd rfl own
        · exact Or.inl ⟨other, later, live, bound⟩

theorem visits_pushed (visits : Visits data alive order alive' kept pushes) (distinct : Distinct order) :
    ∃ moment, Pushed data alive alive' order pushes moment := by
  induction visits with
  | @done alive =>
    exact ⟨fun _ => alive, fun _ _ h => h, fun _ _ h => h, List.nodup_nil, by simp⟩
  | @expire alive _ _ _ _ queue _ ih =>
    obtain ⟨moment, rest⟩ := ih distinct
    exact ⟨moment, fun name => (rest.before name).trans (outlives_expire alive queue), rest.after,
      rest.once, rest.pushed⟩
  | @push alive name sub entries _ _ pushes live visits ih =>
    obtain ⟨fresh, distinct⟩ := List.nodup_cons.mp distinct
    obtain ⟨moment, rest⟩ := ih distinct
    refine ⟨_, pushed_cons (visits_outlives visits) fresh rest ?_ ?_⟩
    · exact List.nodup_cons.mpr ⟨fun h => fresh ((visits_names visits).subset h), rest.once⟩
    · intro n push
      rw [List.mem_cons, Prod.mk.injEq, or_comm]
      simp [live]
  | @erase alive name sub entries _ _ pushes expired visits ih =>
    obtain ⟨fresh, distinct⟩ := List.nodup_cons.mp distinct
    obtain ⟨moment, rest⟩ := ih distinct
    refine ⟨_, pushed_cons (visits_outlives visits) fresh rest rest.once ?_⟩
    intro n push
    simp [expired]

end EventBus

end Hlib
