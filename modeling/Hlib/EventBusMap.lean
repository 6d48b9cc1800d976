import Hlib.EventBusLookup
import Hlib.EventBusVisits

namespace Hlib

open Function (update update_self update_of_ne)
open Transition (Run)
open UnorderedMap

namespace EventBus

/-- The map that a bus stands for: by action and name, the subscription. -/
abbrev Table (κ θ γ : Type) := κ → κ → Option (Subscription θ γ)

variable {κ θ γ δ : Type} [DecidableEq κ]

def Table.put (m : Table κ θ γ) (action name : κ) (entry : Option (Subscription θ γ)) : Table κ θ γ :=
  update m action (update (m action) name entry)

theorem Table.put_self (m : Table κ θ γ) (action name : κ) (entry : Option (Subscription θ γ)) :
    m.put action name entry action name = entry := by
  rw [Table.put, update_self, update_self]

theorem Table.put_of_ne (m : Table κ θ γ) {action name other other' : κ}
    (entry : Option (Subscription θ γ)) (h : (other, other') ≠ (action, name)) :
    m.put action name entry other other' = m other other' := by
  by_cases own : other = action
  · subst own
    rw [Table.put, update_self, update_of_ne]
    rintro rfl
    exact h rfl
  · rw [Table.put, update_of_ne own]

def Label.next (m : Table κ θ γ) : Label κ θ γ δ → Table κ θ γ
  | .subscribe name action sub true => m.put action name (some sub)
  | .unsubscribe name action => m.put action name none
  | _ => m

def table (labels : List (Label κ θ γ δ)) : Table κ θ γ := labels.foldl Label.next fun _ _ => none

/-- What the map prescribes of a call, with the queues alive before and after it. -/
def Prescribed (m : Table κ θ γ) (alive alive' : θ → Bool) : Label κ θ γ δ → Prop
  | .subscribe _ _ sub result => result = (sub.live alive && sub.callback.isSome)
  | .notify name action data pushes =>
    pushes = match m action name with
      | some sub => if sub.live alive then [sub.bind data] else []
      | none => []
  | .broadcast action data pushes =>
    ∃ moment : κ → θ → Bool, (∀ name, Outlives (moment name) alive) ∧
      (∀ name, Outlives alive' (moment name)) ∧ (pushes.map Prod.fst).Nodup ∧
      ∀ name push, (name, push) ∈ pushes ↔
        ∃ sub, m action name = some sub ∧ sub.live (moment name) = true ∧ push = sub.bind data
  | .get name action result =>
    result = (m action name).getD {} ∨
      result = {} ∧ ∃ sub, m action name = some sub ∧ sub.live alive = false
  | .expire _ => True
  | .unsubscribe _ _ => True

/-- The bus has entries of the map only, and all of those whose queue is alive. -/
structure Represents (s : State κ θ γ) (m : Table κ θ γ) : Prop where
  keyed : Keyed s.actions
  sound : ∀ action name sub, lookup s.actions action name = some sub → m action name = some sub
  complete : ∀ action name sub, m action name = some sub → sub.live s.alive = true →
    lookup s.actions action name = some sub

def delivery (s : State κ θ γ) (action name : κ) : Option (Subscription θ γ) :=
  (lookup s.actions action name).filter fun sub => sub.live s.alive

theorem Represents.delivery {s : State κ θ γ} {m : Table κ θ γ} (h : Represents s m) (action name : κ) :
    delivery s action name = (m action name).filter fun sub => sub.live s.alive := by
  ext sub
  rw [EventBus.delivery, Option.filter_eq_some_iff, Option.filter_eq_some_iff]
  constructor
  · exact fun ⟨found, live⟩ => ⟨h.sound action name sub found, live⟩
  · exact fun ⟨entry, live⟩ => ⟨h.complete action name sub entry live, live⟩

theorem represents_changed {s : State κ θ γ} {m m' : Table κ θ γ} {actions' : Actions κ θ γ}
    (h : Represents s m) (keyed : Keyed actions') (action name : κ)
    (others : ∀ other other', (other, other') ≠ (action, name) →
      lookup actions' other other' = lookup s.actions other other' ∧ m' other other' = m other other')
    (sound : ∀ sub, lookup actions' action name = some sub → m' action name = some sub)
    (complete : ∀ sub, m' action name = some sub → sub.live s.alive = true →
      lookup actions' action name = some sub) :
    Represents ⟨actions', s.alive⟩ m' := by
  refine ⟨keyed, ?_, ?_⟩
  · intro other other' sub found
    by_cases same : (other, other') = (action, name)
    · cases same
      exact sound sub found
    · obtain ⟨sameLookup, sameEntry⟩ := others other other' same
      rw [sameEntry]
      exact h.sound other other' sub (sameLookup ▸ found)
  · intro other other' sub entry live
    by_cases same : (other, other') = (action, name)
    · cases same
      exact complete sub entry live
    · obtain ⟨sameLookup, sameEntry⟩ := others other other' same
      rw [sameLookup]
      exact h.complete other other' sub (sameEntry ▸ entry) live

variable [DecidableEq θ] {s t : State κ θ γ} {m : Table κ θ γ} {label : Label κ θ γ δ}
  {labels : List (Label κ θ γ δ)}

omit [DecidableEq θ] in
theorem keyed_inner (h : Keyed s.actions) (action name : κ) (sub : Subscription θ γ) :
    Distinct (assign ((find s.actions action).getD []) name sub) := by
  apply distinct_assign
  cases present : find s.actions action with
  | none => exact List.nodup_nil
  | some names => exact h.names present

theorem represents_broadcast (h : Represents s m) {action : κ} {data : δ} {alive' : θ → Bool}
    {names order kept : List (κ × Subscription θ γ)} {pushes : List (κ × Push θ γ δ)}
    (present : find s.actions action = some names) (same : names.Perm order)
    (visits : Visits data s.alive order alive' kept pushes) :
    Represents ⟨assign s.actions action kept, alive'⟩ m := by
  have distinct := distinct_perm same (h.keyed.names present)
  have distinctKept : Distinct kept := distinct.sublist ((visits_kept visits).map Prod.fst)
  have inOrder : ∀ name sub, lookup s.actions action name = some sub ↔ (name, sub) ∈ order := by
    intro name sub
    rw [lookup_present present, find_iff_mem (h.keyed.names present), same.mem_iff]
  refine ⟨keyed_assign h.keyed action distinctKept, ?_, ?_⟩
  · intro other name sub found
    by_cases own : other = action
    · subst own
      change lookup (assign s.actions other kept) other name = some sub at found
      rw [lookup_assign_self] at found
      have hmem := (visits_kept visits).subset (mem_of_find found)
      exact h.sound other name sub ((inOrder name sub).mpr hmem)
    · exact h.sound other name sub (lookup_assign_of_ne s.actions kept own name ▸ found)
  · intro other name sub entry live
    have found := h.complete other name sub entry ((visits_outlives visits).live live)
    change lookup (assign s.actions action kept) other name = some sub
    by_cases own : other = action
    · subst own
      rw [lookup_assign_self]
      rcases visits_erased visits _ ((inOrder name sub).mp found) with held | expired
      · exact find_of_mem distinctKept held
      · cases expired.symm.trans live
    · rwa [lookup_assign_of_ne s.actions kept own]

theorem step_represents (h : Represents s m) (hs : Step s label t) : Represents t (label.next m) := by
  cases hs with
  | expire =>
    refine ⟨h.keyed, h.sound, ?_⟩
    intro action name sub entry live
    exact h.complete action name sub entry ((outlives_expire _ _).live live)
  | @subscribe actions actions' alive name action sub result hr =>
    obtain ⟨_, ⟨rfl, rfl⟩ | ⟨rfl, rfl⟩⟩ := subscribe_cases hr
    · exact h
    · have keyed := keyed_assign h.keyed action (keyed_inner h.keyed action name sub)
      refine represents_changed h keyed action name ?_ ?_ ?_
      · intro other other' elsewhere
        refine ⟨lookup_changed (find_getD actions action) ?_ elsewhere, m.put_of_ne _ elsewhere⟩
        exact fun n hn => find_assign_of_ne _ sub hn
      · intro sub' found
        rw [lookup_assign_self, find_assign_self] at found
        exact (m.put_self action name _).trans found
      · intro sub' entry _
        rw [lookup_assign_self, find_assign_self]
        exact (m.put_self action name _).symm.trans entry
  | @unsubscribe actions alive name action =>
    obtain ⟨keyed, gone, others⟩ := unsubscribe_lookup h.keyed name action
    refine represents_changed h keyed action name ?_ ?_ ?_
    · exact fun other other' elsewhere => ⟨others other other' elsewhere, m.put_of_ne _ elsewhere⟩
    · intro sub found
      cases gone.symm.trans found
    · intro sub entry _
      cases (m.put_self action name none).symm.trans entry
  | @notify actions actions' alive name action data pushes hr =>
    obtain ⟨keyed, _, own, others⟩ := notify_lookup h.keyed hr
    refine represents_changed h keyed action name ?_ ?_ ?_
    · exact fun other other' elsewhere => ⟨others other other' elsewhere, rfl⟩
    · intro sub found
      rw [own, Option.filter_eq_some_iff] at found
      exact h.sound action name sub found.1
    · intro sub entry live
      rw [own, Option.filter_eq_some_iff]
      exact ⟨h.complete action name sub entry live, live⟩
  | silent => exact h
  | broadcast present same visits => exact represents_broadcast h present same visits
  | get => exact h

theorem prescribed_broadcast (h : Represents s m) {action : κ} {data : δ} {alive' : θ → Bool}
    {names order kept : List (κ × Subscription θ γ)} {pushes : List (κ × Push θ γ δ)}
    (present : find s.actions action = some names) (same : names.Perm order)
    (visits : Visits data s.alive order alive' kept pushes) :
    Prescribed m s.alive alive' (.broadcast action data pushes) := by
  have distinct := h.keyed.names present
  obtain ⟨moment, pushed⟩ := visits_pushed visits (distinct_perm same distinct)
  refine ⟨moment, pushed.before, pushed.after, pushed.once, ?_⟩
  intro name push
  rw [pushed.pushed]
  have entries : ∀ sub, (name, sub) ∈ order ↔ lookup s.actions action name = some sub := by
    intro sub
    rw [lookup_present present, find_iff_mem distinct, same.mem_iff]
  constructor
  · rintro ⟨sub, hmem, live, bound⟩
    exact ⟨sub, h.sound action name sub ((entries sub).mp hmem), live, bound⟩
  · rintro ⟨sub, entry, live, bound⟩
    have found := h.complete action name sub entry ((pushed.before name).live live)
    exact ⟨sub, (entries sub).mpr found, live, bound⟩

theorem step_prescribed (h : Represents s m) (hs : Step s label t) :
    Prescribed m s.alive t.alive label := by
  cases hs with
  | expire | unsubscribe => trivial
  | subscribe hr => exact (subscribe_cases hr).1
  | @notify actions actions' alive name action data pushes hr =>
    obtain ⟨_, pushes_eq, _, _⟩ := notify_lookup h.keyed hr
    change pushes = match m action name with
      | some sub => if sub.live alive then [sub.bind data] else []
      | none => []
    rw [pushes_eq]
    cases found : lookup actions action name with
    | some sub => rw [h.sound action name sub found]
    | none =>
      cases entry : m action name with
      | none => rfl
      | some sub =>
        refine (if_neg ?_).symm
        intro live
        cases found.symm.trans (h.complete action name sub entry live)
  | @silent actions alive action data absent =>
    refine ⟨fun _ => alive, fun _ _ live => live, fun _ _ live => live, List.nodup_nil, ?_⟩
    intro name push
    refine iff_of_false (List.not_mem_nil) ?_
    rintro ⟨sub, entry, live, _⟩
    have found := h.complete action name sub entry live
    rw [lookup, absent] at found
    cases found
  | broadcast present same visits => exact prescribed_broadcast h present same visits
  | @get actions alive name action =>
    change get actions name action = (m action name).getD {} ∨ _
    rw [get_eq]
    cases found : lookup actions action name with
    | some sub =>
      left
      rw [h.sound action name sub found]
    | none =>
      cases entry : m action name with
      | none => exact Or.inl rfl
      | some sub =>
        refine Or.inr ⟨rfl, sub, rfl, ?_⟩
        by_contra live
        cases found.symm.trans (h.complete action name sub entry (eq_true_of_ne_false live))

def Label.pair : Label κ θ γ δ → Option (κ × κ)
  | .subscribe name action _ _ => some (action, name)
  | .unsubscribe name action => some (action, name)
  | .notify name action _ _ => some (action, name)
  | .get name action _ => some (action, name)
  | _ => none

/-- A call about one pair leaves every other as it is. -/
theorem step_other (h : Represents s m) (hs : Step s label t) {action name : κ}
    (pair : label.pair = some (action, name)) {other other' : κ}
    (elsewhere : (other, other') ≠ (action, name)) : delivery t other other' = delivery s other other' := by
  cases hs with
  | expire | silent | broadcast => cases pair
  | get => rfl
  | @subscribe actions actions' alive _ _ sub result hr =>
    cases pair
    obtain ⟨_, ⟨rfl, rfl⟩ | ⟨rfl, rfl⟩⟩ := subscribe_cases hr
    · rfl
    · refine congrArg (Option.filter _) (lookup_changed (find_getD actions action) ?_ elsewhere)
      exact fun n hn => find_assign_of_ne _ sub hn
  | unsubscribe =>
    cases pair
    exact congrArg (Option.filter _) ((unsubscribe_lookup h.keyed name action).2.2 _ _ elsewhere)
  | notify hr =>
    cases pair
    exact congrArg (Option.filter _) ((notify_lookup h.keyed hr).2.2.2 _ _ elsewhere)

/-- In every run the bus stands for the map that its calls make; each call returns and pushes what the
map prescribes, and one about a pair changes no other delivery. -/
theorem refines_table {alive : θ → Bool} (run : Run Step ⟨[], alive⟩ labels s) :
    Represents s (table labels) ∧ ∀ {label : Label κ θ γ δ} {t}, Step s label t →
      Prescribed (table labels) s.alive t.alive label ∧
        ∀ action name, label.pair = some (action, name) → ∀ other other',
          (other, other') ≠ (action, name) → delivery t other other' = delivery s other other' := by
  have represents : Represents s (table labels) := by
    have empty : Represents (⟨[], alive⟩ : State κ θ γ) fun _ _ => none :=
      ⟨⟨List.nodup_nil, nofun⟩, nofun, nofun⟩
    exact run.simulates (fun table s => Represents s table) empty step_represents
  refine ⟨represents, fun hs => ⟨step_prescribed represents hs, ?_⟩⟩
  exact fun action name pair other other' elsewhere => step_other represents hs pair elsewhere

def expiredFirst : List (Label Nat Nat Nat Nat) :=
  [.subscribe 0 1 ⟨some 7, some 3⟩ true, .expire 7, .notify 0 1 5 []]

theorem refines_table_expired :
    ∃ s : State Nat Nat Nat, Run Step ⟨[], fun _ => true⟩ expiredFirst s ∧
      Represents s (table expiredFirst) := by
  have last : ∃ s : State Nat Nat Nat, Run Step ⟨[], fun _ => true⟩ expiredFirst s :=
    ⟨_, ((Run.start.next (.subscribe rfl)).next .expire).next (.notify rfl)⟩
  obtain ⟨s, run⟩ := last
  exact ⟨s, run, (refines_table run).1⟩

end EventBus

end Hlib
