import Hlib.Transition
import Hlib.UnorderedMap
import Mathlib.Logic.Function.Basic

namespace Hlib

open Function (update update_self update_of_ne)
open Transition (Run)
open UnorderedMap (find assign erase Distinct)

namespace EventBus

/-- `Subscription`; `queue` names the queue that the `weak_ptr` is about, `callback` is `none` for
`nullptr`. -/
structure Subscription (θ γ : Type) where
  queue : Option θ := none
  callback : Option γ := none

/-- A callback bound to data, as it is pushed on a queue. -/
structure Push (θ γ δ : Type) where
  queue : Option θ
  callback : Option γ
  data : δ

/-- `m_actions`: by action, the subscriptions by name. -/
abbrev Actions (κ θ γ : Type) := List (κ × List (κ × Subscription θ γ))

variable {κ θ γ δ : Type} [DecidableEq κ]

/-- `queue.expired()` is false. -/
def Subscription.live (sub : Subscription θ γ) (alive : θ → Bool) : Bool :=
  sub.queue.any alive

def Subscription.bind (sub : Subscription θ γ) (data : δ) : Push θ γ δ :=
  ⟨sub.queue, sub.callback, data⟩

def get (actions : Actions κ θ γ) (name action : κ) : Subscription θ γ :=
  match find actions action with
  | none => {}
  | some names =>
    match find names name with
    | none => {}
    | some sub => sub

/-- A queue that expires behind the test does so as it might behind the whole call. -/
def subscribe (actions : Actions κ θ γ) (alive : θ → Bool) (name action : κ)
    (sub : Subscription θ γ) : Bool × Actions κ θ γ :=
  if sub.live alive = false ∨ sub.callback.isNone then (false, actions)
  else (true, assign actions action (assign ((find actions action).getD []) name sub))

def sweep (actions : Actions κ θ γ) : Actions κ θ γ := actions.filter fun entry => !entry.2.isEmpty

def unsubscribe (actions : Actions κ θ γ) (name action : κ) : Actions κ θ γ :=
  match find actions action with
  | none => actions
  | some names =>
    match find names name with
    | none => actions
    | some _ => sweep (assign actions action (erase names name))

def notify (actions : Actions κ θ γ) (alive : θ → Bool) (name action : κ) (data : δ) :
    List (Push θ γ δ) × Actions κ θ γ :=
  match find actions action with
  | none => ([], actions)
  | some names =>
    match find names name with
    | none => ([], actions)
    | some sub =>
      if sub.live alive then ([sub.bind data], actions)
      else ([], assign actions action (erase names name))

/-- The loop of `broadcast` over the entries of an action, with the names of the entries that it pushes
for. Queues expire on the way, and the entries of expired ones are erased. -/
inductive Visits [DecidableEq θ] (data : δ) : (θ → Bool) → List (κ × Subscription θ γ) → (θ → Bool) →
    List (κ × Subscription θ γ) → List (κ × Push θ γ δ) → Prop
  | done {alive} : Visits data alive [] alive [] []
  | expire {alive entries alive' kept pushes} (queue : θ)
      (rest : Visits data (update alive queue false) entries alive' kept pushes) :
      Visits data alive entries alive' kept pushes
  | push {alive name sub entries alive' kept pushes} (live : sub.live alive = true)
      (rest : Visits data alive entries alive' kept pushes) :
      Visits data alive ((name, sub) :: entries) alive' ((name, sub) :: kept)
        ((name, sub.bind data) :: pushes)
  | erase {alive name sub entries alive' kept pushes} (expired : sub.live alive = false)
      (rest : Visits data alive entries alive' kept pushes) :
      Visits data alive ((name, sub) :: entries) alive' kept pushes

structure State (κ θ γ : Type) where
  actions : Actions κ θ γ
  alive : θ → Bool

/-- A call, with what it returns or pushes, or the end of a queue. -/
inductive Label (κ θ γ δ : Type)
  | expire (queue : θ)
  | subscribe (name action : κ) (sub : Subscription θ γ) (result : Bool)
  | unsubscribe (name action : κ)
  | notify (name action : κ) (data : δ) (pushes : List (Push θ γ δ))
  | broadcast (action : κ) (data : δ) (pushes : List (κ × Push θ γ δ))
  | get (name action : κ) (result : Subscription θ γ)

inductive Step [DecidableEq θ] : State κ θ γ → Label κ θ γ δ → State κ θ γ → Prop
  | expire {actions alive queue} :
      Step ⟨actions, alive⟩ (.expire queue) ⟨actions, update alive queue false⟩
  | subscribe {actions actions' alive name action sub result}
      (h : subscribe actions alive name action sub = (result, actions')) :
      Step ⟨actions, alive⟩ (.subscribe name action sub result) ⟨actions', alive⟩
  | unsubscribe {actions alive name action} :
      Step ⟨actions, alive⟩ (.unsubscribe name action) ⟨unsubscribe actions name action, alive⟩
  | notify {actions actions' alive name action data pushes}
      (h : notify actions alive name action data = (pushes, actions')) :
      Step ⟨actions, alive⟩ (.notify name action data pushes) ⟨actions', alive⟩
  | silent {actions alive action data} (absent : find actions action = none) :
      Step ⟨actions, alive⟩ (.broadcast action data []) ⟨actions, alive⟩
  /-- The order in which an `unordered_map` is iterated is any. -/
  | broadcast {actions alive action data names order alive' kept pushes}
      (present : find actions action = some names) (same : names.Perm order)
      (visits : Visits data alive order alive' kept pushes) :
      Step ⟨actions, alive⟩ (.broadcast action data pushes)
        ⟨assign actions action kept, alive'⟩
  | get {actions alive name action} :
      Step ⟨actions, alive⟩ (.get name action (get actions name action)) ⟨actions, alive⟩

end EventBus

end Hlib
