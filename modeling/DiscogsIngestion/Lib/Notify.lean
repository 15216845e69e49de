import Mathlib.Logic.Function.Basic

/-!
# Notifications without permits

Tasks wait for a notification, each on a future of its own, and `notifyWaiters` wakes the futures that exist.

* `Notify` : the futures that exist, by their owners, and which of them have been woken;
* `notified`, `dropped`, `notifyWaiters` : a future is created, dropped, and all of them are woken;
* `woken_notifyWaiters_iff` : exactly the futures that exist are woken;
* `not_woken_notified` : a future that is created later is not.
-/

/-- The futures by their owners. A future has been woken, or it has not. -/
structure Notify (ι : Type) where
  futures : ι → Option Bool

namespace Notify

variable {ι : Type} [DecidableEq ι]

def new : Notify ι := ⟨fun _ => none⟩

variable (n : Notify ι)

def waits (i : ι) : Bool := (n.futures i).isSome

def woken (i : ι) : Bool := n.futures i = some true

/-- Create a future. No permit is stored, so what was notified before does not wake it. -/
def notified (i : ι) : Notify ι := ⟨Function.update n.futures i (some false)⟩

def dropped (i : ι) : Notify ι := ⟨Function.update n.futures i none⟩

def notifyWaiters : Notify ι := ⟨fun i => (n.futures i).map fun _ => true⟩

variable {n} {i j : ι}

omit [DecidableEq ι] in
theorem woken_notifyWaiters_iff : n.notifyWaiters.woken i = true ↔ n.waits i = true := by
  unfold woken notifyWaiters waits
  cases h : n.futures i <;> simp [h]

theorem not_woken_notified : (n.notified i).woken i = false := by
  unfold woken notified
  simp

theorem woken_notified_of_ne (h : j ≠ i) : (n.notified i).woken j = n.woken j := by
  unfold woken notified
  simp [h]

theorem waits_notified : (n.notified i).waits i = true := by
  unfold waits notified
  simp

theorem waits_notified_of_ne (h : j ≠ i) : (n.notified i).waits j = n.waits j := by
  unfold waits notified
  simp [h]

omit [DecidableEq ι] in
theorem waits_notifyWaiters : n.notifyWaiters.waits i = n.waits i := by
  unfold waits notifyWaiters
  cases h : n.futures i <;> simp [h]

end Notify
