import DiscogsIngestion.Lib.Machine
import Mathlib.Algebra.BigOperators.Group.Finset.Basic

/-!
# Ranks

A rank that the steps lower bounds the runs of a machine.

* `Pays`, `run_countP_le` : the rank pays for the steps of a run that count;
* `Lowers`, `run_length_le` : for all of them, if every step counts;
* `exists_maximal` : steps that count can be taken until there are no more;
* `sum_change`, `sum_update_add` : the rank of a state of many parts, one of which changes.
-/

namespace Machine

variable {σ α : Type} {step : σ → α → Option σ} {I : σ → Prop} {rank : σ → Nat}

/-- Every step that is `ok` keeps the invariant, and does not raise the rank; a step that counts lowers it. -/
def Pays (step : σ → α → Option σ) (ok : α → Prop) (counts : α → Bool) (I : σ → Prop) (rank : σ → Nat) : Prop :=
  ∀ s a s', I s → ok a → step s a = some s' → I s' ∧ rank s' + (counts a).toNat ≤ rank s

theorem run_countP_le {ok : α → Prop} {counts : α → Bool} (hpays : Pays step ok counts I rank) {s s' : σ}
    {as : List α} (hs : I s) (hok : ∀ a ∈ as, ok a) (hrun : run step s as = some s') :
    as.countP counts + rank s' ≤ rank s := by
  induction as generalizing s with
  | nil =>
    obtain rfl := Option.some.inj hrun
    simp
  | cons a as ih =>
    obtain ⟨mid, hstep, hrest⟩ := run_cons hrun
    obtain ⟨hmid, hpaid⟩ := hpays s a mid hs (hok a List.mem_cons_self) hstep
    have hle := ih hmid (fun b hb => hok b (List.mem_cons_of_mem _ hb)) hrest
    rw [List.countP_cons]
    cases hcounts : counts a <;> simp only [hcounts, Bool.toNat_false, Bool.toNat_true, if_true, Bool.false_eq_true,
      if_false] at hpaid ⊢ <;> omega

/-- Every step keeps the invariant and lowers the rank. -/
def Lowers (step : σ → α → Option σ) (I : σ → Prop) (rank : σ → Nat) : Prop :=
  ∀ s a s', I s → step s a = some s' → I s' ∧ rank s' < rank s

theorem Lowers.pays (h : Lowers step I rank) : Pays step (fun _ => True) (fun _ => true) I rank :=
  fun s a s' hI _ hs => h s a s' hI hs

theorem run_length_le (hlowers : Lowers step I rank) {s s' : σ} {as : List α} (hs : I s)
    (hrun : run step s as = some s') : as.length + rank s' ≤ rank s := by
  have hle := run_countP_le hlowers.pays hs (fun _ _ => trivial) hrun
  rwa [List.countP_true] at hle

theorem exists_maximal {ok : α → Prop} {counts : α → Bool} (hpays : Pays step ok counts I rank) (p : α → Prop)
    (hp : ∀ a, p a → ok a ∧ counts a = true) {s : σ} (hs : I s) :
    ∃ as s', run step s as = some s' ∧ (∀ a ∈ as, p a) ∧ ∀ a, p a → step s' a = none := by
  induction hn : rank s using Nat.strong_induction_on generalizing s with
  | h n ih =>
    by_cases hmore : ∃ a s', p a ∧ step s a = some s'
    · obtain ⟨a, mid, ha, hstep⟩ := hmore
      obtain ⟨hok, hcounts⟩ := hp a ha
      obtain ⟨hmid, hpaid⟩ := hpays s a mid hs hok hstep
      rw [hcounts, Bool.toNat_true] at hpaid
      obtain ⟨as, s', hrun, hall, hmax⟩ := ih (rank mid) (by omega) hmid rfl
      refine ⟨a :: as, s', ?_, ?_, hmax⟩
      · simp only [run, hstep, hrun]
      · intro b hb
        obtain rfl | hb := List.mem_cons.1 hb
        · exact ha
        · exact hall b hb
    · refine ⟨[], s, rfl, by simp, fun a ha => ?_⟩
      cases hstep : step s a with
      | none => rfl
      | some s' => exact absurd ⟨a, s', ha, hstep⟩ hmore

theorem sum_change {parts : Finset Nat} {k : Nat} {f f' : Nat → Nat} (hk : k ∈ parts)
    (hrest : ∀ i ∈ parts, i ≠ k → f' i = f i) : ∑ i ∈ parts, f' i + f k = ∑ i ∈ parts, f i + f' k := by
  have hsame : ∑ i ∈ parts.erase k, f' i = ∑ i ∈ parts.erase k, f i := by
    apply Finset.sum_congr rfl
    intro i hi
    exact hrest i (Finset.mem_of_mem_erase hi) (Finset.ne_of_mem_erase hi)
  have hnew := Finset.add_sum_erase parts f' hk
  have hold := Finset.add_sum_erase parts f hk
  omega

theorem sum_update_add {γ : Type} {parts : Finset Nat} {k : Nat} (hk : k ∈ parts) (g : Nat → γ → Nat) (c : Nat → γ)
    (x : γ) : ∑ i ∈ parts, g i (Function.update c k x i) + g k (c k) = ∑ i ∈ parts, g i (c i) + g k x := by
  have hchange := @sum_change parts k (fun i => g i (c i)) (fun i => g i (Function.update c k x i)) hk
    fun i _ hi => by rw [Function.update_of_ne hi]
  rwa [Function.update_self] at hchange

end Machine
