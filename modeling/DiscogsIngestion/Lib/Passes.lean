/-!
# Passes with a report

A pass changes a state and reports what it has done. Some passes are made one after the other.

* `run` : the passes of a list, with all reports;
* `Chain` : a state that comes from another one by single changes;
* `Settling` : passes that do their work once, which no other pass undoes;
* `Settling.run_chain`, `Settling.run_settled` : a run makes the changes that are reported, and settles every pass;
* `Settling.run_run` : a second run does nothing.
-/

namespace Passes

variable {κ σ α β : Type} (pass : κ → σ → σ × List α)

def run : List κ → σ → σ × List α
  | [], s => (s, [])
  | c :: cs, s => ((run cs (pass c s).1).1, (pass c s).2 ++ (run cs (pass c s).1).2)

/-- By these changes, one after the other, the first state becomes the second. -/
inductive Chain (step : β → σ → σ → Prop) : List β → σ → σ → Prop where
  | nil (s : σ) : Chain step [] s s
  | cons {b : β} {bs : List β} {s s' s'' : σ} (h : step b s s') (rest : Chain step bs s' s'') :
    Chain step (b :: bs) s s''

variable {step : β → σ → σ → Prop}

namespace Chain

theorem single {b : β} {s s' : σ} (h : step b s s') : Chain step [b] s s' := .cons h (.nil s')

theorem append {bs bs' : List β} {s s' s'' : σ} (h : Chain step bs s s') (h' : Chain step bs' s' s'') :
    Chain step (bs ++ bs') s s'' := by
  induction h with
  | nil => exact h'
  | cons hstep _ ih => exact .cons hstep (ih h')

theorem keeps {P : σ → Prop} (hP : ∀ {b s s'}, P s → step b s s' → P s') {bs : List β} {s s' : σ}
    (h : Chain step bs s s') (hs : P s) : P s' := by
  induction h with
  | nil => exact hs
  | cons hstep _ ih => exact ih (hP hs hstep)

/-- A change that can be made in a context is made there step by step. -/
theorem map {f : σ → σ} (hf : ∀ {b s s'}, step b s s' → step b (f s) (f s')) {bs : List β} {s s' : σ}
    (h : Chain step bs s s') : Chain step bs (f s) (f s') := by
  induction h with
  | nil s => exact .nil _
  | cons hstep _ ih => exact .cons (hf hstep) ih

end Chain

/-- Each of these passes makes the changes that it reports, after it there is nothing left to do for it, and no change
brings it work again. -/
structure Settling (step : β → σ → σ → Prop) (report : α → List β) (Inv : σ → Prop) (settled : κ → σ → Prop)
    (cs : List κ) : Prop where
  keeps : ∀ {b s s'}, Inv s → step b s s' → Inv s'
  stays : ∀ c ∈ cs, ∀ {b s s'}, Inv s → step b s s' → settled c s → settled c s'
  chain : ∀ c ∈ cs, ∀ {s}, Inv s → Chain step ((pass c s).2.flatMap report) s (pass c s).1
  settles : ∀ c ∈ cs, ∀ {s}, Inv s → settled c (pass c s).1
  idle : ∀ c ∈ cs, ∀ {s}, Inv s → settled c s → pass c s = (s, [])

namespace Settling

variable {pass} {report : α → List β} {Inv : σ → Prop} {settled : κ → σ → Prop} {c : κ} {cs : List κ} {s : σ}

theorem tail (h : Settling pass step report Inv settled (c :: cs)) : Settling pass step report Inv settled cs :=
  ⟨h.keeps, fun c hc => h.stays c (List.mem_cons_of_mem _ hc), fun c hc => h.chain c (List.mem_cons_of_mem _ hc),
    fun c hc => h.settles c (List.mem_cons_of_mem _ hc), fun c hc => h.idle c (List.mem_cons_of_mem _ hc)⟩

theorem head_inv (h : Settling pass step report Inv settled (c :: cs)) (hs : Inv s) : Inv (pass c s).1 :=
  (h.chain c (List.mem_cons_self ..) hs).keeps (P := Inv) h.keeps hs

/-- A run makes the changes that it reports. -/
theorem run_chain (h : Settling pass step report Inv settled cs) (hs : Inv s) :
    Chain step ((run pass cs s).2.flatMap report) s (run pass cs s).1 := by
  induction cs generalizing s with
  | nil => exact .nil s
  | cons c cs ih =>
    have hfirst := h.chain c (List.mem_cons_self ..) hs
    have hrest := ih h.tail (h.head_inv hs)
    unfold run
    rw [List.flatMap_append]
    exact hfirst.append hrest

theorem run_inv (h : Settling pass step report Inv settled cs) (hs : Inv s) : Inv (run pass cs s).1 :=
  (h.run_chain hs).keeps (P := Inv) h.keeps hs

/-- What holds of every report of a pass holds of those of a run. -/
theorem run_reports (h : Settling pass step report Inv settled cs) {Q : α → Prop}
    (hQ : ∀ c ∈ cs, ∀ {s}, Inv s → ∀ a ∈ (pass c s).2, Q a) (hs : Inv s) : ∀ a ∈ (run pass cs s).2, Q a := by
  induction cs generalizing s with
  | nil => exact fun a ha => absurd ha List.not_mem_nil
  | cons c cs ih =>
    intro a ha
    unfold run at ha
    rcases List.mem_append.1 ha with ha | ha
    · exact hQ c (List.mem_cons_self ..) hs a ha
    · exact ih h.tail (fun c' hc' => hQ c' (List.mem_cons_of_mem _ hc')) (h.head_inv hs) a ha

/-- After a run there is nothing left to do for any pass. -/
theorem run_settled (h : Settling pass step report Inv settled cs) (hs : Inv s) :
    ∀ c ∈ cs, settled c (run pass cs s).1 := by
  induction cs generalizing s with
  | nil => exact fun c hc => absurd hc List.not_mem_nil
  | cons c cs ih =>
    intro c' hc'
    unfold run
    rcases List.mem_cons.1 hc' with rfl | hc'
    · have hfirst : Inv (pass c' s).1 ∧ settled c' (pass c' s).1 :=
        ⟨h.head_inv hs, h.settles c' (List.mem_cons_self ..) hs⟩
      have hboth := (h.tail.run_chain hfirst.1).keeps (P := fun s => Inv s ∧ settled c' s)
        (fun hP hstep => ⟨h.keeps hP.1 hstep, h.stays c' (List.mem_cons_self ..) hP.1 hstep hP.2⟩) hfirst
      exact hboth.2
    · exact ih h.tail (h.head_inv hs) c' hc'

theorem run_idle (h : Settling pass step report Inv settled cs) (hs : Inv s) (hsettled : ∀ c ∈ cs, settled c s) :
    run pass cs s = (s, []) := by
  induction cs with
  | nil => rfl
  | cons c cs ih =>
    have hfirst := h.idle c (List.mem_cons_self ..) hs (hsettled c (List.mem_cons_self ..))
    have hrest := ih h.tail fun c' hc' => hsettled c' (List.mem_cons_of_mem _ hc')
    unfold run
    rw [hfirst, hrest]
    rfl

theorem run_run (h : Settling pass step report Inv settled cs) (hs : Inv s) :
    run pass cs (run pass cs s).1 = ((run pass cs s).1, []) :=
  h.run_idle (h.run_inv hs) (h.run_settled hs)

end Settling

end Passes
