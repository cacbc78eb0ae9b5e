/-
# Guarded runs of a partial step function

A system answers a request in a state with an output and a next state, or does
not answer at all (`none`: it does not return).  `run` serves a list of
requests in turn and `Guarded ok` says that every request satisfies `ok` in the
state it arrives in.  The rules below carry a one-step fact to every guarded
run: a simulation of an abstract system, which also shows that the run returns
(`run_simulates`), an invariant (`run_invariant`, `run_total`), agreement of two
guards (`guarded_iff`), equality of outputs for two related states
(`run_lockstep`), and a refinement of a system that may answer in more than one way
(`run_refines`).  A run of a system is one of each of its parts (`run_part`).
-/

import Mathlib.Data.List.Basic

namespace Runs

variable {σ ι ο α : Type*} {step : ι → σ → Option (ο × σ)} {ok : σ → ι → Prop}

/-- Serve the requests in turn, collecting the outputs. -/
def run (step : ι → σ → Option (ο × σ)) : List ι → σ → Option (List ο × σ)
  | [], s => some ([], s)
  | i :: is, s =>
      match step i s with
      | none => none
      | some (o, s') => (run step is s').map fun r => (o :: r.1, r.2)

/-- Every request satisfies `ok` in the state in which it arrives. -/
def Guarded (step : ι → σ → Option (ο × σ)) (ok : σ → ι → Prop) : List ι → σ → Prop
  | [], _ => True
  | i :: is, s => ok s i ∧ ∀ o s', step i s = some (o, s') → Guarded step ok is s'

/-- A guarded run begins with a permitted request and goes on guarded. -/
theorem guarded_cons {i : ι} {is : List ι} {s : σ} :
    Guarded step ok (i :: is) s ↔ ok s i ∧ ∀ r ∈ step i s, Guarded step ok is r.2 :=
  ⟨fun h => ⟨h.1, fun r hr => h.2 r.1 r.2 hr⟩, fun h => ⟨h.1, fun o s' hs => h.2 (o, s') hs⟩⟩

/-- A request that is answered leaves the rest of the run to its next state. -/
theorem guarded_cons_of_eq {i : ι} {is : List ι} {s s' : σ} {o : ο} (h : step i s = some (o, s'))
    (hok : ok s i) : Guarded step ok (i :: is) s ↔ Guarded step ok is s' := by
  rw [guarded_cons, h]
  exact ⟨fun hg => hg.2 _ rfl, fun hg => ⟨hok, fun r hr => Option.some.inj hr ▸ hg⟩⟩

/-- What goes wrong after a request goes wrong with it. -/
theorem not_guarded_cons {i : ι} {is : List ι} {s : σ}
    (h : ∃ r ∈ step i s, ¬Guarded step ok is r.2) : ¬Guarded step ok (i :: is) s := by
  obtain ⟨r, hr, hn⟩ := h
  exact fun hg => hn ((guarded_cons.1 hg).2 r hr)

/-- Whether a list of requests is guarded can be run. -/
instance guardedDecidable [∀ s i, Decidable (ok s i)] :
    (is : List ι) → DecidablePred (Guarded step ok is)
  | [], _ => isTrue trivial
  | i :: is, s =>
      have : DecidablePred (Guarded step ok is) := guardedDecidable is
      decidable_of_iff (ok s i ∧ ∀ r ∈ step i s, Guarded step ok is r.2) guarded_cons.symm

/-- The first request of a run, and the rest. -/
theorem run_cons {i : ι} {is : List ι} {s : σ} {os : List ο} {t : σ}
    (h : run step (i :: is) s = some (os, t)) :
    ∃ o os' s', step i s = some (o, s') ∧ run step is s' = some (os', t) ∧ os = o :: os' := by
  rw [run] at h
  cases hs : step i s with
  | none => simp [hs] at h
  | some r =>
      obtain ⟨o, s'⟩ := r
      simp only [hs, Option.map_eq_some_iff, Prod.mk.injEq] at h
      obtain ⟨⟨os', t'⟩, hr, rfl, rfl⟩ := h
      exact ⟨o, os', s', rfl, hr, rfl⟩

/-- A run from its first request and the rest. -/
theorem run_cons_eq {i : ι} {is : List ι} {s s' t : σ} {o : ο} {os : List ο}
    (h : step i s = some (o, s')) (hr : run step is s' = some (os, t)) :
    run step (i :: is) s = some (o :: os, t) := by
  simp [run, h, hr]

/-- A run of some requests and then of others. -/
theorem run_append (is js : List ι) (s : σ) : run step (is ++ js) s =
    (run step is s).bind fun r => (run step js r.2).map fun r' => (r.1 ++ r'.1, r'.2) := by
  induction is generalizing s with
  | nil => simp [run]
  | cons i is ih =>
      rw [List.cons_append, run, run]
      cases step i s with
      | none => rfl
      | some r =>
          simp only [ih, Option.map_bind, Option.bind_map]
          refine congrArg _ (funext fun r' => ?_)
          simp [Function.comp_def]

/-- **The simulation rule.**  If every permitted request returns and keeps the
relation `R` to an abstract state advanced by `f`, every guarded run returns and
is related to the abstract run. -/
theorem run_simulates {R : σ → α → Prop} {f : α → ι → α}
    (hstep : ∀ s a i, R s a → ok s i → ∃ o s', step i s = some (o, s') ∧ R s' (f a i))
    {is : List ι} {s : σ} {a : α} (hR : R s a) (hg : Guarded step ok is s) :
    ∃ os t, run step is s = some (os, t) ∧ R t (is.foldl f a) := by
  induction is generalizing s a with
  | nil => exact ⟨[], s, rfl, hR⟩
  | cons i is ih =>
      obtain ⟨o, s', hs, hR'⟩ := hstep s a i hR hg.1
      obtain ⟨os, t, hr, hRt⟩ := ih hR' (hg.2 o s' hs)
      exact ⟨o :: os, t, run_cons_eq hs hr, hRt⟩

/-- A guarded run returns and keeps an invariant, if every permitted request
does. -/
theorem run_total {I : σ → Prop}
    (hstep : ∀ s i, I s → ok s i → ∃ o s', step i s = some (o, s') ∧ I s')
    {is : List ι} {s : σ} (hI : I s) (hg : Guarded step ok is s) :
    ∃ os t, run step is s = some (os, t) ∧ I t :=
  run_simulates (R := fun s (_ : Unit) => I s) (f := fun a _ => a) (a := ())
    (fun s _ i hs hi => hstep s i hs hi) hI hg

/-- **The invariant rule.**  What every permitted request keeps holds in every
state that a guarded run reaches. -/
theorem run_invariant {I : σ → Prop}
    (hstep : ∀ s i o s', I s → ok s i → step i s = some (o, s') → I s')
    {is : List ι} {s t : σ} {os : List ο} (hI : I s) (hg : Guarded step ok is s)
    (hr : run step is s = some (os, t)) : I t := by
  induction is generalizing s os with
  | nil =>
      simp only [run, Option.some.injEq, Prod.mk.injEq] at hr
      exact hr.2 ▸ hI
  | cons i is ih =>
      obtain ⟨o, os', s', hs, hr', rfl⟩ := run_cons hr
      exact ih (hstep s i o s' hI hg.1 hs) (hg.2 o s' hs) hr'

/-- What every request can only lose, a state has that a run with it went
through. -/
theorem run_backward {good : σ → Prop}
    (hgood : ∀ s i o s', step i s = some (o, s') → good s' → good s) {is : List ι} {s t : σ}
    {os : List ο} (hr : run step is s = some (os, t)) (ht : good t) : good s := by
  induction is generalizing s os with
  | nil =>
      simp only [run, Option.some.injEq, Prod.mk.injEq] at hr
      exact hr.2 ▸ ht
  | cons i is ih =>
      obtain ⟨o, os', s', hs, hr', rfl⟩ := run_cons hr
      exact hgood s i o s' hs (ih hr')

/-- Later requests come to the state that the others lead to. -/
theorem guarded_append {is js : List ι} {s : σ} : Guarded step ok (is ++ js) s ↔
    Guarded step ok is s ∧ ∀ os t, run step is s = some (os, t) → Guarded step ok js t := by
  induction is generalizing s with
  | nil =>
      refine ⟨fun h => ⟨trivial, fun os t hr => ?_⟩, fun h => h.2 [] s rfl⟩
      obtain ⟨-, rfl⟩ := Prod.mk.inj (Option.some.inj hr)
      exact h
  | cons i is ih =>
      constructor
      · rintro ⟨hok, hrest⟩
        refine ⟨⟨hok, fun o s' hs => (ih.1 (hrest o s' hs)).1⟩, fun os t hr => ?_⟩
        obtain ⟨o, os', s', hs, hr', -⟩ := run_cons hr
        exact (ih.1 (hrest o s' hs)).2 os' t hr'
      · rintro ⟨⟨hok, hrest⟩, hlast⟩
        exact ⟨hok, fun o s' hs => ih.2 ⟨hrest o s' hs, fun os t hr =>
          hlast (o :: os) t (run_cons_eq hs hr)⟩⟩

/-- Two guards of one run. -/
theorem guarded_and {ok' : σ → ι → Prop} {is : List ι} {s : σ} (h : Guarded step ok is s)
    (h' : Guarded step ok' is s) : Guarded step (fun s i => ok s i ∧ ok' s i) is s := by
  induction is generalizing s with
  | nil => trivial
  | cons i is ih => exact ⟨⟨h.1, h'.1⟩, fun o s' hs => ih (h.2 o s' hs) (h'.2 o s' hs)⟩

/-- **The safety rule.**  If in a state of the invariant what is permitted is also safe,
and keeps the invariant, a run of what is permitted is safe throughout. -/
theorem guarded_of_invariant {I : σ → Prop} {ok' : σ → ι → Prop}
    (hstep : ∀ s i, I s → ok s i → ok' s i ∧ ∀ o s', step i s = some (o, s') → I s')
    {is : List ι} {s : σ} (hI : I s) (hg : Guarded step ok is s) : Guarded step ok' is s := by
  induction is generalizing s with
  | nil => trivial
  | cons i is ih =>
      obtain ⟨hok, hnext⟩ := hstep s i hI hg.1
      exact ⟨hok, fun o s' hs => ih (hnext o s' hs) (hg.2 o s' hs)⟩

/-- What holds of every request, whatever the state. -/
theorem guarded_of_forall {is : List ι} {s : σ} (h : ∀ i ∈ is, ∀ s, ok s i) :
    Guarded step ok is s := by
  induction is generalizing s with
  | nil => trivial
  | cons i is ih =>
      have ih' := fun j hj => h j (List.mem_cons_of_mem _ hj)
      exact ⟨h i List.mem_cons_self s, fun _ _ _ => ih ih'⟩

/-- Nothing is asked of the requests. -/
theorem guarded_true {is : List ι} {s : σ} : Guarded step (fun _ _ => True) is s :=
  guarded_of_forall fun _ _ _ => trivial

/-- **The exactness rule.**  If in every good state two guards agree on the
requests of a domain, and what they permit keeps the state good, then they permit
the same runs of the domain. -/
theorem guarded_iff {good : σ → Prop} {dom ok' : σ → ι → Prop}
    (h : ∀ s i, good s → dom s i → (ok s i ↔ ok' s i))
    (hgood : ∀ s i o s', good s → dom s i → ok s i → step i s = some (o, s') → good s')
    {is : List ι} {s : σ} (hs : good s) (hd : Guarded step dom is s) :
    Guarded step ok is s ↔ Guarded step ok' is s := by
  induction is generalizing s with
  | nil => exact Iff.rfl
  | cons i is ih =>
      have hhead := h s i hs hd.1
      constructor
      · rintro ⟨hok, hrest⟩
        refine ⟨hhead.1 hok, fun o s' hx => ?_⟩
        exact (ih (hgood s i o s' hs hd.1 hok hx) (hd.2 o s' hx)).1 (hrest o s' hx)
      · rintro ⟨hok, hrest⟩
        refine ⟨hhead.2 hok, fun o s' hx => ?_⟩
        exact (ih (hgood s i o s' hs hd.1 (hhead.2 hok) hx) (hd.2 o s' hx)).2 (hrest o s' hx)

/-- **The lockstep rule.**  If related states answer alike and stay related
whenever the first one stays good, a run that ends good is a run from every
related state, with the same outputs. -/
theorem run_lockstep {R : σ → σ → Prop} {good : σ → Prop}
    (hgood : ∀ s i o s', step i s = some (o, s') → good s' → good s)
    (hstep : ∀ s t i o s', R s t → step i s = some (o, s') → good s' →
      ∃ t', step i t = some (o, t') ∧ R s' t')
    {is : List ι} {s t s' : σ} {os : List ο} (hR : R s t) (hr : run step is s = some (os, s'))
    (hs' : good s') : ∃ t', run step is t = some (os, t') ∧ R s' t' := by
  induction is generalizing s t os with
  | nil =>
      simp only [run, Option.some.injEq, Prod.mk.injEq] at hr
      obtain ⟨rfl, rfl⟩ := hr
      exact ⟨t, rfl, hR⟩
  | cons i is ih =>
      obtain ⟨o, os', s₁, hs, hr', rfl⟩ := run_cons hr
      obtain ⟨t₁, ht, hR₁⟩ := hstep s t i o s₁ hR hs (run_backward hgood hr' hs')
      obtain ⟨t', hrt, hR'⟩ := ih hR₁ hr'
      exact ⟨t', run_cons_eq ht hrt, hR'⟩

/-! ### Parts -/

section Part

variable {τ κ π : Type*} {step' : κ → τ → Option (π × τ)} {part : σ → τ} {request : ι → κ}
  {reply : ο → π}

/-- **The rule of the parts.**  If a step is one of a part, a run is one of the part. -/
theorem run_part (hstep : ∀ s i o s', step i s = some (o, s') →
      step' (request i) (part s) = some (reply o, part s'))
    {is : List ι} {s t : σ} {os : List ο} (hr : run step is s = some (os, t)) :
    run step' (is.map request) (part s) = some (os.map reply, part t) := by
  induction is generalizing s os with
  | nil =>
      obtain ⟨rfl, rfl⟩ := Prod.mk.inj (Option.some.inj hr)
      rfl
  | cons i is ih =>
      obtain ⟨o, os, s', hs, hr', rfl⟩ := run_cons hr
      exact run_cons_eq (hstep s i o s' hs) (ih hr')

/-- What is asked of the part's requests is asked of the part's run. -/
theorem guarded_part {ok' : τ → κ → Prop} (hstep : ∀ s i o s', step i s = some (o, s') →
      step' (request i) (part s) = some (reply o, part s'))
    {is : List ι} {s t : σ} {os : List ο} (hr : run step is s = some (os, t))
    (hg : Guarded step (fun s i => ok' (part s) (request i)) is s) :
    Guarded step' ok' (is.map request) (part s) := by
  induction is generalizing s os with
  | nil => trivial
  | cons i is ih =>
      obtain ⟨o, os, s', hs, hr', rfl⟩ := run_cons hr
      exact (guarded_cons_of_eq (hstep s i o s' hs) hg.1).2 (ih hr' (hg.2 o s' hs))

end Part

/-! ### Refinement -/

/-- A run of an abstract system, whose step may answer in more than one way. -/
inductive Trace (spec : ι → α → ο → α → Prop) : List ι → α → List ο → α → Prop
  | nil (a : α) : Trace spec [] a [] a
  | cons {i : ι} {is : List ι} {a b c : α} {o : ο} {os : List ο} : spec i a o b →
      Trace spec is b os c → Trace spec (i :: is) a (o :: os) c

/-- **The refinement rule.**  If every permitted request returns with an answer that the
abstract system may give, and keeps the relation `R` to its next state, every guarded run
returns with the answers of an abstract run. -/
theorem run_refines {R : σ → α → Prop} {spec : ι → α → ο → α → Prop}
    (hstep : ∀ s a i, R s a → ok s i →
      ∃ o s' b, step i s = some (o, s') ∧ spec i a o b ∧ R s' b)
    {is : List ι} {s : σ} {a : α} (hR : R s a) (hg : Guarded step ok is s) :
    ∃ os t b, run step is s = some (os, t) ∧ Trace spec is a os b ∧ R t b := by
  induction is generalizing s a with
  | nil => exact ⟨[], s, a, rfl, .nil a, hR⟩
  | cons i is ih =>
      obtain ⟨o, s', b, hs, hspec, hR'⟩ := hstep s a i hR hg.1
      obtain ⟨os, t, c, hr, htrace, hRt⟩ := ih hR' (hg.2 o s' hs)
      exact ⟨o :: os, t, c, run_cons_eq hs hr, .cons hspec htrace, hRt⟩

end Runs
