import Mathlib.Data.List.Basic
import Mathlib.Data.List.Induction

/-!
# Runs of a labelled machine

A machine is a partial step function `step : S → L → Option S`; a label that
is not enabled in a state has no successor. A run is a list of labels executed
from left to right. The rules below turn facts about one step into facts about
every run: an invariant under a side condition on the labels taken, the same
for a property wanted in every state visited, and the exact version in which
the side condition decides each step.
-/

namespace Runs

variable {S L : Type*}

/-- Execute the labels in order; `none` once a label is not enabled. -/
def run (step : S → L → Option S) : S → List L → Option S
  | s, [] => some s
  | s, l :: ls => (step s l).bind fun s' => run step s' ls

/-- Every label of the run satisfies `ok` in the state it is taken from. -/
def Along (step : S → L → Option S) (ok : S → L → Prop) : S → List L → Prop
  | _, [] => True
  | s, l :: ls => ok s l ∧ ∀ s', step s l = some s' → Along step ok s' ls

/-- Every state the run visits satisfies `P`, both ends included. -/
def Throughout (step : S → L → Option S) (P : S → Prop) : S → List L → Prop
  | s, [] => P s
  | s, l :: ls => P s ∧ ∀ s', step s l = some s' → Throughout step P s' ls

/-- States a run from `init` ends in. -/
def Reachable (step : S → L → Option S) (init s : S) : Prop :=
  ∃ ls, run step init ls = some s

variable {step : S → L → Option S}

instance decidableAlong (ok : S → L → Prop) [∀ s l, Decidable (ok s l)] :
    ∀ (s : S) (ls : List L), Decidable (Along step ok s ls)
  | _, [] => inferInstanceAs (Decidable True)
  | s, l :: ls =>
    have : Decidable (∀ s', step s l = some s' → Along step ok s' ls) :=
      match h : step s l with
      | none => .isTrue fun _ h' => by simp at h'
      | some t => @decidable_of_iff _ (Along step ok t ls)
          ⟨fun ha _ h' => Option.some.inj h' ▸ ha, fun ha => ha t rfl⟩
          (decidableAlong ok t ls)
    inferInstanceAs (Decidable (_ ∧ _))

theorem run_cons {s s' : S} {l : L} {ls : List L} (h : run step s (l :: ls) = some s') :
    ∃ t, step s l = some t ∧ run step t ls = some s' :=
  Option.bind_eq_some_iff.mp h

theorem run_append (ls ms : List L) (s : S) :
    run step s (ls ++ ms) = (run step s ls).bind fun t => run step t ms := by
  induction ls generalizing s with
  | nil => rfl
  | cons l ls ih =>
    simp only [List.cons_append, run]
    cases step s l with
    | none => rfl
    | some t => exact ih t

/- The induction rule for runs: `ok` is what the schedule promises about each
label, `Inv` what a step keeps under that promise. -/
theorem run_invariant (Inv : S → Prop) (ok : S → L → Prop)
    (hstep : ∀ s l s', Inv s → ok s l → step s l = some s' → Inv s')
    {s s' : S} {ls : List L} (h0 : Inv s) (ha : Along step ok s ls)
    (hr : run step s ls = some s') : Inv s' := by
  induction ls generalizing s with
  | nil =>
    have he : s = s' := Option.some.inj hr
    exact he ▸ h0
  | cons l ls ih =>
    obtain ⟨t, ht, hrest⟩ := run_cons hr
    exact ih (hstep s l t h0 ha.1 ht) (ha.2 t ht) hrest

theorem along_of_invariant (Inv : S → Prop) {ok ok' : S → L → Prop}
    (hstep : ∀ s l s', Inv s → ok s l → step s l = some s' → Inv s')
    (h : ∀ s l, Inv s → ok s l → ok' s l) {s : S} {ls : List L} (h0 : Inv s)
    (ha : Along step ok s ls) : Along step ok' s ls := by
  induction ls generalizing s with
  | nil => trivial
  | cons l ls ih =>
    exact ⟨h s l h0 ha.1, fun t ht => ih (hstep s l t h0 ha.1 ht) (ha.2 t ht)⟩

theorem along_true (s : S) (ls : List L) : Along step (fun _ _ => True) s ls := by
  induction ls generalizing s with
  | nil => trivial
  | cons l ls ih => exact ⟨trivial, fun t _ => ih t⟩

/-- Unconditional invariants hold in every reachable state. -/
theorem reachable_invariant (Inv : S → Prop)
    (hstep : ∀ s l s', Inv s → step s l = some s' → Inv s')
    {init s : S} (h0 : Inv init) (hr : Reachable step init s) : Inv s := by
  obtain ⟨ls, hls⟩ := hr
  exact run_invariant Inv (fun _ _ => True) (fun s l s' hi _ h => hstep s l s' hi h)
    h0 (along_true init ls) hls

theorem throughout_of_invariant (Inv P : S → Prop) (ok : S → L → Prop)
    (hstep : ∀ s l s', Inv s → ok s l → step s l = some s' → Inv s')
    (hP : ∀ s, Inv s → P s) {s : S} {ls : List L} (h0 : Inv s)
    (ha : Along step ok s ls) : Throughout step P s ls := by
  induction ls generalizing s with
  | nil => exact hP s h0
  | cons l ls ih =>
    exact ⟨hP s h0, fun t ht => ih (hstep s l t h0 ha.1 ht) (ha.2 t ht)⟩

/- A machine that keeps to the steps of another one, or stands still there. -/
theorem reachable_of_simulation {A O : Type*} {move : A → O → Option A} (abs : S → A)
    (Inv : S → Prop) (hstep : ∀ s l s', Inv s → step s l = some s' → Inv s')
    (hsim : ∀ s l s', Inv s → step s l = some s' →
      abs s' = abs s ∨ ∃ o, move (abs s) o = some (abs s'))
    {init s : S} (h0 : Inv init) (hr : Reachable step init s) :
    Reachable move (abs init) (abs s) := by
  obtain ⟨ls, hls⟩ := hr
  induction ls generalizing init with
  | nil =>
    obtain rfl : init = s := Option.some.inj hls
    exact ⟨[], rfl⟩
  | cons l ls ih =>
    obtain ⟨t, ht, hrest⟩ := run_cons hls
    obtain ⟨os, hos⟩ := ih (hstep init l t h0 ht) hrest
    rcases hsim init l t h0 ht with hsame | ⟨o, ho⟩
    · exact ⟨os, hsame ▸ hos⟩
    · exact ⟨o :: os, Option.bind_eq_some_iff.mpr ⟨_, ho, hos⟩⟩

/- Exactness: when a taken label that breaks `ok` always lands outside `P`, a
run that stays inside `P` obeyed `ok` at every label it took. -/
theorem along_of_throughout (Inv P : S → Prop) (ok : S → L → Prop)
    (hstep : ∀ s l s', Inv s → step s l = some s' → Inv s')
    (hbad : ∀ s l, Inv s → ¬ ok s l → ∃ s', step s l = some s' ∧ ¬ P s')
    {s : S} {ls : List L} (h0 : Inv s) (h : Throughout step P s ls) : Along step ok s ls := by
  induction ls generalizing s with
  | nil => trivial
  | cons l ls ih =>
    refine ⟨?_, fun t ht => ih (hstep s l t h0 ht) (h.2 t ht)⟩
    by_contra hn
    obtain ⟨t, ht, hPt⟩ := hbad s l h0 hn
    have hhead := h.2 t ht
    cases ls with
    | nil => exact hPt hhead
    | cons m ms => exact hPt hhead.1

/- Exactness at the end of a run: when a step that breaks `ok` does damage that
no later step repairs, an undamaged run obeyed `ok` throughout. -/
theorem along_of_end (Inv Bad : S → Prop) (ok : S → L → Prop)
    (hstep : ∀ s l s', Inv s → step s l = some s' → Inv s')
    (hbad : ∀ s l s', Inv s → ¬ ok s l → step s l = some s' → Bad s')
    (hkeep : ∀ s l s', Inv s → Bad s → step s l = some s' → Bad s')
    {s s' : S} {ls : List L} (h0 : Inv s) (hr : run step s ls = some s') (hend : ¬ Bad s') :
    Along step ok s ls := by
  have hlast : ∀ {t : S} {ms : List L}, Inv t → Bad t → run step t ms = some s' → Bad s' := by
    intro t ms ht hb hms
    induction ms generalizing t with
    | nil =>
      have he : t = s' := Option.some.inj hms
      exact he ▸ hb
    | cons m ms ih =>
      obtain ⟨u, hu, hrest⟩ := run_cons hms
      exact ih (hstep t m u ht hu) (hkeep t m u ht hb hu) hrest
  induction ls generalizing s with
  | nil => trivial
  | cons l ls ih =>
    obtain ⟨t, ht, hrest⟩ := run_cons hr
    refine ⟨?_, fun u hu => ?_⟩
    · by_contra hn
      exact hend (hlast (hstep s l t h0 ht) (hbad s l t h0 hn ht) hrest)
    · have he : t = u := Option.some.inj (ht.symm.trans hu)
      exact he ▸ ih (hstep s l t h0 ht) hrest

theorem along_congr (Inv : S → Prop) {ok ok' : S → L → Prop}
    (hstep : ∀ s l s', Inv s → step s l = some s' → Inv s')
    (h : ∀ s l, Inv s → (ok s l ↔ ok' s l)) {s : S} {ls : List L} (h0 : Inv s) :
    Along step ok s ls ↔ Along step ok' s ls := by
  induction ls generalizing s with
  | nil => exact Iff.rfl
  | cons l ls ih =>
    refine and_congr (h s l h0) ?_
    exact forall_congr' fun t => forall_congr' fun ht => ih (hstep s l t h0 ht)

/-! ### Looking back on a run -/

theorem run_snoc (ls : List L) (l : L) (s : S) :
    run step s (ls ++ [l]) = (run step s ls).bind fun t => step t l := by
  rw [run_append]
  congr 1
  funext t
  cases h : step t l with
  | none => simp [run, h]
  | some u => simp [run, h]

theorem along_snoc {ok : S → L → Prop} {s t : S} {ls : List L} {l : L}
    (h : Along step ok s (ls ++ [l])) (hr : run step s ls = some t) :
    Along step ok s ls ∧ ok t l := by
  induction ls generalizing s with
  | nil =>
    obtain rfl : s = t := Option.some.inj hr
    exact ⟨trivial, h.1⟩
  | cons m ms ih =>
    obtain ⟨u, hu, hrest⟩ := run_cons hr
    refine ⟨⟨h.1, fun v hv => ?_⟩, (ih (h.2 u hu) hrest).2⟩
    obtain rfl : u = v := Option.some.inj (hu.symm.trans hv)
    exact (ih (h.2 u hu) hrest).1

/- The induction rule for what a state owes to the run that led to it: the invariant
speaks of the labels taken so far. -/
theorem run_history {init : S} (Inv : List L → S → Prop) (h0 : Inv [] init)
    (hstep : ∀ ls s l s', run step init ls = some s → Inv ls s → step s l = some s' →
      Inv (ls ++ [l]) s')
    {ls : List L} {s : S} (hr : run step init ls = some s) : Inv ls s := by
  induction ls using List.reverseRecOn generalizing s with
  | nil =>
    have he : init = s := Option.some.inj hr
    exact he ▸ h0
  | append_singleton ls l ih =>
    rw [run_snoc] at hr
    obtain ⟨t, ht, hl⟩ := Option.bind_eq_some_iff.mp hr
    exact hstep ls t l s ht (ih ht) hl

/-- The run has taken a label with the property, from a state and after these labels. -/
def Took (step : S → L → Option S) (init : S) (ls : List L) (P : List L → S → L → Prop) : Prop :=
  ∃ p t l, p ++ [l] <+: ls ∧ run step init p = some t ∧ P p t l

variable {init s : S} {ls : List L} {l : L} {A B : List L → S → L → Prop}

theorem Took.here (hr : run step init ls = some s) (h : A ls s l) :
    Took step init (ls ++ [l]) A :=
  ⟨ls, s, l, List.prefix_refl _, hr, h⟩

theorem Took.later (h : Took step init ls A) (ms : List L) : Took step init (ls ++ ms) A := by
  obtain ⟨p, t, m, hp, ht, hA⟩ := h
  exact ⟨p, t, m, hp.trans (List.prefix_append ls ms), ht, hA⟩

theorem Took.imp (h : Took step init ls A) (hAB : ∀ p t m, A p t m → B p t m) :
    Took step init ls B := by
  obtain ⟨p, t, m, hp, ht, hA⟩ := h
  exact ⟨p, t, m, hp, ht, hAB p t m hA⟩

/-- How many labels of the run are of a kind. -/
def tally (step : S → L → Option S) (kind : S → L → Bool) : S → List L → ℕ
  | _, [] => 0
  | s, l :: ls => (kind s l).toNat + ((step s l).map fun s' => tally step kind s' ls).getD 0

theorem tally_snoc {kind : S → L → Bool} (hr : run step init ls = some s) :
    tally step kind init (ls ++ [l]) = tally step kind init ls + (kind s l).toNat := by
  induction ls generalizing init with
  | nil =>
    obtain rfl : init = s := Option.some.inj hr
    cases hl : step init l <;> simp [tally, hl]
  | cons m ms ih =>
    obtain ⟨t, ht, hrest⟩ := run_cons hr
    simp only [List.cons_append, tally, ht, Option.map_some, Option.getD_some, ih hrest]
    omega

end Runs
