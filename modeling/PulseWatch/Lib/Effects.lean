import Mathlib.Data.List.Basic

/-!
# Programs that call the outside

A program reads a world that it does not change, makes calls, and returns or raises.
The calls a party sees are those that satisfy its predicate. `Alike` compares two runs
in related worlds, `Silent` says that the party sees nothing; both are kept by the ways
programs are put together, by `try` and by a queue that retries.
-/

namespace Effects

structure Act (W C E A : Type) where
  run : W → Except E A × List C

variable {W C E A B : Type}

instance : Monad (Act W C E) where
  pure v := ⟨fun _ => (.ok v, [])⟩
  bind a k := ⟨fun w =>
    match a.run w with
    | (.ok v, calls) => (((k v).run w).1, calls ++ ((k v).run w).2)
    | (.error e, calls) => (.error e, calls)⟩

def raise (e : E) : Act W C E A := ⟨fun _ => (.error e, [])⟩

/-- A look at the world, which may fail. -/
def ask (f : W → Except E A) : Act W C E A := ⟨fun w => (f w, [])⟩

/-- A call with its answer. -/
def call (c : C) (answer : W → Except E A) : Act W C E A := ⟨fun w => (answer w, [c])⟩

/- `try` with the handlers of some exceptions. -/
def attempt (a : Act W C E A) (handler : E → Option (Act W C E A)) : Act W C E A where
  run w :=
    match a.run w with
    | (.ok v, calls) => (.ok v, calls)
    | (.error e, calls) => match handler e with
      | some b => ((b.run w).1, calls ++ (b.run w).2)
      | none => (.error e, calls)

/-- The same program with its calls renamed. -/
def Act.mapCalls {D : Type} (f : C → D) (a : Act W C E A) : Act W D E A :=
  ⟨fun w => ((a.run w).1, (a.run w).2.map f)⟩

/-- The same program in a world that holds more. -/
def Act.within {V : Type} (f : V → W) (a : Act W C E A) : Act V C E A := ⟨fun v => a.run (f v)⟩

/- The calls of a task that is run again after some exceptions, `n` times at most;
`ws i` is the world of attempt `i`. -/
def retried (again : E → Bool) (a : Act W C E A) : ℕ → (ℕ → W) → List C
  | 0, ws => (a.run (ws 0)).2
  | n + 1, ws => (a.run (ws 0)).2 ++
    match (a.run (ws 0)).1 with
    | .ok _ => []
    | .error e => if again e then retried again a n fun i => ws (i + 1) else []

section
variable (w : W)

@[simp] theorem run_pure (v : A) : (pure v : Act W C E A).run w = (.ok v, []) := rfl

@[simp] theorem run_raise (e : E) : (raise e : Act W C E A).run w = (.error e, []) := rfl

@[simp] theorem run_ask (f : W → Except E A) : (ask f : Act W C E A).run w = (f w, []) := rfl

@[simp] theorem run_call (c : C) (answer : W → Except E A) :
    (call c answer).run w = (answer w, [c]) := rfl

@[simp] theorem run_mapCalls {D : Type} (f : C → D) (a : Act W C E A) :
    (a.mapCalls f).run w = ((a.run w).1, (a.run w).2.map f) := rfl

@[simp] theorem run_within {V : Type} (f : V → W) (a : Act W C E A) (v : V) :
    (a.within f).run v = a.run (f v) := rfl

theorem run_bind (a : Act W C E A) (k : A → Act W C E B) :
    (a >>= k).run w = match a.run w with
      | (.ok v, calls) => (((k v).run w).1, calls ++ ((k v).run w).2)
      | (.error e, calls) => (.error e, calls) := rfl

theorem run_bind_ok {a : Act W C E A} {k : A → Act W C E B} {v : A}
    (h : (a.run w).1 = .ok v) :
    (a >>= k).run w = (((k v).run w).1, (a.run w).2 ++ ((k v).run w).2) := by
  rw [run_bind]
  split
  · next v' calls hrun =>
    rw [hrun] at h
    obtain rfl := Except.ok.inj h
    rw [hrun]
  · next e calls hrun =>
    rw [hrun] at h
    cases h

theorem run_bind_error {a : Act W C E A} {k : A → Act W C E B} {e : E}
    (h : (a.run w).1 = .error e) : (a >>= k).run w = (.error e, (a.run w).2) := by
  rw [run_bind]
  split
  · next v calls hrun =>
    rw [hrun] at h
    cases h
  · next e' calls hrun =>
    rw [hrun] at h
    obtain rfl := Except.error.inj h
    rw [hrun]

theorem run_bind_ask {f : W → Except E A} {k : A → Act W C E B} {v : A} (h : f w = .ok v) :
    (ask f >>= k).run w = (k v).run w := run_bind_ok w h

/- Whatever the answer, the call has been made. -/
theorem head_call_bind (c : C) (answer : W → Except E A) (k : A → Act W C E B) :
    ((call c answer >>= k).run w).2.head? = some c := by
  cases h : answer w with
  | ok v =>
    rw [run_bind_ok w (v := v) h]
    rfl
  | error e =>
    rw [run_bind_error w (e := e) h]
    rfl

theorem run_attempt_ok {a : Act W C E A} {handler : E → Option (Act W C E A)} {v : A}
    (h : (a.run w).1 = .ok v) : (attempt a handler).run w = (.ok v, (a.run w).2) := by
  simp only [attempt]
  split
  · next v' calls hrun =>
    rw [hrun] at h
    obtain rfl := Except.ok.inj h
    rw [hrun]
  · next e calls hrun =>
    rw [hrun] at h
    cases h

theorem run_attempt_error {a : Act W C E A} {handler : E → Option (Act W C E A)} {e : E}
    (h : (a.run w).1 = .error e) : (attempt a handler).run w = match handler e with
      | some b => ((b.run w).1, (a.run w).2 ++ (b.run w).2)
      | none => (.error e, (a.run w).2) := by
  simp only [attempt]
  split
  · next v calls hrun =>
    rw [hrun] at h
    cases h
  · next e' calls hrun =>
    rw [hrun] at h
    obtain rfl := Except.error.inj h
    rw [hrun]

end

/-- What a party sees of a run. -/
def seen (p : C → Bool) (a : Act W C E A) (w : W) : List C := (a.run w).2.filter p

/-! ### Silence -/

/- The party sees no run of the program. -/
def Silent (p : C → Bool) (a : Act W C E A) : Prop := ∀ w, seen p a w = []

section
variable {p : C → Bool}

theorem Silent.pure (v : A) : Silent p (Pure.pure v : Act W C E A) := fun _ => rfl

theorem Silent.raise (e : E) : Silent p (raise e : Act W C E A) := fun _ => rfl

theorem Silent.ask (f : W → Except E A) : Silent p (ask f : Act W C E A) := fun _ => rfl

theorem Silent.call {c : C} (h : p c = false) (answer : W → Except E A) :
    Silent p (call c answer) := fun _ => List.filter_cons_of_neg (by rw [h]; exact Bool.noConfusion)

theorem Silent.bind {a : Act W C E A} {k : A → Act W C E B} (ha : Silent p a)
    (hk : ∀ v, Silent p (k v)) : Silent p (a >>= k) := by
  intro w
  have hcalls := ha w
  unfold seen at hcalls ⊢
  cases h : (a.run w).1 with
  | ok v =>
    rw [run_bind_ok w h, List.filter_append, hcalls]
    exact hk v w
  | error e =>
    rw [run_bind_error w h]
    exact hcalls

theorem Silent.attempt {a : Act W C E A} {handler : E → Option (Act W C E A)} (ha : Silent p a)
    (hh : ∀ e b, handler e = some b → Silent p b) : Silent p (attempt a handler) := by
  intro w
  have hcalls := ha w
  unfold seen at hcalls ⊢
  cases h : (a.run w).1 with
  | ok v =>
    rw [run_attempt_ok w h]
    exact hcalls
  | error e =>
    rw [run_attempt_error w h]
    split
    · next b hb =>
      rw [List.filter_append, hcalls]
      exact hh e b hb w
    · exact hcalls

theorem Silent.ite {c : Prop} [Decidable c] {a b : Act W C E A} (ha : Silent p a)
    (hb : Silent p b) : Silent p (if c then a else b) := by
  split
  · exact ha
  · exact hb

theorem Silent.retried {a : Act W C E A} (ha : Silent p a) (again : E → Bool) (n : ℕ)
    (ws : ℕ → W) : (retried again a n ws).filter p = [] := by
  induction n generalizing ws with
  | zero => exact ha (ws 0)
  | succ n ih =>
    rw [Effects.retried, List.filter_append, show ((a.run (ws 0)).2).filter p = [] from ha (ws 0)]
    split
    · rfl
    · split
      · exact ih _
      · rfl

/- After a silent part the party sees what follows, unless that part raised. -/
theorem seen_after_silent {a : Act W C E A} (ha : Silent p a) (k : A → Act W C E B) (w : W) :
    seen p (a >>= k) w = match (a.run w).1 with
      | .ok v => seen p (k v) w
      | .error _ => [] := by
  have hcalls := ha w
  unfold seen at hcalls ⊢
  cases h : (a.run w).1 with
  | ok v => rw [run_bind_ok w h, List.filter_append, hcalls, List.nil_append]
  | error e =>
    rw [run_bind_error w h]
    exact hcalls

/- A silent rest hides nothing. -/
theorem seen_before_silent (a : Act W C E A) {k : A → Act W C E B} (hk : ∀ v, Silent p (k v))
    (w : W) : seen p (a >>= k) w = seen p a w := by
  unfold seen
  cases h : (a.run w).1 with
  | ok v =>
    rw [run_bind_ok w h, List.filter_append]
    have hrest := hk v w
    unfold seen at hrest
    rw [hrest, List.append_nil]
  | error e => rw [run_bind_error w h]

/- Handlers that call nobody leave what was seen before the exception. -/
theorem seen_attempt (a : Act W C E A) {handler : E → Option (Act W C E A)}
    (hh : ∀ e b, handler e = some b → Silent p b) (w : W) :
    seen p (Effects.attempt a handler) w = seen p a w := by
  unfold seen
  cases h : (a.run w).1 with
  | ok v => rw [run_attempt_ok w h]
  | error e =>
    rw [run_attempt_error w h]
    split
    · next b hb =>
      have hrest := hh e b hb w
      unfold seen at hrest
      rw [List.filter_append, hrest, List.append_nil]
    · rfl

/-! ### Calls left out -/

/- `a` is `b` with further calls, those that `g` drops. -/
def Adds {D : Type} (g : D → Option C) (a : Act W D E A) (b : Act W C E A) : Prop :=
  ∀ w, (a.run w).1 = (b.run w).1 ∧ (a.run w).2.filterMap g = (b.run w).2

section
variable {D : Type} {g : D → Option C}

theorem Adds.pure (v : A) : Adds g (Pure.pure v : Act W D E A) (Pure.pure v) :=
  fun _ => ⟨rfl, rfl⟩

theorem Adds.raise (e : E) : Adds g (raise e : Act W D E A) (raise e) := fun _ => ⟨rfl, rfl⟩

theorem Adds.ask (f : W → Except E A) : Adds g (ask f : Act W D E A) (ask f) := fun _ => ⟨rfl, rfl⟩

theorem Adds.mapCalls {f : C → D} (h : ∀ c, g (f c) = some c) (a : Act W C E A) :
    Adds g (a.mapCalls f) a := by
  intro w
  refine ⟨rfl, ?_⟩
  have hcomp : g ∘ f = some := funext h
  rw [run_mapCalls, List.filterMap_map, hcomp, List.filterMap_some]

theorem Adds.call {c : D} (h : g c = none) {answer : W → Except E A} :
    Adds g (call c answer) (Effects.ask answer) :=
  fun _ => ⟨rfl, List.filterMap_cons_none h⟩

theorem Adds.bind {a : Act W D E A} {a' : Act W C E A} {k : A → Act W D E B}
    {k' : A → Act W C E B} (ha : Adds g a a') (hk : ∀ v, Adds g (k v) (k' v)) :
    Adds g (a >>= k) (a' >>= k') := by
  intro w
  obtain ⟨hout, hcalls⟩ := ha w
  cases h : (a.run w).1 with
  | ok v =>
    obtain ⟨houtk, hcallsk⟩ := hk v w
    rw [run_bind_ok w h, run_bind_ok w (hout.symm.trans h), List.filterMap_append, hcalls, hcallsk]
    exact ⟨houtk, rfl⟩
  | error e =>
    rw [run_bind_error w h, run_bind_error w (hout.symm.trans h)]
    exact ⟨rfl, hcalls⟩

theorem Adds.ite {c : Prop} [Decidable c] {a b : Act W D E A} {a' b' : Act W C E A}
    (ha : Adds g a a') (hb : Adds g b b') :
    Adds g (if c then a else b) (if c then a' else b') := by
  split
  · exact ha
  · exact hb

/- A last call that is left out. -/
theorem Adds.last {a : Act W D E Unit} {a' : Act W C E Unit} (ha : Adds g a a') {c : D}
    (h : g c = none) : Adds g (a >>= fun _ => Effects.call c fun _ => .ok ()) a' := by
  intro w
  obtain ⟨hout, hcalls⟩ := ha w
  cases hrun : (a.run w).1 with
  | ok v =>
    rw [run_bind_ok w hrun, List.filterMap_append, hcalls, run_call, List.filterMap_cons_none h,
      List.filterMap_nil, List.append_nil]
    exact ⟨hrun.symm.trans hout, rfl⟩
  | error e =>
    rw [run_bind_error w hrun]
    exact ⟨hrun.symm.trans hout, hcalls⟩

/- A handler that is missing on one side raises the exception again. -/
theorem Adds.attempt {a : Act W D E A} {a' : Act W C E A} {handler : E → Option (Act W D E A)}
    {handler' : E → Option (Act W C E A)} (ha : Adds g a a')
    (hh : ∀ e, Adds g ((handler e).getD (Effects.raise e)) ((handler' e).getD (Effects.raise e))) :
    Adds g (Effects.attempt a handler) (Effects.attempt a' handler') := by
  have hrun : ∀ {F : Type} (b : Act W F E A) (h : E → Option (Act W F E A)) (w : W) (e : E),
      (b.run w).1 = .error e → (Effects.attempt b h).run w =
        ((((h e).getD (Effects.raise e)).run w).1,
          (b.run w).2 ++ (((h e).getD (Effects.raise e)).run w).2) := by
    intro F b h w e hb
    rw [run_attempt_error w hb]
    cases h e with
    | some c => rfl
    | none => rw [Option.getD_none, run_raise, List.append_nil]
  intro w
  obtain ⟨hout, hcalls⟩ := ha w
  cases h : (a.run w).1 with
  | ok v =>
    rw [run_attempt_ok w h, run_attempt_ok w (hout.symm.trans h)]
    exact ⟨rfl, hcalls⟩
  | error e =>
    obtain ⟨houth, hcallsh⟩ := hh e w
    rw [hrun _ _ w e h, hrun _ _ w e (hout.symm.trans h), List.filterMap_append, hcalls, hcallsh]
    exact ⟨houth, rfl⟩

end

/-! ### Two runs -/

variable {R : W → W → Prop}

/- In related worlds the program ends alike, and the party sees the same. -/
def Alike (p : C → Bool) (R : W → W → Prop) (a : Act W C E A) : Prop :=
  ∀ w w', R w w' → (a.run w).1 = (a.run w').1 ∧ seen p a w = seen p a w'

theorem Alike.pure (v : A) : Alike p R (Pure.pure v : Act W C E A) := fun _ _ _ => ⟨rfl, rfl⟩

theorem Alike.raise (e : E) : Alike p R (raise e : Act W C E A) := fun _ _ _ => ⟨rfl, rfl⟩

theorem Alike.ask {f : W → Except E A} (h : ∀ w w', R w w' → f w = f w') :
    Alike p R (ask f : Act W C E A) := fun w w' hr => ⟨h w w' hr, rfl⟩

theorem Alike.call (c : C) {answer : W → Except E A}
    (h : ∀ w w', R w w' → answer w = answer w') : Alike p R (call c answer) :=
  fun w w' hr => ⟨h w w' hr, rfl⟩

theorem Alike.bind {a : Act W C E A} {k : A → Act W C E B} (ha : Alike p R a)
    (hk : ∀ v, Alike p R (k v)) : Alike p R (a >>= k) := by
  intro w w' hr
  obtain ⟨hout, hseen⟩ := ha w w' hr
  unfold seen at hseen ⊢
  cases h : (a.run w).1 with
  | ok v =>
    have h' := hout.symm.trans h
    obtain ⟨houtk, hseenk⟩ := hk v w w' hr
    unfold seen at hseenk
    rw [run_bind_ok w h, run_bind_ok w' h', List.filter_append, List.filter_append, hseen]
    exact ⟨houtk, congrArg _ hseenk⟩
  | error e =>
    rw [run_bind_error w h, run_bind_error w' (hout.symm.trans h)]
    exact ⟨rfl, hseen⟩

/- The rest of the program uses only a part of what it has read. -/
theorem Alike.askPart {D : Type} {f : W → Except E A} {k : A → Act W C E B} (g : A → D)
    (hf : ∀ w w', R w w' → (f w).map g = (f w').map g)
    (hk : ∀ v v', g v = g v' → k v = k v') (ha : ∀ v, Alike p R (k v)) :
    Alike p R (Effects.ask f >>= k) := by
  intro w w' hr
  have hpart := hf w w' hr
  unfold seen
  cases h : f w with
  | ok v =>
    cases h' : f w' with
    | ok v' =>
      rw [h, h'] at hpart
      obtain ⟨hout, hseen⟩ := ha v' w w' hr
      unfold seen at hseen
      rw [run_bind_ok w h, run_bind_ok w' h', hk v v' (Except.ok.inj hpart)]
      exact ⟨hout, hseen⟩
    | error e =>
      rw [h, h'] at hpart
      cases hpart
  | error e =>
    cases h' : f w' with
    | ok v' =>
      rw [h, h'] at hpart
      cases hpart
    | error e' =>
      rw [h, h'] at hpart
      rw [run_bind_error w h, run_bind_error w' h']
      exact ⟨congrArg Except.error (Except.error.inj hpart), rfl⟩

theorem Alike.attempt {a : Act W C E A} {handler : E → Option (Act W C E A)} (ha : Alike p R a)
    (hh : ∀ e b, handler e = some b → Alike p R b) : Alike p R (attempt a handler) := by
  intro w w' hr
  obtain ⟨hout, hseen⟩ := ha w w' hr
  unfold seen at hseen ⊢
  cases h : (a.run w).1 with
  | ok v =>
    rw [run_attempt_ok w h, run_attempt_ok w' (hout.symm.trans h)]
    exact ⟨rfl, hseen⟩
  | error e =>
    rw [run_attempt_error w h, run_attempt_error w' (hout.symm.trans h)]
    split
    · next b hb =>
      obtain ⟨houtb, hseenb⟩ := hh e b hb w w' hr
      unfold seen at hseenb
      rw [List.filter_append, List.filter_append, hseen]
      exact ⟨houtb, congrArg _ hseenb⟩
    · exact ⟨rfl, hseen⟩

theorem Alike.ite {c : Prop} [Decidable c] {a b : Act W C E A} (ha : Alike p R a)
    (hb : Alike p R b) : Alike p R (if c then a else b) := by
  split
  · exact ha
  · exact hb

theorem Alike.retried {a : Act W C E A} (ha : Alike p R a) (again : E → Bool) (n : ℕ)
    {ws ws' : ℕ → W} (h : ∀ i, R (ws i) (ws' i)) :
    (retried again a n ws).filter p = (retried again a n ws').filter p := by
  induction n generalizing ws ws' with
  | zero => exact (ha _ _ (h 0)).2
  | succ n ih =>
    obtain ⟨hout, hseen⟩ := ha _ _ (h 0)
    unfold seen at hseen
    rw [Effects.retried, Effects.retried, List.filter_append, List.filter_append, hseen, hout]
    split
    · rfl
    · split
      · rw [ih fun i => h (i + 1)]
      · rfl

end

end Effects
