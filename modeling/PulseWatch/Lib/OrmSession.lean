import Mathlib.Data.Nat.Notation

/-!
# Handlers over one ORM session

A session hands out instances of the rows it loads or inserts. A rollback expires
all of them; an attribute of an expired instance is loaded again on access, which
raises outside an await. A best-effort write at the end of a handler swallows its
own failure and rolls the session back: what the handler does afterwards has the
same outcome exactly as long as it reads no instance.
-/

namespace OrmSession

structure Session (D : Type) where
  db : D
  instances : ℕ
  expired : ℕ → Bool

def Session.fresh {D : Type} (d : D) : Session D := ⟨d, 0, fun _ => false⟩

/- An instance: its place in the session and the attributes it was loaded with. -/
structure Ref (R : Type) where
  slot : ℕ
  row : R

/- An exception of the handler, or the one of a lazy load. -/
inductive Raised (E : Type) where
  | app (e : E)
  | lazyLoad
  deriving DecidableEq, Repr

structure Act (D E A : Type) where
  run : Session D → Except (Raised E) A × Session D

variable {D E A B R : Type}

instance : Monad (Act D E) where
  pure v := ⟨fun s => (.ok v, s)⟩
  bind a k := ⟨fun s =>
    match a.run s with
    | (.ok v, s') => (k v).run s'
    | (.error f, s') => (.error f, s')⟩

def raise (e : E) : Act D E A := ⟨fun s => (.error (.app e), s)⟩

/- A committed change, or the error of a statement; anything the server does besides
the session is a change too. -/
def change (f : D → Except E (A × D)) : Act D E A where
  run s :=
    match f s.db with
    | .ok (v, d) => (.ok v, { s with db := d })
    | .error e => (.error (.app e), s)

def select (f : D → A) : Act D E A := ⟨fun s => (.ok (f s.db), s)⟩

/- A loaded or inserted row becomes an instance. -/
def track (row : R) : Act D E (Ref R) where
  run s := (.ok ⟨s.instances, row⟩, { s with instances := s.instances + 1 })

def get (r : Ref R) (f : R → A) : Act D E A where
  run s := if s.expired r.slot then (.error .lazyLoad, s) else (.ok (f r.row), s)

def rollback : Act D E Unit where
  run s := (.ok (), { s with expired := fun i => s.expired i || decide (i < s.instances) })

/- `try: write; commit` with `except: rollback`. -/
def bestEffort (fails : Bool) (write : D → D) : Act D E Unit :=
  if fails then rollback else change fun d => .ok ((), write d)

section
variable (s : Session D)

@[simp] theorem run_pure (v : A) : (pure v : Act D E A).run s = (.ok v, s) := rfl

@[simp] theorem run_bind (a : Act D E A) (k : A → Act D E B) :
    (a >>= k).run s = match a.run s with
      | (.ok v, s') => (k v).run s'
      | (.error f, s') => (.error f, s') := rfl

@[simp] theorem run_raise (e : E) : (raise e : Act D E A).run s = (.error (.app e), s) := rfl

@[simp] theorem run_change (f : D → Except E (A × D)) : (change f).run s =
    match f s.db with
    | .ok (v, d) => (.ok v, { s with db := d })
    | .error e => (.error (.app e), s) := rfl

@[simp] theorem run_select (f : D → A) : (select f : Act D E A).run s = (.ok (f s.db), s) := rfl

@[simp] theorem run_track (row : R) : (track row : Act D E (Ref R)).run s =
    (.ok ⟨s.instances, row⟩, { s with instances := s.instances + 1 }) := rfl

@[simp] theorem run_get (r : Ref R) (f : R → A) : (get r f : Act D E A).run s =
    if s.expired r.slot then (.error .lazyLoad, s) else (.ok (f r.row), s) := rfl

@[simp] theorem run_bestEffort (fails : Bool) (write : D → D) :
    (bestEffort fails write : Act D E Unit).run s = (.ok (), if fails then
      { s with expired := fun i => s.expired i || decide (i < s.instances) }
      else { s with db := write s.db }) := by
  cases fails <;> rfl

end

/-! ### Actions with one outcome -/

/- Two actions with the same result in every session. -/
def Agree (a b : Act D E A) : Prop := ∀ s, (a.run s).1 = (b.run s).1

theorem Agree.refl (a : Act D E A) : Agree a a := fun _ => rfl

theorem Agree.bind (a : Act D E A) {k k' : A → Act D E B} (h : ∀ v, Agree (k v) (k' v)) :
    Agree (a >>= k) (a >>= k') := by
  intro s
  rw [run_bind, run_bind]
  split
  · next v s' _ => exact h v s'
  · rfl

/- The result does not depend on the session. -/
def Detached (a : Act D E A) : Prop := ∀ s s', (a.run s).1 = (a.run s').1

theorem Detached.pure (v : A) : Detached (Pure.pure v : Act D E A) := fun _ _ => rfl

theorem Detached.raise (e : E) : Detached (raise e : Act D E A) := fun _ _ => rfl

/- A handler that touches nothing after its best-effort write does not notice
whether it failed. -/
theorem bestEffort_detached (fails fails' : Bool) (write : D → D) {k : Act D E A}
    (h : Detached k) :
    Agree (bestEffort fails write >>= fun _ => k) (bestEffort fails' write >>= fun _ => k) := by
  intro s
  simp only [run_bind, run_bestEffort]
  exact h _ _

end OrmSession
