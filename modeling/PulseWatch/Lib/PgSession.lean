import Mathlib.Logic.Function.Basic

/-!
# Code running on one database session

A session holds what is committed, what its open transaction sees, and whether
that transaction has been aborted. A failed statement aborts it, and then every
statement fails until a rollback; an exception of the client leaves it open.
`Stuck`, `Frame` and `Does` say what an action does on an aborted session, to the
rows it does not own, and on a working session; each comes with a rule for every
way actions are put together.
-/

namespace PgSession

/- What went wrong: an error of the database, or an exception on this side. -/
inductive Fault where
  | statement
  | client
  deriving DecidableEq, Repr

structure Session (D : Type) where
  committed : D
  working : D
  aborted : Bool
  deriving DecidableEq, Repr

def Session.fresh {D : Type} (d : D) : Session D := ⟨d, d, false⟩

/-- An action raises or returns, and either way leaves the session changed. -/
structure Act (D A : Type) where
  run : Session D → Except Fault A × Session D

variable {D A B V : Type}

instance : Monad (Act D) where
  pure v := ⟨fun s => (.ok v, s)⟩
  bind a k := ⟨fun s =>
    match a.run s with
    | (.ok v, s') => (k v).run s'
    | (.error f, s') => (.error f, s')⟩

/- One statement. `fault` is the reason it fails on a working session. -/
def exec (fault : Option Fault) (query : D → A × D) : Act D A where
  run s :=
    if s.aborted then (.error .statement, s)
    else match fault with
      | some f => (.error f, { s with aborted := decide (f = .statement) })
      | none => (.ok (query s.working).1, { s with working := (query s.working).2 })

def select (fault : Option Fault) (query : D → A) : Act D A := exec fault fun d => (query d, d)

def write (fault : Option Fault) (change : D → D) : Act D Unit :=
  exec fault fun d => ((), change d)

def commit (fault : Option Fault) : Act D Unit where
  run s :=
    if s.aborted then (.error .statement, s)
    else match fault with
      | some f => (.error f, { s with aborted := decide (f = .statement) })
      | none => (.ok (), { s with committed := s.working })

/- A change made and committed. -/
def Session.publish (change : D → D) (s : Session D) : Session D :=
  { s with committed := change s.working, working := change s.working }

def raise (f : Fault) : Act D A := ⟨fun s => (.error f, s)⟩

/-- `try: ... except Exception: continue`. -/
def attempt (a : Act D A) : Act D Unit := ⟨fun s => (.ok (), (a.run s).2)⟩

theorem bind_of_ok {a : Act D A} {k : A → Act D B} {s s' : Session D} {v : A}
    (h : a.run s = (.ok v, s')) : (a >>= k).run s = (k v).run s' := by
  show (match a.run s with | (.ok v, s') => (k v).run s' | (.error f, s') => (.error f, s')) = _
  rw [h]

theorem bind_of_error {a : Act D A} {k : A → Act D B} {s s' : Session D} {f : Fault}
    (h : a.run s = (.error f, s')) : (a >>= k).run s = (.error f, s') := by
  show (match a.run s with | (.ok v, s') => (k v).run s' | (.error f, s') => (.error f, s')) = _
  rw [h]

/-! ### On an aborted session -/

/- The action raises at its first statement and changes nothing. -/
def Stuck (a : Act D A) : Prop := ∀ s, s.aborted = true → a.run s = (.error .statement, s)

theorem Stuck.exec (fault : Option Fault) (query : D → A × D) : Stuck (exec fault query) :=
  fun _ h => if_pos h

theorem Stuck.bind {a : Act D A} {k : A → Act D B} (h : Stuck a) : Stuck (a >>= k) :=
  fun s hs => bind_of_error (h s hs)

/-! ### Rows an action does not own -/

/- Seen through `view`, the open transaction is unchanged, and a commit has
published at most what was open before. -/
def Frames (view : D → V) (s s' : Session D) : Prop :=
  view s'.working = view s.working ∧
    (view s'.committed = view s.committed ∨ view s'.committed = view s.working)

theorem Frames.refl (view : D → V) (s : Session D) : Frames view s s := ⟨rfl, Or.inl rfl⟩

theorem Frames.trans {view : D → V} {s t u : Session D} (h : Frames view s t)
    (h' : Frames view t u) : Frames view s u := by
  refine ⟨h'.1.trans h.1, ?_⟩
  rcases h'.2 with hkept | hpublished
  · rw [hkept]
    exact h.2
  · exact Or.inr (hpublished.trans h.1)

def Frame (view : D → V) (a : Act D A) : Prop := ∀ s, Frames view s (a.run s).2

variable {view : D → V}

theorem Frame.pure (v : A) : Frame view (Pure.pure v : Act D A) := Frames.refl view

theorem Frame.raise (f : Fault) : Frame view (raise f : Act D A) := Frames.refl view

theorem Frame.bind {a : Act D A} {k : A → Act D B} (ha : Frame view a)
    (hk : ∀ v, Frame view (k v)) : Frame view (a >>= k) := by
  intro s
  have hfirst := ha s
  cases he : a.run s with
  | mk result s' =>
    rw [he] at hfirst
    cases result with
    | ok v =>
      rw [bind_of_ok he]
      exact hfirst.trans (hk v s')
    | error f =>
      rw [bind_of_error he]
      exact hfirst

theorem Frame.exec {fault : Option Fault} {query : D → A × D}
    (h : ∀ d, view (query d).2 = view d) : Frame view (exec fault query) := by
  intro s
  simp only [PgSession.exec]
  split
  · exact Frames.refl view s
  · split
    · exact ⟨rfl, Or.inl rfl⟩
    · exact ⟨h s.working, Or.inl rfl⟩

theorem Frame.select (fault : Option Fault) (query : D → A) : Frame view (select fault query) :=
  Frame.exec fun _ => rfl

theorem Frame.write {fault : Option Fault} {change : D → D} (h : ∀ d, view (change d) = view d) :
    Frame view (write fault change) := Frame.exec h

theorem Frame.commit (fault : Option Fault) : Frame view (commit fault) := by
  intro s
  simp only [PgSession.commit]
  split
  · exact Frames.refl view s
  · split
    · exact ⟨rfl, Or.inl rfl⟩
    · exact ⟨rfl, Or.inr rfl⟩

/-! ### On a working session -/

/- With a fault the action raises it, and a database error leaves the session
aborted; without one it returns and leaves the session `after`. -/
def Outcome (fault : Option Fault) (after : Session D) (out : Except Fault A × Session D) : Prop :=
  match fault with
  | none => (∃ v, out = (.ok v, after)) ∧ after.aborted = false
  | some f => ∃ s', out = (.error f, s') ∧ s'.aborted = decide (f = .statement)

def Does (P : D → Prop) (a : Act D A) (fault : Option Fault)
    (effect : Session D → Session D) : Prop :=
  ∀ s, s.aborted = false → P s.working → Outcome fault (effect s) (a.run s)

variable {P Q : D → Prop}

theorem Does.pure (v : A) : Does P (Pure.pure v : Act D A) none id :=
  fun _ h _ => ⟨⟨v, rfl⟩, h⟩

theorem Does.raise (effect : Session D → Session D) :
    Does P (raise .client : Act D A) (some .client) effect :=
  fun _ hs _ => ⟨_, rfl, hs⟩

theorem exec_run {s : Session D} (hs : s.aborted = false) (query : D → A × D) :
    (exec none query).run s =
      (.ok (query s.working).1, { s with working := (query s.working).2 }) :=
  if_neg (by simp [hs])

theorem exec_fault {s : Session D} (hs : s.aborted = false) (f : Fault) (query : D → A × D) :
    (exec (some f) query).run s = (.error f, { s with aborted := decide (f = .statement) }) :=
  if_neg (by simp [hs])

/- What a statement without a fault hands on, when its action goes on. -/
theorem select_bind_run {s : Session D} (hs : s.aborted = false) (query : D → A)
    (k : A → Act D B) : (select none query >>= k).run s = (k (query s.working)).run s :=
  bind_of_ok (exec_run hs _)

theorem write_bind_run {s : Session D} (hs : s.aborted = false) (change : D → D)
    (k : Unit → Act D B) :
    (PgSession.write none change >>= k).run s =
      (k ()).run { s with working := change s.working } :=
  bind_of_ok (exec_run hs _)

theorem commit_bind_run {s : Session D} (hs : s.aborted = false) (k : Unit → Act D B) :
    (PgSession.commit none >>= k).run s = (k ()).run { s with committed := s.working } :=
  bind_of_ok (if_neg (by simp [hs]))

theorem Does.write (fault : Option Fault) (change : D → D) :
    Does P (write fault change) fault fun s => { s with working := change s.working } := by
  intro s hs _
  cases fault with
  | none => exact ⟨⟨(), exec_run hs _⟩, hs⟩
  | some f => exact ⟨_, exec_fault hs f _, rfl⟩

theorem Does.commit (fault : Option Fault) :
    Does P (commit fault) fault fun s : Session D => { s with committed := s.working } := by
  intro s hs _
  cases fault with
  | none => exact ⟨⟨(), if_neg (by simp [hs])⟩, hs⟩
  | some f => exact ⟨_, if_neg (by simp [hs]), rfl⟩

/- An action that certainly raises hides what would follow. -/
theorem Does.bind_fault {a : Act D A} {k : A → Act D B} {f : Fault}
    {effect : Session D → Session D} (effect' : Session D → Session D)
    (ha : Does P a (some f) effect) : Does P (a >>= k) (some f) effect' := by
  intro s hs hP
  obtain ⟨s', he, hab⟩ := ha s hs hP
  exact ⟨s', bind_of_error he, hab⟩

/- What follows a query may rely on what the query found. -/
theorem Does.select_bind {fault g : Option Fault} {query : D → A} {k : A → Act D B}
    {effect : Session D → Session D} {R : A → Prop} (hq : ∀ d, P d → R (query d))
    (hk : ∀ v, R v → Does P (k v) g effect) :
    Does P (select fault query >>= k) (fault <|> g) effect := by
  intro s hs hP
  cases fault with
  | none =>
    have hrow : (select none query).run s = (.ok (query s.working), s) := exec_run hs _
    rw [bind_of_ok hrow]
    exact hk _ (hq _ hP) s hs hP
  | some f => exact ⟨_, bind_of_error (exec_fault hs f _), rfl⟩

theorem Does.bind {a : Act D A} {k : A → Act D B} {f g : Option Fault}
    {effect effect' : Session D → Session D} (ha : Does P a f effect)
    (hpost : ∀ s, P s.working → Q (effect s).working) (hk : ∀ v, Does Q (k v) g effect') :
    Does P (a >>= k) (f <|> g) (effect' ∘ effect) := by
  intro s hs hP
  have hfirst := ha s hs hP
  cases f with
  | none =>
    obtain ⟨⟨v, hv⟩, hopen⟩ := hfirst
    rw [bind_of_ok hv]
    exact hk v _ hopen (hpost s hP)
  | some f =>
    obtain ⟨s', he, hab⟩ := hfirst
    exact ⟨s', bind_of_error he, hab⟩

theorem orElse_none (f : Option Fault) : (f <|> none) = f := by
  cases f with
  | none => rfl
  | some f => rfl

theorem orElse_eq_none {f g : Option Fault} (h : (f <|> g) = none) : f = none ∧ g = none := by
  cases f with
  | none => exact ⟨rfl, h⟩
  | some f => cases h

theorem Does.returns {a : Act D A} {f : Option Fault} {effect : Session D → Session D}
    (ha : Does P a f effect) (result : A → B) :
    Does P (a >>= fun v => Pure.pure (result v)) f effect := by
  have hd := Does.bind (Q := fun _ => True) ha (fun _ _ => trivial) fun v => Does.pure (result v)
  rw [orElse_none] at hd
  exact hd

/-! ### What every row satisfies -/

/- An action that leaves an invariant of the tables in force, committed and open. -/
def Keeps (I : D → Prop) (a : Act D A) : Prop :=
  ∀ s, I s.committed → I s.working → I (a.run s).2.committed ∧ I (a.run s).2.working

variable {I : D → Prop}

theorem Keeps.pure (v : A) : Keeps I (Pure.pure v : Act D A) := fun _ hc hw => ⟨hc, hw⟩

theorem Keeps.raise (f : Fault) : Keeps I (raise f : Act D A) := fun _ hc hw => ⟨hc, hw⟩

theorem Keeps.exec {fault : Option Fault} {query : D → A × D}
    (h : ∀ d, I d → I (query d).2) : Keeps I (exec fault query) := by
  intro s hc hw
  simp only [PgSession.exec]
  split
  · exact ⟨hc, hw⟩
  · split
    · exact ⟨hc, hw⟩
    · exact ⟨hc, h s.working hw⟩

theorem Keeps.write {fault : Option Fault} {change : D → D} (h : ∀ d, I d → I (change d)) :
    Keeps I (write fault change) := Keeps.exec h

theorem Keeps.commit (fault : Option Fault) : Keeps I (commit fault) := by
  intro s hc hw
  simp only [PgSession.commit]
  split
  · exact ⟨hc, hw⟩
  · split
    · exact ⟨hc, hw⟩
    · exact ⟨hw, hw⟩

theorem Keeps.bind {a : Act D A} {k : A → Act D B} (ha : Keeps I a) (hk : ∀ v, Keeps I (k v)) :
    Keeps I (a >>= k) := by
  intro s hc hw
  obtain ⟨hc', hw'⟩ := ha s hc hw
  cases he : a.run s with
  | mk result s' =>
    rw [he] at hc' hw'
    cases result with
    | ok v =>
      rw [bind_of_ok he]
      exact hk v s' hc' hw'
    | error f =>
      rw [bind_of_error he]
      exact ⟨hc', hw'⟩

/- What follows a query may rely on what the query found. -/
theorem Keeps.select_bind {fault : Option Fault} {query : D → A} {k : A → Act D B} {R : A → Prop}
    (hq : ∀ d, R (query d)) (hk : ∀ v, R v → Keeps I (k v)) :
    Keeps I (select fault query >>= k) := by
  intro s hc hw
  cases hab : s.aborted with
  | true =>
    have hrun : (select fault query).run s = (.error .statement, s) := Stuck.exec _ _ s hab
    rw [bind_of_error hrun]
    exact ⟨hc, hw⟩
  | false =>
    cases fault with
    | none =>
      rw [select_bind_run hab]
      exact hk _ (hq s.working) s hc hw
    | some f =>
      have hrun : (select (some f) query).run s = (.error f, _) := exec_fault hab f _
      rw [bind_of_error hrun]
      exact ⟨hc, hw⟩

theorem Keeps.attempt {a : Act D A} (h : Keeps I a) : Keeps I (attempt a) := h

/-! ### A batch of jobs on one session -/

section
variable {I : Type} (job : I → Act D Unit)

/- `for i in ids: try: await job(i) except Exception: continue`. -/
def batch : List I → Act D Unit
  | [] => pure ()
  | i :: ids => do
    attempt (job i)
    batch ids

/- `view i` shows the rows of job `i`, `own i` is what the job makes of them when
nothing fails; a failing job leaves the session aborted or open as its fault says. -/
structure Separate (view : I → D → V) (faultOf : I → Option Fault) (own : I → V → V) : Prop where
  stuck : ∀ i, Stuck (job i)
  frame : ∀ i j, i ≠ j → Frame (view j) (job i)
  fails : ∀ i s f, s.aborted = false → faultOf i = some f →
    ((job i).run s).2.aborted = decide (f = .statement)
  opens : ∀ i s, s.aborted = false → faultOf i = none → ((job i).run s).2.aborted = false
  works : ∀ i s, s.aborted = false → faultOf i = none → view i s.working = view i s.committed →
    view i ((job i).run s).2.working = own i (view i s.committed) ∧
    view i ((job i).run s).2.committed = own i (view i s.committed)
  idem : ∀ i v, faultOf i = none → own i (own i v) = own i v

/- The jobs a batch gets to on a working transaction. -/
def reached (faultOf : I → Option Fault) (ids : List I) : List I :=
  ids.takeWhile fun i => faultOf i ≠ some .statement

theorem batch_cons (i : I) (ids : List I) (s : Session D) :
    (batch job (i :: ids)).run s = (batch job ids).run ((job i).run s).2 := rfl

theorem batch_aborted (hstuck : ∀ i, Stuck (job i)) (ids : List I) {s : Session D}
    (h : s.aborted = true) : ((batch job ids).run s).2 = s := by
  induction ids with
  | nil => rfl
  | cons i ids ih =>
    rw [batch_cons, hstuck i s h]
    exact ih

theorem Keeps.batch {P : D → Prop} (h : ∀ i, Keeps P (job i)) (ids : List I) :
    Keeps P (batch job ids) := by
  induction ids with
  | nil => exact Keeps.pure ()
  | cons i ids ih => exact Keeps.bind (Keeps.attempt (h i)) fun _ => ih

variable {job} {view : I → D → V} {faultOf : I → Option Fault} {own : I → V → V}

theorem Frames.settled {view : D → V} {s t : Session D} (h : Frames view s t)
    (hs : view s.working = view s.committed) :
    view t.committed = view s.committed ∧ view t.working = view t.committed := by
  have hc : view t.committed = view s.committed := by
    rcases h.2 with hkept | hpublished
    · exact hkept
    · rw [hpublished, hs]
  exact ⟨hc, by rw [h.1, hs, hc]⟩

variable [DecidableEq I]

/- What a batch leaves committed for a job without a fault: its own result when the
batch reaches it before a database error, its old rows otherwise. -/
theorem batch_committed (hsep : Separate job view faultOf own) {x : I} (hx : faultOf x = none)
    (ids : List I) {s : Session D} (hopen : s.aborted = false)
    (hs : view x s.working = view x s.committed) :
    view x ((batch job ids).run s).2.committed =
      if x ∈ reached faultOf ids then own x (view x s.committed) else view x s.committed := by
  induction ids generalizing s with
  | nil => rfl
  | cons i ids ih =>
    rw [batch_cons]
    cases hf : faultOf i with
    | none =>
      have hreach : reached faultOf (i :: ids) = i :: reached faultOf ids :=
        List.takeWhile_cons_of_pos (by simp [hf])
      rw [hreach]
      by_cases hi : i = x
      · subst hi
        obtain ⟨hw, hc⟩ := hsep.works i s hopen hf hs
        rw [ih (hsep.opens i s hopen hf) (hw.trans hc.symm), hc, hsep.idem i _ hf,
          if_pos List.mem_cons_self]
        split <;> rfl
      · obtain ⟨hc, hs'⟩ := (hsep.frame i x hi s).settled hs
        rw [ih (hsep.opens i s hopen hf) hs', hc]
        simp [Ne.symm hi]
    | some f =>
      have hi : i ≠ x := by
        intro he
        rw [he, hx] at hf
        cases hf
      have hab := hsep.fails i s f hopen hf
      obtain ⟨hc, hs'⟩ := (hsep.frame i x hi s).settled hs
      cases f with
      | statement =>
        have hreach : reached faultOf (i :: ids) = [] :=
          List.takeWhile_cons_of_neg (by simp [hf])
        rw [batch_aborted job hsep.stuck ids (by rw [hab]; rfl), hreach, hc]
        simp
      | client =>
        have hreach : reached faultOf (i :: ids) = i :: reached faultOf ids :=
          List.takeWhile_cons_of_pos (by simp [hf])
        rw [hreach, ih (by rw [hab]; rfl) hs', hc]
        simp [Ne.symm hi]

end
end PgSession
