import Mathlib.Data.Finset.SDiff
import Mathlib.Logic.Function.Basic
import PulseWatch.Lib.Runs

/-!
# Subscribers of the log streams (`app/core/connection_manager.py`)

The registry maps a server to the set of its dashboards' websockets. Nothing is
awaited under `self._lock`, so a critical section is one turn of its task and the
lock is free whenever a task runs; the turns of all calls interleave in any order.
A broadcast sends outside the lock to the list it took from the set.
-/

namespace PulseWatch.LogSubscribers

variable {W : Type}

/- A call of `broadcast`: the websockets it has still to send to, the first of them
awaited, and those whose send has raised. -/
inductive Call (W : Type) where
  | idle
  | sending (serverId : ℕ) (message : String) (targets failed : List W)
  | cleaning (serverId : ℕ) (failed : List W)
  | returned

/- What the calls have done, newest first. Nothing reads it. -/
inductive Event (W : Type) where
  | subscribed (serverId : ℕ) (ws : W)
  | unsubscribed (serverId : ℕ) (ws : W)
  | took (i serverId : ℕ) (message : String) (targets : List W)
  | sent (i serverId : ℕ) (ws : W) (message : String) (ok : Bool)

structure State (W : Type) where
  subscribers : ℕ → Option (Finset W)
  calls : ℕ → Call W
  journal : List (Event W)

def init : State W := ⟨fun _ => none, fun _ => .idle, []⟩

/- `targets` is the order in which `list(...)` returns the set. -/
inductive Label (W : Type) where
  | subscribe (serverId : ℕ) (ws : W)
  | unsubscribe (serverId : ℕ) (ws : W)
  | take (i serverId : ℕ) (message : String) (targets : List W)
  | send (i : ℕ) (ok : Bool)
  | clean (i : ℕ)

section
variable [DecidableEq W] (s : State W)

def State.goto (i : ℕ) (call : Call W) : State W :=
  { s with calls := Function.update s.calls i call }

def State.note (e : Event W) : State W := { s with journal := e :: s.journal }

/-- `self._subscribers.get(server_id, ())`. -/
def State.get (serverId : ℕ) : Finset W := (s.subscribers serverId).getD ∅

/-- `self._subscribers.setdefault(server_id, set()).add(websocket)`. -/
def State.add (serverId : ℕ) (ws : W) : State W :=
  { s with subscribers :=
      Function.update s.subscribers serverId (some (insert ws (s.get serverId))) }

/- `discard` of some websockets, and the `pop` of a set left empty. -/
def State.discard (serverId : ℕ) (gone : List W) : State W :=
  match s.subscribers serverId with
  | none => s
  | some subs =>
    let subs := subs \ gone.toFinset
    { s with subscribers :=
        Function.update s.subscribers serverId (if subs = ∅ then none else some subs) }

end

/- After a send: the next websocket, the clean-up, or the end. -/
def afterSend (serverId : ℕ) (message : String) : List W → List W → Call W
  | [], [] => .returned
  | [], failed => .cleaning serverId failed
  | targets, failed => .sending serverId message targets failed

section
variable [DecidableEq W]

def step (s : State W) : Label W → Option (State W)
  | .subscribe serverId ws => some ((s.add serverId ws).note (.subscribed serverId ws))
  | .unsubscribe serverId ws =>
    some ((s.discard serverId [ws]).note (.unsubscribed serverId ws))
  | .take i serverId message targets => match s.calls i with
    | .idle =>
      if targets.Nodup ∧ targets.toFinset = s.get serverId then
        some ((s.goto i (afterSend serverId message targets [])).note
          (.took i serverId message targets))
      else none
    | _ => none
  | .send i ok => match s.calls i with
    | .sending serverId message (ws :: targets) failed =>
      some ((s.goto i (afterSend serverId message targets
        (if ok then failed else failed ++ [ws]))).note (.sent i serverId ws message ok))
    | _ => none
  | .clean i => match s.calls i with
    | .cleaning serverId failed => some ((s.discard serverId failed).goto i .returned)
    | _ => none

/-! ### What the journal says -/

/-- The last thing the websocket did was to subscribe. -/
def joined (serverId : ℕ) (ws : W) : List (Event W) → Bool
  | [] => false
  | .subscribed n w :: es => if n = serverId ∧ w = ws then true else joined serverId ws es
  | .unsubscribed n w :: es => if n = serverId ∧ w = ws then false else joined serverId ws es
  | _ :: es => joined serverId ws es

/- It has subscribed, and since then neither unsubscribed nor failed. -/
def attached (serverId : ℕ) (ws : W) : List (Event W) → Bool
  | [] => false
  | .subscribed n w :: es => if n = serverId ∧ w = ws then true else attached serverId ws es
  | .unsubscribed n w :: es => if n = serverId ∧ w = ws then false else attached serverId ws es
  | .sent _ n w _ ok :: es =>
    if n = serverId ∧ w = ws ∧ ok = false then false else attached serverId ws es
  | .took .. :: es => attached serverId ws es

end

/-- Some send to it on this server has failed. -/
def Failed (journal : List (Event W)) (serverId : ℕ) (ws : W) : Prop :=
  ∃ i message, .sent i serverId ws message false ∈ journal

/-- The websockets call `i` has sent to, newest first. -/
def sentTo (i : ℕ) : List (Event W) → List W
  | [] => []
  | .sent j _ w _ _ :: es => if j = i then w :: sentTo i es else sentTo i es
  | _ :: es => sentTo i es

def Call.running : Call W → Bool
  | .sending .. | .cleaning .. => true
  | _ => false

/- What a broadcast takes: only subscribers of its server, and every one of them to
which no send has failed. -/
def Snapshots [DecidableEq W] (journal : List (Event W)) : Prop :=
  ∀ newer i serverId message targets older,
    journal = newer ++ .took i serverId message targets :: older → ∀ ws,
      (ws ∈ targets → joined serverId ws older = true) ∧
      (joined serverId ws older = true → ¬ Failed older serverId ws → ws ∈ targets)

structure RegistrySound [DecidableEq W] (s : State W) : Prop where
  nonempty : ∀ serverId, s.subscribers serverId ≠ some ∅
  once : ∀ i, (sentTo i s.journal).Nodup
  known : ∀ i serverId ws message ok, .sent i serverId ws message ok ∈ s.journal →
    ∃ targets, .took i serverId message targets ∈ s.journal ∧ ws ∈ targets
  snapshot : Snapshots s.journal
  /- a broadcast goes on whether or not its sends succeed, and at its end has sent to all -/
  goesOn : ∀ i, (s.calls i).running = true →
    (∀ ok, (step s (.send i ok)).isSome = true) ∨ (step s (.clean i)).isSome = true
  all : ∀ i, s.calls i = .returned → ∀ serverId message targets,
    .took i serverId message targets ∈ s.journal → ∀ ws ∈ targets, ws ∈ sentTo i s.journal
  loyal : ∀ serverId ws, joined serverId ws s.journal = true → ¬ Failed s.journal serverId ws →
    ws ∈ s.get serverId
  drained : (∀ i, (s.calls i).running = false) →
    (∀ serverId ws, attached serverId ws s.journal = false) →
      ∀ serverId, s.subscribers serverId = none

/-! ### The registry -/

section
variable [DecidableEq W] (s : State W)

theorem get_add (serverId n : ℕ) (ws : W) :
    (s.add serverId ws).get n = if n = serverId then insert ws (s.get serverId) else s.get n := by
  unfold State.get State.add
  by_cases hn : n = serverId
  · subst hn
    simp [State.get]
  · simp [hn]

theorem get_discard (serverId n : ℕ) (gone : List W) :
    (s.discard serverId gone).get n =
      if n = serverId then s.get serverId \ gone.toFinset else s.get n := by
  unfold State.discard
  cases hsubs : s.subscribers serverId with
  | none =>
    by_cases hn : n = serverId
    · subst hn
      simp [State.get, hsubs]
    · simp [hn]
  | some subs =>
    by_cases hn : n = serverId
    · subst hn
      simp only [State.get, Function.update_self, hsubs, Option.getD_some, if_true]
      split
      · next hempty => rw [hempty, Option.getD_none]
      · rfl
    · simp [State.get, hn]

theorem add_nonempty (h : ∀ n, s.subscribers n ≠ some ∅) (serverId : ℕ) (ws : W) (n : ℕ) :
    (s.add serverId ws).subscribers n ≠ some ∅ := by
  unfold State.add
  by_cases hn : n = serverId
  · subst hn
    simp
  · simp only [Function.update_of_ne hn]
    exact h n

theorem discard_nonempty (h : ∀ n, s.subscribers n ≠ some ∅) (serverId : ℕ) (gone : List W)
    (n : ℕ) : (s.discard serverId gone).subscribers n ≠ some ∅ := by
  unfold State.discard
  cases hsubs : s.subscribers serverId with
  | none => exact h n
  | some subs =>
    by_cases hn : n = serverId
    · subst hn
      simp only [Function.update_self]
      split
      · simp
      · next hne =>
        intro he
        exact hne (Option.some.inj he)
    · simp only [Function.update_of_ne hn]
      exact h n

@[simp] theorem discard_calls (serverId : ℕ) (gone : List W) :
    (s.discard serverId gone).calls = s.calls := by
  unfold State.discard
  split <;> rfl

@[simp] theorem discard_journal (serverId : ℕ) (gone : List W) :
    (s.discard serverId gone).journal = s.journal := by
  unfold State.discard
  split <;> rfl

omit [DecidableEq W] in
theorem eq_none_of_get (h : ∀ n, s.subscribers n ≠ some ∅) {n : ℕ} (he : s.get n = ∅) :
    s.subscribers n = none := by
  cases hsubs : s.subscribers n with
  | none => rfl
  | some subs =>
    have hempty : subs = ∅ := by simpa [State.get, hsubs] using he
    exact absurd (by rw [hsubs, hempty]) (h n)

end

/-! ### The journal -/

/-- The broadcast an event is part of. -/
def Event.call : Event W → Option ℕ
  | .took i _ _ _ => some i
  | .sent i _ _ _ _ => some i
  | _ => none

theorem mem_sentTo {i : ℕ} {ws : W} {journal : List (Event W)} :
    ws ∈ sentTo i journal ↔ ∃ serverId message ok, .sent i serverId ws message ok ∈ journal := by
  induction journal with
  | nil => simp [sentTo]
  | cons e es ih =>
    cases e with
    | sent j n w m ok =>
      by_cases hj : j = i
      · subst hj
        simp only [sentTo, if_true, List.mem_cons, ih, Event.sent.injEq, true_and]
        constructor
        · rintro (rfl | ⟨n', m', ok', h⟩)
          · exact ⟨n, m, ok, Or.inl ⟨rfl, rfl, rfl, rfl⟩⟩
          · exact ⟨n', m', ok', Or.inr h⟩
        · rintro ⟨n', m', ok', ⟨-, hw, -⟩ | h⟩
          · exact Or.inl hw
          · exact Or.inr ⟨n', m', ok', h⟩
      · simp [sentTo, hj, ih, Ne.symm hj]
    | _ => simp [sentTo, ih]

theorem sentTo_other {i : ℕ} {e : Event W} (h : e.call ≠ some i) (journal : List (Event W)) :
    sentTo i (e :: journal) = sentTo i journal := by
  cases e with
  | sent j n w m ok => exact if_neg fun hj => h (congrArg some hj)
  | _ => rfl

/- How far broadcast `i` has come: what it has sent to and what is left make up the
one list it took. -/
structure Progress (journal : List (Event W)) (i serverId : ℕ) (message : String)
    (left : List W) : Prop where
  took : ∃ targets, targets.Nodup ∧ (sentTo i journal).reverse ++ left = targets ∧
    ∀ n m ts, .took i n m ts ∈ journal ↔ n = serverId ∧ m = message ∧ ts = targets
  sends : ∀ n ws m ok, .sent i n ws m ok ∈ journal → n = serverId ∧ m = message

def Follows (journal : List (Event W)) (i : ℕ) : Call W → Prop
  | .idle => ∀ e ∈ journal, e.call ≠ some i
  | .sending serverId message targets failed => Progress journal i serverId message targets ∧
      (∀ ws ∈ failed, Failed journal serverId ws) ∧ targets ≠ []
  | .cleaning serverId failed => (∃ message, Progress journal i serverId message []) ∧
      ∀ ws ∈ failed, Failed journal serverId ws
  | .returned => ∃ serverId message, Progress journal i serverId message []

theorem Failed.cons {journal : List (Event W)} {serverId : ℕ} {ws : W}
    (h : Failed journal serverId ws) (e : Event W) : Failed (e :: journal) serverId ws := by
  obtain ⟨i, message, hin⟩ := h
  exact ⟨i, message, List.mem_cons_of_mem _ hin⟩

section
variable {journal : List (Event W)} {i serverId : ℕ} {message : String} {left : List W}

theorem Progress.other (h : Progress journal i serverId message left) {e : Event W}
    (he : e.call ≠ some i) : Progress (e :: journal) i serverId message left := by
  obtain ⟨targets, hnodup, hsplit, htook⟩ := h.took
  refine ⟨⟨targets, hnodup, by rw [sentTo_other he]; exact hsplit, fun n m ts => ?_⟩,
    fun n ws m ok hin => ?_⟩
  · rw [← htook n m ts, List.mem_cons]
    refine ⟨fun hin => hin.resolve_left ?_, Or.inr⟩
    rintro rfl
    exact he rfl
  · rcases List.mem_cons.mp hin with rfl | hin
    · exact absurd rfl he
    · exact h.sends n ws m ok hin

theorem Follows.other {call : Call W} (h : Follows journal i call) {e : Event W}
    (he : e.call ≠ some i) : Follows (e :: journal) i call := by
  cases call with
  | idle =>
    intro f hf
    rcases List.mem_cons.mp hf with rfl | hf
    · exact he
    · exact h f hf
  | sending n m targets failed =>
    exact ⟨h.1.other he, fun ws hws => (h.2.1 ws hws).cons e, h.2.2⟩
  | cleaning n failed =>
    obtain ⟨⟨m, hm⟩, hfailed⟩ := h
    exact ⟨⟨m, hm.other he⟩, fun ws hws => (hfailed ws hws).cons e⟩
  | returned =>
    obtain ⟨n, m, hm⟩ := h
    exact ⟨n, m, hm.other he⟩

theorem Progress.start (h : ∀ e ∈ journal, e.call ≠ some i) {targets : List W}
    (hnodup : targets.Nodup) :
    Progress (.took i serverId message targets :: journal) i serverId message targets := by
  have hnone : sentTo i journal = [] := by
    refine List.eq_nil_iff_forall_not_mem.mpr fun ws hws => ?_
    obtain ⟨n, m, ok, hin⟩ := mem_sentTo.mp hws
    exact h _ hin rfl
  refine ⟨⟨targets, hnodup, by simp [sentTo, hnone], fun n m ts => ?_⟩, fun n ws m ok hin => ?_⟩
  · rw [List.mem_cons]
    constructor
    · rintro (he | hin)
      · cases he
        exact ⟨rfl, rfl, rfl⟩
      · exact absurd rfl (h _ hin)
    · rintro ⟨rfl, rfl, rfl⟩
      exact Or.inl rfl
  · rcases List.mem_cons.mp hin with he | hin
    · cases he
    · exact absurd rfl (h _ hin)

theorem Progress.send {ws : W} (h : Progress journal i serverId message (ws :: left)) (ok : Bool) :
    Progress (.sent i serverId ws message ok :: journal) i serverId message left := by
  obtain ⟨targets, hnodup, hsplit, htook⟩ := h.took
  refine ⟨⟨targets, hnodup, by simpa [sentTo] using hsplit, fun n m ts => ?_⟩,
    fun n w m ok' hin => ?_⟩
  · rw [← htook n m ts, List.mem_cons]
    refine ⟨fun hin => hin.resolve_left ?_, Or.inr⟩
    rintro he
    cases he
  · rcases List.mem_cons.mp hin with he | hin
    · cases he
      exact ⟨rfl, rfl⟩
    · exact h.sends n w m ok' hin

theorem follows_afterSend (h : Progress journal i serverId message left) {failed : List W}
    (hfailed : ∀ ws ∈ failed, Failed journal serverId ws) :
    Follows journal i (afterSend serverId message left failed) := by
  cases left with
  | nil =>
    cases failed with
    | nil => exact ⟨serverId, message, h⟩
    | cons ws failed => exact ⟨⟨message, h⟩, hfailed⟩
  | cons ws left => exact ⟨h, hfailed, List.cons_ne_nil ws left⟩

/- A call has left no trace yet, or has come so far with its list. -/
theorem Follows.progress {call : Call W} (h : Follows journal i call) :
    (∀ e ∈ journal, e.call ≠ some i) ∨ ∃ n m left, Progress journal i n m left := by
  cases call with
  | idle => exact Or.inl h
  | sending n m targets failed => exact Or.inr ⟨n, m, targets, h.1⟩
  | cleaning n failed =>
    obtain ⟨⟨m, hm⟩, -⟩ := h
    exact Or.inr ⟨n, m, [], hm⟩
  | returned =>
    obtain ⟨n, m, hm⟩ := h
    exact Or.inr ⟨n, m, [], hm⟩

theorem Follows.once {call : Call W} (h : Follows journal i call) : (sentTo i journal).Nodup := by
  rcases h.progress with hnone | ⟨n, m, left, hp⟩
  · have hempty : sentTo i journal = [] := by
      refine List.eq_nil_iff_forall_not_mem.mpr fun ws hws => ?_
      obtain ⟨n, m, ok, hin⟩ := mem_sentTo.mp hws
      exact hnone _ hin rfl
    rw [hempty]
    exact List.nodup_nil
  · obtain ⟨targets, hnodup, hsplit, -⟩ := hp.took
    rw [← hsplit] at hnodup
    exact List.nodup_reverse.mp (List.nodup_append.mp hnodup).1

theorem Follows.known {call : Call W} (h : Follows journal i call) {ws : W} {ok : Bool}
    (hin : .sent i serverId ws message ok ∈ journal) :
    ∃ targets, .took i serverId message targets ∈ journal ∧ ws ∈ targets := by
  rcases h.progress with hnone | ⟨n, m, left, hp⟩
  · exact absurd rfl (hnone _ hin)
  · obtain ⟨targets, -, hsplit, htook⟩ := hp.took
    obtain ⟨rfl, rfl⟩ := hp.sends serverId ws message ok hin
    refine ⟨targets, (htook _ _ _).mpr ⟨rfl, rfl, rfl⟩, ?_⟩
    have hws := mem_sentTo.mpr ⟨_, _, _, hin⟩
    rw [← hsplit]
    exact List.mem_append_left _ (List.mem_reverse.mpr hws)

/- A call that has returned has sent to its whole list. -/
theorem Follows.all (h : Follows journal i .returned) {targets : List W}
    (hin : .took i serverId message targets ∈ journal) {ws : W} (hws : ws ∈ targets) :
    ws ∈ sentTo i journal := by
  obtain ⟨n, m, hp⟩ := h
  obtain ⟨all, -, hsplit, htook⟩ := hp.took
  obtain ⟨-, -, rfl⟩ := (htook _ _ _).mp hin
  rw [← hsplit, List.append_nil] at hws
  exact List.mem_reverse.mp hws

end

/-! ### The invariant -/

/-- The websockets a running broadcast is still to throw out of a server's set. -/
def Call.doomed (serverId : ℕ) : Call W → List W
  | .sending n _ _ failed => if n = serverId then failed else []
  | .cleaning n failed => if n = serverId then failed else []
  | _ => []

section
variable [DecidableEq W]

/- A websocket stays in the set of a server while it has subscribed last and no send to
it has failed; one whose send has failed is there until the clean-up. -/
structure Inv (s : State W) : Prop where
  nonempty : ∀ n, s.subscribers n ≠ some ∅
  follows : ∀ i, Follows s.journal i (s.calls i)
  joined : ∀ n ws, ws ∈ s.get n → joined n ws s.journal = true
  loyal : ∀ n ws, LogSubscribers.joined n ws s.journal = true → ¬ Failed s.journal n ws →
    ws ∈ s.get n
  attached : ∀ n ws, ws ∈ s.get n →
    attached n ws s.journal = true ∨ ∃ i, ws ∈ (s.calls i).doomed n
  snapshot : Snapshots s.journal

theorem Inv.sound {s : State W} (h : Inv s) : RegistrySound s where
  nonempty := h.nonempty
  once := fun i => (h.follows i).once
  known := fun i serverId ws message ok hin => (h.follows i).known hin
  snapshot := h.snapshot
  goesOn := by
    intro i hrun
    have hfollows := h.follows i
    cases hcall : s.calls i with
    | idle => simp [hcall, Call.running] at hrun
    | returned => simp [hcall, Call.running] at hrun
    | cleaning n failed => exact Or.inr (by simp [step, hcall])
    | sending n m targets failed =>
      rw [hcall] at hfollows
      obtain ⟨ws, rest, rfl⟩ := List.exists_cons_of_ne_nil hfollows.2.2
      exact Or.inl fun ok => by simp [step, hcall]
  all := by
    intro i hi serverId message targets hin ws hws
    have hfollows := h.follows i
    rw [hi] at hfollows
    exact hfollows.all hin hws
  loyal := h.loyal
  drained := by
    intro hquiet hgone n
    refine eq_none_of_get s h.nonempty (Finset.eq_empty_of_forall_notMem fun ws hws => ?_)
    rcases h.attached n ws hws with hin | ⟨i, hi⟩
    · rw [hgone n ws] at hin
      cases hin
    · have hrun := hquiet i
      cases hcall : s.calls i with
      | idle => simp [hcall, Call.doomed] at hi
      | returned => simp [hcall, Call.doomed] at hi
      | sending n m targets failed => simp [hcall, Call.running] at hrun
      | cleaning n failed => simp [hcall, Call.running] at hrun

theorem Inv.init : Inv (init : State W) where
  nonempty := by simp [LogSubscribers.init]
  follows := fun i e he => by cases he
  joined := fun n ws hws => by simp [State.get, LogSubscribers.init] at hws
  loyal := fun n ws hj => by simp [LogSubscribers.init, LogSubscribers.joined] at hj
  attached := fun n ws hws => by simp [State.get, LogSubscribers.init] at hws
  snapshot := by
    intro newer i serverId message targets older hj
    simp [LogSubscribers.init] at hj

theorem Snapshots.cons {journal : List (Event W)} {e : Event W} (h : Snapshots journal)
    (he : ∀ i serverId message targets, e = .took i serverId message targets → ∀ ws,
      (ws ∈ targets → joined serverId ws journal = true) ∧
      (joined serverId ws journal = true → ¬ Failed journal serverId ws → ws ∈ targets)) :
    Snapshots (e :: journal) := by
  intro newer i serverId message targets older hj
  cases newer with
  | nil =>
    obtain ⟨rfl, rfl⟩ := List.cons.inj hj
    exact he i serverId message targets rfl
  | cons f newer => exact h newer i serverId message targets older (List.cons.inj hj).2

theorem Inv.subscribe {s : State W} (h : Inv s) (serverId : ℕ) (ws : W) :
    Inv ((s.add serverId ws).note (.subscribed serverId ws)) where
  nonempty := add_nonempty s h.nonempty serverId ws
  follows := fun i => (h.follows i).other (by simp [Event.call])
  joined := by
    intro n w hw
    have hget : w ∈ (s.add serverId ws).get n := hw
    rw [get_add] at hget
    show LogSubscribers.joined n w (.subscribed serverId ws :: s.journal) = true
    rw [LogSubscribers.joined]
    split
    · rfl
    · next hne =>
      split at hget
      · next hn =>
        subst hn
        rcases Finset.mem_insert.mp hget with rfl | hget
        · exact absurd ⟨rfl, rfl⟩ hne
        · exact h.joined _ w hget
      · exact h.joined n w hget
  loyal := by
    intro n w hj hf
    show w ∈ (s.add serverId ws).get n
    have hf' : ¬ Failed s.journal n w := fun hin => hf (hin.cons _)
    have hj' : LogSubscribers.joined n w (.subscribed serverId ws :: s.journal) = true := hj
    rw [LogSubscribers.joined] at hj'
    rw [get_add]
    split at hj'
    · next heq =>
      obtain ⟨rfl, rfl⟩ := heq
      rw [if_pos rfl]
      exact Finset.mem_insert_self _ _
    · have hold := h.loyal n w hj' hf'
      split
      · next hn =>
        subst hn
        exact Finset.mem_insert_of_mem hold
      · exact hold
  attached := by
    intro n w hw
    have hget : w ∈ (s.add serverId ws).get n := hw
    rw [get_add] at hget
    show LogSubscribers.attached n w (.subscribed serverId ws :: s.journal) = true ∨ _
    rw [LogSubscribers.attached]
    split
    · exact Or.inl rfl
    · next hne =>
      split at hget
      · next hn =>
        subst hn
        rcases Finset.mem_insert.mp hget with rfl | hget
        · exact absurd ⟨rfl, rfl⟩ hne
        · exact h.attached _ w hget
      · exact h.attached n w hget
  snapshot := h.snapshot.cons fun i n m ts he => by cases he

theorem Inv.unsubscribe {s : State W} (h : Inv s) (serverId : ℕ) (ws : W) :
    Inv ((s.discard serverId [ws]).note (.unsubscribed serverId ws)) where
  nonempty := discard_nonempty s h.nonempty serverId [ws]
  follows := by
    intro i
    simp only [State.note, discard_calls, discard_journal]
    exact (h.follows i).other (by simp [Event.call])
  joined := by
    intro n w hw
    have hget : w ∈ (s.discard serverId [ws]).get n := hw
    rw [get_discard] at hget
    simp only [State.note, discard_journal, LogSubscribers.joined]
    split
    · next heq =>
      obtain ⟨rfl, rfl⟩ := heq
      simp at hget
    · split at hget
      · next hn =>
        subst hn
        exact h.joined _ w (Finset.mem_sdiff.mp hget).1
      · exact h.joined n w hget
  loyal := by
    intro n w hj hf
    simp only [State.note, discard_journal, LogSubscribers.joined] at hj hf
    show w ∈ (s.discard serverId [ws]).get n
    have hf' : ¬ Failed s.journal n w := fun hin => hf (hin.cons _)
    split at hj
    · cases hj
    · next hne =>
      have hold := h.loyal n w hj hf'
      rw [get_discard]
      split
      · next hn =>
        subst hn
        refine Finset.mem_sdiff.mpr ⟨hold, ?_⟩
        intro hin
        exact hne ⟨rfl, (List.mem_singleton.mp (List.mem_toFinset.mp hin)).symm⟩
      · exact hold
  attached := by
    intro n w hw
    have hget : w ∈ (s.discard serverId [ws]).get n := hw
    rw [get_discard] at hget
    simp only [State.note, discard_journal, discard_calls, LogSubscribers.attached]
    split
    · next heq =>
      obtain ⟨rfl, rfl⟩ := heq
      simp at hget
    · split at hget
      · next hn =>
        subst hn
        exact h.attached _ w (Finset.mem_sdiff.mp hget).1
      · exact h.attached n w hget
  snapshot := by
    simp only [State.note, discard_journal]
    exact h.snapshot.cons fun i n m ts he => by cases he

omit [DecidableEq W] in
theorem follows_update {s : State W} {e : Event W} {i : ℕ} {call : Call W}
    (h : ∀ j, Follows s.journal j (s.calls j)) (he : e.call = some i)
    (hi : Follows (e :: s.journal) i call) (j : ℕ) :
    Follows (e :: s.journal) j (Function.update s.calls i call j) := by
  by_cases hj : j = i
  · subst hj
    rw [Function.update_self]
    exact hi
  · rw [Function.update_of_ne hj]
    refine (h j).other ?_
    rw [he]
    exact fun hij => hj (Option.some.inj hij).symm

omit [DecidableEq W] in
theorem doomed_afterSend (serverId n : ℕ) (message : String) (targets failed : List W) :
    (afterSend serverId message targets failed).doomed n =
      if serverId = n then failed else [] := by
  unfold afterSend
  split
  · simp [Call.doomed]
  · rfl
  · rfl

theorem Inv.take {s : State W} (h : Inv s) {i serverId : ℕ} {message : String} {targets : List W}
    (hi : s.calls i = .idle) (hnodup : targets.Nodup)
    (hset : targets.toFinset = s.get serverId) :
    Inv ((s.goto i (afterSend serverId message targets [])).note
      (.took i serverId message targets)) where
  nonempty := h.nonempty
  follows := by
    have hidle := h.follows i
    rw [hi] at hidle
    exact follows_update h.follows rfl
      (follows_afterSend (Progress.start hidle hnodup) fun ws hws => by cases hws)
  joined := h.joined
  loyal := fun n ws hj hf => h.loyal n ws hj fun hin => hf (hin.cons _)
  attached := by
    intro n ws hws
    rcases h.attached n ws hws with hin | ⟨j, hj⟩
    · exact Or.inl hin
    · refine Or.inr ⟨j, ?_⟩
      have hne : j ≠ i := by
        rintro rfl
        simp [hi, Call.doomed] at hj
      show ws ∈ (Function.update s.calls i _ j).doomed n
      rw [Function.update_of_ne hne]
      exact hj
  snapshot := by
    refine h.snapshot.cons fun j n m ts he => ?_
    cases he
    intro ws
    rw [← List.mem_toFinset, hset]
    exact ⟨h.joined serverId ws, h.loyal serverId ws⟩

/- One send ends; a failed one dooms its websocket. -/
theorem Inv.send {s : State W} (h : Inv s) {i serverId : ℕ} {message : String} {ws : W}
    {targets failed : List W} (hi : s.calls i = .sending serverId message (ws :: targets) failed)
    (ok : Bool) :
    Inv ((s.goto i (afterSend serverId message targets
      (if ok then failed else failed ++ [ws]))).note (.sent i serverId ws message ok)) where
  nonempty := h.nonempty
  follows := by
    have hsending := h.follows i
    rw [hi] at hsending
    refine follows_update h.follows rfl (follows_afterSend (hsending.1.send ok) ?_)
    intro w hw
    cases ok with
    | true => exact (hsending.2.1 w hw).cons _
    | false =>
      rcases List.mem_append.mp hw with hw | hw
      · exact (hsending.2.1 w hw).cons _
      · obtain rfl := List.mem_singleton.mp hw
        exact ⟨i, message, List.mem_cons_self⟩
  joined := h.joined
  loyal := fun n w hj hf => h.loyal n w hj fun hin => hf (hin.cons _)
  attached := by
    intro n w hw
    show LogSubscribers.attached n w (.sent i serverId ws message ok :: s.journal) = true ∨
      ∃ j, w ∈ (Function.update s.calls i _ j).doomed n
    rw [LogSubscribers.attached]
    split
    · next heq =>
      obtain ⟨rfl, rfl, rfl⟩ := heq
      refine Or.inr ⟨i, ?_⟩
      rw [Function.update_self, doomed_afterSend]
      simp
    · rcases h.attached n w hw with hin | ⟨j, hj⟩
      · exact Or.inl hin
      · refine Or.inr ⟨j, ?_⟩
        by_cases hne : j = i
        · subst hne
          rw [hi] at hj
          rw [Function.update_self, doomed_afterSend]
          simp only [Call.doomed] at hj
          split at hj
          · next hn =>
            rw [if_pos hn]
            cases ok with
            | true => exact hj
            | false => exact List.mem_append_left _ hj
          · cases hj
        · rw [Function.update_of_ne hne]
          exact hj
  snapshot := h.snapshot.cons fun j n m ts he => by cases he

theorem Inv.clean {s : State W} (h : Inv s) {i serverId : ℕ} {failed : List W}
    (hi : s.calls i = .cleaning serverId failed) :
    Inv ((s.discard serverId failed).goto i .returned) := by
  have hcleaning := h.follows i
  rw [hi] at hcleaning
  obtain ⟨⟨message, hprogress⟩, hfailed⟩ := hcleaning
  have hsub : ∀ n ws, ws ∈ (s.discard serverId failed).get n →
      ws ∈ s.get n ∧ (n = serverId → ws ∉ failed) := by
    intro n ws hws
    rw [get_discard] at hws
    split at hws
    · next hn =>
      subst hn
      obtain ⟨hin, hout⟩ := Finset.mem_sdiff.mp hws
      exact ⟨hin, fun _ hmem => hout (List.mem_toFinset.mpr hmem)⟩
    · next hn => exact ⟨hws, fun he => absurd he hn⟩
  constructor
  · exact discard_nonempty s h.nonempty serverId failed
  · intro j
    simp only [State.goto, discard_journal, discard_calls]
    by_cases hj : j = i
    · subst hj
      rw [Function.update_self]
      exact ⟨serverId, message, hprogress⟩
    · rw [Function.update_of_ne hj]
      exact h.follows j
  · intro n ws hws
    simp only [State.goto, discard_journal]
    exact h.joined n ws (hsub n ws hws).1
  · intro n ws hj hf
    simp only [State.goto, discard_journal] at hj hf
    have hold := h.loyal n ws hj hf
    show ws ∈ (s.discard serverId failed).get n
    rw [get_discard]
    split
    · next hn =>
      subst hn
      refine Finset.mem_sdiff.mpr ⟨hold, fun hin => hf (hfailed ws (List.mem_toFinset.mp hin))⟩
    · exact hold
  · intro n ws hws
    simp only [State.goto, discard_journal, discard_calls]
    obtain ⟨hin, hout⟩ := hsub n ws hws
    rcases h.attached n ws hin with hatt | ⟨j, hj⟩
    · exact Or.inl hatt
    · refine Or.inr ⟨j, ?_⟩
      have hne : j ≠ i := by
        rintro rfl
        rw [hi] at hj
        simp only [Call.doomed] at hj
        split at hj
        · next hn => exact hout hn.symm hj
        · cases hj
      rw [Function.update_of_ne hne]
      exact hj
  · simp only [State.goto, discard_journal]
    exact h.snapshot

theorem Inv.step {s s' : State W} {l : Label W} (h : Inv s) (hs : step s l = some s') :
    Inv s' := by
  cases l with
  | subscribe serverId ws =>
    obtain rfl := Option.some.inj hs
    exact h.subscribe serverId ws
  | unsubscribe serverId ws =>
    obtain rfl := Option.some.inj hs
    exact h.unsubscribe serverId ws
  | take i serverId message targets =>
    simp only [LogSubscribers.step] at hs
    split at hs
    · next hi =>
      split at hs
      · next hok =>
        obtain rfl := Option.some.inj hs
        exact h.take hi hok.1 hok.2
      · cases hs
    · cases hs
  | send i ok =>
    simp only [LogSubscribers.step] at hs
    split at hs
    · next hi =>
      obtain rfl := Option.some.inj hs
      exact h.send hi ok
    · cases hs
  | clean i =>
    simp only [LogSubscribers.step] at hs
    split at hs
    · next hi =>
      obtain rfl := Option.some.inj hs
      exact h.clean hi
    · cases hs

/- In every state of every interleaving, whichever sends fail. -/
theorem registry_sound (ls : List (Label W)) :
    Runs.Throughout step RegistrySound (init : State W) ls :=
  Runs.throughout_of_invariant Inv RegistrySound (fun _ _ => True)
    (fun _ _ _ hi _ hs => hi.step hs) (fun _ hi => hi.sound) Inv.init (Runs.along_true _ ls)

/- Two dashboards of server 1; the send to the first fails while the second goes. -/
example : (Runs.run step (init : State ℕ) [.subscribe 1 10, .subscribe 1 11,
    .take 0 1 "line" [10, 11], .send 0 false, .unsubscribe 1 11, .send 0 true, .clean 0]).map
    (fun s => (s.subscribers 1, sentTo 0 s.journal)) = some (none, [11, 10]) := by decide

end

end PulseWatch.LogSubscribers
