import Mathlib.Data.Int.Notation
import Mathlib.Data.List.Infix
import PulseWatch.Lib.Runs

/-!
# Polling for updates (`_poll_loop` of `app/telegram_bot.py`)

The loop beside the server it polls. Telegram numbers updates in the order they arrive and
keeps them until a request has named a higher offset, whether or not its answer gets
through; an answer with status 200 carries the first of the pending updates from the
offset on. `none` is a step that cannot be taken.
-/

namespace PulseWatch.PollLoop

variable {Message : Type}

/- `message` is none also for a message that is empty, which Python takes for false. -/
structure Update (Message : Type) where
  updateId : ℤ
  message : Option Message
  deriving DecidableEq, Repr

def Update.isMessage (u : Update Message) : Bool := u.message.isSome

/- Between two updates of the batch, at its end before the next request, or in
`_handle_message`. -/
inductive Place (Message : Type) where
  | between (rest : List (Update Message))
  | handling (u : Update Message) (rest : List (Update Message))
  deriving DecidableEq, Repr

/- `pending` is what the server keeps; `arrived` and `passed`, what has arrived and what
`_handle_message` was called with, are read by nobody. -/
structure State (Message : Type) where
  pending : List (Update Message)
  offset : Option ℤ
  place : Place Message
  arrived : List (Update Message)
  passed : List (Update Message)
  deriving DecidableEq, Repr

inductive Failure where
  | httpError
  | non200
  deriving DecidableEq, Repr

/- A request that fails may still have reached the server; an answer carries at most
`limit` updates; a handler may raise. -/
inductive Label (Message : Type) where
  | arrive (u : Update Message)
  | failed (failure : Failure) (reached : Bool)
  | answered (limit : ℕ)
  | next
  | handled (raises : Bool)
  deriving DecidableEq, Repr

def init : State Message := ⟨[], none, .between [], [], []⟩

/- Not acknowledged by the offset. -/
def ahead (offset : Option ℤ) (u : Update Message) : Bool := offset.all (· ≤ u.updateId)

/- What the server still keeps once it has seen the offset. -/
def State.due (s : State Message) : List (Update Message) := s.pending.filter (ahead s.offset)

def step (s : State Message) : Label Message → Option (State Message)
  | .arrive u =>
    if s.arrived.all fun v => v.updateId < u.updateId then
      some { s with pending := s.pending ++ [u], arrived := s.arrived ++ [u] }
    else none
  | .failed _ reached =>
    match s.place with
    | .between [] => some { s with pending := if reached then s.due else s.pending }
    | _ => none
  | .answered limit =>
    match s.place with
    | .between [] => some { s with pending := s.due, place := .between (s.due.take limit) }
    | _ => none
  | .next =>
    match s.place with
    | .between (u :: rest) =>
      let s := { s with offset := some (u.updateId + 1) }
      some (if u.isMessage then { s with place := .handling u rest, passed := s.passed ++ [u] }
        else { s with place := .between rest })
    | _ => none
  -- An exception is logged, and the loop goes on in either case.
  | .handled _ =>
    match s.place with
    | .handling _ rest => some { s with place := .between rest }
    | _ => none

def Place.rest : Place Message → List (Update Message)
  | .between rest => rest
  | .handling _ rest => rest

/- The rest of a batch with its handlers. -/
def labels (raises : Update Message → Bool) : List (Update Message) → List (Label Message)
  | [] => []
  | u :: rest => if u.isMessage then .next :: .handled (raises u) :: labels raises rest
    else .next :: labels raises rest

def Place.finish (raises : Update Message → Bool) : Place Message → List (Label Message)
  | .between rest => labels raises rest
  | .handling u rest => .handled (raises u) :: labels raises rest

/-! ### The cursor -/

section
variable {offset : Option ℤ} {u v : Update Message}

/- The offset after an update: it is behind, with all before it, and the later ones are
ahead. -/
theorem ahead_later (h : u.updateId < v.updateId) : ahead (some (u.updateId + 1)) v = true :=
  decide_eq_true (by omega)

theorem behind_earlier (h : v.updateId ≤ u.updateId) :
    ahead (some (u.updateId + 1)) v = false := decide_eq_false (by omega)

theorem ahead_next (h : ahead offset u = true) (hv : ahead (some (u.updateId + 1)) v = true) :
    ahead offset v = true := by
  cases offset with
  | none => rfl
  | some o =>
    have hu : o ≤ u.updateId := of_decide_eq_true h
    have hlater : u.updateId + 1 ≤ v.updateId := of_decide_eq_true hv
    exact decide_eq_true (by omega)

end

/- The offset cuts what has arrived in two: the messages of the front have been passed on,
the server still keeps the back, and the rest of the batch is the beginning of it. -/
structure Cut (s : State Message) (front back : List (Update Message)) : Prop where
  arrived : s.arrived = front ++ back
  increasing : s.arrived.Pairwise fun u v => u.updateId < v.updateId
  offset : ∀ o, s.offset = some o → ∃ v ∈ s.arrived, o = v.updateId + 1
  behind : ∀ u ∈ front, ahead s.offset u = false
  ahead : ∀ u ∈ back, ahead s.offset u = true
  due : s.due = back
  rest : s.place.rest <+: back
  passed : s.passed = front.filter Update.isMessage

def Inv (s : State Message) : Prop := ∃ front back, Cut s front back

theorem Inv.init : Inv (init : State Message) := by
  refine ⟨[], [], rfl, List.Pairwise.nil, fun o ho => ?_, ?_, ?_, rfl, List.nil_prefix, rfl⟩
  · cases ho
  · exact fun u hu => absurd hu List.not_mem_nil
  · exact fun u hu => absurd hu List.not_mem_nil

namespace Cut
variable {s : State Message} {front back : List (Update Message)} (h : Cut s front back)
include h

theorem arrive {u : Update Message} (hu : ∀ v ∈ s.arrived, v.updateId < u.updateId) :
    Cut { s with pending := s.pending ++ [u], arrived := s.arrived ++ [u] } front
      (back ++ [u]) := by
  have hahead : PollLoop.ahead s.offset u = true := by
    cases ho : s.offset with
    | none => rfl
    | some o =>
      obtain ⟨v, hv, rfl⟩ := h.offset o ho
      exact ahead_later (hu v hv)
  refine { h with
    arrived := ?_, increasing := ?_, offset := ?_, ahead := ?_, due := ?_, rest := ?_ }
  · show s.arrived ++ [u] = _
    rw [h.arrived, List.append_assoc]
  · rw [List.pairwise_append]
    refine ⟨h.increasing, List.pairwise_singleton _ u, fun v hv w hw => ?_⟩
    obtain rfl := List.mem_singleton.mp hw
    exact hu v hv
  · intro o ho
    obtain ⟨v, hv, rfl⟩ := h.offset o ho
    exact ⟨v, List.mem_append_left _ hv, rfl⟩
  · intro v hv
    rcases List.mem_append.mp hv with hv | hv
    · exact h.ahead v hv
    · obtain rfl := List.mem_singleton.mp hv
      exact hahead
  · show (s.pending ++ [u]).filter (PollLoop.ahead s.offset) = back ++ [u]
    rw [List.filter_append, ← State.due, h.due, List.filter_cons_of_pos hahead, List.filter_nil]
  · exact h.rest.trans (List.prefix_append back [u])

theorem request {place : Place Message} (hrest : place.rest <+: back) :
    Cut { s with pending := s.due, place } front back := by
  refine { h with due := ?_, rest := hrest }
  show s.due.filter (PollLoop.ahead s.offset) = back
  rw [h.due, List.filter_eq_self]
  exact h.ahead

theorem take {u : Update Message} {rest : List (Update Message)} {place : Place Message}
    (hplace : s.place.rest = u :: rest) (hrest : place.rest = rest) :
    ∃ back', Cut { s with
      offset := some (u.updateId + 1), place
      passed := s.passed ++ [u].filter Update.isMessage } (front ++ [u]) back' := by
  obtain ⟨later, hback⟩ := h.rest
  rw [hplace, List.cons_append] at hback
  have hu : u ∈ back := by
    rw [← hback]
    exact List.mem_cons_self
  have hafter : ∀ v ∈ rest ++ later, u.updateId < v.updateId := by
    have hsorted := h.increasing
    rw [h.arrived, ← hback, List.pairwise_append] at hsorted
    exact (List.pairwise_cons.mp hsorted.2.1).1
  have hbefore : ∀ v ∈ front, v.updateId < u.updateId := by
    have hsorted := h.increasing
    rw [h.arrived, List.pairwise_append] at hsorted
    exact fun v hv => hsorted.2.2 v hv u hu
  refine ⟨rest ++ later, ?_, h.increasing, ?_, ?_, ?_, ?_, ?_, ?_⟩
  · show s.arrived = _
    rw [h.arrived, ← hback, List.append_assoc]
    rfl
  · intro o ho
    refine ⟨u, ?_, (Option.some.inj ho).symm⟩
    rw [h.arrived]
    exact List.mem_append_right _ hu
  · intro v hv
    rcases List.mem_append.mp hv with hv | hv
    · exact behind_earlier (Int.le_of_lt (hbefore v hv))
    · obtain rfl := List.mem_singleton.mp hv
      exact behind_earlier (Int.le_refl _)
  · exact fun v hv => ahead_later (hafter v hv)
  · have hforget : s.pending.filter (PollLoop.ahead (some (u.updateId + 1))) =
        s.due.filter (PollLoop.ahead (some (u.updateId + 1))) := by
      rw [State.due, List.filter_filter]
      refine List.filter_congr fun v _ => ?_
      cases hv : PollLoop.ahead (some (u.updateId + 1)) v with
      | false => rfl
      | true => rw [ahead_next (h.ahead u hu) hv]; rfl
    show s.pending.filter (PollLoop.ahead (some (u.updateId + 1))) = _
    rw [hforget, h.due, ← hback, List.filter_cons_of_neg (by simp [behind_earlier]),
      List.filter_eq_self]
    exact fun v hv => ahead_later (hafter v hv)
  · rw [hrest]
    exact List.prefix_append rest later
  · show s.passed ++ _ = _
    rw [h.passed, List.filter_append]

end Cut

/-! ### The steps -/

inductive Move (s : State Message) : Label Message → State Message → Prop where
  | arrive {u : Update Message} (hlater : ∀ v ∈ s.arrived, v.updateId < u.updateId) :
      Move s (.arrive u) { s with pending := s.pending ++ [u], arrived := s.arrived ++ [u] }
  | lost {failure : Failure} (hplace : s.place = .between []) : Move s (.failed failure false) s
  | refused {failure : Failure} (hplace : s.place = .between []) :
      Move s (.failed failure true) { s with pending := s.due }
  | answered {limit : ℕ} (hplace : s.place = .between []) :
      Move s (.answered limit) { s with
        pending := s.due, place := .between (s.due.take limit) }
  | next {u : Update Message} {rest : List (Update Message)} {place : Place Message}
      (hplace : s.place = .between (u :: rest)) (hrest : place.rest = rest) :
      Move s .next { s with
        offset := some (u.updateId + 1), place
        passed := s.passed ++ [u].filter Update.isMessage }
  | handled {u : Update Message} {rest : List (Update Message)} {raises : Bool}
      (hplace : s.place = .handling u rest) :
      Move s (.handled raises) { s with place := .between rest }

section
variable {s s' : State Message}

theorem step_move {l : Label Message} (hs : step s l = some s') : Move s l s' := by
  cases l with
  | arrive u =>
    simp only [step] at hs
    split at hs
    · next hall =>
      obtain rfl := Option.some.inj hs
      exact .arrive fun v hv => by simpa using List.all_eq_true.mp hall v hv
    · cases hs
  | failed failure reached =>
    simp only [step] at hs
    split at hs
    · next hplace =>
      obtain rfl := Option.some.inj hs
      cases reached with
      | false => exact .lost hplace
      | true => exact .refused hplace
    · cases hs
  | answered limit =>
    simp only [step] at hs
    split at hs
    · next hplace =>
      obtain rfl := Option.some.inj hs
      exact .answered hplace
    · cases hs
  | next =>
    simp only [step] at hs
    split at hs
    · next u rest hplace =>
      obtain rfl := Option.some.inj hs
      -- A message is handled, any other update is passed over.
      cases hmessage : u.isMessage with
      | true =>
        have hmove := Move.next hplace (rfl : (Place.handling u rest).rest = rest)
        rw [List.filter_cons_of_pos hmessage] at hmove
        exact hmove
      | false =>
        have hmove := Move.next hplace (rfl : (Place.between rest).rest = rest)
        rw [List.filter_cons_of_neg (by simp [hmessage]), List.filter_nil,
          List.append_nil] at hmove
        exact hmove
    · cases hs
  | handled raises =>
    simp only [step] at hs
    split at hs
    · next u rest hplace =>
      obtain rfl := Option.some.inj hs
      exact .handled hplace
    · cases hs

theorem Inv.step {l : Label Message} (h : Inv s) (hs : step s l = some s') : Inv s' := by
  obtain ⟨front, back, h⟩ := h
  cases step_move hs with
  | arrive hlater => exact ⟨front, back ++ [_], h.arrive hlater⟩
  | lost => exact ⟨front, back, h⟩
  | refused => exact ⟨front, back, h.request h.rest⟩
  | answered =>
    refine ⟨front, back, h.request ?_⟩
    rw [← h.due]
    exact List.take_prefix _ s.due
  | next hplace hrest =>
    obtain ⟨back', h'⟩ := h.take (by rw [hplace]; rfl) hrest
    exact ⟨_, back', h'⟩
  | handled hplace =>
    refine ⟨front, back, { h with rest := ?_ }⟩
    have hprefix := h.rest
    rw [hplace] at hprefix
    exact hprefix

theorem Inv.run {ls : List (Label Message)} (h : Inv s)
    (hr : Runs.run PollLoop.step s ls = some s') : Inv s' :=
  Runs.run_invariant Inv (fun _ _ => True) (fun _ _ _ hi _ hs => hi.step hs) h
    (Runs.along_true s ls) hr

/- Passed are the messages behind the offset. -/
theorem Inv.passed_eq (h : Inv s) :
    s.passed = s.arrived.filter fun u => u.isMessage && !ahead s.offset u := by
  obtain ⟨front, back, h⟩ := h
  have hfront : front.filter (fun u => u.isMessage && !ahead s.offset u) =
      front.filter Update.isMessage :=
    List.filter_congr fun u hu => by rw [h.behind u hu, Bool.not_false, Bool.and_true]
  have hback : back.filter (fun u => u.isMessage && !ahead s.offset u) = [] := by
    rw [List.filter_eq_nil_iff]
    intro u hu
    rw [h.ahead u hu, Bool.not_true, Bool.and_false]
    exact Bool.false_ne_true
  rw [h.passed, h.arrived, List.filter_append, hfront, hback, List.append_nil]

theorem Inv.passed_increasing (h : Inv s) :
    s.passed.Pairwise fun u v => u.updateId < v.updateId := by
  rw [h.passed_eq]
  obtain ⟨front, back, h⟩ := h
  exact h.increasing.filter _

end

/-! ### The rest of a batch -/

/- Whichever handlers raise, the loop comes to the end of the batch and has passed on its
messages. -/
theorem labels_run (raises : Update Message → Bool) (rest : List (Update Message))
    (s : State Message) (h : s.place = .between rest) :
    Runs.run step s (labels raises rest) = some { s with
      offset := (rest.getLast?.map fun u => u.updateId + 1).or s.offset
      place := .between []
      passed := s.passed ++ rest.filter Update.isMessage } := by
  induction rest generalizing s with
  | nil =>
    rw [labels, Runs.run, ← h]
    simp
  | cons u rest ih =>
    have hlast : ((u :: rest).getLast?.map fun u => u.updateId + 1).or s.offset =
        (rest.getLast?.map fun u => u.updateId + 1).or (some (u.updateId + 1)) := by
      cases rest with
      | nil => rfl
      | cons v rest => rw [List.getLast?_cons_cons]; simp [List.getLast?_cons]
    rw [hlast]
    cases hmessage : u.isMessage with
    | true =>
      rw [labels, if_pos hmessage, Runs.run, step, h]
      dsimp only
      rw [if_pos hmessage, Option.bind_some, Runs.run, step]
      dsimp only
      rw [Option.bind_some, ih _ rfl, List.filter_cons_of_pos hmessage]
      simp
    | false =>
      rw [labels, if_neg (by simp [hmessage]), Runs.run, step, h]
      dsimp only
      rw [if_neg (by simp [hmessage]), Option.bind_some, ih _ rfl,
        List.filter_cons_of_neg (by simp [hmessage])]

theorem finish_run (raises : Update Message → Bool) (s : State Message) :
    Runs.run step s (s.place.finish raises) = some { s with
      offset := (s.place.rest.getLast?.map fun u => u.updateId + 1).or s.offset
      place := .between []
      passed := s.passed ++ s.place.rest.filter Update.isMessage } := by
  cases h : s.place with
  | between rest => exact labels_run raises rest s h
  | handling u rest =>
    rw [Place.finish, Runs.run, step, h]
    dsimp only
    rw [Option.bind_some, labels_run raises rest _ rfl]
    rfl

/-! ### What was pending at a poll -/

/- Each of these updates lies behind the offset or in the rest of the batch. -/
def Covered (us : List (Update Message)) (s : State Message) : Prop :=
  ∀ u ∈ us, u ∈ s.arrived ∧ (ahead s.offset u = false ∨ u ∈ s.place.rest)

theorem Covered.behind {us : List (Update Message)} {s : State Message} (h : Covered us s)
    (hrest : s.place.rest = []) : ∀ u ∈ us, u ∈ s.arrived ∧ ahead s.offset u = false := by
  intro u hu
  obtain ⟨harrived, hbehind | hin⟩ := h u hu
  · exact ⟨harrived, hbehind⟩
  · rw [hrest] at hin
    exact absurd hin List.not_mem_nil

theorem Covered.step {us : List (Update Message)} {s s' : State Message} {l : Label Message}
    (h : Covered us s) (hi : Inv s) (hs : PollLoop.step s l = some s') : Covered us s' := by
  cases step_move hs with
  | arrive => exact fun v hv => ⟨List.mem_append_left _ (h v hv).1, (h v hv).2⟩
  | lost => exact h
  | refused => exact h
  | answered hplace =>
    have hbehind := h.behind (by rw [hplace]; rfl)
    exact fun v hv => ⟨(hbehind v hv).1, .inl (hbehind v hv).2⟩
  | @next u rest place hplace hrest =>
    obtain ⟨front, back, hcut⟩ := hi
    have hold : s.place.rest = u :: rest := by rw [hplace]; rfl
    have hu : ahead s.offset u = true := by
      refine hcut.ahead u (hcut.rest.subset ?_)
      rw [hold]
      exact List.mem_cons_self
    intro v hv
    obtain ⟨harrived, hbehind | hin⟩ := h v hv
    · refine ⟨harrived, .inl ?_⟩
      cases hahead : ahead (some (u.updateId + 1)) v with
      | false => rfl
      | true =>
        rw [ahead_next hu hahead] at hbehind
        cases hbehind
    · -- The update itself, or later in the batch.
      rw [hold] at hin
      rcases List.mem_cons.mp hin with rfl | hin
      · exact ⟨harrived, .inl (behind_earlier (Int.le_refl _))⟩
      · exact ⟨harrived, .inr (by rw [← hrest] at hin; exact hin)⟩
  | handled hplace =>
    intro v hv
    have hv' := h v hv
    rw [hplace] at hv'
    exact hv'

/- A poll that is answered with all that is due, and its batch: every message that had
arrived has been passed on. -/
theorem caught_up {s s' : State Message} (hi : Inv s) {limit : ℕ} {ls : List (Label Message)}
    (hlimit : s.due.length ≤ limit) (hr : Runs.run step s (.answered limit :: ls) = some s')
    (hend : s'.place = .between []) : ∀ u ∈ s.arrived, u.isMessage = true → u ∈ s'.passed := by
  obtain ⟨t, ht, hrest⟩ := Runs.run_cons hr
  have hit : Inv t := hi.step ht
  have hcovered : Covered s.arrived t := by
    cases step_move ht
    obtain ⟨front, back, hcut⟩ := hi
    intro u hu
    refine ⟨hu, ?_⟩
    rw [hcut.arrived] at hu
    rcases List.mem_append.mp hu with hu | hu
    · exact .inl (hcut.behind u hu)
    · right
      show u ∈ s.due.take limit
      rw [List.take_of_length_le hlimit, hcut.due]
      exact hu
  have hlast : Inv s' ∧ Covered s.arrived s' :=
    Runs.run_invariant (fun t => Inv t ∧ Covered s.arrived t) (fun _ _ => True)
      (fun _ _ _ h _ hs => ⟨h.1.step hs, h.2.step h.1 hs⟩) ⟨hit, hcovered⟩
      (Runs.along_true t ls) hrest
  intro u hu hmessage
  obtain ⟨harrived, hbehind⟩ := hlast.2.behind (by rw [hend]; rfl) u hu
  rw [hlast.1.passed_eq, List.mem_filter, hmessage, hbehind]
  exact ⟨harrived, rfl⟩

/- In every run `_handle_message` has been called with the messages behind the offset, each
once and in the order of their ids; the rest of a batch is passed on whichever handlers
raise; and a poll answered with all that is due leaves none behind. -/
theorem every_message_once {ls : List (Label Message)} {s : State Message}
    (hr : Runs.run step init ls = some s) :
    s.passed = s.arrived.filter (fun u => u.isMessage && !ahead s.offset u) ∧
    s.passed.Pairwise (fun u v => u.updateId < v.updateId) ∧
    (∃ s' : State Message, s'.place = .between [] ∧
      s'.passed = s.passed ++ s.place.rest.filter Update.isMessage ∧
      ∀ raises, Runs.run step s (s.place.finish raises) = some s') ∧
    ∀ limit ls' s', s.due.length ≤ limit → Runs.run step s (.answered limit :: ls') = some s' →
      s'.place = .between [] → ∀ u ∈ s.arrived, u.isMessage = true → u ∈ s'.passed := by
  have hi : Inv s := Inv.init.run hr
  refine ⟨hi.passed_eq, hi.passed_increasing, ?_, fun limit ls' s' => caught_up hi⟩
  exact ⟨_, rfl, rfl, fun raises => finish_run raises s⟩

/- Two messages and an edit between them; the first answer is lost, the handler of the first
message raises. -/
def twoMessages : List (Label String) :=
  [.arrive ⟨7, some "/toggle 1"⟩, .arrive ⟨8, none⟩, .failed .httpError true,
    .arrive ⟨9, some "/toggle 2"⟩, .answered 100, .next, .handled true, .next,
    .next, .handled false]

theorem two_messages_once : ∃ s : State String, Runs.run step init twoMessages = some s ∧
    s.passed = [⟨7, some "/toggle 1"⟩, ⟨9, some "/toggle 2"⟩] ∧
    s.passed = s.arrived.filter (fun u => u.isMessage && !ahead s.offset u) ∧
    s.passed.Pairwise fun u v => u.updateId < v.updateId := by
  obtain ⟨s, hr⟩ : ∃ s, Runs.run step init twoMessages = some s := ⟨_, rfl⟩
  obtain ⟨hpassed, hincreasing, -⟩ := every_message_once hr
  refine ⟨s, hr, ?_, hpassed, hincreasing⟩
  obtain rfl := Option.some.inj (hr.symm.trans rfl)
  rfl

end PulseWatch.PollLoop
