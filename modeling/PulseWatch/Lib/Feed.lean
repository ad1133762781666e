import Mathlib.Data.List.Infix
import Mathlib.Data.List.ModifyLast
import Mathlib.Order.Basic
import PulseWatch.Lib.Runs

/-!
# Pieces of a growing source

A follower reads a source that grows at its end and passes the items on over carriers,
one after the other. It follows from where the source ends at that moment; once it has
left a carrier it never comes back to it. So every carrier has an unbroken piece of the
source, and the pieces lie in the source in the order of the carriers and apart.
-/

namespace Feeds
open Runs

variable {α : Type*}

/- `start` is where the follower began, if it has. -/
structure Piece (α : Type*) where
  start : Option ℕ := none
  items : List α := []

def Piece.blank : Piece α := {}

inductive Phase where
  | idle
  | fresh
  | attached
  deriving DecidableEq, Repr

structure Feed (α : Type*) where
  source : List α
  cursor : ℕ := 0
  phase : Phase := .idle
  pieces : List (Piece α) := []

/- A new carrier is followed or not. -/
inductive Op (α : Type*) where
  | append (a : α)
  | carrier (follow : Bool)
  | seek
  | pass
  | skip
  | leave

def step (f : Feed α) : Op α → Option (Feed α)
  | .append a => some { f with source := f.source ++ [a] }
  | .carrier follow => some { f with
      phase := if follow then .fresh else .idle
      pieces := f.pieces ++ [.blank] }
  | .seek => match f.phase with
    | .fresh => some { f with
        phase := .attached, cursor := f.source.length
        pieces := f.pieces.modifyLast fun p => { p with start := some f.source.length } }
    | _ => none
  | .pass => match f.phase, f.source[f.cursor]? with
    | .attached, some a => some { f with
        cursor := f.cursor + 1
        pieces := f.pieces.modifyLast fun p => { p with items := p.items ++ [a] } }
    | _, _ => none
  | .skip => match f.phase, f.source[f.cursor]? with
    | .attached, some _ => some { f with phase := .idle, cursor := f.cursor + 1 }
    | _, _ => none
  | .leave => some { f with phase := .idle }

/- An unbroken piece of the source, empty as long as it has no start. -/
def Piece.Cut (source : List α) (p : Piece α) : Prop :=
  match p.start with
  | none => p.items = []
  | some i => i ≤ source.length ∧ p.items <+: source.drop i

structure Sound (f : Feed α) : Prop where
  cursor : f.cursor ≤ f.source.length
  order : (f.pieces.flatMap Piece.items).Sublist (f.source.take f.cursor)
  cut : ∀ p ∈ f.pieces, p.Cut f.source
  fresh : f.phase = .fresh → ∃ old, f.pieces = old ++ [.blank]
  attached : f.phase = .attached → ∃ old i, i ≤ f.cursor ∧
    f.pieces = old ++ [⟨some i, (f.source.take f.cursor).drop i⟩]

theorem Piece.Cut.append {source : List α} {p : Piece α} (h : p.Cut source) (a : α) :
    p.Cut (source ++ [a]) := by
  cases hp : p.start with
  | none =>
    simp only [Piece.Cut, hp] at h ⊢
    exact h
  | some i =>
    simp only [Piece.Cut, hp] at h ⊢
    obtain ⟨hle, hitems⟩ := h
    refine ⟨by rw [List.length_append]; omega, ?_⟩
    rw [List.drop_append_of_le_length hle]
    exact hitems.trans (List.prefix_append _ _)

/- The follower's own piece ends at the cursor. -/
theorem cut_attached {source : List α} {i n : ℕ} (hi : i ≤ n) (hn : n ≤ source.length) :
    Piece.Cut source ⟨some i, (source.take n).drop i⟩ :=
  ⟨le_trans hi hn, (List.take_prefix n source).drop i⟩

theorem drop_take_succ {source : List α} {i n : ℕ} {a : α} (hi : i ≤ n)
    (ha : source[n]? = some a) :
    (source.take (n + 1)).drop i = (source.take n).drop i ++ [a] := by
  obtain ⟨hn, -⟩ := List.getElem?_eq_some_iff.mp ha
  rw [List.take_add_one, ha, Option.toList_some,
    List.drop_append_of_le_length (by rw [List.length_take]; omega)]

section
variable {f g : Feed α}

theorem Sound.append (hi : Sound f) (a : α) : Sound { f with source := f.source ++ [a] } where
  cursor := by
    have hc := hi.cursor
    simp only [List.length_append]
    omega
  order := by
    rw [List.take_append_of_le_length hi.cursor]
    exact hi.order
  cut := fun p hp => (hi.cut p hp).append a
  fresh := hi.fresh
  attached h := by
    obtain ⟨old, i, hle, hp⟩ := hi.attached h
    exact ⟨old, i, hle, by rw [List.take_append_of_le_length hi.cursor]; exact hp⟩

theorem Sound.carrier (hi : Sound f) (follow : Bool) : Sound { f with
    phase := if follow then .fresh else .idle
    pieces := f.pieces ++ [.blank] } where
  cursor := hi.cursor
  order := by
    rw [List.flatMap_append]
    simpa [Piece.blank] using hi.order
  cut p hp := by
    rcases List.mem_append.mp hp with hp | hp
    · exact hi.cut p hp
    · rw [List.mem_singleton.mp hp]
      rfl
  fresh _ := ⟨f.pieces, rfl⟩
  attached h := by cases follow <;> cases h

theorem Sound.seek (hi : Sound f) (h : f.phase = .fresh) : Sound { f with
    phase := .attached, cursor := f.source.length
    pieces := f.pieces.modifyLast fun p => { p with start := some f.source.length } } := by
  obtain ⟨old, hold⟩ := hi.fresh h
  have hcut := hi.cut
  have horder := hi.order.trans (List.take_sublist f.cursor f.source)
  rw [hold] at hcut horder
  rw [hold, List.modifyLast_concat]
  refine ⟨le_refl _, ?_, fun p hp => ?_, fun h => (by cases h), fun _ => ?_⟩
  · rw [List.take_length]
    simpa using horder
  · rcases List.mem_append.mp hp with hp | hp
    · exact hcut p (List.mem_append_left _ hp)
    · rw [List.mem_singleton.mp hp]
      exact ⟨le_refl _, List.nil_prefix⟩
  · refine ⟨old, f.source.length, le_refl _, ?_⟩
    rw [List.take_length, List.drop_length]
    rfl

theorem Sound.pass (hi : Sound f) (h : f.phase = .attached) {a : α}
    (ha : f.source[f.cursor]? = some a) : Sound { f with
      cursor := f.cursor + 1
      pieces := f.pieces.modifyLast fun p => { p with items := p.items ++ [a] } } := by
  obtain ⟨old, i, hle, hold⟩ := hi.attached h
  obtain ⟨hlt, -⟩ := List.getElem?_eq_some_iff.mp ha
  have hcut := hi.cut
  have horder := hi.order
  rw [hold] at hcut horder
  rw [hold, List.modifyLast_concat]
  refine ⟨hlt, ?_, fun p hp => ?_, fun hf => ?_, fun _ => ?_⟩
  · rw [List.flatMap_append] at horder ⊢
    rw [List.take_add_one, ha]
    simpa [← List.append_assoc] using horder.append_right [a]
  · rcases List.mem_append.mp hp with hp | hp
    · exact hcut p (List.mem_append_left _ hp)
    · rw [List.mem_singleton.mp hp, ← drop_take_succ hle ha]
      exact cut_attached (by omega) hlt
  · exact absurd (h.symm.trans hf) (by decide)
  · exact ⟨old, i, Nat.le_succ_of_le hle, by rw [drop_take_succ hle ha]⟩

theorem Sound.skip (hi : Sound f) {a : α} (ha : f.source[f.cursor]? = some a) :
    Sound { f with phase := .idle, cursor := f.cursor + 1 } where
  cursor := (List.getElem?_eq_some_iff.mp ha).1
  order := hi.order.trans (List.take_prefix_take_left (Nat.le_succ _)).sublist
  cut := hi.cut
  fresh h := by cases h
  attached h := by cases h

theorem Sound.step {o : Op α} (hi : Sound f) (h : step f o = some g) : Sound g := by
  cases o with
  | append a => exact Option.some.inj h ▸ hi.append a
  | carrier follow => exact Option.some.inj h ▸ hi.carrier follow
  | seek =>
    simp only [Feeds.step] at h
    split at h
    · next hp => exact Option.some.inj h ▸ hi.seek hp
    · cases h
  | pass =>
    simp only [Feeds.step] at h
    split at h
    · next a hp ha => exact Option.some.inj h ▸ hi.pass hp ha
    · cases h
  | skip =>
    simp only [Feeds.step] at h
    split at h
    · next a hp ha => exact Option.some.inj h ▸ hi.skip ha
    · cases h
  | leave =>
    obtain rfl := Option.some.inj h
    exact ⟨hi.cursor, hi.order, hi.cut, fun h => (by cases h), fun h => (by cases h)⟩

/-- Every feed that a follower can produce. -/
theorem sound_of_reachable {source : List α} (h : Reachable step { source } f) : Sound f := by
  refine reachable_invariant Sound (fun f o g hi hs => hi.step hs) ?_ h
  refine ⟨Nat.zero_le _, List.nil_sublist _, fun p hp => ?_, fun h => (by cases h),
    fun h => (by cases h)⟩
  cases hp

theorem Sound.pieces_sublist (hi : Sound f) : (f.pieces.flatMap Piece.items).Sublist f.source :=
  hi.order.trans (List.take_sublist f.cursor f.source)

end

end Feeds
