import Mathlib.Data.List.Basic
import Mathlib.Data.List.Infix

/-!
# Glob patterns of Redis

`?` stands for one character, `*` for any text, a set in brackets for one of its
characters, and a backslash lets the next character stand for itself. Redis matches
bytes; a pattern of ASCII literals and stars matches the same UTF-8 texts either way.
-/

namespace Glob

inductive Item where
  | literal (c : Char)
  | one
  | many
  | set (negated : Bool) (ranges : List (Char × Char))
  deriving DecidableEq, Repr

/- The items of a pattern; in a set, with what has been read of it. An unclosed set ends
with the pattern. -/
def items : Option (Bool × List (Char × Char)) → List Char → List Item
  | none, [] => []
  | none, '*' :: p => .many :: items none p
  | none, '?' :: p => .one :: items none p
  | none, '[' :: '^' :: p => items (some (true, [])) p
  | none, '[' :: p => items (some (false, [])) p
  | none, '\\' :: c :: p => .literal c :: items none p
  | none, c :: p => .literal c :: items none p
  | some (negated, ranges), [] => [.set negated ranges]
  | some (negated, ranges), '\\' :: c :: p => items (some (negated, (c, c) :: ranges)) p
  | some (negated, ranges), ']' :: p => .set negated ranges :: items none p
  | some (negated, ranges), a :: '-' :: b :: p => items (some (negated, (a, b) :: ranges)) p
  | some (negated, ranges), c :: p => items (some (negated, (c, c) :: ranges)) p

/- The ends of a range stand in either order. -/
def inRange (c : Char) (range : Char × Char) : Bool :=
  (range.1 ≤ c && c ≤ range.2) || (range.2 ≤ c && c ≤ range.1)

def Item.accepts : Item → Char → Bool
  | .literal c, d => c = d
  | .one, _ => true
  | .many, _ => true
  | .set negated ranges, d => ranges.any (inRange d) != negated

def matchItems : List Item → List Char → Bool
  | [], text => text.isEmpty
  | .many :: p, text => text.tails.any fun rest => matchItems p rest
  | _ :: _, [] => false
  | item :: p, c :: text => item.accepts c && matchItems p text

/-- `MATCH pattern` on a key. -/
def glob (pattern text : String) : Bool := matchItems (items none pattern.toList) text.toList

example : glob "h[a-e^]l*o?" "hello!" = true ∧ glob "h[^e]llo" "hello" = false ∧
    glob "a\\*" "a*" = true ∧ glob "a\\*" "ab" = false := by decide

/-! ### A text and a star -/

def specials : List Char := ['*', '?', '[', '\\']

/- Without a special character a pattern is its own text. -/
theorem items_literals {l : List Char} (h : ∀ c ∈ l, c ∉ specials) (p : List Char) :
    items none (l ++ p) = l.map .literal ++ items none p := by
  induction l with
  | nil => rfl
  | cons c l ih =>
    have hc := h c List.mem_cons_self
    have hrest := ih fun d hd => h d (List.mem_cons_of_mem c hd)
    simp only [specials, List.mem_cons, List.not_mem_nil, or_false, not_or] at hc
    obtain ⟨hstar, hone, hopen, hescape⟩ := hc
    rw [List.cons_append, items, hrest]
    · rfl
    · exact hstar
    · exact hone
    · exact fun _ hc => absurd hc hopen
    · exact hopen
    · exact fun _ _ hc => absurd hc hescape

theorem matchItems_literals (l : List Char) (p : List Item) (text : List Char) :
    matchItems (l.map .literal ++ p) text = true ↔
      ∃ rest, text = l ++ rest ∧ matchItems p rest = true := by
  induction l generalizing text with
  | nil => simp
  | cons c l ih =>
    cases text with
    | nil => simp [matchItems]
    | cons d text =>
      rw [List.map_cons, List.cons_append, matchItems, Bool.and_eq_true, ih, Item.accepts,
        decide_eq_true_eq]
      constructor
      · rintro ⟨rfl, rest, rfl, hrest⟩
        exact ⟨rest, rfl, hrest⟩
      · rintro ⟨rest, htext, hrest⟩
        obtain ⟨rfl, rfl⟩ := List.cons.inj htext
        exact ⟨rfl, rest, rfl, hrest⟩
      · exact Item.noConfusion

/- A final star takes whatever is left. -/
theorem matchItems_many (text : List Char) : matchItems [.many] text = true := by
  rw [matchItems, List.any_eq_true]
  exact ⟨[], (List.mem_tails _ _).mpr List.nil_suffix, rfl⟩

theorem glob_star {front : String} (h : ∀ c ∈ front.toList, c ∉ specials) (text : String) :
    glob (front ++ "*") text = true ↔ ∃ rest, text = front ++ rest := by
  rw [glob, String.toList_append, items_literals h, matchItems_literals]
  constructor
  · rintro ⟨rest, htext, -⟩
    refine ⟨String.ofList rest, ?_⟩
    rw [← String.toList_inj, htext, String.toList_append, String.toList_ofList]
  · rintro ⟨rest, rfl⟩
    exact ⟨rest.toList, String.toList_append, matchItems_many _⟩

end Glob
