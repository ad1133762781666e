import Mathlib.Data.List.Basic

/-!
# Python strings

`str.strip` removes the characters `str.isspace` accepts from both ends.
`str.lower` is given on ASCII letters. White space of a regular expression (`\s`) is
that of `str.isspace`.
-/

namespace PyText

def isSpace (c : Char) : Bool :=
  let n := c.toNat
  (9 ≤ n && n ≤ 13) || (28 ≤ n && n ≤ 32) || n == 0x85 || n == 0xA0 || n == 0x1680 ||
    (0x2000 ≤ n && n ≤ 0x200A) || n == 0x2028 || n == 0x2029 || n == 0x202F || n == 0x205F ||
    n == 0x3000

def strip (s : String) : String :=
  String.ofList ((s.toList.dropWhile isSpace).reverse.dropWhile isSpace).reverse

def lower (s : String) : String := String.ofList (s.toList.map Char.toLower)

def startsWith (s start : String) : Bool := start.toList.isPrefixOf s.toList

/-- `s.lstrip(c)` for one character. -/
def lstrip (c : Char) (s : String) : String := String.ofList (s.toList.dropWhile (· = c))

/-- `s.split()`: the words between white space. -/
def split (s : String) : List String :=
  ((s.toList.splitOnP isSpace).filter (· ≠ [])).map String.ofList

/-- What ends a line for `str.splitlines`, which takes CR LF for one end. -/
def isLineBreak (c : Char) : Bool :=
  let n := c.toNat
  (10 ≤ n && n ≤ 13) || (28 ≤ n && n ≤ 30) || n == 0x85 || n == 0x2028 || n == 0x2029

def linesFrom (line : List Char) : List Char → List String
  | [] => if line = [] then [] else [String.ofList line.reverse]
  | '\r' :: '\n' :: cs => String.ofList line.reverse :: linesFrom [] cs
  | c :: cs =>
    if isLineBreak c then String.ofList line.reverse :: linesFrom [] cs
    else linesFrom (c :: line) cs

/-- `s.splitlines()`. -/
def splitlines (s : String) : List String := linesFrom [] s.toList

example : splitlines "a\r\n\nb\u2028" = ["a", "", "b"] := by decide

theorem linesFrom_append {t : List Char} (h : t.any isLineBreak = false) (line u : List Char) :
    linesFrom line (t ++ u) = linesFrom (t.reverse ++ line) u := by
  induction t generalizing line with
  | nil => rfl
  | cons c cs ih =>
    obtain ⟨hc, hcs⟩ := Bool.or_eq_false_iff.mp h
    have hcr : c ≠ '\r' := by
      rintro rfl
      cases hc
    have hstep : linesFrom line (c :: (cs ++ u)) = linesFrom (c :: line) (cs ++ u) := by
      rw [linesFrom, hc]
      · rfl
      · intro _ h'
        exact absurd h' hcr
    rw [List.cons_append, hstep, ih hcs]
    simp

theorem linesFrom_ne_nil {line cs : List Char} (h : line ≠ [] ∨ cs ≠ []) :
    linesFrom line cs ≠ [] := by
  induction cs generalizing line with
  | nil => simpa [linesFrom] using h
  | cons c cs ih =>
    unfold linesFrom
    split
    · simp_all
    · simp
    · next d ds _ he =>
      obtain ⟨rfl, rfl⟩ := List.cons.inj he
      split
      · simp
      · exact ih (.inl (by simp))

/- How many lines there are does not depend on the text of the first one, unless it is
the only one. -/
theorem one_line_congr (line line' cs : List Char) :
    (linesFrom line cs).length ≤ 1 ↔ (linesFrom line' cs).length ≤ 1 := by
  induction cs generalizing line line' with
  | nil =>
    simp only [linesFrom]
    split <;> split <;> simp
  | cons c cs ih =>
    unfold linesFrom
    split
    · simp_all
    · simp
    · next d ds _ he =>
      obtain ⟨rfl, rfl⟩ := List.cons.inj he
      split
      · simp
      · exact ih _ _

theorem two_lines {t : List Char} (h : t.any isLineBreak = true) {d : Char}
    (hd : isLineBreak d = false) (line u : List Char) :
    2 ≤ (linesFrom line (t ++ d :: u)).length := by
  have another : ∀ r : List Char, 1 ≤ (linesFrom [] (r ++ d :: u)).length := fun r =>
    List.length_pos_iff.mpr (linesFrom_ne_nil (.inr (by simp)))
  induction t generalizing line with
  | nil => cases h
  | cons c cs ih =>
    rw [List.cons_append]
    unfold linesFrom
    split
    · simp_all
    · next _ rest he =>
      have hrest := (List.cons.inj he).2
      cases cs with
      | nil =>
        obtain ⟨rfl, -⟩ := List.cons.inj hrest
        cases hd
      | cons e es =>
        obtain ⟨-, rfl⟩ := List.cons.inj hrest
        simpa using another es
    · next e es _ he =>
      obtain ⟨rfl, rfl⟩ := List.cons.inj he
      split
      · simpa using another cs
      · next hc =>
        exact ih ((Bool.or_eq_true_iff.mp h).resolve_left hc) _

def take (n : ℕ) (s : String) : String := String.ofList (s.toList.take n)

def len (s : String) : ℕ := s.toList.length

/-- `s.replace(c, r)` for one character. -/
def replace (c : Char) (r s : String) : String :=
  String.join (s.toList.map fun d => if d = c then r else String.singleton d)

/-- `html.escape(s)`. -/
def htmlEscape (s : String) : String :=
  String.join (s.toList.map fun c => match c.toNat with
    | 38 => "&amp;"
    | 60 => "&lt;"
    | 62 => "&gt;"
    | 34 => "&quot;"
    | 39 => "&#x27;"
    | _ => String.singleton c)

/-- A `str | None` that counts as true. -/
def present (s : Option String) : Option String := s.filter (· ≠ "")

/-- `list(dict.fromkeys(xs))`: the first of equal elements stays. -/
def unique {A : Type*} [DecidableEq A] : List A → List A
  | [] => []
  | x :: xs => x :: (unique xs).filter (· ≠ x)

end PyText
