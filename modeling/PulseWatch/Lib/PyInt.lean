import Mathlib.Data.Int.Notation
import Mathlib.Data.List.Induction
import PulseWatch.Lib.PyText

/-!
# Integers in Python texts

`str.isdigit` and `int(s)` on any text, with the digits of Unicode 15.0. `int` drops
white space at both ends, takes one sign, and reads decimal digits of any script with
single underscores between them; more than 4300 digits are refused. `none` is the
ValueError.
-/

namespace PyInt

/- The zeros of the scripts; the nine other digits follow each. -/
def zeros : List ℕ :=
  [0x30, 0x660, 0x6F0, 0x7C0, 0x966, 0x9E6, 0xA66, 0xAE6, 0xB66, 0xBE6, 0xC66, 0xCE6, 0xD66,
    0xDE6, 0xE50, 0xED0, 0xF20, 0x1040, 0x1090, 0x17E0, 0x1810, 0x1946, 0x19D0, 0x1A80, 0x1A90,
    0x1B50, 0x1BB0, 0x1C40, 0x1C50, 0xA620, 0xA8D0, 0xA900, 0xA9D0, 0xA9F0, 0xAA50, 0xABF0,
    0xFF10, 0x104A0, 0x10D30, 0x11066, 0x110F0, 0x11136, 0x111D0, 0x112F0, 0x11450, 0x114D0,
    0x11650, 0x116C0, 0x11730, 0x118E0, 0x11950, 0x11C50, 0x11D50, 0x11DA0, 0x11F50, 0x16A60,
    0x16AC0, 0x16B50, 0x1D7CE, 0x1D7D8, 0x1D7E2, 0x1D7EC, 0x1D7F6, 0x1E140, 0x1E2F0, 0x1E4F0,
    0x1E950, 0x1FBF0]

/- Digits that are no decimal digits: superscripts, subscripts, circled numbers. -/
def otherDigits : List (ℕ × ℕ) :=
  [(0xB2, 0xB3), (0xB9, 0xB9), (0x1369, 0x1371), (0x19DA, 0x19DA), (0x2070, 0x2070),
    (0x2074, 0x2079), (0x2080, 0x2089), (0x2460, 0x2468), (0x2474, 0x247C), (0x2488, 0x2490),
    (0x24EA, 0x24EA), (0x24F5, 0x24FD), (0x24FF, 0x24FF), (0x2776, 0x277E), (0x2780, 0x2788),
    (0x278A, 0x2792), (0x10A40, 0x10A43), (0x10E60, 0x10E68), (0x11052, 0x1105A),
    (0x1F100, 0x1F10A)]

/-- `unicodedata.decimal(c)`. -/
def decimal? (c : Char) : Option ℕ :=
  (zeros.find? fun z => z ≤ c.toNat ∧ c.toNat ≤ z + 9).map fun z => c.toNat - z

def isDigit (c : Char) : Bool :=
  (decimal? c).isSome || otherDigits.any fun r => r.1 ≤ c.toNat ∧ c.toNat ≤ r.2

/-- `s.isdigit()`. -/
def isdigit (s : String) : Bool := s ≠ "" && s.toList.all isDigit

/- White space around a number; of ASCII it is that of C. -/
def isSpace (c : Char) : Bool := PyText.isSpace c && !(28 ≤ c.toNat && c.toNat ≤ 31)

def trim (cs : List Char) : List Char :=
  ((cs.dropWhile isSpace).reverse.dropWhile isSpace).reverse

def sign : List Char → Bool × List Char
  | '-' :: cs => (true, cs)
  | '+' :: cs => (false, cs)
  | cs => (false, cs)

/- The values of the digits. -/
def digits : List Char → Option (List ℕ)
  | [] => none
  | [c] => (decimal? c).map ([·])
  | c :: '_' :: cs => (decimal? c).bind fun d => (digits cs).map (d :: ·)
  | c :: cs => (decimal? c).bind fun d => (digits cs).map (d :: ·)

def value (ds : List ℕ) : ℕ := ds.foldl (fun n d => 10 * n + d) 0

/- `int` on the characters between the white space. -/
def parse (cs : List Char) : Option ℤ :=
  (digits (sign cs).2).bind fun ds =>
    if ds.length ≤ 4300 then some (if (sign cs).1 then -(value ds : ℤ) else value ds) else none

/-- `int(s)`. -/
def int (s : String) : Option ℤ := parse (trim s.toList)

/-! ### ASCII digits -/

theorem isDigit_iff_toNat (c : Char) : c.isDigit = true ↔ 48 ≤ c.toNat ∧ c.toNat ≤ 57 := by
  simp only [Char.isDigit, Bool.and_eq_true, decide_eq_true_eq, UInt32.le_iff_toNat_le]
  rfl

theorem decimal?_ascii {c : Char} (h : c.isDigit = true) : decimal? c = some (c.toNat - 48) := by
  obtain ⟨hlow, hhigh⟩ := (isDigit_iff_toNat c).mp h
  have hzero : zeros.find? (fun z => z ≤ c.toNat ∧ c.toNat ≤ z + 9) = some 0x30 :=
    List.find?_cons_of_pos (by simp only [decide_eq_true_eq]; omega)
  rw [decimal?, hzero]
  rfl

theorem isDigit_ascii {c : Char} (h : c.isDigit = true) : isDigit c = true := by
  rw [isDigit, decimal?_ascii h]
  rfl

theorem isSpace_digit {c : Char} (h : c.isDigit = true) : isSpace c = false := by
  obtain ⟨hlow, hhigh⟩ := (isDigit_iff_toNat c).mp h
  simp only [isSpace, PyText.isSpace, Bool.and_eq_false_iff, Bool.or_eq_false_iff,
    beq_eq_false_iff_ne, decide_eq_false_iff_not]
  omega

/- An underscore, a sign and a digit are three things. -/
theorem digit_ne {c d : Char} (h : c.isDigit = true) (hd : d.isDigit = false) : c ≠ d := by
  rintro rfl
  rw [h] at hd
  cases hd

theorem digits_ascii {cs : List Char} (hne : cs ≠ []) (h : ∀ c ∈ cs, c.isDigit = true) :
    digits cs = some (cs.map fun c => c.toNat - 48) := by
  induction cs with
  | nil => exact absurd rfl hne
  | cons c cs ih =>
    have hc := decimal?_ascii (h c List.mem_cons_self)
    cases cs with
    | nil => rw [digits, hc]; rfl
    | cons d cs =>
      have hd : d ≠ '_' := digit_ne (h d (by simp)) (by decide)
      have hrest := ih (List.cons_ne_nil d cs) fun x hx => h x (List.mem_cons_of_mem c hx)
      rw [digits, hc, hrest]
      · rfl
      · rintro hnil
        cases hnil
      · rintro cs' hcons
        exact hd (List.cons.inj hcons).1

theorem value_ascii (cs : List Char) :
    value (cs.map fun c => c.toNat - 48) = Nat.ofDigitChars 10 cs 0 := by
  rw [value, List.foldl_map, Nat.ofDigitChars_eq_foldl]
  rfl

theorem trim_of_ends {cs : List Char} (hhead : ∀ c ∈ cs.head?, isSpace c = false)
    (hlast : ∀ c ∈ cs.getLast?, isSpace c = false) : trim cs = cs := by
  have hkeep : ∀ l : List Char, (∀ c ∈ l.head?, isSpace c = false) →
      l.dropWhile isSpace = l := by
    intro l hl
    cases l with
    | nil => rfl
    | cons c l => exact List.dropWhile_cons_of_neg (by simp [hl c rfl])
  rw [trim, hkeep cs hhead, hkeep cs.reverse, List.reverse_reverse]
  rw [List.head?_reverse]
  exact hlast

/-! ### `int(str(n)) == n` -/

theorem toDigits_isDigit (n : ℕ) : ∀ c ∈ Nat.toDigits 10 n, c.isDigit = true :=
  fun _ hc => Nat.isDigit_of_mem_toDigits (by decide) (by decide) hc

theorem parse_digits {cs : List Char} (hne : cs ≠ []) (h : ∀ c ∈ cs, c.isDigit = true)
    (hlen : cs.length ≤ 4300) : parse cs = some ((Nat.ofDigitChars 10 cs 0 : ℕ) : ℤ) := by
  have hsign : sign cs = (false, cs) := by
    cases cs with
    | nil => rfl
    | cons c cs =>
      have hc := h c List.mem_cons_self
      have hminus : c ≠ '-' := digit_ne hc (by decide)
      have hplus : c ≠ '+' := digit_ne hc (by decide)
      rw [sign]
      · rintro cs' hcons
        exact hminus (List.cons.inj hcons).1
      · rintro cs' hcons
        exact hplus (List.cons.inj hcons).1
  rw [parse, hsign, digits_ascii hne h, Option.bind_some, if_pos (by simpa using hlen), value_ascii]
  rfl

theorem int_toString {n : ℕ} (h : (Nat.toDigits 10 n).length ≤ 4300) :
    int (toString n) = some (n : ℤ) := by
  have hdigit := toDigits_isDigit n
  have htrim : trim (Nat.toDigits 10 n) = Nat.toDigits 10 n := by
    refine trim_of_ends ?_ ?_
    · exact fun c hc => isSpace_digit (hdigit c (List.mem_of_mem_head? hc))
    · exact fun c hc => isSpace_digit (hdigit c (List.mem_of_getLast? hc))
  rw [int, Nat.toString_eq_repr, Nat.toList_repr, htrim,
    parse_digits Nat.toDigits_ne_nil hdigit h, Nat.ofDigitChars_ten_toDigits]

/-! ### Which texts are `str(n)` -/

theorem digitChar_sub {c : Char} (h : c.isDigit = true) : Nat.digitChar (c.toNat - 48) = c := by
  obtain ⟨hlow, hhigh⟩ := (isDigit_iff_toNat c).mp h
  rw [← Char.toNat_inj, Nat.toNat_digitChar_of_lt_ten (by omega)]
  omega

/- Digits without a leading zero are those of their value. -/
theorem toDigits_ofDigitChars {cs : List Char} (hne : cs ≠ []) (h : ∀ c ∈ cs, c.isDigit = true)
    (hlead : cs.head? = some '0' → cs = ['0']) :
    Nat.toDigits 10 (Nat.ofDigitChars 10 cs 0) = cs := by
  induction cs using List.reverseRecOn with
  | nil => exact absurd rfl hne
  | append_singleton cs c ih =>
    have hc := h c (List.mem_append_right cs List.mem_cons_self)
    obtain ⟨hlow, hhigh⟩ := (isDigit_iff_toNat c).mp hc
    have hlast : Nat.ofDigitChars 10 (cs ++ [c]) 0 =
        10 * Nat.ofDigitChars 10 cs 0 + (c.toNat - 48) := by
      rw [Nat.ofDigitChars_append, Nat.ofDigitChars_cons, Nat.ofDigitChars_nil]
      rfl
    have hone : Nat.toDigits 10 (c.toNat - 48) = [c] := by
      rw [Nat.toDigits_of_lt_base (by omega), digitChar_sub hc]
    cases cs with
    | nil =>
      rw [hlast, Nat.ofDigitChars_nil, Nat.mul_zero, Nat.zero_add]
      exact hone
    | cons d ds =>
      have hhead : d ≠ '0' := by
        rintro rfl
        have hshort := hlead rfl
        simp at hshort
      have hih := ih (List.cons_ne_nil d ds) (fun x hx => h x (List.mem_append_left _ hx))
        fun h0 => absurd (Option.some.inj h0) hhead
      have hpos : 0 < Nat.ofDigitChars 10 (d :: ds) 0 := by
        by_contra hzero
        have h0 : Nat.ofDigitChars 10 (d :: ds) 0 = 0 := by omega
        rw [h0, Nat.toDigits_zero] at hih
        exact hhead (List.cons.inj hih).1.symm
      rw [hlast, ← Nat.toDigits_append_toDigits (by decide) hpos (by omega), hih, hone]

theorem toDigits_head {n : ℕ} (h : (Nat.toDigits 10 n).head? = some '0') : n = 0 := by
  induction n using Nat.strongRecOn with
  | ind n ih =>
    by_cases hlt : n < 10
    · rw [Nat.toDigits_of_lt_base hlt] at h
      have hchar := congrArg Char.toNat (Option.some.inj h)
      rw [Nat.toNat_digitChar_of_lt_ten hlt] at hchar
      have h48 : ('0' : Char).toNat = 48 := rfl
      omega
    · rw [Nat.toDigits_of_base_le (by decide) (by omega),
        List.head?_append_of_ne_nil _ Nat.toDigits_ne_nil] at h
      have hdiv := ih (n / 10) (by omega) h
      omega

/-- The text is `str(n)` for an integer. -/
def Canonical (s : String) : Prop := ∃ n : ℤ, s = toString n

def minus (negative : Bool) : List Char := if negative then ['-'] else []

theorem canonical_iff (s : String) : Canonical s ↔ ∃ negative ds,
    s.toList = minus negative ++ ds ∧ ds ≠ [] ∧ (∀ c ∈ ds, c.isDigit = true) ∧
      (ds.head? = some '0' → ds = ['0'] ∧ negative = false) := by
  constructor
  · rintro ⟨n, rfl⟩
    rw [Int.toString_eq_repr, Int.repr_eq_if]
    split
    · next hn =>
      refine ⟨false, Nat.toDigits 10 n.toNat, Nat.toList_repr, Nat.toDigits_ne_nil,
        toDigits_isDigit _, fun h => ⟨?_, rfl⟩⟩
      rw [toDigits_head h, Nat.toDigits_zero]
    · next hn =>
      refine ⟨true, Nat.toDigits 10 (-n).toNat, ?_, Nat.toDigits_ne_nil, toDigits_isDigit _, ?_⟩
      · rw [String.toList_append, Nat.toList_repr]
        rfl
      · intro h
        have hzero := toDigits_head h
        omega
  · rintro ⟨negative, ds, hs, hne, hdigit, hlead⟩
    have hvalue := toDigits_ofDigitChars hne hdigit fun h => (hlead h).1
    cases negative with
    | false =>
      refine ⟨(Nat.ofDigitChars 10 ds 0 : ℕ), ?_⟩
      rw [← String.toList_inj, hs, Int.toString_eq_repr, Int.repr_eq_if, if_pos (by omega),
        Int.toNat_natCast, Nat.toList_repr, hvalue]
      rfl
    | true =>
      have hpos : 0 < Nat.ofDigitChars 10 ds 0 := by
        by_contra hzero
        have h0 : Nat.ofDigitChars 10 ds 0 = 0 := by omega
        rw [h0, Nat.toDigits_zero] at hvalue
        rw [← hvalue] at hlead
        cases (hlead rfl).2
      refine ⟨-(Nat.ofDigitChars 10 ds 0 : ℕ), ?_⟩
      rw [← String.toList_inj, hs, Int.toString_eq_repr, Int.repr_eq_if, if_neg (by omega),
        Int.neg_neg, Int.toNat_natCast, String.toList_append, Nat.toList_repr, hvalue]
      rfl

/- Digits of another script, and what only looks like a number. -/
example : int " -1_000\n" = some (-1000) ∧ int "\u0663" = some 3 ∧ int "\u00B2" = none ∧
    isdigit "\u00B2" = true ∧ int "1__0" = none ∧ int "--5" = none := by decide

end PyInt
